import ResourceModels.Json.NumberText

/-!
# Tokens of JSON text

The strict lexical grammar: four white space characters, no comments, escapes from a fixed set,
and no raw control character in a string. A number out of range and a string with half a surrogate
pair are written like tokens, but hold nothing. Reading is total; each reader returns what is left,
and the next token starts in a shorter text.
-/

namespace ResourceModels.Json

inductive Token where
  | openArray
  | closeArray
  | openObject
  | closeObject
  | comma
  | colon
  | null
  | bool (value : Bool)
  | number (value : Number)
  | string (text : String)
  /-- A number or a string that is well written and has no value. -/
  | unusable
  deriving Repr

namespace Token

def isBlank (c : Char) : Bool := c = ' ' || c = '\n' || c = '\t' || c = '\r'

def hexValue? (c : Char) : Option Nat :=
  if '0' ≤ c ∧ c ≤ '9' then some (c.toNat - 48)
  else if 'a' ≤ c ∧ c ≤ 'f' then some (c.toNat - 87)
  else if 'A' ≤ c ∧ c ≤ 'F' then some (c.toNat - 55)
  else none

/-- The 16-bit unit of four hexadecimal digits. -/
def unit? (a b c d : Char) : Option Nat := do
  let a ← hexValue? a
  let b ← hexValue? b
  let c ← hexValue? c
  let d ← hexValue? d
  some (((a * 16 + b) * 16 + c) * 16 + d)

def isHighSurrogate (unit : Nat) : Bool := 0xD800 ≤ unit && unit ≤ 0xDBFF

def isLowSurrogate (unit : Nat) : Bool := 0xDC00 ≤ unit && unit ≤ 0xDFFF

/-- The character a short escape stands for. -/
def shortEscape? : Char → Option Char
  | '"' => some '"'
  | '\\' => some '\\'
  | '/' => some '/'
  | 'b' => some '\x08'
  | 'f' => some '\x0c'
  | 'n' => some '\n'
  | 'r' => some '\r'
  | 't' => some '\t'
  | _ => none

/-- The characters of a string after its opening quote, and what follows the closing one. -/
def stringBody? : List Char → Option (List Char × List Char)
  | [] => none
  | '"' :: rest => some ([], rest)
  | '\\' :: 'u' :: a :: b :: c :: d :: rest =>
    match unit? a b c d with
    | none => none
    | some unit =>
      if isLowSurrogate unit then none
      else if isHighSurrogate unit then
        match rest with
        | '\\' :: 'u' :: a :: b :: c :: d :: rest =>
          match unit? a b c d with
          | none => none
          | some low =>
            if isLowSurrogate low then
              let code := 0x10000 + (unit - 0xD800) * 0x400 + (low - 0xDC00)
              (stringBody? rest).map fun (cs, rest) => (Char.ofNat code :: cs, rest)
            else none
        | _ => none
      else (stringBody? rest).map fun (cs, rest) => (Char.ofNat unit :: cs, rest)
  | '\\' :: c :: rest =>
    match shortEscape? c with
    | some plain => (stringBody? rest).map fun (cs, rest) => (plain :: cs, rest)
    | none => none
  | c :: rest =>
    if c = '\\' || c.toNat < 0x20 then none
    else (stringBody? rest).map fun (cs, rest) => (c :: cs, rest)

/-- What follows the closing quote of a string, whatever its surrogates. -/
def afterString? : List Char → Option (List Char)
  | [] => none
  | '"' :: rest => some rest
  | '\\' :: 'u' :: a :: b :: c :: d :: rest =>
    if (unit? a b c d).isSome then afterString? rest else none
  | '\\' :: c :: rest => if (shortEscape? c).isSome then afterString? rest else none
  | c :: rest => if c = '\\' || c.toNat < 0x20 then none else afterString? rest

/-- A string after its opening quote. -/
def string? (text : List Char) : Option (Token × List Char) :=
  match stringBody? text with
  | some (cs, rest) => some (.string (String.ofList cs), rest)
  | none => (afterString? text).map fun rest => (.unusable, rest)

def isDigit (c : Char) : Bool := '0' ≤ c && c ≤ '9'

def digitValue (c : Char) : Nat := c.toNat - 48

/-- The digits at the front of a text. -/
def digits (text : List Char) : List Nat × List Char :=
  ((text.takeWhile isDigit).map digitValue, text.dropWhile isDigit)

/-- The digits before the point: a single zero, or digits that do not start with one. -/
def whole? (text : List Char) : Option (List Nat × List Char) :=
  match digits text with
  | ([], _) => none
  | (0 :: _ :: _, _) => none
  | found => some found

/-- A point with at least one digit after it, or nothing. -/
def fraction? : List Char → Option (List Nat × List Char)
  | '.' :: rest =>
    match digits rest with
    | ([], _) => none
    | found => some found
  | rest => some ([], rest)

/-- The exponent, if one follows, with at least one digit. -/
def exponent? : List Char → Option (Option Int × List Char)
  | mark :: rest =>
    if mark = 'e' || mark = 'E' then
      let (negative, rest) :=
        match rest with
        | '+' :: rest => (false, rest)
        | '-' :: rest => (true, rest)
        | _ => (false, rest)
      match digits rest with
      | ([], _) => none
      | (found, rest) =>
        let size : Int := (found.foldl (fun n d => 10 * n + d) 0 : Nat)
        some (some (if negative then -size else size), rest)
    else some (none, mark :: rest)
  | [] => some (none, [])

def number? (negative : Bool) (text : List Char) : Option (Token × List Char) := do
  let (whole, rest) ← whole? text
  let (fraction, rest) ← fraction? rest
  let (exponent, rest) ← exponent? rest
  match NumberLiteral.value? ⟨negative, whole, fraction, exponent⟩ with
  | some value => some (.number value, rest)
  | none => some (.unusable, rest)

/-- The token at the front of a text that does not start with a blank. -/
def next? : List Char → Option (Token × List Char)
  | '[' :: rest => some (.openArray, rest)
  | ']' :: rest => some (.closeArray, rest)
  | '{' :: rest => some (.openObject, rest)
  | '}' :: rest => some (.closeObject, rest)
  | ',' :: rest => some (.comma, rest)
  | ':' :: rest => some (.colon, rest)
  | 'n' :: 'u' :: 'l' :: 'l' :: rest => some (.null, rest)
  | 't' :: 'r' :: 'u' :: 'e' :: rest => some (.bool true, rest)
  | 'f' :: 'a' :: 'l' :: 's' :: 'e' :: rest => some (.bool false, rest)
  | '"' :: rest => string? rest
  | '-' :: rest => number? true rest
  | text => number? false text

/-- All tokens of a text. Each takes at least one character, so the length bounds their count. -/
def scan (fuel : Nat) (text : List Char) : Option (List Token) :=
  match fuel with
  | 0 => some []
  | fuel + 1 =>
    match text with
    | [] => some []
    | c :: rest =>
      if isBlank c then scan fuel rest
      else
        match next? (c :: rest) with
        | none => none
        | some (token, rest) => (scan fuel rest).map (token :: ·)

def all? (text : List Char) : Option (List Token) := scan text.length text

end Token

end ResourceModels.Json
