import ResourceModels.Json.Token
import ResourceModels.Yaml.Cursor

/-!
# Scalars in YAML text

Plain, quoted and block scalars. A single line break inside a plain or quoted scalar is folded into
a blank, and of several the first one is dropped. Each reader starts at its scalar and stops behind
it; it fails where the text is no scalar.
-/

namespace ResourceModels.Yaml

namespace Scalar

/-- Blanks and line breaks between two words: the text they are folded into, and whether there was
a line break. -/
structure Gap where
  text : List Char
  broken : Bool
  cursor : Cursor

/-- The text of line breaks: the first one counts as a blank, unless others follow. -/
def folded (first more : List Char) : List Char :=
  if first = ['\n'] then if more.isEmpty then [' '] else more else first ++ more

/-- Pass over blanks and line breaks. `broken` says that a line break came before, `blanks` are
those on the first line, `first` and `more` are the line breaks. In a block no tab may stand in
the indentation of a line, which reaches up to `indent`. -/
def gap? (fuel : Nat) (indent : Int) (broken : Bool) (blanks first more : List Char)
    (cursor : Cursor) : Option Gap :=
  match fuel with
  | 0 => none
  | fuel + 1 =>
    match cursor.rest with
    | c :: _ =>
      if isBlank c then
        if broken && c = '\t' && cursor.column < indent then none
        else gap? fuel indent broken (if broken then blanks else blanks ++ [c]) first more
          (cursor.skip 1)
      else if isBreak c then
        let (text, next) := cursor.breakLine
        if broken then gap? fuel indent true blanks first (more ++ text) next
        else gap? fuel indent true [] text more next
      else some ⟨if broken then folded first more else blanks, broken, cursor⟩
    | [] => some ⟨if broken then folded first more else blanks, broken, cursor⟩

def flowMarks : List Char := [',', '[', ']', '\x7b', '\x7d']

/-- The characters up to the end of a word in a plain scalar. In a flow a colon cannot stand right
before one of its marks. -/
def plainWord? (flow : Bool) : List Char → Option (List Char)
  | [] => some []
  | c :: rest =>
    if isGap c then some []
    else if flow && c = ':' && rest.head?.any (· ∈ '?' :: flowMarks) then none
    else if (c = ':' && endsWord rest) || (flow && c ∈ flowMarks) then some []
    else (plainWord? flow rest).map (c :: ·)

/-- A scalar that has been read. `broken` says that a line break follows it, or nothing else. -/
structure Result where
  text : List Char
  broken : Bool
  cursor : Cursor

/-- A plain scalar. `before` is the gap before the next word, which counts only if a word follows.
In a block the scalar ends where a line starts left of `indent`. -/
def plain? (fuel : Nat) (flow : Bool) (indent : Int) (text before : List Char) (broken : Bool)
    (cursor : Cursor) : Option Result :=
  match fuel with
  | 0 => none
  | fuel + 1 =>
    if cursor.atDocumentMark || cursor.rest.head? = some '#' then some ⟨text, broken, cursor⟩
    else do
      let word ← plainWord? flow cursor.rest
      let next := cursor.skip word.length
      let (text, broken) := if word.isEmpty then (text, broken) else (text ++ before ++ word, false)
      if !next.atGap then some ⟨text, broken, next⟩
      else
        let gap ← gap? (fuel + 1) indent false [] [] [] next
        if !flow && gap.cursor.column < indent then some ⟨text, gap.broken, gap.cursor⟩
        else plain? fuel flow indent text gap.text gap.broken gap.cursor

/-- The character that a letter after a backslash stands for. -/
def namedEscape? : Char → Option Char
  | '0' => some '\x00' | 'a' => some '\x07' | 'b' => some '\x08' | 't' | '\t' => some '\t'
  | 'n' => some '\n' | 'v' => some '\x0b' | 'f' => some '\x0c' | 'r' => some '\r'
  | 'e' => some '\x1b' | ' ' => some ' ' | '"' => some '"' | '/' => some '/' | '\\' => some '\\'
  | 'N' => some '\x85' | '_' => some '\xa0' | 'L' => some '\u2028' | 'P' => some '\u2029'
  | _ => none

/-- The number of hexadecimal digits that a letter after a backslash asks for. -/
def escapeLength? : Char → Option Nat
  | 'x' => some 2 | 'u' => some 4 | 'U' => some 8
  | _ => none

def hexNumber? (digits : List Char) : Option Nat :=
  digits.foldlM (fun n c => (Json.Token.hexValue? c).map (16 * n + ·)) 0

/-- The character after a backslash, and the length of what stands for it. -/
def escape? : List Char → Option (Char × Nat)
  | [] => none
  | c :: rest =>
    match namedEscape? c, escapeLength? c with
    | some plain, _ => some (plain, 1)
    | none, some length => do
      let code ← hexNumber? (rest.take length)
      if rest.length < length || !(decide code.isValidChar) then none
      else some (Char.ofNat code, length + 1)
    | none, none => none

/-- Characters of a quoted scalar up to a gap, the closing quote or the end of the text. A backslash
before a line break hides it. -/
def quotedWord? (fuel : Nat) (single : Bool) (text : List Char) (cursor : Cursor) :
    Option Result :=
  match fuel with
  | 0 => none
  | fuel + 1 =>
    match cursor.rest with
    | [] => some ⟨text, false, cursor⟩
    | c :: rest =>
      if isGap c then some ⟨text, false, cursor⟩
      else if single then
        if c = '\'' then
          if rest.head? = some '\'' then quotedWord? fuel single (text ++ ['\'']) (cursor.skip 2)
          else some ⟨text, false, cursor⟩
        else quotedWord? fuel single (text ++ [c]) (cursor.skip 1)
      else if c = '"' then some ⟨text, false, cursor⟩
      else if c = '\\' then
        if rest.head?.any isBreak then some ⟨text, true, ((cursor.skip 1).breakLine).2⟩
        else do
          let (plain, length) ← escape? rest
          quotedWord? fuel single (text ++ [plain]) (cursor.skip (length + 1))
      else quotedWord? fuel single (text ++ [c]) (cursor.skip 1)

/-- A quoted scalar after its opening quote. -/
def quoted? (fuel : Nat) (single : Bool) (text : List Char) (cursor : Cursor) : Option Result :=
  match fuel with
  | 0 => none
  | fuel + 1 =>
    if cursor.atDocumentMark || cursor.rest.isEmpty then none
    else do
      let word ← quotedWord? (fuel + 1) single text cursor
      match word.cursor.rest with
      | [] => none
      | c :: _ =>
        if !word.broken && !isGap c then some ⟨word.text, false, word.cursor.skip 1⟩
        else
          let gap ← gap? (fuel + 1) 0 word.broken [] [] [] word.cursor
          quoted? fuel single (word.text ++ gap.text) gap.cursor

/-- What happens to the line breaks at the end of a block scalar. -/
inductive Chomping where
  | clip
  | strip
  | keep
  deriving DecidableEq, Repr

def chomping? : Char → Option Chomping
  | '+' => some .keep
  | '-' => some .strip
  | _ => none

def indentDigit? (c : Char) : Option Nat :=
  if '1' ≤ c && c ≤ '9' then some (c.toNat - 48) else none

/-- The marks after the sign of a block scalar, in either order, and how many there are. -/
def blockHeader : List Char → Chomping × Nat × Nat
  | a :: b :: _ =>
    match chomping? a, indentDigit? a, chomping? b, indentDigit? b with
    | some mode, _, _, some digit => (mode, digit, 2)
    | _, some digit, some mode, _ => (mode, digit, 2)
    | some mode, _, _, _ => (mode, 0, 1)
    | _, some digit, _, _ => (.clip, digit, 1)
    | none, none, _, _ => (.clip, 0, 0)
  | [a] =>
    match chomping? a, indentDigit? a with
    | some mode, _ => (mode, 0, 1)
    | none, some digit => (.clip, digit, 1)
    | none, none => (.clip, 0, 0)
  | [] => (.clip, 0, 0)

/-- Pass over empty lines and the indentation of the next one. Without an indentation (0) all blanks
count, and the widest is returned. A tab cannot indent. -/
def blockBreaks? (fuel indent widest : Nat) (breaks : List Char) (cursor : Cursor) :
    Option (List Char × Nat × Cursor) :=
  match fuel with
  | 0 => none
  | fuel + 1 =>
    let blanks := (cursor.rest.takeWhile (· = ' ')).length
    let cursor := cursor.skip (if indent = 0 then blanks else min blanks (indent - cursor.column))
    let widest := max widest cursor.column
    match cursor.rest with
    | [] => some (breaks, widest, cursor)
    | c :: _ =>
      if c = '\t' && (indent = 0 || cursor.column < indent) then none
      else if isBreak c then
        let (text, next) := cursor.breakLine
        blockBreaks? fuel indent widest (breaks ++ text) next
      else some (breaks, widest, cursor)

/-- The lines of a block scalar. `lineBreak` ends the line before, `breaks` are the empty lines
after it, and `wasBlank` says that it started with a blank; such lines are not folded. -/
def blockLines? (fuel : Nat) (literal : Bool) (indent : Nat) (chomping : Chomping)
    (text lineBreak : List Char) (wasBlank : Bool) (breaks : List Char) (cursor : Cursor) :
    Option Result :=
  match fuel with
  | 0 => none
  | fuel + 1 =>
    if cursor.column = indent && !cursor.rest.isEmpty then do
      let isBlankLine := cursor.rest.head?.any isBlank
      let joint :=
        if !literal && lineBreak = ['\n'] && !wasBlank && !isBlankLine then
          if breaks.isEmpty then [' '] else breaks
        else lineBreak ++ breaks
      let line := cursor.rest.takeWhile (!isBreak ·)
      let (lineBreak, next) := (cursor.skip line.length).breakLine
      let (breaks, _, next) ← blockBreaks? (fuel + 1) indent 0 [] next
      blockLines? fuel literal indent chomping (text ++ joint ++ line) lineBreak isBlankLine breaks
        next
    else
      let tail := match chomping with
        | .strip => []
        | .clip => lineBreak
        | .keep => lineBreak ++ breaks
      some ⟨text ++ tail, true, cursor⟩

/-- A block scalar after its sign. `parent` is the indentation of the block it stands in. -/
def block? (literal : Bool) (parent : Int) (cursor : Cursor) : Option Result := do
  let fuel := cursor.rest.length + 1
  let (chomping, digit, marks) := blockHeader cursor.rest
  let start ← (cursor.skip marks).endOfLine?
  let base := if digit = 0 then 0 else (max parent 0).toNat + digit
  let (breaks, widest, next) ← blockBreaks? fuel base 0 [] start
  let indent := if base = 0 then max widest (max (parent + 1) 1).toNat else base
  blockLines? fuel literal indent chomping [] [] false breaks next

end Scalar

end ResourceModels.Yaml
