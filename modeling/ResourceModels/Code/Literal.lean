import ResourceModels.Json.Basic
import ResourceModels.Json.NumberText
import ResourceModels.Text.Character

/-!
# Python literals

Texts and JSON values as Python source on one line. A text is quoted with whichever quote it holds
fewer of; control characters are escaped. A long text can be split into several literals, broken
before spaces.
-/

namespace ResourceModels.Code

/-- The character escaped, quotes apart. -/
def escapeChar (c : Char) : List Char :=
  match c with
  | '\\' => ['\\', '\\']
  | '\n' => ['\\', 'n']
  | '\r' => ['\\', 'r']
  | '\t' => ['\\', 't']
  | c =>
    if Text.isControl c then
      ['\\', 'x', Nat.digitChar (c.toNat / 16), Nat.digitChar (c.toNat % 16)]
    else [c]

def escape (text : List Char) : List Char := text.flatMap escapeChar

/-- The preferred quote, unless the text holds more of it than of the other one. -/
def chooseQuote (preferDouble : Bool) (body : List Char) : Char :=
  let doubles := body.count '"'
  let singles := body.count '\''
  if preferDouble then if doubles ≤ singles then '"' else '\''
  else if doubles < singles then '"' else '\''

def enclose (mark : Char) (body : List Char) : List Char :=
  mark :: (body.flatMap (fun c => if c = mark then ['\\', c] else [c]) ++ [mark])

/-- Text that is escaped already, in quotes. -/
def quoteEscaped (preferDouble : Bool) (body : List Char) : List Char :=
  enclose (chooseQuote preferDouble body) body

def quoteChars (preferDouble : Bool) (text : List Char) : List Char :=
  quoteEscaped preferDouble (escape text)

def quote (preferDouble : Bool) (text : String) : String :=
  String.ofList (quoteChars preferDouble text.toList)

/-- Fewer characters than this are not worth a literal of their own. -/
def leastTail : Nat := 6

/-- The spaces at which a text may be broken: not at its start and not close to its end. -/
def breaks (body : List Char) : List Nat :=
  (body.zipIdx).filterMap fun (c, i) =>
    if c = ' ' ∧ 1 ≤ i ∧ i + leastTail ≤ body.length then some i else none

/-- The last break that keeps within the width, or else the first one after it. -/
def breakAt? (width : Nat) (body : List Char) : Option Nat :=
  let candidates := breaks body
  match (candidates.filter (· ≤ width)).getLast? with
  | some last => some last
  | none => candidates.find? (width < ·)

/-- The pieces of a text, each no wider than `width` where a break allows it. -/
def splitBody (width : Nat) (body : List Char) : List (List Char) :=
  if body.length ≤ width then [body]
  else
    match breakAt? width body with
    | some (k + 1) => body.take (k + 1) :: splitBody width (body.drop (k + 1))
    | _ => [body]
termination_by body.length
decreasing_by simp only [List.length_drop]; omega

/-- A text as literals that are to be concatenated, each at most `maxWidth` columns wide where
a break allows it. -/
def splitLiteral (preferDouble : Bool) (maxWidth : Nat) (text : String) : List String :=
  (splitBody (maxWidth - 2) (escape text.toList)).map fun piece =>
    String.ofList (quoteEscaped preferDouble piece)

mutual

/-- Python source of a JSON value. -/
def valueChars (preferDouble : Bool) : Json → List Char
  | .null => "None".toList
  | .bool true => "True".toList
  | .bool false => "False".toList
  | .number value => value.text
  | .string text => quoteChars preferDouble text.toList
  | .array items => '[' :: (itemChars preferDouble items ++ [']'])
  | .object members => '{' :: (memberChars preferDouble members ++ ['}'])

def itemChars (preferDouble : Bool) : List Json → List Char
  | [] => []
  | [item] => valueChars preferDouble item
  | item :: items => valueChars preferDouble item ++ ',' :: ' ' :: itemChars preferDouble items

def memberChars (preferDouble : Bool) : List (String × Json) → List Char
  | [] => []
  | [(key, value)] =>
    quoteChars preferDouble key.toList ++ ':' :: ' ' :: valueChars preferDouble value
  | (key, value) :: members =>
    quoteChars preferDouble key.toList ++ ':' :: ' ' :: valueChars preferDouble value ++
      ',' :: ' ' :: memberChars preferDouble members

end

def value (preferDouble : Bool) (json : Json) : String :=
  String.ofList (valueChars preferDouble json)

end ResourceModels.Code
