import ResourceModels.Names

/-!
# Python identifiers

How properties, enumeration values and namespace segments become names in a Python module. A
name that is an identifier already is kept where possible; the others are cleaned, and a property
then remembers its own name as an alias.
-/

namespace ResourceModels.Code

def keywords : List String :=
  ["False", "None", "True", "and", "as", "assert", "async", "await", "break", "class", "continue",
    "def", "del", "elif", "else", "except", "finally", "for", "from", "global", "if", "import",
    "in", "is", "lambda", "nonlocal", "not", "or", "pass", "raise", "return", "try", "while",
    "with", "yield"]

def isKeyword (name : String) : Bool := keywords.contains name

def startsIdentifier (c : Char) : Bool := c = '_' || Text.isAlphabetic c

def continuesIdentifier (c : Char) : Bool := c = '_' || Text.isAlphanumeric c

/-- A letter or underscore, then letters, numbers and underscores, and no keyword. -/
def isIdentifier (name : String) : Bool :=
  match name.toList with
  | [] => false
  | c :: rest => startsIdentifier c && rest.all continuesIdentifier && !isKeyword name

/-- Every character that no identifier can hold turned into an underscore. -/
def clean (name : List Char) : List Char :=
  name.map fun c => if Text.isAlphanumeric c then c else '_'

/-- A keyword with an underscore after it; any other name as it is. -/
def avoidKeyword (name : String) : String := if isKeyword name then name ++ "_" else name

/-- A cleaned name that starts with a letter: a word is put in front of a digit, an underscore or
nothing at all. -/
def cleanAttribute (property : String) : String :=
  let cleaned := clean property.toList
  match cleaned with
  | [] => avoidKeyword "field_"
  | c :: _ =>
    if Text.isAsciiDigit c then avoidKeyword (String.ofList ("field_".toList ++ cleaned))
    else if c = '_' then avoidKeyword (String.ofList ("field".toList ++ cleaned))
    else avoidKeyword (String.ofList cleaned)

def startsWithUnderscore (name : String) : Bool := name.toList.head? = some '_'

/-- The attribute of a property, and the property's own name where the two differ. Attributes that
start with an underscore are private in Python. -/
def fieldName (property : String) : String × Option String :=
  if isIdentifier property && !startsWithUnderscore property then (property, none)
  else (cleanAttribute property, some property)

/-- The member name of an enumeration value. -/
def memberName (value : String) : String :=
  if isIdentifier value then value else (fieldName value).1

/-- The name of a package initializer. -/
def initModule : String := "__init__"

/-- The importable form of a namespace segment. -/
def moduleSegment (segment : String) : String :=
  if segment = initModule then segment
  else
    let cleaned := clean segment.toList
    match cleaned with
    | [] => "_"
    | c :: _ =>
      if Text.isAsciiDigit c then String.ofList ('_' :: cleaned)
      else avoidKeyword (String.ofList cleaned)

/-- The importable form of a namespace. -/
def modulePath (path : ModulePath) : ModulePath := path.map moduleSegment

end ResourceModels.Code
