import ResourceModels.Text.Words

/-!
# Names of schemas and properties

A name is made safe by turning every run of other characters into one underscore, and is then
spelled in four ways. The dotted name of a schema is split into a namespace and a class.
-/

namespace ResourceModels

/-- Letters and numbers with single underscores between the pieces. `separated` says that another
character came before; `started` that something has been written. -/
def sanitizeFrom (separated started : Bool) : List Char → List Char
  | [] => []
  | c :: rest =>
    if Text.isAlphanumeric c then
      if separated && started then '_' :: c :: sanitizeFrom false true rest
      else c :: sanitizeFrom false true rest
    else sanitizeFrom true started rest

/-- A digit at the very start is kept behind an underscore, and the result is never empty. -/
def sanitize (name : List Char) : List Char :=
  let lead := if (name.take 1).any Text.isAsciiDigit then ['_'] else []
  match lead ++ sanitizeFrom false false name with
  | [] => "unnamed".toList
  | safe => safe

/-- A name in its four spellings. -/
structure NameForms where
  wire : String
  pascal : String
  camel : String
  snake : String
  screamingSnake : String
  deriving DecidableEq, Repr

def NameForms.of (name : String) : NameForms :=
  let safe := sanitize name.toList
  { wire := name
    pascal := String.ofList (Text.pascalCase safe)
    camel := String.ofList (Text.camelCase safe)
    snake := String.ofList (Text.snakeCase safe)
    screamingSnake := String.ofList (Text.screamingSnakeCase safe) }

/-- The segments of a namespace. The first one is the bucket. -/
abbrev ModulePath := List String

/-- Lexicographic order of namespaces, each segment by its code points. -/
def ModulePath.le : ModulePath → ModulePath → Bool
  | [], _ => true
  | _ :: _, [] => false
  | a :: as, b :: bs => if a = b then ModulePath.le as bs else decide (a < b)

/-- A class of a module. -/
structure ClassRef where
  path : ModulePath
  name : String
  deriving DecidableEq, Repr, Inhabited

def ClassRef.dotted (ref : ClassRef) : String := ".".intercalate ref.path ++ "." ++ ref.name

/-- The namespace of schemas whose name has no dot. -/
def defaultModule : String := "models"

/-- The last non-empty segment of a dotted name is the class, the others are the namespace. -/
def splitSchemaName (name : String) : ModulePath × String :=
  let segments := (Text.pieces (· = '.') name.toList).filter (!·.isEmpty) |>.map String.ofList
  match segments.dropLast, segments.getLast? with
  | [], last => ([defaultModule], last.getD "unnamed")
  | path, last => (path, last.getD "unnamed")

/-- The class of a schema name, below the bucket. -/
def ClassRef.ofSchemaName (bucket name : String) : ClassRef :=
  let (path, last) := splitSchemaName name
  ⟨bucket :: path, last⟩

/-- A class name made from a property name. A name that would start with a digit, or be
empty, gets a word in front. -/
def suggestedClassName (property : String) : String :=
  let pascal := (NameForms.of property).pascal
  match pascal.toList with
  | [] => "Model" ++ pascal
  | c :: _ => if Text.isAsciiDigit c then "Model" ++ pascal else pascal

end ResourceModels
