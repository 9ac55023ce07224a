import ResourceModels.Model.Basic
import ResourceModels.Code.RelativeImport

/-!
# Type hints

The Python type hint of a type. A class of another module is named through the binding of that
module, and a library name has to be imported.
-/

namespace ResourceModels.Code

/-- The names that generated modules take from libraries. -/
inductive LibraryName where
  | date
  | datetime
  | enum
  | any
  | dict
  | list
  | optional
  | union
  | baseModel
  | field
  | rootModel
  deriving DecidableEq, Repr

inductive Library where
  | datetime
  | enum
  | typing
  | pydantic
  deriving DecidableEq, Repr

namespace LibraryName

def text : LibraryName → String
  | .date => "date"
  | .datetime => "datetime"
  | .enum => "Enum"
  | .any => "Any"
  | .dict => "Dict"
  | .list => "List"
  | .optional => "Optional"
  | .union => "Union"
  | .baseModel => "BaseModel"
  | .field => "Field"
  | .rootModel => "RootModel"

def library : LibraryName → Library
  | .date | .datetime => .datetime
  | .enum => .enum
  | .any | .dict | .list | .optional | .union => .typing
  | .baseModel | .field | .rootModel => .pydantic

/-- All names, those of one library in alphabetical order. -/
def all : List LibraryName :=
  [.date, .datetime, .enum, .any, .dict, .list, .optional, .union, .baseModel, .field, .rootModel]

end LibraryName

namespace Library

def text : Library → String
  | .datetime => "datetime"
  | .enum => "enum"
  | .typing => "typing"
  | .pydantic => "pydantic"

/-- The line that imports the used names of a library, if any is used. -/
def importLine? (library : Library) (uses : List LibraryName) : Option String :=
  match LibraryName.all.filter fun name => name.library = library && uses.contains name with
  | [] => none
  | names =>
    some ("from " ++ library.text ++ " import " ++ ", ".intercalate (names.map LibraryName.text))

/-- The lines for the standard library. -/
def standardLines (uses : List LibraryName) : List String :=
  [Library.datetime, .enum, .typing].filterMap (importLine? · uses)

end Library

/-- A hint as it is built up; its text and the library names in it are read off. -/
inductive Hint where
  /-- A name that needs no import: a built-in one, or a class of the module itself. -/
  | plain (text : String)
  | library (name : LibraryName)
  /-- A class of another module, behind the name that module is bound to. -/
  | qualified (binding name : String)
  /-- A library name with arguments in brackets. -/
  | apply (name : LibraryName) (arguments : List Hint)
  deriving Repr

namespace Hint

mutual

def text : Hint → String
  | .plain text => text
  | .library name => name.text
  | .qualified binding name => binding ++ "." ++ name
  | .apply name arguments => name.text ++ "[" ++ ", ".intercalate (texts arguments) ++ "]"

def texts : List Hint → List String
  | [] => []
  | hint :: rest => hint.text :: texts rest

end

mutual

/-- The library names in a hint. -/
def uses : Hint → List LibraryName
  | .plain _ | .qualified .. => []
  | .library name => [name]
  | .apply name arguments => name :: usesOfAll arguments

def usesOfAll : List Hint → List LibraryName
  | [] => []
  | hint :: rest => hint.uses ++ usesOfAll rest

end

/-- The hint of null. -/
def null : Hint := .plain "None"

def startsOptional (text : String) : Bool := "Optional[".toList.isPrefixOf text.toList

/-- The hint with null admitted, unless its text shows already that it is. -/
def optional (hint : Hint) : Hint :=
  if startsOptional hint.text || hint.text = null.text then hint else .apply .optional [hint]

/-- One hint for several alternatives; no alternatives are null alone. -/
def alternatives (hints : List Hint) (nullable : Bool) : Hint :=
  match hints with
  | [] => null
  | [hint] => if nullable then hint.optional else hint
  | hints =>
    let hint := Hint.apply .union hints
    if nullable then hint.optional else hint

/-- A class as seen from the module `current`. A class of an unknown module is named alone. -/
def ofRef (current : ModulePath) (imports : Imports) (target : ClassRef) : Hint :=
  if target.path = current then .plain target.name
  else
    match Entries.get? imports target.path with
    | some relative => .qualified relative.binding target.name
    | none => .plain target.name

mutual

/-- The hint of a type. What stands inline is named only by its general shape. -/
def ofType (current : ModulePath) (imports : Imports) : ModelType → Hint
  | .string => .plain "str"
  | .number => .plain "float"
  | .integer => .plain "int"
  | .boolean => .plain "bool"
  | .null => null
  | .dateTime => .library .datetime
  | .date => .library .date
  | .binary => .plain "bytes"
  | .any => .library .any
  | .ref target => ofRef current imports target
  | .array item => .apply .list [ofType current imports item]
  | .map value => .apply .dict [.plain "str", ofType current imports value]
  | .object _ => .apply .dict [.plain "str", .library .any]
  | .enum _ => .plain "str"
  | .union members =>
    alternatives (ofMembers current imports members) (members.any ModelType.isNull)

/-- The hints of the members of a union that are not null. -/
def ofMembers (current : ModulePath) (imports : Imports) : List ModelType → List Hint
  | [] => []
  | member :: rest =>
    if member.isNull then ofMembers current imports rest
    else ofType current imports member :: ofMembers current imports rest

end

end Hint

end ResourceModels.Code
