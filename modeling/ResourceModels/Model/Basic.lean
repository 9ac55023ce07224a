import ResourceModels.Json.Basic
import ResourceModels.Names

/-!
# Models

The types that come from schemas, and the declarations that carry them. An object or an
enumeration that stands inside a type has no declaration yet; its name is the one suggested
for it.
-/

namespace ResourceModels

/-- A field of an object, under its name in the data. -/
structure Field (τ : Type) where
  name : String
  type : τ
  required : Bool
  nullable : Bool
  description : Option String
  default : Option Json
  readOnly : Bool
  deriving Repr

structure ObjectModel (τ : Type) where
  name : String
  description : Option String
  fields : List (Field τ)
  deriving Repr

structure EnumModel where
  name : String
  description : Option String
  variants : List String
  deriving DecidableEq, Repr

inductive ModelType where
  | string
  | number
  | integer
  | boolean
  | null
  | dateTime
  | date
  | binary
  | any
  | array (item : ModelType)
  | map (value : ModelType)
  | ref (target : ClassRef)
  | union (members : List ModelType)
  | object (model : ObjectModel ModelType)
  | enum (model : EnumModel)
  deriving Repr, Inhabited

/-- A declaration that stands for another type. -/
structure AliasModel where
  name : String
  description : Option String
  target : ModelType
  deriving Repr

inductive Model where
  | object (model : ObjectModel ModelType)
  | enum (model : EnumModel)
  | alias (model : AliasModel)
  deriving Repr

def Model.name : Model → String
  | .object model => model.name
  | .enum model => model.name
  | .alias model => model.name

/-- The declarations of one namespace, in order. -/
structure Module where
  path : ModulePath
  models : List Model
  deriving Repr

abbrev ModelSet := List Module

def Module.find? (home : Module) (name : String) : Option Model :=
  home.models.find? (·.name = name)

namespace ModelSet

def module? (set : ModelSet) (path : ModulePath) : Option Module := set.find? (·.path = path)

def size (set : ModelSet) : Nat := set.foldl (fun count home => count + home.models.length) 0

end ModelSet

namespace ModelType

def isMap : ModelType → Bool
  | .map _ => true
  | _ => false

def isNull : ModelType → Bool
  | .null => true
  | _ => false

/-- Null itself, or a union with null among its members. -/
def isNullable : ModelType → Bool
  | .null => true
  | .union members => members.any isNull
  | _ => false

mutual

/-- Every class a type refers to, in order. -/
def refs : ModelType → List ClassRef
  | .ref target => [target]
  | .array item => item.refs
  | .map value => value.refs
  | .union members => refsOfMembers members
  | .object model => refsOfFields model.fields
  | _ => []

def refsOfMembers : List ModelType → List ClassRef
  | [] => []
  | member :: members => member.refs ++ refsOfMembers members

def refsOfFields : List (Field ModelType) → List ClassRef
  | [] => []
  | field :: fields => field.type.refs ++ refsOfFields fields

end

def sameDefault : Option Json → Option Json → Bool
  | none, none => true
  | some a, some b => a.same b
  | _, _ => false

mutual

/-- Equality of types. Defaults are compared as values. -/
def same : ModelType → ModelType → Bool
  | .string, .string => true
  | .number, .number => true
  | .integer, .integer => true
  | .boolean, .boolean => true
  | .null, .null => true
  | .dateTime, .dateTime => true
  | .date, .date => true
  | .binary, .binary => true
  | .any, .any => true
  | .array a, .array b => same a b
  | .map a, .map b => same a b
  | .ref a, .ref b => a = b
  | .union as, .union bs => sameMembers as bs
  | .object a, .object b =>
    a.name = b.name && a.description = b.description && sameFields a.fields b.fields
  | .enum a, .enum b => a = b
  | _, _ => false

def sameMembers : List ModelType → List ModelType → Bool
  | [], [] => true
  | a :: as, b :: bs => same a b && sameMembers as bs
  | _, _ => false

def sameFields : List (Field ModelType) → List (Field ModelType) → Bool
  | [], [] => true
  | a :: as, b :: bs =>
    a.name = b.name && same a.type b.type && a.required = b.required && a.nullable = b.nullable &&
      a.description = b.description && sameDefault a.default b.default &&
      a.readOnly = b.readOnly && sameFields as bs
  | _, _ => false

end

end ModelType

/-- A field that may be left out or be null. -/
def Field.isOptional (field : Field ModelType) : Bool :=
  !field.required || field.nullable || field.type.isNullable

/-- Every class a declaration refers to. -/
def Model.refs : Model → List ClassRef
  | .object model => ModelType.refsOfFields model.fields
  | .enum _ => []
  | .alias model => model.target.refs

end ResourceModels
