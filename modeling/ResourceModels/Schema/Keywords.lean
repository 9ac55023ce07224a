import ResourceModels.Schema.Node

/-!
# From keywords to a shape

The keywords of a schema object, each already decoded, and the shape they stand for. A reference
wins over everything; then come the integer-or-text flag, the alternatives, the conjunction,
and last the type, which is guessed from other keywords where none is given.
-/

namespace ResourceModels

inductive TypeName where
  | string
  | number
  | integer
  | boolean
  | array
  | object
  | null
  | other
  deriving DecidableEq, Repr

inductive TypeSet where
  | single (name : TypeName)
  | several (names : List TypeName)
  deriving DecidableEq, Repr

inductive AdditionalKeys (ν : Type) where
  | allowed (value : Bool)
  | schema (node : ν)
  deriving Repr

/-- The keywords of one schema object. -/
structure Keywords where
  reference : Option String := none
  type : Option TypeSet := none
  format : Option String := none
  description : Option String := none
  default : Option Json := none
  nullable : Option Bool := none
  properties : Entries String Node := []
  required : List String := []
  additional : Option (AdditionalKeys Node) := none
  items : Option Node := none
  allOf : List Node := []
  oneOf : List Node := []
  anyOf : List Node := []
  values : List Json := []
  readOnly : Option Bool := none
  rest : List (String × Json) := []
  deriving Repr

/-- The names of a list that are not known yet are put at its end, one after another. -/
def addMissing (known : List String) (names : List String) : List String :=
  names.foldl (fun acc name => if name ∈ acc then acc else acc ++ [name]) known

namespace ObjectShape

/-- Two conjuncts: later properties win where they stand, required names are collected, and the
last schema for other keys is kept. -/
def merge (first second : ObjectShape Node) : ObjectShape Node :=
  { properties := Entries.insertAll first.properties second.properties
    required := addMissing first.required second.required
    additional := second.additional.or first.additional }

end ObjectShape

namespace Keywords

/-- The conjunction of several members: one object made of the object members, or the first
member's shape when there is none. -/
def conjunction (members : List Node) : Kind Node :=
  match members.filterMap Node.object? with
  | [] => (members.head?.map Node.kind).getD .any
  | objects => .object (objects.foldl ObjectShape.merge ⟨[], [], none⟩)

def scalar (keywords : Keywords) (type : ScalarType) : Kind Node :=
  .scalar ⟨type, keywords.format, keywords.values⟩

def additionalNode : Option (AdditionalKeys Node) → Option Node
  | some (.schema node) => some node
  | some (.allowed true) => some (.bare .any)
  | some (.allowed false) | none => none

/-- The shape of a declared type. -/
def kindOfType (keywords : Keywords) : TypeName → Kind Node
  | .string => keywords.scalar .string
  | .integer => keywords.scalar .integer
  | .number => keywords.scalar .number
  | .boolean => keywords.scalar .boolean
  | .null => keywords.scalar .null
  | .array => .array (keywords.items.getD (.bare .any))
  | .object =>
    .object ⟨keywords.properties, keywords.required, additionalNode keywords.additional⟩
  | .other => .any

/-- The shape of a list of types, and whether null is one of them beside others. -/
def kindOfTypes (keywords : Keywords) (names : List TypeName) : Kind Node × Bool :=
  let hasNull := names.contains .null
  match names.filter (· ≠ .null) with
  | [] => (keywords.kindOfType .null, false)
  | [name] => (keywords.kindOfType name, hasNull)
  | others => (.union (others.map fun name => .bare (kindOfType {} name)), hasNull)

/-- The shape where no type is declared. -/
def kindWithoutType (keywords : Keywords) : Kind Node :=
  if !keywords.properties.isEmpty || keywords.additional.isSome then keywords.kindOfType .object
  else if keywords.items.isSome then keywords.kindOfType .array
  else if !keywords.values.isEmpty then keywords.kindOfType .string
  else .any

/-- The shape, and whether the type list admits null. -/
def kind (keywords : Keywords) (extensions : Extensions) : Kind Node × Bool :=
  match keywords.reference with
  | some path => (.reference path, false)
  | none =>
    if extensions.intOrString then (.union [.ofScalar .integer, .ofScalar .string], false)
    else if !keywords.oneOf.isEmpty then (.union keywords.oneOf, false)
    else if !keywords.anyOf.isEmpty then (.union keywords.anyOf, false)
    else if !keywords.allOf.isEmpty then (conjunction keywords.allOf, false)
    else
      match keywords.type with
      | some (.single name) => (keywords.kindOfType name, false)
      | some (.several names) => keywords.kindOfTypes names
      | none => (keywords.kindWithoutType, false)

/-- The node of a schema object. A conjunction of one member is how a reference gets notes of
its own: the member's shape is kept and its notes fill what the wrapper leaves open. -/
def toNode (keywords : Keywords) : Node :=
  let extensions := Extensions.ofMembers keywords.rest
  let nullable := keywords.nullable.getD false
  let readOnly := keywords.readOnly.getD false
  match keywords.allOf, keywords.reference with
  | [inner], none =>
    { kind := inner.kind
      notes :=
        { description := keywords.description.or inner.notes.description
          default := keywords.default.or inner.notes.default
          nullable := nullable || inner.notes.nullable
          readOnly := readOnly || inner.notes.readOnly
          extensions := if extensions.isEmpty then inner.notes.extensions else extensions } }
  | _, _ =>
    let (kind, typeNullable) := keywords.kind extensions
    { kind
      notes :=
        { description := keywords.description
          default := keywords.default
          nullable := nullable || typeNullable
          readOnly
          extensions } }

end Keywords

end ResourceModels
