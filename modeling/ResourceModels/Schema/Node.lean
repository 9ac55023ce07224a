import ResourceModels.Schema.Extensions

/-!
# Schema nodes

A schema reduced to one of six shapes, with the notes that any shape can carry. A node is a
model when it deserves a declaration of its own: an object that is not a mere map, or an
enumeration of texts.
-/

namespace ResourceModels

inductive ScalarType where
  | string
  | integer
  | number
  | boolean
  | null
  deriving DecidableEq, Repr

structure ScalarShape where
  type : ScalarType
  format : Option String
  values : List Json
  deriving Repr

/-- An object by its properties; `additional` is the schema of all other keys, if they
are open. -/
structure ObjectShape (ν : Type) where
  properties : List (String × ν)
  required : List String
  additional : Option ν
  deriving Repr

inductive Kind (ν : Type) where
  | object (shape : ObjectShape ν)
  | array (items : ν)
  | scalar (shape : ScalarShape)
  | reference (path : String)
  | union (variants : List ν)
  | any
  deriving Repr

/-- What a schema of any shape can say about itself. -/
structure Notes where
  description : Option String := none
  default : Option Json := none
  nullable : Bool := false
  readOnly : Bool := false
  extensions : Extensions := []
  deriving Repr

structure Node where
  kind : Kind Node
  notes : Notes
  deriving Repr

namespace ScalarShape

/-- The texts a text scalar is limited to; entries of other types are left out. -/
def variants (shape : ScalarShape) : List String :=
  if shape.type = .string then shape.values.filterMap Json.text? else []

end ScalarShape

namespace Node

/-- A node with nothing noted. -/
def bare (kind : Kind Node) : Node := ⟨kind, {}⟩

def ofScalar (type : ScalarType) : Node := bare (.scalar ⟨type, none, []⟩)

def object? (node : Node) : Option (ObjectShape Node) :=
  match node.kind with
  | .object shape => some shape
  | _ => none

/-- Whether a node gets a declaration of its own. -/
def isModel (node : Node) : Bool :=
  match node.kind with
  | .object shape =>
    !shape.properties.isEmpty ||
      (shape.additional.isNone && !node.notes.extensions.preservesUnknown)
  | .scalar shape => !shape.variants.isEmpty
  | _ => false

mutual

/-- The node and every node below it, children before parents. -/
def postorder : Node → List Node
  | ⟨kind, notes⟩ => belowKind kind ++ [⟨kind, notes⟩]

def belowKind : Kind Node → List Node
  | .object shape => belowProperties shape.properties ++ belowAdditional shape.additional
  | .array items => items.postorder
  | .union variants => belowVariants variants
  | _ => []

def belowProperties : List (String × Node) → List Node
  | [] => []
  | (_, node) :: rest => node.postorder ++ belowProperties rest

def belowAdditional : Option Node → List Node
  | none => []
  | some node => node.postorder

def belowVariants : List Node → List Node
  | [] => []
  | node :: rest => node.postorder ++ belowVariants rest

end

mutual

/-- Change every object, inner ones first. The change sees the extensions beside the object. -/
def mapObjects (change : Extensions → ObjectShape Node → ObjectShape Node) : Node → Node
  | ⟨kind, notes⟩ => ⟨mapObjectsIn change notes.extensions kind, notes⟩

def mapObjectsIn (change : Extensions → ObjectShape Node → ObjectShape Node)
    (extensions : Extensions) : Kind Node → Kind Node
  | .object ⟨properties, required, additional⟩ =>
    .object (change extensions
      ⟨mapProperties change properties, required, mapAdditional change additional⟩)
  | .array items => .array (items.mapObjects change)
  | .union variants => .union (mapVariants change variants)
  | kind => kind

def mapProperties (change : Extensions → ObjectShape Node → ObjectShape Node) :
    List (String × Node) → List (String × Node)
  | [] => []
  | (name, node) :: rest => (name, node.mapObjects change) :: mapProperties change rest

def mapAdditional (change : Extensions → ObjectShape Node → ObjectShape Node) :
    Option Node → Option Node
  | none => none
  | some node => some (node.mapObjects change)

def mapVariants (change : Extensions → ObjectShape Node → ObjectShape Node) :
    List Node → List Node
  | [] => []
  | node :: rest => node.mapObjects change :: mapVariants change rest

end

/-- The node with its default replaced. -/
def withDefault (node : Node) (value : Json) : Node :=
  { node with notes := { node.notes with default := some value } }

end Node

end ResourceModels
