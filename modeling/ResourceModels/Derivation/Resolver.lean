import ResourceModels.Schema.Conventions
import ResourceModels.Schema.Reference

/-!
# From schema nodes to types

The type of a node comes from its shape alone, given a way to follow references. A reference to a
model becomes a reference to its class. A reference to any other schema is replaced by that
schema's type, unless the schema is already being replaced: then nothing is known about
the value. The names being replaced are pairwise different and all belong to the document, so
as many replacements as there are schemas are enough.
-/

namespace ResourceModels

/-- The schemas of one document and how their types are derived. -/
structure Resolver where
  bucket : String
  nodes : Entries String Node
  conventions : Conventions
  /-- Replace references to schemas that are no models by what they stand for. -/
  collapse : Bool
  deriving Repr

/-- The type of a reference, given the class name suggested for what stands inline there. -/
abbrev Follow := String → String → Except DerivationError ModelType

namespace ModelType

def ofScalar (shape : ScalarShape) : ModelType :=
  match shape.type with
  | .string =>
    match shape.format with
    | some "date-time" => .dateTime
    | some "date" => .date
    | some "binary" => .binary
    | _ => .string
  | .integer => .integer
  | .number => .number
  | .boolean => .boolean
  | .null => .null

/-- Put a type at the end unless the same type is already there. -/
def pushNew (types : List ModelType) (type : ModelType) : List ModelType :=
  if types.any (same · type) then types else types ++ [type]

/-- The members of a union, or the type itself. -/
def spread : ModelType → List ModelType
  | .union members => members
  | type => [type]

/-- One type for several alternatives: nested unions are opened, repeated members dropped, and
a single member stands for itself. -/
def unite (types : List ModelType) : ModelType :=
  match (types.flatMap spread).foldl pushNew [] with
  | [type] => type
  | members => .union members

end ModelType

namespace Resolver

def enumModel (name : String) (notes : Notes) (shape : ScalarShape) : EnumModel :=
  ⟨name, notes.description, shape.variants⟩

mutual

/-- The type of a node. `context` is the class name suggested for what stands inline here. -/
def typeOf (conventions : Conventions) (follow : Follow) (context : String) :
    Node → Except DerivationError ModelType
  | ⟨.reference path, _⟩ => follow path context
  | ⟨.array items, _⟩ =>
    match typeOf conventions follow (context ++ "Item") items with
    | .ok item => .ok (.array item)
    | .error error => .error error
  | ⟨.scalar shape, notes⟩ =>
    if shape.variants.isEmpty then .ok (.ofScalar shape)
    else .ok (.enum (enumModel context notes shape))
  | ⟨.object shape, notes⟩ =>
    if shape.properties.isEmpty then
      match mapType conventions follow context shape.additional with
      | .ok value => .ok (.map value)
      | .error error => .error error
    else
      match fieldsOf conventions follow shape.required shape.properties with
      | .ok fields => .ok (.object ⟨context, notes.description, fields⟩)
      | .error error => .error error
  | ⟨.union variants, _⟩ =>
    match typesOf conventions follow context variants with
    | .ok types => .ok (.unite types)
    | .error error => .error error
  | ⟨.any, _⟩ => .ok .any

/-- The type of the values under open keys. -/
def mapType (conventions : Conventions) (follow : Follow) (context : String) :
    Option Node → Except DerivationError ModelType
  | none => .ok .any
  | some node => typeOf conventions follow context node

def typesOf (conventions : Conventions) (follow : Follow) (context : String) :
    List Node → Except DerivationError (List ModelType)
  | [] => .ok []
  | node :: rest =>
    match typeOf conventions follow context node with
    | .error error => .error error
    | .ok type =>
      match typesOf conventions follow context rest with
      | .error error => .error error
      | .ok types => .ok (type :: types)

/-- The fields of an object, one for each property. What stands inline under a property is
named after it. -/
def fieldsOf (conventions : Conventions) (follow : Follow) (required : List String) :
    List (String × Node) → Except DerivationError (List (Field ModelType))
  | [] => .ok []
  | (name, node) :: rest =>
    match typeOf conventions follow (suggestedClassName name) node with
    | .error error => .error error
    | .ok type =>
      let field : Field ModelType :=
        { name, type
          required := name ∈ required
          nullable := node.notes.nullable
          description := node.notes.description
          default := node.notes.default
          readOnly := node.notes.readOnly }
      match fieldsOf conventions follow required rest with
      | .error error => .error error
      | .ok fields => .ok (conventions.adjustField field :: fields)

end

def classRef (resolver : Resolver) (name : String) : ClassRef :=
  .ofSchemaName resolver.bucket name

/-- The type of a reference written in the schema `current`. A schema that is no model is handed to
`inline`, with its name. -/
def reference (resolver : Resolver) (current : String)
    (inline : String → String → Node → Except DerivationError ModelType) : Follow :=
  fun path context =>
    match Reference.target path with
    | .error error => .error error
    | .ok target =>
      match Entries.get? resolver.nodes target with
      | none => .error (.unresolvedReference path current)
      | some node =>
        if !resolver.collapse || node.isModel then .ok (.ref (resolver.classRef target))
        else inline target context node

/-- The type of a node, when the schemas in `inlining` are already being replaced. At most
`budget` more are replaced inside each other. -/
def typeWithin (resolver : Resolver) (current : String) :
    Nat → List String → String → Node → Except DerivationError ModelType
  | 0, _, context, node =>
    typeOf resolver.conventions (resolver.reference current fun _ _ _ => .ok .any) context node
  | budget + 1, inlining, context, node =>
    typeOf resolver.conventions
      (resolver.reference current fun target context node =>
        if target ∈ inlining then .ok .any
        else typeWithin resolver current budget (target :: inlining) context node)
      context node

/-- How references of the schema `current` are followed where nothing is being replaced yet. -/
def follow (resolver : Resolver) (current : String) : Follow :=
  fun path context =>
    typeWithin resolver current resolver.nodes.length [] context (.bare (.reference path))

/-- The type of a node of the schema `current`. -/
def type (resolver : Resolver) (current context : String) (node : Node) :
    Except DerivationError ModelType :=
  typeWithin resolver current resolver.nodes.length [] context node

/-- Whether a schema is left without a declaration. -/
def isCollapsed (resolver : Resolver) (node : Node) : Bool :=
  resolver.collapse && !node.isModel

/-- The declaration of a schema. -/
def declare (resolver : Resolver) (name : String) (node : Node) :
    Except DerivationError Model :=
  let class_ := (resolver.classRef name).name
  let asAlias : Except DerivationError Model := do
    let target ← resolver.type name class_ node
    .ok (.alias ⟨class_, node.notes.description, target⟩)
  match node.kind with
  | .object shape =>
    if node.isModel then do
      let fields ←
        fieldsOf resolver.conventions (resolver.follow name) shape.required shape.properties
      .ok (.object ⟨class_, node.notes.description, fields⟩)
    else asAlias
  | .scalar shape =>
    if shape.variants.isEmpty then asAlias else .ok (.enum (enumModel class_ node.notes shape))
  | _ => asAlias

/-- The declaration of a named schema; none when the schema is replaced at its uses. -/
def model? (resolver : Resolver) (name : String) : Except DerivationError (Option Model) :=
  match Entries.get? resolver.nodes name with
  | none => .error (.unresolvedReference name name)
  | some node =>
    if resolver.isCollapsed node then .ok none else (resolver.declare name node).map some

end Resolver

/-- A resolver in use. References are reported in the name of the schema that was
declared last. -/
structure Resolver.Session where
  resolver : Resolver
  current : String := ""

namespace Resolver.Session

def model? (session : Session) (name : String) :
    Session × Except DerivationError (Option Model) :=
  let declared :=
    match Entries.get? session.resolver.nodes name with
    | some node => !session.resolver.isCollapsed node
    | none => false
  ({ session with current := if declared then name else session.current },
    session.resolver.model? name)

def type (session : Session) (context : String) (node : Node) :
    Except DerivationError ModelType :=
  session.resolver.type session.current context node

end Resolver.Session

end ResourceModels
