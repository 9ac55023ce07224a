import ResourceModels.Document
import ResourceModels.Schema.Decoding
import ResourceModels.Derivation.Promotion
import ResourceModels.Derivation.Resolver

/-!
# From a document to modules

The schemas of a document are decoded, then declared in document order, grouped by namespace in
order of first appearance, and at last everything inline gets a declaration of its own.
-/

namespace ResourceModels

namespace Module

/-- Collect declarations by their namespace. -/
def group (declared : List (ModulePath × Model)) : List Module :=
  (declared.foldl
    (fun groups (path, model) => Entries.alter groups path [model] (· ++ [model]))
    ([] : Entries ModulePath (List Model))).map fun (path, models) => ⟨path, models⟩

end Module

namespace Derivation

/-- Decode the schemas in order, and adjust their objects. -/
def nodes (conventions : Conventions) :
    Entries String Json → Except DerivationError (Entries String Node)
  | [] => .ok []
  | (name, value) :: rest =>
    match Node.ofJson? value with
    | none => .error (.invalidSchema name)
    | some node => do
      let nodes ← nodes conventions rest
      .ok ((name, conventions.adjustNode node) :: nodes)

/-- Declare the named schemas in order, each with its namespace. -/
def declarations (resolver : Resolver) :
    List String → Except DerivationError (List (ModulePath × Model))
  | [] => .ok []
  | name :: rest =>
    match resolver.model? name with
    | .error error => .error error
    | .ok found => do
      let declared ← declarations resolver rest
      match found with
      | none => .ok declared
      | some model => .ok (((resolver.classRef name).path, model) :: declared)

/-- The modules of a document whose schemas belong to `bucket`. -/
def ofSchemas (bucket : String) (conventions : Conventions) (collapse : Bool)
    (schemas : Entries String Json) : Except DerivationError (List Module) := do
  let nodes ← nodes conventions schemas
  let resolver : Resolver := ⟨bucket, nodes, conventions, collapse⟩
  let declared ← declarations resolver (Entries.keys nodes)
  .ok ((Module.group declared).map Module.promoteInline)

end Derivation

end ResourceModels
