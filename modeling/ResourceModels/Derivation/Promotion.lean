import ResourceModels.Model.Basic

/-!
# Declarations for what stands inline

Objects and enumerations inside a type become declarations of the same module, placed before
the one that uses them, inner ones first. A name that is taken gets a suffix. An object takes
its name before the types inside it do.
-/

namespace ResourceModels

/-- Names taken in the module, and the declarations made so far. -/
structure Promotion where
  used : List String
  made : List Model
  deriving Repr

namespace Promotion

/-- The names to try: the name itself, then with a suffix, then with numbered suffixes. -/
def candidates (base : String) (numbered : Nat) : List String :=
  base :: (base ++ "Model") ::
    (List.range numbered).map fun i => base ++ "Model" ++ toString (i + 1)

/-- The first name that is free. More names are tried than are taken, so there is one. -/
def freeName (used : List String) (base : String) : String :=
  ((candidates base used.length).find? (· ∉ used)).getD base

def take (promotion : Promotion) (name : String) : Promotion :=
  { promotion with used := name :: promotion.used }

def add (promotion : Promotion) (model : Model) : Promotion :=
  { promotion with made := promotion.made ++ [model] }

mutual

/-- A type with every inline object and enumeration replaced by a reference into the module
at `path`. -/
def promote (path : ModulePath) (promotion : Promotion) : ModelType → Promotion × ModelType
  | .object model =>
    let name := freeName promotion.used model.name
    let (promotion, fields) := promoteFields path (promotion.take name) model.fields
    (promotion.add (.object { model with name, fields }), .ref ⟨path, name⟩)
  | .enum model =>
    let name := freeName promotion.used model.name
    ((promotion.take name).add (.enum { model with name }), .ref ⟨path, name⟩)
  | .array item =>
    let (promotion, item) := promote path promotion item
    (promotion, .array item)
  | .map value =>
    let (promotion, value) := promote path promotion value
    (promotion, .map value)
  | .union members =>
    let (promotion, members) := promoteMembers path promotion members
    (promotion, .union members)
  | type => (promotion, type)

def promoteMembers (path : ModulePath) (promotion : Promotion) :
    List ModelType → Promotion × List ModelType
  | [] => (promotion, [])
  | member :: rest =>
    let (promotion, member) := promote path promotion member
    let (promotion, rest) := promoteMembers path promotion rest
    (promotion, member :: rest)

def promoteFields (path : ModulePath) (promotion : Promotion) :
    List (Field ModelType) → Promotion × List (Field ModelType)
  | [] => (promotion, [])
  | field :: rest =>
    let (promotion, type) := promote path promotion field.type
    let (promotion, rest) := promoteFields path promotion rest
    (promotion, { field with type } :: rest)

end

/-- A declaration after the declarations made for what stands inline in it. -/
def promoteModel (path : ModulePath) (promotion : Promotion) : Model → Promotion
  | .object model =>
    let (promotion, fields) := promoteFields path promotion model.fields
    promotion.add (.object { model with fields })
  | .alias model =>
    let (promotion, target) := promote path promotion model.target
    promotion.add (.alias { model with target })
  | .enum model => promotion.add (.enum model)

end Promotion

/-- The module with a declaration for everything that stood inline. -/
def Module.promoteInline (home : Module) : Module :=
  let start : Promotion := ⟨home.models.map Model.name, []⟩
  { home with models := (home.models.foldl (Promotion.promoteModel home.path) start).made }

end ResourceModels
