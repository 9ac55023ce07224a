import Mathlib
import ResourceModels.Proofs.Modules

/-!
# Derived modules are closed and complete

Whether a reference leads to a class is decided where it is used, and whether a schema becomes a
class is decided where it is declared; promotion changes both sides afterwards. The two agree:
nothing stands inline in the result, every reference has its class, and every schema that should
be declared is, once and in its place (`derivation_closed_and_complete`).
-/

namespace ResourceModels

namespace ModelType

theorem mem_foldl_pushNew {types start : List ModelType} {type : ModelType}
    (present : type ∈ types.foldl pushNew start) : type ∈ start ∨ type ∈ types := by
  induction types generalizing start with
  | nil => exact .inl present
  | cons first rest ih =>
    rcases ih present with known | later
    · unfold pushNew at known
      split at known
      next => exact .inl known
      next =>
        rcases List.mem_append.mp known with old | new
        · exact .inl old
        · exact .inr (List.mem_singleton.mp new ▸ List.mem_cons_self)
    · exact .inr (List.mem_cons_of_mem _ later)

/-- What a type of several alternatives is made of, one of the alternatives is made of. -/
theorem exists_mem_of_mem_unite {α : Type} {parts : ModelType → List α}
    (of_union : ∀ {members : List ModelType} {part : α},
      part ∈ parts (.union members) ↔ ∃ member ∈ members, part ∈ parts member)
    {types : List ModelType} {part : α} (present : part ∈ parts (unite types)) :
    ∃ type ∈ types, part ∈ parts type := by
  have of_spread : ∀ member ∈ (types.flatMap spread).foldl pushNew [], part ∈ parts member →
      ∃ type ∈ types, part ∈ parts type := by
    intro member kept inside
    obtain ⟨type, listed, among⟩ :=
      List.mem_flatMap.mp ((mem_foldl_pushNew kept).resolve_left List.not_mem_nil)
    refine ⟨type, listed, ?_⟩
    unfold spread at among
    split at among
    next members => exact of_union.mpr ⟨member, among, inside⟩
    next => exact List.mem_singleton.mp among ▸ inside
  unfold unite at present
  split at present
  next type single => exact of_spread type (single ▸ List.mem_singleton.mpr rfl) present
  next members =>
    obtain ⟨member, kept, inside⟩ := of_union.mp present
    exact of_spread member kept inside

theorem refs_unite {types : List ModelType} {target : ClassRef}
    (present : target ∈ (unite types).refs) : ∃ type ∈ types, target ∈ type.refs :=
  exists_mem_of_mem_unite mem_refsOfMembers present

theorem inlineModels_unite {types : List ModelType} {model : Model}
    (present : model ∈ (unite types).inlineModels) : ∃ type ∈ types, model ∈ type.inlineModels :=
  exists_mem_of_mem_unite mem_inlineModelsOfMembers present

/-- Types that refer only to known classes are made from types that do. -/
theorem constructed_refs (least : Nat) (known : ClassRef → Prop) :
    Constructed least fun type => ∀ target ∈ type.refs, known target where
  any := fun _ absent => absurd absent List.not_mem_nil
  scalar := by
    intro shape target present
    unfold ofScalar at present
    split at present <;> try split at present
    all_goals exact absurd present List.not_mem_nil
  enum := fun _ _ absent => absurd absent List.not_mem_nil
  array := fun _ holds => holds
  map := fun _ holds => holds
  object := by
    intro model holds target present
    obtain ⟨field, inside, present⟩ := mem_refsOfFields.mp present
    exact holds field inside target present
  unite := by
    intro types _ holds target present
    obtain ⟨type, inside, present⟩ := refs_unite present
    exact holds type inside target present

end ModelType

namespace Derivation

/-- The names of the schemas that get a declaration, in document order: the models, or all of them
where nothing is replaced at its uses. -/
def declaredNames (collapse : Bool) (nodes : Entries String Node) : List String :=
  (Entries.keys nodes).filter fun name =>
    (Entries.get? nodes name).any fun node => !collapse || node.isModel

/-- The declaration has the class name of the schema, and is what the resolver declares for it with
everything inline replaced. -/
def StandsFor (resolver : Resolver) (home : Module) (name : String) (model : Model) : Prop :=
  model.name = (resolver.classRef name).name ∧
    ∃ node plain, Entries.get? resolver.nodes name = some node ∧
      resolver.declare name node = .ok plain ∧
      Promotion.HoistedModel home.path home.models plain model

theorem filter_isDeclared (resolver : Resolver) :
    (Entries.keys resolver.nodes).filter resolver.isDeclared =
      declaredNames resolver.collapse resolver.nodes := by
  unfold declaredNames
  congr 1
  funext name
  unfold Resolver.isDeclared
  congr 1
  funext node
  rw [Resolver.isCollapsed, Bool.not_and, Bool.not_not]

/-- The declarations made for named schemas, which leaves out those that promotion added: their
names are never class names of schemas in the same module. -/
def declaredPart (bucket : String) (names : List String) (home : Module) : List Model :=
  home.models.filter fun model =>
    decide (model.name ∈ (namesAt bucket home.path names).map
      fun name => (ClassRef.ofSchemaName bucket name).name)

theorem declaredPart_promoteInline {resolver : Resolver} {names : List String}
    {declared : List (ModulePath × Model)}
    (related : List.Forall₂ resolver.Declares names declared) {home : Module}
    (present : home ∈ Module.group declared) :
    List.Forall₂ (StandsFor resolver home.promoteInline) (namesAt resolver.bucket home.path names)
      (declaredPart resolver.bucket names home.promoteInline) := by
  have made := models_forall₂ related present
  have kept := home.declared_part
  rw [names_of_mem_group related present] at kept
  refine forall₂_trans made kept fun name plain own declares promoted => ⟨?_, ?_⟩
  · rw [promoted.1, declares.name]
  · obtain ⟨-, node, known, -, success⟩ := declares
    exact ⟨node, plain, known, success, promoted.2⟩

/-- A class that a declaration refers to is declared in its module. -/
theorem exists_declared {resolver : Resolver} {names : List String}
    {declared : List (ModulePath × Model)}
    (related : List.Forall₂ resolver.Declares (names.filter resolver.isDeclared) declared)
    (complete : names = Entries.keys resolver.nodes) {home : Module}
    (present : home ∈ Module.group declared) {model : Model} (inside : model ∈ home.models)
    {target : ClassRef} (referred : target ∈ model.refs) :
    ∃ other ∈ Module.group declared, other.path = target.path ∧
      ∃ found ∈ other.models, found.name = target.name := by
  obtain ⟨name, -, -, node, -, -, success⟩ :=
    exists_left_of_forall₂ related (Module.mem_of_mem_group present inside)
  obtain ⟨type, among, referred⟩ := Model.mem_refs.mp referred
  refine Resolver.declare_induction (ModelType.constructed_refs 0 fun target =>
    ∃ other ∈ Module.group declared, other.path = target.path ∧
      ∃ found ∈ other.models, found.name = target.name) (fun _ node _ => node.branches_zero) ?_
    node.branches_zero success among target referred
  intro wanted wanted_node known kept target same
  obtain rfl := List.mem_singleton.mp same
  have listed : wanted ∈ names.filter resolver.isDeclared :=
    complete ▸ Resolver.mem_declared known kept
  obtain ⟨entry, among, declares⟩ := exists_right_of_forall₂ related listed
  obtain ⟨other, grouped, same_path, holds⟩ := Module.exists_mem_group among
  exact ⟨other, grouped, same_path.trans declares.1, entry.2, holds, declares.name⟩

/-- A class that a declaration refers to after promotion is declared in its module. -/
theorem exists_promoted_of_mem_refs {resolver : Resolver} {declared : List (ModulePath × Model)}
    (related : List.Forall₂ resolver.Declares
      ((Entries.keys resolver.nodes).filter resolver.isDeclared) declared) {home : Module}
    (present : home ∈ Module.group declared) {model : Model}
    (inside : model ∈ home.promoteInline.models) {target : ClassRef}
    (referred : target ∈ model.refs) :
    ∃ other ∈ (Module.group declared).map Module.promoteInline, other.path = target.path ∧
      ∃ found ∈ other.models, found.name = target.name := by
  obtain ⟨source, hoisted, no_more⟩ := home.exists_source inside
  rcases hoisted.refs referred with kept | ⟨made, listed, rfl⟩
  · obtain ⟨owner, owned, referred⟩ := no_more target kept
    obtain ⟨other, grouped, same_path, found, holds, same_name⟩ :=
      exists_declared related rfl present owned referred
    obtain ⟨own, promoted, kept_name, -⟩ := other.exists_promoted holds
    exact ⟨other.promoteInline, List.mem_map_of_mem grouped, same_path, own, promoted,
      kept_name.trans same_name⟩
  · exact ⟨home.promoteInline, List.mem_map_of_mem present, rfl, made, listed, rfl⟩

/-- Everything inline is gone, every reference leads to a declaration, and every schema that should
be declared is declared once, in the module of its namespace and in document order. -/
theorem derivation_closed_and_complete {bucket : String} {conventions : Conventions}
    {collapse : Bool} {schemas : Entries String Json} {modules : List Module}
    (success : ofSchemas bucket conventions collapse schemas = .ok modules) :
    (∀ home ∈ modules, ∀ model ∈ home.models, ∀ type ∈ model.types, type.hasInline = false) ∧
    (∀ home ∈ modules, ∀ model ∈ home.models, ∀ target ∈ model.refs,
      ∃ other ∈ modules, other.path = target.path ∧
        ∃ found ∈ other.models, found.name = target.name) ∧
    ∃ decoded, nodes conventions schemas = .ok decoded ∧
      Entries.keys decoded = Entries.keys schemas ∧
      modules.map Module.path = ((declaredNames collapse decoded).map fun name =>
        (ClassRef.ofSchemaName bucket name).path).eraseDups ∧
      ∀ home ∈ modules,
        List.Forall₂ (StandsFor ⟨bucket, decoded, conventions, collapse⟩ home)
          (namesAt bucket home.path (declaredNames collapse decoded))
          (declaredPart bucket (declaredNames collapse decoded) home) := by
  obtain ⟨decoded, declared, known, related, rfl⟩ := ofSchemas_eq_ok success
  let resolver : Resolver := ⟨bucket, decoded, conventions, collapse⟩
  rw [← keys_nodes known] at related
  have in_place : List.Forall₂ resolver.Declares (declaredNames collapse decoded) declared := by
    rw [← filter_isDeclared resolver]
    exact related
  refine ⟨?_, ?_, decoded, known, keys_nodes known, ?_, ?_⟩
  · intro promoted present model inside type among
    obtain ⟨home, grouped, rfl⟩ := List.mem_map.mp present
    obtain ⟨source, hoisted, -⟩ := home.exists_source inside
    obtain ⟨before, -, hoisted⟩ := hoisted.types among
    exact hoisted.hasInline
  · intro promoted present model inside target referred
    obtain ⟨home, grouped, rfl⟩ := List.mem_map.mp present
    exact exists_promoted_of_mem_refs related grouped inside referred
  · have same_paths : declared.map Prod.fst = (declaredNames collapse decoded).map fun name =>
        (ClassRef.ofSchemaName bucket name).path :=
      map_eq_map_of_forall₂ in_place fun _ _ declares => declares.1
    rw [List.map_map, ← same_paths, ← Module.group_paths]
    rfl
  · intro promoted present
    obtain ⟨home, grouped, rfl⟩ := List.mem_map.mp present
    exact declaredPart_promoteInline in_place grouped

/-- A model with an inline enumeration, a reference to itself and one to a schema that is no
model. -/
def shapeSchemas : Entries String Json :=
  [("a.Shape", .object [("type", .string "object"), ("properties", .object [
      ("colors", .object [("type", .string "array"),
        ("items", .object [("type", .string "string"), ("enum", .array [.string "red"])])]),
      ("size", .object [("$ref", .string "#/components/schemas/Size")]),
      ("next", .object [("$ref", .string "#/components/schemas/a.Shape")])])]),
   ("Size", .object [("type", .string "integer")])]

def shapeNodes : Entries String Node :=
  [("a.Shape", .bare (.object ⟨[
      ("colors", .bare (.array (.bare (.scalar ⟨.string, none, [.string "red"]⟩)))),
      ("size", .bare (.reference "#/components/schemas/Size")),
      ("next", .bare (.reference "#/components/schemas/a.Shape"))], [], none⟩)),
    ("Size", .ofScalar .integer)]

def shapeModules : List Module :=
  let field (name : String) (type : ModelType) : Field ModelType :=
    ⟨name, type, false, false, none, none, false⟩
  [⟨["demo", "a"], [.enum ⟨"ColorsItem", none, ["red"]⟩, .object ⟨"Shape", none, [
    field "colors" (.array (.ref ⟨["demo", "a"], "ColorsItem"⟩)), field "size" .integer,
    field "next" (.ref ⟨["demo", "a"], "Shape"⟩)]⟩]⟩]

/-- The model alone is declared, with its enumeration beside it. -/
theorem shapes_closed_and_complete :
    ofSchemas "demo" .kubernetes true shapeSchemas = .ok shapeModules ∧
      (∀ home ∈ shapeModules, ∀ model ∈ home.models, ∀ type ∈ model.types,
        type.hasInline = false) ∧
      (∀ home ∈ shapeModules, ∀ model ∈ home.models, ∀ target ∈ model.refs,
        ∃ other ∈ shapeModules, other.path = target.path ∧
          ∃ found ∈ other.models, found.name = target.name) ∧
      nodes .kubernetes shapeSchemas = .ok shapeNodes ∧
      Entries.keys shapeNodes = Entries.keys shapeSchemas ∧
      declaredNames true shapeNodes = ["a.Shape"] ∧
      shapeModules.map Module.path = ((declaredNames true shapeNodes).map fun name =>
        (ClassRef.ofSchemaName "demo" name).path).eraseDups ∧
      ∀ home ∈ shapeModules, List.Forall₂ (StandsFor ⟨"demo", shapeNodes, .kubernetes, true⟩ home)
        (namesAt "demo" home.path (declaredNames true shapeNodes))
        (declaredPart "demo" (declaredNames true shapeNodes) home) := by
  have decoded_eq : nodes .kubernetes shapeSchemas = .ok shapeNodes := by rfl
  have success : ofSchemas "demo" .kubernetes true shapeSchemas = .ok shapeModules := by
    rw [ofSchemas, decoded_eq]
    rfl
  obtain ⟨no_inline, closed, decoded, known, keys, paths, in_place⟩ :=
    derivation_closed_and_complete success
  cases decoded_eq.symm.trans known
  exact ⟨success, no_inline, closed, decoded_eq, keys, by rfl, paths, in_place⟩

end Derivation

end ResourceModels
