import Mathlib
import ResourceModels.Derivation.Document
import ResourceModels.Proofs.Promotion
import ResourceModels.Proofs.Resolution
import ResourceModels.Proofs.Steps

/-!
# From declarations to modules

A derivation that succeeds has decoded every schema and declared every one that is not replaced at
its uses, in document order. Grouping loses and adds nothing: a module holds exactly the
declarations of its namespace, in their order, and there is one module for each namespace.
-/

namespace ResourceModels

namespace Module

/-- Declarations by namespace. -/
def collected (declared : List (ModulePath × Model)) : Entries ModulePath (List Model) :=
  Entries.gathered (declared.map fun entry => (entry.1, [entry.2]))

theorem group_eq (declared : List (ModulePath × Model)) :
    group declared = (collected declared).map fun entry => ⟨entry.1, entry.2⟩ := by
  rw [collected, Entries.gathered, List.foldl_map]
  rfl

theorem keys_collected (declared : List (ModulePath × Model)) :
    Entries.keys (collected declared) = (declared.map Prod.fst).eraseDups := by
  rw [collected, Entries.keys_gathered, List.map_map]
  rfl

/-- The declarations of one namespace. -/
def declaredAt (declared : List (ModulePath × Model)) (path : ModulePath) : List Model :=
  (declared.filter fun entry => decide (entry.1 = path)).map Prod.snd

theorem listedAt_declared (declared : List (ModulePath × Model)) (path : ModulePath) :
    Entries.listedAt (declared.map fun entry => (entry.1, [entry.2])) path =
      declaredAt declared path := by
  rw [Entries.listedAt, declaredAt, List.filter_map, List.flatMap_map, List.map_eq_flatMap]
  rfl

theorem group_paths (declared : List (ModulePath × Model)) :
    (group declared).map Module.path = (declared.map Prod.fst).eraseDups := by
  rw [← keys_collected, group_eq, List.map_map]
  rfl

theorem group_paths_nodup (declared : List (ModulePath × Model)) :
    ((group declared).map Module.path).Nodup := by
  rw [group_paths]
  exact nodup_eraseDups (declared.map Prod.fst)

/-- A module holds the declarations of its namespace, in their order. -/
theorem models_of_mem_group {declared : List (ModulePath × Model)} {home : Module}
    (present : home ∈ group declared) : home.models = declaredAt declared home.path := by
  rw [group_eq] at present
  obtain ⟨entry, inside, rfl⟩ := List.mem_map.mp present
  exact (Entries.eq_listedAt_of_mem_gathered inside).trans (listedAt_declared declared entry.1)

theorem exists_mem_group {declared : List (ModulePath × Model)} {entry : ModulePath × Model}
    (present : entry ∈ declared) :
    ∃ home ∈ group declared, home.path = entry.1 ∧ entry.2 ∈ home.models := by
  have listed : entry.1 ∈ (group declared).map Module.path := by
    rw [group_paths, List.mem_eraseDups]
    exact List.mem_map_of_mem present
  obtain ⟨home, inside, same_path⟩ := List.mem_map.mp listed
  refine ⟨home, inside, same_path, ?_⟩
  rw [models_of_mem_group inside, declaredAt]
  exact List.mem_map.mpr ⟨entry, List.mem_filter.mpr ⟨present, by simpa using same_path.symm⟩, rfl⟩

theorem mem_of_mem_group {declared : List (ModulePath × Model)} {home : Module} {model : Model}
    (inside : home ∈ group declared) (present : model ∈ home.models) :
    (home.path, model) ∈ declared := by
  rw [models_of_mem_group inside, declaredAt] at present
  obtain ⟨entry, kept, rfl⟩ := List.mem_map.mp present
  obtain ⟨member, here⟩ := List.mem_filter.mp kept
  have same_path : entry.1 = home.path := by simpa using here
  exact same_path ▸ member

@[simp] theorem promoteInline_path (home : Module) : home.promoteInline.path = home.path := rfl

end Module

namespace Resolver

/-- Whether a name belongs to a schema that gets a declaration. -/
def isDeclared (resolver : Resolver) (name : String) : Bool :=
  (Entries.get? resolver.nodes name).any fun node => !resolver.isCollapsed node

theorem mem_declared {resolver : Resolver} {name : String} {node : Node}
    (known : Entries.get? resolver.nodes name = some node)
    (kept : resolver.isCollapsed node = false) :
    name ∈ (Entries.keys resolver.nodes).filter resolver.isDeclared := by
  rw [List.mem_filter]
  exact ⟨Entries.mem_keys_of_get? known, by simp [isDeclared, known, kept]⟩

/-- The declaration of a named schema, with its namespace. -/
def Declares (resolver : Resolver) (name : String) (entry : ModulePath × Model) : Prop :=
  entry.1 = (resolver.classRef name).path ∧ ∃ node, Entries.get? resolver.nodes name = some node ∧
    resolver.isCollapsed node = false ∧ resolver.declare name node = .ok entry.2

theorem Declares.name {resolver : Resolver} {name : String} {entry : ModulePath × Model}
    (declares : resolver.Declares name entry) : entry.2.name = (resolver.classRef name).name := by
  obtain ⟨-, node, -, -, success⟩ := declares
  exact declare_name success

end Resolver

namespace Derivation

/-- Every schema is decoded and adjusted, under its name and in its place. -/
theorem nodes_eq_ok {conventions : Conventions} {schemas : Entries String Json}
    {decoded : Entries String Node} (success : nodes conventions schemas = .ok decoded) :
    List.Forall₂ (fun schema entry => entry.1 = schema.1 ∧
      (Node.ofJson? schema.2).map conventions.adjustNode = some entry.2) schemas decoded := by
  induction schemas generalizing decoded with
  | nil =>
    cases success
    exact .nil
  | cons schema rest ih =>
    obtain ⟨name, value⟩ := schema
    rw [nodes] at success
    split at success
    next => cases success
    next node found =>
      obtain ⟨more, others, success⟩ := bind_eq_ok success
      cases success
      exact .cons ⟨rfl, by rw [found]; rfl⟩ (ih others)

theorem keys_nodes {conventions : Conventions} {schemas : Entries String Json}
    {decoded : Entries String Node} (success : nodes conventions schemas = .ok decoded) :
    Entries.keys decoded = Entries.keys schemas :=
  map_eq_map_of_forall₂ (nodes_eq_ok success) fun _ _ related => related.1

/-- Adjusting comes after decoding. -/
theorem nodes_eq_map (conventions : Conventions) (schemas : Entries String Json) :
    nodes conventions schemas = (nodes .asWritten schemas).map fun decoded =>
      Entries.mapValues decoded conventions.adjustNode := by
  induction schemas with
  | nil => rfl
  | cons schema rest ih =>
    obtain ⟨name, value⟩ := schema
    rw [nodes, nodes, ih]
    cases Node.ofJson? value with
    | none => rfl
    | some node =>
      dsimp only
      rw [Conventions.adjustNode_asWritten]
      cases nodes .asWritten rest <;> rfl

theorem nodes_asWritten {conventions : Conventions} {schemas : Entries String Json}
    {adjusted : Entries String Node} (success : nodes conventions schemas = .ok adjusted) :
    ∃ decoded, nodes .asWritten schemas = .ok decoded ∧
      adjusted = Entries.mapValues decoded conventions.adjustNode := by
  rw [nodes_eq_map] at success
  obtain ⟨decoded, known, rfl⟩ := map_eq_ok success
  exact ⟨decoded, known, rfl⟩

/-- The declarations are those of the declared names, in their order. -/
theorem declarations_eq_ok {resolver : Resolver} {names : List String}
    {declared : List (ModulePath × Model)} (success : declarations resolver names = .ok declared) :
    List.Forall₂ resolver.Declares (names.filter resolver.isDeclared) declared := by
  induction names generalizing declared with
  | nil =>
    cases success
    exact .nil
  | cons name rest ih =>
    rw [declarations] at success
    split at success
    next => cases success
    next found resolved =>
      obtain ⟨more, others, success⟩ := bind_eq_ok success
      unfold Resolver.model? at resolved
      split at resolved
      next => cases resolved
      next node known =>
        split at resolved
        next replaced =>
          cases resolved
          cases success
          have skipped : resolver.isDeclared name = false := by
            simp [Resolver.isDeclared, known, replaced]
          rw [List.filter_cons_of_neg (by simp [skipped])]
          exact ih others
        next kept =>
          obtain ⟨model, declare, rfl⟩ := map_eq_ok resolved
          cases success
          have listed : resolver.isDeclared name = true := by
            simp [Resolver.isDeclared, known, kept]
          rw [List.filter_cons_of_pos listed]
          exact .cons ⟨rfl, node, known, by simpa using kept, declare⟩ (ih others)

/-- A derivation that succeeds: its nodes, its declarations and its modules. -/
theorem ofSchemas_eq_ok {bucket : String} {conventions : Conventions} {collapse : Bool}
    {schemas : Entries String Json} {modules : List Module}
    (success : ofSchemas bucket conventions collapse schemas = .ok modules) :
    ∃ decoded declared, nodes conventions schemas = .ok decoded ∧
      List.Forall₂ (Resolver.Declares ⟨bucket, decoded, conventions, collapse⟩)
        ((Entries.keys schemas).filter
          (Resolver.isDeclared ⟨bucket, decoded, conventions, collapse⟩))
        declared ∧
      modules = (Module.group declared).map Module.promoteInline := by
  obtain ⟨decoded, known, success⟩ := bind_eq_ok success
  obtain ⟨declared, made, success⟩ := bind_eq_ok success
  cases success
  exact ⟨decoded, declared, known, keys_nodes known ▸ declarations_eq_ok made, rfl⟩

/-- The names among some that belong to one namespace. -/
def namesAt (bucket : String) (path : ModulePath) (names : List String) : List String :=
  names.filter fun name => decide ((ClassRef.ofSchemaName bucket name).path = path)

/-- The declarations of one namespace are those of the names that belong to it. -/
theorem declaredAt_forall₂ {resolver : Resolver} {names : List String}
    {declared : List (ModulePath × Model)}
    (related : List.Forall₂ resolver.Declares names declared) (path : ModulePath) :
    List.Forall₂ (fun name model => resolver.Declares name (path, model))
      (namesAt resolver.bucket path names) (Module.declaredAt declared path) := by
  induction related with
  | nil => exact .nil
  | @cons name entry rest others first _ ih =>
    have same_path : entry.1 = (ClassRef.ofSchemaName resolver.bucket name).path := first.1
    unfold namesAt Module.declaredAt
    by_cases here : (ClassRef.ofSchemaName resolver.bucket name).path = path
    · rw [List.filter_cons_of_pos (by simpa using here),
        List.filter_cons_of_pos (by simpa using same_path.trans here), List.map_cons]
      have entry_here : (path, entry.2) = entry := by rw [← same_path.trans here]
      exact .cons (by rw [entry_here]; exact first) ih
    · rw [List.filter_cons_of_neg (by simpa using here),
        List.filter_cons_of_neg (by simpa [same_path] using here)]
      exact ih

theorem models_forall₂ {resolver : Resolver} {names : List String}
    {declared : List (ModulePath × Model)}
    (related : List.Forall₂ resolver.Declares names declared) {home : Module}
    (present : home ∈ Module.group declared) :
    List.Forall₂ (fun name model => resolver.Declares name (home.path, model))
      (namesAt resolver.bucket home.path names) home.models := by
  rw [Module.models_of_mem_group present]
  exact declaredAt_forall₂ related home.path

theorem names_of_mem_group {resolver : Resolver} {names : List String}
    {declared : List (ModulePath × Model)}
    (related : List.Forall₂ resolver.Declares names declared) {home : Module}
    (present : home ∈ Module.group declared) : home.models.map Model.name =
      (namesAt resolver.bucket home.path names).map fun name => (resolver.classRef name).name :=
  map_eq_map_of_forall₂ (models_forall₂ related present) fun _ _ declares => declares.name

/-- Schemas of different classes give each module different names. -/
theorem nodup_names_of_mem_group {resolver : Resolver} {names : List String}
    {declared : List (ModulePath × Model)}
    (related : List.Forall₂ resolver.Declares names declared)
    (distinct : (names.map resolver.classRef).Nodup) {home : Module}
    (present : home ∈ Module.group declared) : (home.models.map Model.name).Nodup := by
  have distinct_here : ((namesAt resolver.bucket home.path names).map resolver.classRef).Nodup :=
    distinct.sublist (List.filter_sublist.map _)
  rw [names_of_mem_group related present]
  refine List.map_map ▸ List.Nodup.map_on ?_ distinct_here
  intro first first_listed second second_listed same_name
  obtain ⟨name, listed, rfl⟩ := List.mem_map.mp first_listed
  obtain ⟨other, other_listed, rfl⟩ := List.mem_map.mp second_listed
  have here : (resolver.classRef name).path = home.path :=
    of_decide_eq_true (List.mem_filter.mp listed).2
  have there : (resolver.classRef other).path = home.path :=
    of_decide_eq_true (List.mem_filter.mp other_listed).2
  exact (ClassRef.mk.injEq ..).mpr ⟨here.trans there.symm, same_name⟩

/-- A schema that gets a declaration has it in the module of its namespace, after promotion. -/
theorem exists_promoted_declaration {resolver : Resolver} {declared : List (ModulePath × Model)}
    (related : List.Forall₂ resolver.Declares
      ((Entries.keys resolver.nodes).filter resolver.isDeclared) declared) {name : String}
    {node : Node} (known : Entries.get? resolver.nodes name = some node)
    (kept : resolver.isCollapsed node = false) :
    ∃ plain, resolver.declare name node = .ok plain ∧
      ∃ home ∈ Module.group declared, ∃ own ∈ home.promoteInline.models,
        resolver.classRef name = ⟨home.path, own.name⟩ ∧
        Promotion.HoistedModel home.path home.promoteInline.models plain own := by
  have listed := Resolver.mem_declared known kept
  obtain ⟨entry, among, declares⟩ := exists_right_of_forall₂ related listed
  obtain ⟨home, grouped, same_path, inside⟩ := Module.exists_mem_group among
  obtain ⟨own, promoted, kept_name, hoisted⟩ := home.exists_promoted inside
  have same_class : resolver.classRef name = ⟨home.path, own.name⟩ := by
    rw [same_path, declares.1, kept_name, declares.name]
  obtain ⟨-, node', known', -, declare⟩ := declares
  cases known.symm.trans known'
  exact ⟨entry.2, declare, home, grouped, own, promoted, same_class, hoisted⟩

end Derivation

end ResourceModels
