import Mathlib
import ResourceModels.Proofs.Collapse
import ResourceModels.Proofs.Paths

/-!
# Which schemas share a class

Of a schema name only the segments count that are not empty. A lone segment stands in the default
module, and a name without any segment is called unnamed. Written in full, a name shows all of
this, and two names give one class exactly when they are the same in full. So a document declares
a class twice if two of its declared schemas are spellings of one full name, and only then; in any
other document a reference leads to the one class of the schema it names (`same_class_iff`).
-/

namespace ResourceModels

/-- The segments of a dotted name that are not empty. -/
def nameSegments (name : String) : List String :=
  ((Text.pieces (· = '.') name.toList).filter (!·.isEmpty)).map String.ofList

/-- The segments together with those that may be left out: the default module before a lone
class, and a name for what has none. -/
def fullSegments (name : String) : List String :=
  match nameSegments name with
  | [] => [defaultModule, "unnamed"]
  | [last] => [defaultModule, last]
  | segments => segments

/-- A schema name written in full. -/
def fullName (name : String) : String := ".".intercalate (fullSegments name)

theorem splitSchemaName_append (name : String) :
    (splitSchemaName name).1 ++ [(splitSchemaName name).2] = fullSegments name := by
  unfold splitSchemaName fullSegments nameSegments
  generalize ((Text.pieces (· = '.') name.toList).filter (!·.isEmpty)).map String.ofList = segments
  match segments with
  | [] => rfl
  | [last] => rfl
  | first :: second :: rest =>
    have nonempty := List.cons_ne_nil first (second :: rest)
    dsimp only
    rw [List.getLast?_eq_some_getLast nonempty, List.dropLast_cons_cons]
    exact List.dropLast_concat_getLast nonempty

theorem proper_of_mem_nameSegments {name segment : String} (listed : segment ∈ nameSegments name) :
    segment ≠ "" ∧ '.' ∉ segment.toList := by
  obtain ⟨piece, kept, rfl⟩ := List.mem_map.mp listed
  obtain ⟨among, nonempty⟩ := List.mem_filter.mp kept
  rw [String.toList_ofList]
  refine ⟨fun empty => ?_, fun inside => ?_⟩
  · rw [← String.toList_inj, String.toList_ofList] at empty
    rw [empty] at nonempty
    cases nonempty
  · have no_separator := (Text.mem_of_mem_pieces among inside).2
    rw [decide_eq_false_iff_not] at no_separator
    exact no_separator rfl

theorem proper_of_mem_fullSegments {name segment : String} (listed : segment ∈ fullSegments name) :
    segment ≠ "" ∧ '.' ∉ segment.toList := by
  have default_proper : defaultModule ≠ "" ∧ '.' ∉ defaultModule.toList := by decide
  unfold fullSegments at listed
  split at listed
  next =>
    have proper : ∀ segment ∈ [defaultModule, "unnamed"], segment ≠ "" ∧ '.' ∉ segment.toList := by
      decide
    exact proper segment listed
  next last only =>
    rcases List.mem_cons.mp listed with rfl | listed
    · exact default_proper
    · exact proper_of_mem_nameSegments (only ▸ listed)
  next => exact proper_of_mem_nameSegments listed

/-- A full name has its segments again when it is read. -/
theorem nameSegments_fullName (name : String) :
    nameSegments (fullName name) = fullSegments name := by
  have nonempty : fullSegments name ≠ [] := by
    rw [← splitSchemaName_append]
    exact List.append_ne_nil_of_right_ne_nil _ (List.cons_ne_nil _ _)
  have split : Text.pieces (· = '.') (fullName name).toList =
      (fullSegments name).map String.toList :=
    Text.pieces_intercalate nonempty fun segment listed => (proper_of_mem_fullSegments listed).2
  have kept : ((fullSegments name).map String.toList).filter (!·.isEmpty) =
      (fullSegments name).map String.toList := by
    rw [List.filter_eq_self]
    intro piece among
    obtain ⟨segment, listed, rfl⟩ := List.mem_map.mp among
    simpa using (proper_of_mem_fullSegments listed).1
  rw [nameSegments, split, kept, List.map_map]
  exact List.map_id'' (fun segment => String.ofList_toList) (fullSegments name)

theorem fullName_eq_iff {first second : String} :
    fullName first = fullName second ↔ fullSegments first = fullSegments second := by
  refine ⟨fun same => ?_, congrArg (".".intercalate ·)⟩
  rw [← nameSegments_fullName first, same, nameSegments_fullName]

/-- The bucket and the class make the full name. -/
theorem classRef_segments (bucket name : String) :
    (ClassRef.ofSchemaName bucket name).path ++ [(ClassRef.ofSchemaName bucket name).name] =
      bucket :: fullSegments name := by
  rw [← splitSchemaName_append]
  rfl

theorem classRef_eq_iff {bucket first second : String} :
    ClassRef.ofSchemaName bucket first = ClassRef.ofSchemaName bucket second ↔
      fullName first = fullName second := by
  rw [fullName_eq_iff, ← List.cons_inj_right bucket, ← classRef_segments, ← classRef_segments]
  constructor
  · intro same
    rw [same]
  · intro same
    obtain ⟨same_path, same_name⟩ := List.append_inj' same rfl
    exact (ClassRef.mk.injEq ..).mpr ⟨same_path, (List.cons.inj same_name).1⟩

/-- Promotion adds no repetition and takes none away. -/
theorem Module.promoteInline_nodup_iff (home : Module) :
    (home.promoteInline.models.map Model.name).Nodup ↔ (home.models.map Model.name).Nodup := by
  refine ⟨fun distinct => ?_, home.promoteInline_nodup⟩
  rw [← map_eq_map_of_forall₂ home.declared_part fun _ _ related => related.1]
  exact distinct.sublist (List.filter_sublist.map _)

theorem Resolver.exists_of_isDeclared (resolver : Resolver) {name : String}
    (listed : resolver.isDeclared name = true) :
    ∃ node, Entries.get? resolver.nodes name = some node ∧ resolver.isCollapsed node = false := by
  unfold isDeclared at listed
  cases found : Entries.get? resolver.nodes name with
  | none =>
    rw [found] at listed
    cases listed
  | some node =>
    rw [found] at listed
    exact ⟨node, rfl, by simpa using listed⟩

namespace Derivation

/-- Modules repeat a class exactly when two of the names give the same class. -/
theorem nodup_names_iff {resolver : Resolver} {names : List String}
    {declared : List (ModulePath × Model)}
    (related : List.Forall₂ resolver.Declares names declared) :
    (∀ home ∈ Module.group declared, (home.models.map Model.name).Nodup) ↔
      (names.map resolver.classRef).Nodup := by
  refine ⟨fun distinct => ?_, fun distinct _ => nodup_names_of_mem_group related distinct⟩
  rw [List.Nodup, List.pairwise_map, List.pairwise_iff_forall_sublist]
  intro first second among same
  obtain ⟨entry, listed, declares⟩ :=
    exists_right_of_forall₂ related (among.subset List.mem_cons_self)
  obtain ⟨home, grouped, same_path, -⟩ := Module.exists_mem_group listed
  have here : (resolver.classRef first).path = home.path := declares.1.symm.trans same_path.symm
  have there : (resolver.classRef second).path = home.path := same ▸ here
  -- Both names give their class to this module, so the module lists that class twice.
  have both_here : [first, second].Sublist (namesAt resolver.bucket home.path names) := by
    have kept := among.filter fun name => decide ((resolver.classRef name).path = home.path)
    rwa [List.filter_cons_of_pos (by simpa using here),
      List.filter_cons_of_pos (by simpa using there)] at kept
  have apart := distinct home grouped
  rw [names_of_mem_group related grouped] at apart
  have pair := apart.sublist (both_here.map _)
  exact (List.nodup_cons.mp pair).1 (List.mem_singleton.mpr (congrArg ClassRef.name same))

/-- References to the schema lead to its class, and that class is declared once and stands for the
schema. -/
structure Denotes (resolver : Resolver) (modules : List Module) (name : String) : Prop where
  followed : ∀ path, Reference.target path = .ok name → ∀ current context,
    resolver.follow current path context = .ok (.ref (resolver.classRef name))
  unique : ∃ home ∈ modules, ∃ model ∈ home.models, StandsFor resolver home name model ∧
    ∀ other ∈ modules, ∀ found ∈ other.models,
      (⟨other.path, found.name⟩ : ClassRef) = resolver.classRef name ↔ other = home ∧ found = model

theorem denotes_of_nodup {resolver : Resolver} {declared : List (ModulePath × Model)}
    (related : List.Forall₂ resolver.Declares
      ((Entries.keys resolver.nodes).filter resolver.isDeclared) declared)
    (distinct : ∀ home ∈ Module.group declared, (home.models.map Model.name).Nodup)
    {name : String} {node : Node} (known : Entries.get? resolver.nodes name = some node)
    (kept : resolver.isCollapsed node = false) :
    Denotes resolver ((Module.group declared).map Module.promoteInline) name where
  followed := by
    intro path valid current context
    rw [Resolver.follow_eq]
    exact Resolver.followWithin_of_kept valid known kept ..
  unique := by
    obtain ⟨plain, declare, home, grouped, own, promoted, same_class, hoisted⟩ :=
      exists_promoted_declaration related known kept
    have own_name : own.name = (resolver.classRef name).name := by rw [same_class]
    refine ⟨home.promoteInline, List.mem_map_of_mem grouped, own, promoted,
      ⟨own_name, node, plain, known, declare, hoisted⟩, ?_⟩
    intro other other_listed found inside
    obtain ⟨other, other_grouped, rfl⟩ := List.mem_map.mp other_listed
    rw [same_class, ClassRef.mk.injEq]
    refine ⟨fun ⟨same_path, same_name⟩ => ?_, ?_⟩
    · obtain rfl : other = home :=
        List.inj_on_of_nodup_map (Module.group_paths_nodup declared) other_grouped grouped same_path
      have apart := other.promoteInline_nodup (distinct other grouped)
      exact ⟨rfl, List.inj_on_of_nodup_map apart inside promoted same_name⟩
    · rintro ⟨same_home, rfl⟩
      have same_path := congrArg Module.path same_home
      exact ⟨same_path, rfl⟩

/-- Two names give the same class exactly when they are the same in full. The classes of a document
are pairwise different exactly when the full names of its declared schemas are, and then
a reference leads to the class of the schema it names and to no other. -/
theorem same_class_iff :
    (∀ bucket first second : String,
      ClassRef.ofSchemaName bucket first = ClassRef.ofSchemaName bucket second ↔
        fullName first = fullName second) ∧
    ∀ bucket conventions collapse schemas modules,
      ofSchemas bucket conventions collapse schemas = .ok modules →
      ∃ decoded, nodes conventions schemas = .ok decoded ∧
        ((∀ home ∈ modules, (home.models.map Model.name).Nodup) ↔
          ((declaredNames collapse decoded).map fullName).Nodup) ∧
        (((declaredNames collapse decoded).map fullName).Nodup →
          ∀ name ∈ declaredNames collapse decoded,
            Denotes ⟨bucket, decoded, conventions, collapse⟩ modules name) := by
  refine ⟨fun bucket first second => classRef_eq_iff, ?_⟩
  intro bucket conventions collapse schemas modules success
  obtain ⟨decoded, declared, known, related, rfl⟩ := ofSchemas_eq_ok success
  let resolver : Resolver := ⟨bucket, decoded, conventions, collapse⟩
  rw [← keys_nodes known] at related
  have same_names : (Entries.keys decoded).filter resolver.isDeclared =
      declaredNames collapse decoded := filter_isDeclared resolver
  have same_classes : ((declaredNames collapse decoded).map resolver.classRef).Nodup ↔
      ((declaredNames collapse decoded).map fullName).Nodup := by
    rw [List.Nodup, List.Nodup, List.pairwise_map, List.pairwise_map]
    exact List.Pairwise.iff fun _ _ => not_congr classRef_eq_iff
  have distinct_iff := nodup_names_iff related
  rw [same_names, same_classes] at distinct_iff
  refine ⟨decoded, known, ?_, fun distinct name listed => ?_⟩
  · rw [← distinct_iff, List.forall_mem_map]
    exact forall₂_congr fun home _ => home.promoteInline_nodup_iff
  · rw [← same_names] at listed
    obtain ⟨node, found, kept⟩ := resolver.exists_of_isDeclared (List.mem_filter.mp listed).2
    exact denotes_of_nodup related (distinct_iff.mpr distinct) found kept

namespace TwoSpellings

/-- A model with one property, of any type. -/
def schema (property : String) : Json :=
  .object [("type", .string "object"), ("properties", .object [(property, .object [])])]

def schemas (second : String) : Entries String Json :=
  [("Pod", schema "spec"), (second, schema "image")]

def model (name property : String) : Model :=
  .object ⟨name, none, [⟨property, .any, false, false, none, none, false⟩]⟩

theorem full_names_apart :
    ofSchemas "k8s" .kubernetes true (schemas "models.Node") =
        .ok [⟨["k8s", "models"], [model "Pod" "spec", model "Node" "image"]⟩] ∧
      (["Pod", "models.Node"].map fullName).Nodup ∧
      ∃ decoded, nodes .kubernetes (schemas "models.Node") = .ok decoded ∧
        ∀ name ∈ ["Pod", "models.Node"], Denotes ⟨"k8s", decoded, .kubernetes, true⟩
          [⟨["k8s", "models"], [model "Pod" "spec", model "Node" "image"]⟩] name := by
  have success : ofSchemas "k8s" .kubernetes true (schemas "models.Node") =
      .ok [⟨["k8s", "models"], [model "Pod" "spec", model "Node" "image"]⟩] := rfl
  have distinct : (["Pod", "models.Node"].map fullName).Nodup := by decide
  obtain ⟨decoded, known, -, denotes⟩ := same_class_iff.2 _ _ _ _ _ success
  have known_eq : nodes .kubernetes (schemas "models.Node") = .ok _ := rfl
  cases known_eq.symm.trans known
  exact ⟨success, distinct, _, rfl, denotes distinct⟩

/-- The name with the default module and the name without it are one class, declared twice. -/
theorem pod_declared_twice : "Pod" ≠ "models.Pod" ∧
    ClassRef.ofSchemaName "k8s" "Pod" = ClassRef.ofSchemaName "k8s" "models.Pod" ∧
    ofSchemas "k8s" .kubernetes true (schemas "models.Pod") =
      .ok [⟨["k8s", "models"], [model "Pod" "spec", model "Pod" "image"]⟩] :=
  ⟨by decide, rfl, rfl⟩

end TwoSpellings

end Derivation

end ResourceModels
