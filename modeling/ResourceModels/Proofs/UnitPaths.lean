import Mathlib
import ResourceModels.Code.Package
import ResourceModels.Derivation.Document
import ResourceModels.Proofs.Imports

/-!
# Namespaces of generated units

A namespace is made importable segment by segment, and that tells apart neither two characters that
no identifier holds nor an underscore that was there from one that was put in. So units have
different namespaces exactly when no two modules are spelled alike and no module is spelled as the
initializer of a package on the way to a module (`nodup_generate_iff`).
-/

namespace ResourceModels.Code

/-- The importable form of cleaned text that is not importable itself. -/
inductive Repair : List Char → List Char → Prop
  | empty : Repair [] ['_']
  | digit (c : Char) (rest : List Char) (digit : Text.isAsciiDigit c = true) :
      Repair (c :: rest) ('_' :: c :: rest)
  | keyword (name : List Char) (keyword : isKeyword (String.ofList name) = true) :
      Repair name (name ++ ['_'])

/-- Segments with one importable form. -/
inductive SpeltAlike (first second : String) : Prop
  | cleaned (same : clean first.toList = clean second.toList)
  | left (repair : Repair (clean first.toList) (clean second.toList))
  | right (repair : Repair (clean second.toList) (clean first.toList))

theorem no_underscore_of_keyword : ∀ name ∈ keywords, '_' ∉ name.toList := by decide

theorem keyword_spec {name : List Char} (keyword : isKeyword (String.ofList name) = true) :
    '_' ∉ name ∧ ∃ c rest, name = c :: rest ∧ Text.isAsciiDigit c = false := by
  have starts : ∀ keyword ∈ keywords, keyword.toList.head?.any (!Text.isAsciiDigit ·) := by decide
  have listed := isKeyword_iff.mp keyword
  have spelling := no_underscore_of_keyword _ listed
  have start := starts _ listed
  rw [String.toList_ofList] at spelling start
  cases name with
  | nil => cases start
  | cons c rest => exact ⟨spelling, c, rest, rfl, by simpa using start⟩

namespace Repair

variable {first second third : List Char}

/-- One underscore is put in, in front of what starts with no letter or behind a word without
underscores. -/
theorem ends (repair : Repair first second) :
    (second = '_' :: first ∧ ∀ c ∈ first.head?, Text.isAsciiDigit c = true) ∨
      second = first ++ ['_'] ∧ '_' ∉ first ∧
        ∃ c rest, first = c :: rest ∧ Text.isAsciiDigit c = false := by
  cases repair with
  | empty => exact .inl ⟨rfl, by simp⟩
  | digit c rest digit => exact .inl ⟨rfl, by simpa using digit⟩
  | keyword name keyword => exact .inr ⟨rfl, keyword_spec keyword⟩

/-- What has been repaired needs no more repair. -/
theorem final (repair : Repair first second) : ¬ Repair second third := by
  have no_digit : Text.isAsciiDigit '_' = false := by decide
  intro again
  obtain ⟨rfl, -⟩ | ⟨rfl, -, c, rest, rfl, not_digit⟩ := repair.ends
  · obtain ⟨-, digit⟩ | ⟨-, no_underscore, -⟩ := again.ends
    · cases no_digit.symm.trans (digit '_' rfl)
    · exact no_underscore List.mem_cons_self
  · obtain ⟨-, digit⟩ | ⟨-, no_underscore, -⟩ := again.ends
    · cases not_digit.symm.trans (digit c rfl)
    · exact no_underscore (by simp)

theorem unique (left : Repair first second) (right : Repair first third) : second = third := by
  obtain ⟨rfl, digit⟩ | ⟨rfl, -, c, rest, rfl, not_digit⟩ := left.ends
  · obtain ⟨rfl, -⟩ | ⟨-, -, c, rest, rfl, not_digit⟩ := right.ends
    · rfl
    · cases not_digit.symm.trans (digit c rfl)
  · obtain ⟨-, digit⟩ | ⟨rfl, -⟩ := right.ends
    · cases not_digit.symm.trans (digit c rfl)
    · rfl

/-- A word with an underscore behind it does not start with one. -/
theorem injective (left : Repair first third) (right : Repair second third) : first = second := by
  obtain ⟨rfl, -⟩ | ⟨rfl, no_underscore, c, rest, rfl, -⟩ := left.ends
  · obtain ⟨same, -⟩ | ⟨same, no_underscore, c, rest, rfl, -⟩ := right.ends
    · exact (List.cons.inj same).2
    · exact absurd ((List.cons.inj same).1 ▸ List.mem_cons_self) no_underscore
  · obtain ⟨same, -⟩ | ⟨same, -⟩ := right.ends
    · exact absurd ((List.cons.inj same).1 ▸ List.mem_cons_self) no_underscore
    · exact List.append_cancel_right same

end Repair

/-- A segment is cleaned, and then repaired where that is needed. -/
theorem moduleSegment_spec (segment : String) :
    Repair (clean segment.toList) (moduleSegment segment).toList ∨
      (moduleSegment segment).toList = clean segment.toList ∧
        ∀ other, ¬ Repair (clean segment.toList) other := by
  unfold moduleSegment
  split
  next same =>
    subst same
    have whole : clean initModule.toList = initModule.toList := by decide +kernel
    refine .inr ⟨whole.symm, fun other repair => ?_⟩
    rw [whole] at repair
    obtain ⟨-, digit⟩ | ⟨-, no_underscore, -⟩ := repair.ends
    · exact absurd (digit '_' rfl) (by decide)
    · exact no_underscore (by decide)
  next =>
    dsimp only
    generalize clean segment.toList = cleaned
    cases cleaned with
    | nil => exact .inl .empty
    | cons c rest =>
      dsimp only
      by_cases digit : Text.isAsciiDigit c = true
      · rw [if_pos digit, String.toList_ofList]
        exact .inl (.digit c rest digit)
      · rw [if_neg digit, avoidKeyword]
        by_cases keyword : isKeyword (String.ofList (c :: rest)) = true
        · rw [if_pos keyword, String.toList_append, String.toList_ofList]
          exact .inl (.keyword _ keyword)
        · rw [if_neg keyword, String.toList_ofList]
          refine .inr ⟨rfl, fun other repair => ?_⟩
          cases repair with
          | digit _ _ is_digit => exact digit is_digit
          | keyword _ is_keyword => exact keyword is_keyword

theorem moduleSegment_of_repair {segment : String} {repaired : List Char}
    (repair : Repair (clean segment.toList) repaired) :
    (moduleSegment segment).toList = repaired := by
  obtain made | ⟨-, unrepaired⟩ := moduleSegment_spec segment
  · exact made.unique repair
  · exact absurd repair (unrepaired repaired)

/-- Two segments are given one importable form where they are spelled alike, and only there. -/
theorem moduleSegment_eq_iff {first second : String} :
    moduleSegment first = moduleSegment second ↔ SpeltAlike first second := by
  rw [← String.toList_inj]
  constructor
  · intro same
    obtain left | ⟨left, -⟩ := moduleSegment_spec first <;>
      obtain right | ⟨right, -⟩ := moduleSegment_spec second
    · rw [same] at left
      exact .cleaned (left.injective right)
    · rw [same, right] at left
      exact .left left
    · rw [← same, left] at right
      exact .right right
    · exact .cleaned (left.symm.trans (same.trans right))
  · have repaired : ∀ {plain other : String}, Repair (clean plain.toList) (clean other.toList) →
        (moduleSegment plain).toList = (moduleSegment other).toList := by
      intro plain other repair
      obtain again | ⟨kept, -⟩ := moduleSegment_spec other
      · exact absurd again repair.final
      · rw [kept, moduleSegment_of_repair repair]
    rintro (same | repair | repair)
    · obtain left | ⟨left, left_none⟩ := moduleSegment_spec first <;>
        obtain right | ⟨right, right_none⟩ := moduleSegment_spec second
      · exact left.unique (same ▸ right)
      · exact absurd (same ▸ left) (right_none _)
      · exact absurd (same ▸ right) (left_none _)
      · rw [left, right, same]
    · exact repaired repair
    · exact (repaired repair).symm

instance (first second : String) : Decidable (SpeltAlike first second) :=
  decidable_of_iff _ moduleSegment_eq_iff

theorem modulePath_eq_iff {first second : ModulePath} :
    modulePath first = modulePath second ↔ List.Forall₂ SpeltAlike first second := by
  induction first generalizing second with
  | nil =>
    rw [List.forall₂_nil_left_iff]
    exact (List.map_eq_nil_iff.eq ▸ eq_comm)
  | cons segment rest ih =>
    cases second with
    | nil => simp [modulePath]
    | cons other others =>
      rw [List.forall₂_cons, ← ih, ← moduleSegment_eq_iff]
      exact List.cons.injEq _ _ _ _ ▸ Iff.rfl

theorem mem_packagesAbove {path package : ModulePath} : package ∈ packagesAbove path ↔
    package ≠ [] ∧ ∃ rest, rest ≠ [] ∧ path = package ++ rest := by
  rw [packagesAbove, List.mem_map]
  constructor
  · rintro ⟨i, inside, rfl⟩
    have bound := List.mem_range.mp inside
    refine ⟨?_, path.drop (i + 1), ?_, (List.take_append_drop _ _).symm⟩
    · rw [Ne, List.take_eq_nil_iff]
      rintro (absurd_zero | rfl)
      · omega
      · cases bound
    · rw [Ne, List.drop_eq_nil_iff]
      omega
  · rintro ⟨nonempty, rest, more, rfl⟩
    have some_segments := List.length_pos_iff.mpr nonempty
    have more_segments := List.length_pos_iff.mpr more
    refine ⟨package.length - 1, List.mem_range.mpr ?_, ?_⟩
    · rw [List.length_append]
      omega
    · rw [Nat.sub_add_cancel some_segments, List.take_left]

/-- The packages on the way to the modules of a set. -/
def packagesOf (set : ModelSet) : List ModulePath :=
  Imports.distinct
    (((set.map fun home => modulePath home.path).flatMap packagesAbove).mergeSort ModulePath.le)

theorem nodup_packagesOf (set : ModelSet) : (packagesOf set).Nodup :=
  Imports.nodup_distinct (ModulePath.sorted_mergeSort id _)

theorem mem_packagesOf {set : ModelSet} {package : ModulePath} : package ∈ packagesOf set ↔
    ∃ home ∈ set, package ∈ packagesAbove (modulePath home.path) := by
  rw [packagesOf, Imports.mem_distinct, List.mem_mergeSort, List.mem_flatMap]
  simp

/-- The units: the rendered modules, and an empty one in every package above. -/
theorem generate_perm (style : Style) (set : ModelSet) :
    (generate style set).Perm
      ((set.map fun home => ⟨modulePath home.path, moduleText style (declarationOrder set) home⟩) ++
        (packagesOf set).map fun package => ⟨package ++ [initModule], ""⟩) := by
  unfold generate
  refine (List.mergeSort_perm _ _).trans (.of_eq ?_)
  rw [initializers, List.map_map]
  rfl

/-- The namespaces of the units: those of the modules, and one in every package above. -/
theorem generate_paths (style : Style) (set : ModelSet) :
    ((generate style set).map GeneratedUnit.path).Perm
      ((set.map fun home => modulePath home.path) ++
        (packagesOf set).map (· ++ [initModule])) := by
  refine ((generate_perm style set).map _).trans (.of_eq ?_)
  rw [List.map_append, List.map_map, List.map_map]
  rfl

/-- A module is spelled as the initializer of a package on the way to another module. -/
def SpeltAsInitializer (path other : ModulePath) : Prop :=
  ∃ package rest, package ≠ [] ∧ rest ≠ [] ∧ other = package ++ rest ∧
    List.Forall₂ SpeltAlike path (package ++ [initModule])

theorem speltAsInitializer_iff {path other : ModulePath} : SpeltAsInitializer path other ↔
    ∃ package ∈ packagesAbove (modulePath other), modulePath path = package ++ [initModule] := by
  have kept : ∀ package : ModulePath,
      modulePath (package ++ [initModule]) = modulePath package ++ [initModule] := by
    intro package
    have init : moduleSegment initModule = initModule := if_pos rfl
    rw [modulePath, List.map_append, List.map_singleton, init]
    rfl
  constructor
  · rintro ⟨package, rest, nonempty, more, rfl, alike⟩
    refine ⟨modulePath package, mem_packagesAbove.mpr ⟨?_, modulePath rest, ?_, ?_⟩, ?_⟩
    · exact List.map_eq_nil_iff.not.mpr nonempty
    · exact List.map_eq_nil_iff.not.mpr more
    · exact List.map_append
    · rw [modulePath_eq_iff.mpr alike, kept]
  · rintro ⟨package, above, same⟩
    obtain ⟨nonempty, rest, more, whole⟩ := mem_packagesAbove.mp above
    obtain ⟨start, ending, rfl, rfl, rfl⟩ := List.map_eq_append_iff.mp whole
    refine ⟨start, ending, ?_, ?_, rfl, modulePath_eq_iff.mp ?_⟩
    · rintro rfl
      exact nonempty rfl
    · rintro rfl
      exact more rfl
    · rw [same, kept]
      rfl

instance (path other : ModulePath) : Decidable (SpeltAsInitializer path other) :=
  decidable_of_iff _ speltAsInitializer_iff.symm

/-- Of modules with different namespaces, all units have different namespaces exactly when no two
modules are spelled alike and none is spelled as an initializer. -/
theorem nodup_generate_iff (style : Style) {set : ModelSet}
    (distinct : (set.map Module.path).Nodup) :
    ((generate style set).map GeneratedUnit.path).Nodup ↔
      (∀ home ∈ set, ∀ other ∈ set,
        List.Forall₂ SpeltAlike home.path other.path → home.path = other.path) ∧
      ∀ home ∈ set, ∀ other ∈ set, ¬ SpeltAsInitializer home.path other.path := by
  have initializers_apart : ((packagesOf set).map (· ++ [initModule])).Nodup :=
    (nodup_packagesOf set).map fun _ _ => List.append_cancel_right
  rw [(generate_paths style set).nodup_iff, List.nodup_append]
  constructor
  · rintro ⟨modules_apart, -, across⟩
    refine ⟨fun home present other other_present alike => ?_,
      fun home present other other_present spelt => ?_⟩
    · exact congrArg Module.path
        (List.inj_on_of_nodup_map modules_apart present other_present (modulePath_eq_iff.mpr alike))
    · obtain ⟨package, above, same⟩ := speltAsInitializer_iff.mp spelt
      have listed := mem_packagesOf.mpr ⟨other, other_present, above⟩
      exact across _ (List.mem_map_of_mem present) _ (List.mem_map_of_mem listed) same
  · rintro ⟨apart, no_initializer⟩
    refine ⟨?_, initializers_apart, ?_⟩
    · refine (List.nodup_map_iff_inj_on distinct.of_map).mpr ?_
      intro home present other other_present same
      exact List.inj_on_of_nodup_map distinct present other_present
        (apart home present other other_present (modulePath_eq_iff.mp same))
    · rintro path module_path init init_path rfl
      obtain ⟨home, present, rfl⟩ := List.mem_map.mp module_path
      obtain ⟨package, listed, same⟩ := List.mem_map.mp init_path
      obtain ⟨other, other_present, above⟩ := mem_packagesOf.mp listed
      exact no_initializer home present other other_present
        (speltAsInitializer_iff.mpr ⟨package, above, same.symm⟩)

namespace TwoModules

def schema : Json := .object [("type", .string "object")]

/-- A document that declares one class in each of two modules. -/
def schemas (first second : String) : Entries String Json := [(first, schema), (second, schema)]

def set (first second : ModulePath) : ModelSet :=
  [⟨first, [.object ⟨"Issuer", none, []⟩]⟩, ⟨second, [.object ⟨"Order", none, []⟩]⟩]

theorem separate_units :
    ((set ["k8s", "cert-manager"] ["k8s", "acme", "v1"]).map Module.path).Nodup ∧
      ((generate {} (set ["k8s", "cert-manager"] ["k8s", "acme", "v1"])).map
        GeneratedUnit.path).Nodup :=
  ⟨by decide, (nodup_generate_iff {} (by decide)).mpr ⟨by decide, by decide⟩⟩

/-- The namespaces that two modules and the packages above them make. -/
theorem paths_of_packages {first second : ModulePath} {packages : List ModulePath}
    (above : packagesOf (set first second) = packages) :
    ((generate {} (set first second)).map GeneratedUnit.path).Perm
      (modulePath first :: modulePath second :: packages.map (· ++ [initModule])) := by
  rw [← above]
  exact generate_paths {} (set first second)

/-- A dash is not told from an underscore, and a module can take the namespace of an initializer. -/
theorem units_merged :
    (Derivation.ofSchemas "k8s" .kubernetes true
        (schemas "cert-manager.Issuer" "cert_manager.Order") =
      .ok (set ["k8s", "cert-manager"] ["k8s", "cert_manager"]) ∧
    ((set ["k8s", "cert-manager"] ["k8s", "cert_manager"]).map Module.path).Nodup ∧
    ¬ ((generate {} (set ["k8s", "cert-manager"] ["k8s", "cert_manager"])).map
      GeneratedUnit.path).Nodup) ∧
    Derivation.ofSchemas "k8s" .kubernetes true (schemas "acme.__init__.Issuer" "acme.v1.Order") =
      .ok (set ["k8s", "acme", "__init__"] ["k8s", "acme", "v1"]) ∧
    ((set ["k8s", "acme", "__init__"] ["k8s", "acme", "v1"]).map Module.path).Nodup ∧
    ¬ ((generate {} (set ["k8s", "acme", "__init__"] ["k8s", "acme", "v1"])).map
      GeneratedUnit.path).Nodup := by
  have bucket : packagesOf (set ["k8s", "cert-manager"] ["k8s", "cert_manager"]) = [["k8s"]] := by
    cbv
  have packages : packagesOf (set ["k8s", "acme", "__init__"] ["k8s", "acme", "v1"]) =
      [["k8s"], ["k8s", "acme"]] := by
    cbv
  refine ⟨⟨rfl, by decide, fun apart => ?_⟩, rfl, by decide, fun apart => ?_⟩
  · exact absurd ((paths_of_packages bucket).nodup_iff.mp apart) (by decide)
  · exact absurd ((paths_of_packages packages).nodup_iff.mp apart) (by decide)

end TwoModules

end ResourceModels.Code
