import Mathlib
import ResourceModels.Pipeline
import ResourceModels.Proofs.UnitPaths

/-!
# Every package on the way to a module is importable

A package can be imported when the package around it can and it has an initializer of its own. The
units of a model set close this chain for every module: they are the rendered modules, one for
each, and one empty initializer in each package that encloses a module, whatever was put together
when the segments were made importable. Main statement: `generate_complete`.
-/

namespace ResourceModels.Code

/-- A non-empty proper start of a namespace. -/
def Encloses (package path : ModulePath) : Prop :=
  package ≠ [] ∧ package <+: path ∧ package ≠ path

instance (package path : ModulePath) : Decidable (Encloses package path) :=
  inferInstanceAs (Decidable (_ ∧ _))

/-- The package can be reached: it and all packages around it have initializers. -/
inductive Importable (units : List GeneratedUnit) : ModulePath → Prop
  | top : Importable units []
  | within {package : ModulePath} {name : String} (around : Importable units package)
      (initializer : ⟨package ++ [name] ++ [initModule], ""⟩ ∈ units) :
      Importable units (package ++ [name])

/-- The units of a model set, each as often as it has to be there. -/
structure Complete (style : Style) (set : ModelSet) (units : List GeneratedUnit) : Prop where
  sorted : units.Pairwise fun unit later => ModulePath.le unit.path later.path = true
  /-- The units with a text are the modules, one for each. -/
  modules : (units.filter fun unit => unit.body ≠ "").Perm
    (set.map fun home => ⟨modulePath home.path, moduleText style (declarationOrder set) home⟩)
  /-- The units without a text are the initializers of the enclosing packages, -/
  initializers : ∀ unit, unit.body = "" → (unit ∈ units ↔
    ∃ package, unit.path = package ++ [initModule] ∧
      ∃ home ∈ set, Encloses package (modulePath home.path))
  /-- and none of them is there twice. -/
  once : (units.filter fun unit => unit.body = "").Nodup
  importable : ∀ home ∈ set, ∀ package, Encloses package (modulePath home.path) →
    Importable units package

theorem mem_packagesAbove_iff_encloses {path package : ModulePath} :
    package ∈ packagesAbove path ↔ Encloses package path := by
  rw [mem_packagesAbove, Encloses]
  apply and_congr_right
  intro nonempty
  constructor
  · rintro ⟨rest, more, rfl⟩
    simp [more]
  · rintro ⟨⟨rest, rfl⟩, proper⟩
    exact ⟨rest, by simpa using proper, rfl⟩

theorem mem_packagesOf_iff_encloses {set : ModelSet} {package : ModulePath} :
    package ∈ packagesOf set ↔ ∃ home ∈ set, Encloses package (modulePath home.path) := by
  simp only [mem_packagesOf, mem_packagesAbove_iff_encloses]

theorem moduleText_ne_empty (style : Style) (ranks : DeclarationOrder.Ranks) (home : Module) :
    moduleText style ranks home ≠ "" := by
  intro empty
  have characters := congrArg String.length empty
  simp [moduleText, ModuleText.assemble, ModuleText.firstLine] at characters

/-- What encloses an enclosing package encloses the same namespace. -/
theorem Encloses.of_append {package more path : ModulePath} (nonempty : package ≠ [])
    (encloses : Encloses (package ++ more) path) : Encloses package path := by
  obtain ⟨-, inside, proper⟩ := encloses
  have start : package <+: path := (List.prefix_append package more).trans inside
  refine ⟨nonempty, start, ?_⟩
  rintro rfl
  have nothing_more := inside.length_le
  simp only [List.length_append] at nothing_more
  have no_segments : more = [] := List.length_eq_zero_iff.mp (by omega)
  simp [no_segments] at proper

/-- With an initializer in every package that encloses a namespace, each of them is importable. -/
theorem importable_of_initializers {units : List GeneratedUnit} {path : ModulePath}
    (initializers : ∀ package, Encloses package path → ⟨package ++ [initModule], ""⟩ ∈ units)
    {package : ModulePath} (encloses : Encloses package path) : Importable units package := by
  induction package using List.reverseRecOn with
  | nil => exact .top
  | append_singleton package name ih =>
    apply Importable.within _ (initializers _ encloses)
    by_cases top : package = []
    · subst top
      exact .top
    · exact ih (encloses.of_append top)

theorem generate_sorted (style : Style) (set : ModelSet) :
    (generate style set).Pairwise fun unit later => ModulePath.le unit.path later.path = true :=
  ModulePath.sorted_mergeSort GeneratedUnit.path _

/-- A text tells the modules from the initializers, and nothing else is among the units. -/
theorem generate_filter (style : Style) (set : ModelSet) :
    ((generate style set).filter fun unit => unit.body ≠ "").Perm
      (set.map fun home => ⟨modulePath home.path, moduleText style (declarationOrder set) home⟩) ∧
    ((generate style set).filter fun unit => unit.body = "").Perm
      ((packagesOf set).map fun package => ⟨package ++ [initModule], ""⟩) := by
  have texts := (generate_perm style set).filter fun unit => unit.body ≠ ""
  have empties := (generate_perm style set).filter fun unit => unit.body = ""
  simp only [List.filter_append, List.filter_map] at texts empties
  constructor
  · simpa [Function.comp_def, moduleText_ne_empty] using texts
  · simpa [Function.comp_def, moduleText_ne_empty] using empties

theorem mem_generate_empty {style : Style} {set : ModelSet} {unit : GeneratedUnit}
    (empty : unit.body = "") : unit ∈ generate style set ↔
      ∃ package, unit.path = package ++ [initModule] ∧
        ∃ home ∈ set, Encloses package (modulePath home.path) := by
  have listed := (generate_filter style set).2.mem_iff (a := unit)
  rw [List.mem_filter, decide_eq_true empty, List.mem_map] at listed
  simp only [mem_packagesOf_iff_encloses, and_true] at listed
  rw [listed]
  apply exists_congr
  intro package
  cases unit
  simp_all [and_comm, eq_comm]

/-- For every model set the generator succeeds with a complete list of units. -/
theorem generate_complete (style : Style) (set : ModelSet) :
    ∃ units, (generator style).generate set = .ok units ∧ Complete style set units := by
  refine ⟨generate style set, rfl, ?_⟩
  constructor
  case sorted => exact generate_sorted style set
  case modules => exact (generate_filter style set).1
  case initializers => exact fun unit empty => mem_generate_empty empty
  case once =>
    rw [(generate_filter style set).2.nodup_iff]
    apply (nodup_packagesOf set).map
    intro package other same
    exact List.append_cancel_right (congrArg GeneratedUnit.path same)
  case importable =>
    intro home present package encloses
    apply importable_of_initializers _ encloses
    intro other above
    exact (mem_generate_empty rfl).mpr ⟨other, rfl, home, present, above⟩

end ResourceModels.Code
