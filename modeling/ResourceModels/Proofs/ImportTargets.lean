import Mathlib
import ResourceModels.Proofs.ImportLines

/-!
# Where a relative import leads

An import is resolved from the package of the module it stands in. Its first dot is that package,
each further dot climbs to the package above, and from there the named packages are descended.
The import that is made for a module resolves to that module (`between_resolves`): it climbs
exactly as far as the two packages differ, so it stays below everything they share, and in
particular below their bucket.
-/

namespace ResourceModels.Code.RelativeImport

/-- The package so many steps above another one. Nothing is above the outermost package. -/
def climb? : Nat → ModulePath → Option ModulePath
  | 0, package => some package
  | _ + 1, [] => none
  | steps + 1, first :: rest => climb? steps (first :: rest).dropLast

/-- The segments of a dotted name. -/
def segments (dotted : String) : List String :=
  if dotted.toList.isEmpty then [] else (Text.pieces (· = '.') dotted.toList).map String.ofList

/-- The module that an import names inside the module `current`. Without a dot it is not
relative. -/
def resolve? (current : ModulePath) (relative : RelativeImport) : Option ModulePath :=
  match relative.dots with
  | 0 => none
  | steps + 1 => (climb? steps current.dropLast).map fun package =>
      package ++ segments relative.package ++ [relative.name]

theorem climb?_eq {steps : Nat} {package : ModulePath} (enough : steps ≤ package.length) :
    climb? steps package = some (package.take (package.length - steps)) := by
  induction steps generalizing package with
  | zero => simp [climb?]
  | succ steps ih =>
    cases package with
    | nil => simp at enough
    | cons first rest =>
      have enough_above : steps ≤ (first :: rest).dropLast.length := by
        rw [List.length_dropLast]
        omega
      rw [climb?, ih enough_above, List.length_dropLast, List.dropLast_eq_take, List.take_take,
        Nat.min_eq_left (by omega), Nat.sub_sub, Nat.add_comm 1]

/-- Packages with the same first segment share it. -/
theorem shared_pos {first second : ModulePath} {segment : String}
    (here : first.head? = some segment) (there : second.head? = some segment) :
    0 < shared first second := by
  cases first <;> cases second <;> simp_all [shared]

theorem head?_dropLast {path : ModulePath} (long : 2 ≤ path.length) :
    path.dropLast.head? = path.head? := by
  rcases path with _ | ⟨first, _ | ⟨second, rest⟩⟩
  · simp at long
  · simp at long
  · rfl

/-- The import leads from the module `current` to the module `target`, both by their given
namespaces. -/
structure Resolves (current target : ModulePath) (relative : RelativeImport) : Prop where
  /-- Climbing, descending and taking the name ends at the target. -/
  lands : relative.resolve? (modulePath current) = some (modulePath target)
  /-- There are as many packages above as are climbed. -/
  depth : relative.dots - 1 ≤ (modulePath current).dropLast.length
  /-- On the way up, a bucket that both modules are in is not left. -/
  bucket : 2 ≤ current.length → 2 ≤ target.length → current.head? = target.head? →
    ∀ steps < relative.dots, ∃ package, climb? steps (modulePath current).dropLast = some package ∧
      package.head? = current.head?.map moduleSegment
  /-- The clause means the same package when it is read as it is written. -/
  written : Imports.reached? (modulePath current).dropLast relative.fromClause.toList =
    some (modulePath target).dropLast

/-- The import made for a module resolves to that module, wherever the import stands. -/
theorem between_resolves (current target : ModulePath) (nonempty : target ≠ []) :
    Resolves current target (between current target) := by
  let package := (modulePath current).dropLast
  let above := (modulePath target).dropLast
  obtain ⟨bound, agree⟩ := Imports.shared_spec package above
  have dots_eq : (between current target).dots = package.length - shared package above + 1 := rfl
  have name_eq : above ++ [(between current target).name] = modulePath target := by
    have path_nonempty : modulePath target ≠ [] := by simpa [modulePath] using nonempty
    change above ++ [(modulePath target).getLast?.getD ""] = _
    rw [List.getLast?_eq_some_getLast path_nonempty, Option.getD_some,
      List.dropLast_append_getLast]
  have segments_eq : segments (between current target).package =
      above.drop (shared package above) := by
    refine (Imports.below_intercalate fun name listed => ?_).2
    obtain ⟨segment, -, rfl⟩ :=
      List.mem_map.mp (List.mem_of_mem_dropLast (List.mem_of_mem_drop listed))
    exact ⟨moduleSegment_ne_empty segment,
      (isWord_moduleSegment segment).not_mem (by decide) (by decide)⟩
  constructor
  case lands =>
    have kept : package.length - (package.length - shared package above) =
        shared package above := by omega
    rw [resolve?, dots_eq]
    dsimp only
    rw [climb?_eq (Nat.sub_le _ _), kept, agree, Option.map_some, segments_eq,
      List.take_append_drop, name_eq]
  case depth =>
    rw [dots_eq, Nat.add_sub_cancel]
    exact Nat.sub_le _ _
  case bucket =>
    intro current_long target_long same_bucket steps few
    have package_head : package.head? = current.head?.map moduleSegment := by
      rw [head?_dropLast (by simpa [modulePath] using current_long), modulePath, List.head?_map]
    have above_head : above.head? = current.head?.map moduleSegment := by
      rw [head?_dropLast (by simpa [modulePath] using target_long), modulePath, List.head?_map,
        same_bucket]
    obtain ⟨bucket, bucket_eq⟩ : ∃ bucket, current.head? = some bucket := by
      cases current with
      | nil => simp at current_long
      | cons bucket rest => exact ⟨bucket, rfl⟩
    rw [bucket_eq] at package_head above_head ⊢
    have common := shared_pos package_head above_head
    rw [dots_eq] at few
    have enough : steps ≤ package.length := by omega
    have some_left : package.length - steps ≠ 0 := by omega
    exact ⟨_, climb?_eq enough, by rw [List.head?_take, if_neg some_left, package_head]⟩
  case written => exact Imports.reached?_between current target

/-- Two packages up, and two down from there. -/
theorem meta_resolves :
    ["k8s", "io", "apimachinery", "meta", "v1"] ≠ [] ∧
    between ["k8s", "io", "api", "apps", "v1"] ["k8s", "io", "apimachinery", "meta", "v1"] =
      { dots := 3, package := "apimachinery.meta", name := "v1" } ∧
    Resolves ["k8s", "io", "api", "apps", "v1"] ["k8s", "io", "apimachinery", "meta", "v1"]
      (between ["k8s", "io", "api", "apps", "v1"] ["k8s", "io", "apimachinery", "meta", "v1"]) :=
  ⟨by decide, by decide +kernel, between_resolves _ _ (by decide)⟩

end ResourceModels.Code.RelativeImport
