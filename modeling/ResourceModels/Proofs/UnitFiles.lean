import Mathlib
import ResourceModels.Proofs.Output

/-!
# Files of units stay below the directory of the models

Two paths are the same path when they have the same components. The file of a unit has the
components of the root and behind them the segments of the unit's namespace after the bucket, each a
name that neither climbs nor starts anew, whatever the schemas were called. So the file is strictly
below the root, and it tells the namespace after the bucket (`generate_confined`).
-/

namespace ResourceModels

namespace Path

/-- What a path starts with: the root, the directory in which relative paths start when it is
named, or nothing. -/
def lead (path : Path) : List String :=
  if path.isAbsolute then ["/"]
  else if path.segments.head? = some "." then ["."]
  else []

/-- What tells two paths apart. Idle segments do not, except a dot at the start. -/
def components (path : Path) : List String := path.lead ++ path.steps

theorem head?_push (path : Path) {name : String} (proper : IsName name) :
    (path.push name).segments.head? = some "." ↔ path.segments.head? = some "." := by
  obtain ⟨start, trail, before, idle, after⟩ := path.segments_push proper.whole
  rw [before, after]
  cases start with
  | cons first rest => rfl
  | nil =>
    have not_dot : name ≠ "." := by
      rintro rfl
      cases proper.not_idle
    cases trail with
    | nil => simp [not_dot]
    | cons first rest => simp [not_dot, idle first List.mem_cons_self]

theorem lead_push (path : Path) {name : String} (proper : IsName name) :
    (path.push name).lead = path.lead := by
  unfold lead
  rw [isAbsolute_push path proper.whole]
  simp only [head?_push path proper]

theorem lead_foldl_push (path : Path) {names : List String} (proper : ∀ name ∈ names, IsName name) :
    (names.foldl push path).lead = path.lead := by
  induction names generalizing path with
  | nil => rfl
  | cons name rest ih =>
    rw [List.foldl_cons, ih _ fun other listed => proper other (List.mem_cons_of_mem _ listed),
      lead_push path (proper name List.mem_cons_self)]

theorem head?_ofSegments {first : String} {rest : List String}
    (whole : ∀ segment ∈ first :: rest, '/' ∉ segment.toList) :
    (ofSegments (first :: rest)).segments.head? = some first := by
  unfold ofSegments
  split
  next alone =>
    obtain ⟨rfl, -⟩ := List.cons.inj alone
    decide
  next => rw [segments_intercalate (List.cons_ne_nil first rest) whole, List.head?_cons]

/-- Another name in the place of the last one changes nothing about the start. -/
theorem lead_withName_push (path : Path) {name other : String} (proper : IsName name)
    (other_proper : IsName other) : ((path.push name).withName other).lead = path.lead := by
  obtain ⟨start, trail, before, idle, ends⟩ := path.segments_push proper.whole
  have same_start := (withName_push path proper other_proper.toIsStep).2
  have same_dot : ∃ parent, (path.push name).parent? = some parent ∧
      (parent.segments.head? = some "." ↔ (path.push name).segments.head? = some ".") := by
    cases start with
    | nil =>
      have not_dot : name ≠ "." := by
        rintro rfl
        cases proper.not_idle
      refine ⟨_, (parent?_of_single ends proper.toIsStep).1, ?_⟩
      rw [ends, segments_empty]
      simp [not_dot]
    | cons first rest =>
      have whole : ∀ segment ∈ trimmed (first :: rest), '/' ∉ segment.toList := by
        intro segment listed
        refine @whole_of_mem_segments (path.push name) segment ?_
        rw [ends]
        exact List.mem_append_left _ (mem_of_mem_trimmed listed)
      refine ⟨_, parent?_of_longer ends proper.toIsStep, ?_⟩
      rw [ends, trimmed, head?_ofSegments whole, List.cons_append, List.head?_cons]
  obtain ⟨parent, found, same_dot⟩ := same_dot
  have extended : (path.push name).withName other = parent.push other := by
    unfold withName
    rw [name?_push path proper, found]
    rfl
  rw [extended] at same_start ⊢
  unfold lead
  rw [same_start]
  simp only [head?_push parent other_proper, same_dot, head?_push path proper]

end Path

/-- The components of the file of a namespace. -/
theorem components_outputPath? (root : Path) {extension : String} (nonempty : extension ≠ "")
    (whole : '/' ∉ extension.toList) (bucket : String) {start : List String} {last : String}
    (proper : ∀ segment ∈ start ++ [last], Path.IsName segment) :
    ∃ output, outputPath? root extension (bucket :: (start ++ [last])) = some output ∧
      output.components = root.components ++ (start ++ [last ++ "." ++ extension]) := by
  obtain ⟨proper_start, proper_end⟩ := List.forall_mem_append.mp proper
  have proper_last := proper_end last List.mem_cons_self
  have extended := isName_withExtension proper_last nonempty whole
  refine ⟨_, outputPath?_eq root extension bucket start proper_last, ?_⟩
  have steps_eq := (Path.withName_push (start.foldl Path.push root) proper_last extended.toIsStep).1
  rw [Path.components, Path.lead_withName_push _ proper_last extended,
    Path.lead_foldl_push root proper_start, steps_eq,
    Path.steps_foldl_push root fun name listed => (proper_start name listed).toIsStep,
    Path.components, List.append_assoc, List.append_assoc]

namespace Code

/-- Where the file of a namespace is, among the files of all units. -/
structure Confined (root : Path) (units : List GeneratedUnit) (namespaced : ModulePath) :
    Prop where
  /-- A bucket alone has no file. -/
  alone : namespaced.length < 2 → outputPath? root fileExtension namespaced = none
  /-- The file is strictly below the root, where the segments after the bucket lead. -/
  faithful : 2 ≤ namespaced.length → ∃ bucket start last output,
    namespaced = bucket :: (start ++ [last]) ∧
      outputPath? root fileExtension namespaced = some output ∧
      output.components = root.components ++ (start ++ [last ++ ".py"]) ∧
      ∀ fs : FileSystem, fs.destination output = fs.destination root ++ (start ++ [last ++ ".py"])
  /-- No segment after the bucket is special in a path. -/
  plain : ∀ segment ∈ namespaced.tail,
    segment ∉ ["", ".", ".."] ∧ '/' ∉ segment.toList ∧ '.' ∉ segment.toList
  /-- Units that have the same file agree after the bucket. -/
  apart : ∀ other ∈ units, ∀ output output',
    outputPath? root fileExtension namespaced = some output →
    outputPath? root fileExtension other.path = some output' →
    output.components = output'.components → namespaced.tail = other.path.tail

/-- Whatever the schemas are called, the files of their modules are below the root. -/
theorem generate_confined (style : Style) (set : ModelSet) (root : Path) {unit : GeneratedUnit}
    (listed : unit ∈ generate style set) :
    Confined root (generate style set) unit.path := by
  have nonempty : fileExtension ≠ "" := by decide
  have whole : '/' ∉ fileExtension.toList := by decide
  have with_extension : ∀ name : String, name ++ "." ++ fileExtension = name ++ ".py" := by
    intro name
    rw [String.append_assoc]
    rfl
  have output_of : ∀ unit ∈ generate style set, ∀ bucket start last,
      unit.path = bucket :: (start ++ [last]) →
      ∃ output, outputPath? root fileExtension unit.path = some output ∧
        output.components = root.components ++ (start ++ [last ++ ".py"]) := by
    intro unit listed bucket start last same
    have proper : ∀ segment ∈ start ++ [last], Path.IsName segment := fun segment inside =>
      isName_of_mem_generate listed (same ▸ List.mem_cons_of_mem _ inside)
    rw [same, ← with_extension]
    exact components_outputPath? root nonempty whole bucket proper
  refine ⟨fun short => ?_, fun long => ?_, fun segment inside => ?_,
    fun other other_listed output output' found found' same => ?_⟩
  · cases found : outputPath? root fileExtension unit.path with
    | none => rfl
    | some output =>
      obtain ⟨bucket, start, last, same⟩ := exists_of_outputPath? found
      rw [same, List.length_cons, List.length_append, List.length_singleton] at short
      omega
  · obtain ⟨bucket, segments, same⟩ :=
      List.exists_cons_of_length_pos (Nat.lt_of_lt_of_le Nat.zero_lt_two long)
    have some_segments : segments ≠ [] := by
      rintro rfl
      rw [same, List.length_singleton] at long
      omega
    obtain ⟨start, last, rfl⟩ := (List.eq_nil_or_concat' segments).resolve_left some_segments
    obtain ⟨output, found, components_eq⟩ := output_of unit listed bucket start last same
    refine ⟨bucket, start, last, output, same, found, components_eq, fun fs => ?_⟩
    obtain ⟨bucket', start', last', same', place⟩ := destination_outputPath? nonempty whole
      (fun segment => isName_of_mem_generate listed) found fs
    obtain ⟨-, segments_eq⟩ := List.cons.inj (same.symm.trans same')
    obtain ⟨rfl, last_eq⟩ := List.append_inj' segments_eq rfl
    obtain rfl := (List.cons.inj last_eq).1
    rw [place, with_extension]
  · obtain ⟨original, rfl⟩ :=
      exists_moduleSegment_of_mem_generate listed (List.mem_of_mem_tail inside)
    have name := isName_moduleSegment original
    have word := isWord_moduleSegment original
    refine ⟨?_, name.whole, word.not_mem (by decide) (by decide)⟩
    have not_idle := name.not_idle
    simp only [Path.isIdle, Bool.or_eq_false_iff, decide_eq_false_iff_not] at not_idle
    simp [not_idle, name.not_climbing]
  · obtain ⟨bucket, start, last, path_eq⟩ := exists_of_outputPath? found
    obtain ⟨bucket', start', last', path_eq'⟩ := exists_of_outputPath? found'
    obtain ⟨_, again, components_eq⟩ := output_of unit listed bucket start last path_eq
    obtain ⟨_, again', components_eq'⟩ := output_of other other_listed bucket' start' last' path_eq'
    cases found.symm.trans again
    cases found'.symm.trans again'
    rw [components_eq, components_eq'] at same
    obtain ⟨rfl, last_eq⟩ := List.append_inj' (List.append_cancel_left same) rfl
    obtain rfl := (String.append_left_inj _).mp (List.cons.inj last_eq).1
    rw [path_eq, path_eq', List.tail_cons, List.tail_cons]

namespace Climbing

/-- Every segment of this namespace means something in a path. -/
def set : ModelSet := [⟨["k8s", "..", "/etc", "", "passwd."], []⟩]

theorem climbing_confined : ∃ unit ∈ generate {} set,
    unit.path = ["k8s", "__", "_etc", "_", "passwd_"] ∧
      outputPath? ⟨"models/."⟩ fileExtension unit.path =
        some ⟨"models/./__/_etc/_/passwd_.py"⟩ ∧
      Confined ⟨"models/."⟩ (generate {} set) unit.path := by
  have listed : (⟨modulePath ["k8s", "..", "/etc", "", "passwd."],
      moduleText {} (declarationOrder set) ⟨["k8s", "..", "/etc", "", "passwd."], []⟩⟩ :
        GeneratedUnit) ∈ generate {} set :=
    List.mem_mergeSort.mpr (List.mem_append_left _ List.mem_cons_self)
  exact ⟨_, listed, by decide, by decide +kernel, generate_confined {} set ⟨"models/."⟩ listed⟩

end Climbing

end Code

end ResourceModels
