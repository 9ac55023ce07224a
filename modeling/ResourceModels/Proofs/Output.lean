import Mathlib
import ResourceModels.Pipeline
import ResourceModels.Proofs.Places
import ResourceModels.Proofs.Steps

/-!
# Where generated units are written

Every segment of a generated namespace is a name, so the file of a unit stands strictly below the
directory of the models. Writing units is saving those files in order.
-/

namespace ResourceModels

namespace Code

theorem isKeyword_iff {name : String} : isKeyword name = true ↔ name ∈ keywords := by
  simp [isKeyword]

theorem continuesIdentifier_iff {c : Char} :
    continuesIdentifier c = true ↔ c = '_' ∨ Text.isAlphanumeric c = true := by
  simp [continuesIdentifier]

/-- Letters, numbers and underscores alone. -/
def IsWord (text : String) : Prop := ∀ c ∈ text.toList, c = '_' ∨ Text.isAlphanumeric c = true

namespace IsWord

theorem not_mem {text : String} (word : IsWord text) {c : Char} (not_underscore : c ≠ '_')
    (not_alphanumeric : Text.isAlphanumeric c = false) : c ∉ text.toList := by
  intro inside
  rcases word c inside with same | alphanumeric
  · exact not_underscore same
  · rw [not_alphanumeric] at alphanumeric
    cases alphanumeric

theorem append {first second : String} (left : IsWord first) (right : IsWord second) :
    IsWord (first ++ second) := by
  intro c inside
  rw [String.toList_append, List.mem_append] at inside
  exact inside.elim (left c) (right c)

theorem underscore : IsWord "_" := by
  intro c inside
  exact .inl (List.mem_singleton.mp inside)

/-- A word is a name, unless it is empty. -/
theorem isName {segment : String} (word : IsWord segment) (nonempty : segment ≠ "") :
    Path.IsName segment := by
  have no_dot : '.' ∉ segment.toList := word.not_mem (by decide) (by decide)
  refine ⟨⟨word.not_mem (by decide) (by decide), ?_⟩, ?_⟩
  · unfold Path.isIdle
    rw [Bool.or_eq_false_iff, decide_eq_false_iff_not, decide_eq_false_iff_not]
    refine ⟨nonempty, ?_⟩
    rintro rfl
    exact no_dot (by decide)
  · rintro rfl
    exact no_dot (by decide)

end IsWord

theorem isWord_of_all {text : String} (all : text.toList.all continuesIdentifier = true) :
    IsWord text :=
  fun c inside => continuesIdentifier_iff.mp (List.all_eq_true.mp all c inside)

theorem isWord_clean (name : List Char) : IsWord (String.ofList (clean name)) := by
  intro c inside
  rw [String.toList_ofList] at inside
  obtain ⟨d, -, rfl⟩ := List.mem_map.mp inside
  split
  next alphanumeric => exact .inr alphanumeric
  next => exact .inl rfl

theorem isWord_avoidKeyword {name : String} (word : IsWord name) : IsWord (avoidKeyword name) := by
  unfold avoidKeyword
  split
  · exact word.append .underscore
  · exact word

theorem isWord_initModule : IsWord initModule := by
  intro c inside
  have underscores_or_letters : c ∈ ['_', '_', 'i', 'n', 'i', 't', '_', '_'] := inside
  fin_cases underscores_or_letters <;> decide

/-- Whatever a segment is made of, its importable form is a word. -/
theorem isWord_moduleSegment (segment : String) : IsWord (moduleSegment segment) := by
  unfold moduleSegment
  split
  next same =>
    rw [same]
    exact isWord_initModule
  next =>
    have cleaned_word := isWord_clean segment.toList
    dsimp only
    cases cleaned : clean segment.toList with
    | nil => exact .underscore
    | cons c rest =>
      rw [cleaned] at cleaned_word
      dsimp only
      split
      · have joined : String.ofList ('_' :: c :: rest) = "_" ++ String.ofList (c :: rest) := by
          rw [← String.toList_inj, String.toList_append]
          simp
        rw [joined]
        exact IsWord.underscore.append cleaned_word
      · exact isWord_avoidKeyword cleaned_word

theorem moduleSegment_ne_empty (segment : String) : moduleSegment segment ≠ "" := by
  unfold moduleSegment
  split
  next same =>
    rw [same]
    decide
  next =>
    dsimp only
    split
    next => decide
    next c rest cleaned =>
      split
      · simp
      · unfold avoidKeyword
        split <;> simp [cleaned]

theorem isName_moduleSegment (segment : String) : Path.IsName (moduleSegment segment) :=
  (isWord_moduleSegment segment).isName (moduleSegment_ne_empty segment)

theorem mem_of_mem_distinct {paths : List ModulePath} {path : ModulePath}
    (kept : path ∈ Imports.distinct paths) : path ∈ paths := by
  induction paths with
  | nil => cases kept
  | cons first rest ih =>
    cases rest with
    | nil => exact kept
    | cons second others =>
      rw [Imports.distinct] at kept
      split at kept
      · exact List.mem_cons_of_mem _ (ih kept)
      · rcases List.mem_cons.mp kept with rfl | later
        · exact List.mem_cons_self
        · exact List.mem_cons_of_mem _ (ih later)

/-- Every segment of the namespace of a generated unit is an importable form. -/
theorem exists_moduleSegment_of_mem_generate {style : Style} {set : ModelSet} {unit : GeneratedUnit}
    (listed : unit ∈ generate style set) {segment : String} (inside : segment ∈ unit.path) :
    ∃ original, segment = moduleSegment original := by
  have of_module : ∀ {path : ModulePath}, segment ∈ modulePath path →
      ∃ original, segment = moduleSegment original := by
    intro path here
    obtain ⟨original, -, rfl⟩ := List.mem_map.mp here
    exact ⟨original, rfl⟩
  unfold generate at listed
  rw [List.mem_mergeSort, List.mem_append] at listed
  rcases listed with module_unit | initializer
  · obtain ⟨home, -, rfl⟩ := List.mem_map.mp module_unit
    exact of_module inside
  · obtain ⟨package, kept, rfl⟩ := List.mem_map.mp initializer
    rcases List.mem_append.mp inside with above | last
    · have package_listed := List.mem_mergeSort.mp (mem_of_mem_distinct kept)
      obtain ⟨path, path_listed, prefixed⟩ := List.mem_flatMap.mp package_listed
      obtain ⟨i, -, rfl⟩ := List.mem_map.mp prefixed
      rw [List.map_map] at path_listed
      obtain ⟨home, -, rfl⟩ := List.mem_map.mp path_listed
      exact of_module (List.take_subset _ _ above)
    · exact ⟨initModule, (List.mem_singleton.mp last).trans (if_pos rfl).symm⟩

/-- All segments of the namespaces of generated units are names. -/
theorem isName_of_mem_generate {style : Style} {set : ModelSet} {unit : GeneratedUnit}
    (listed : unit ∈ generate style set) {segment : String} (inside : segment ∈ unit.path) :
    Path.IsName segment := by
  obtain ⟨original, rfl⟩ := exists_moduleSegment_of_mem_generate listed inside
  exact isName_moduleSegment original

end Code

/-- A name with an extension after it is a name. -/
theorem isName_withExtension {name extension : String} (proper : Path.IsName name)
    (nonempty : extension ≠ "") (whole : '/' ∉ extension.toList) :
    Path.IsName (name ++ "." ++ extension) := by
  refine Path.isName_of_length ?_ ?_
  · have name_length : name.length ≠ 0 := String.length_eq_zero_iff.not.mpr proper.ne_empty
    have extension_length : extension.length ≠ 0 := String.length_eq_zero_iff.not.mpr nonempty
    have dot_length : ("." : String).length = 1 := by decide
    rw [String.length_append, String.length_append]
    omega
  · have dot : ("." : String).toList = ['.'] := by decide
    rw [String.toList_append, String.toList_append, dot, List.mem_append, List.mem_append]
    rintro ((inside | inside) | inside)
    · exact proper.whole inside
    · exact absurd (List.mem_singleton.mp inside) (by decide)
    · exact whole inside

/-- The file of a namespace has the name of the module with the extension behind it. -/
theorem outputPath?_eq (root : Path) (extension bucket : String) (start : List String)
    {last : String} (proper : Path.IsName last) :
    outputPath? root extension (bucket :: (start ++ [last])) =
      some (((start.foldl Path.push root).push last).withName (last ++ "." ++ extension)) := by
  obtain ⟨first, rest, same⟩ := List.exists_cons_of_ne_nil
    (List.append_ne_nil_of_right_ne_nil start (List.cons_ne_nil last []))
  rw [same]
  change Option.map _ ((first :: rest).foldl Path.push root).name? = _
  rw [← same, List.foldl_append]
  change Option.map _ ((start.foldl Path.push root).push last).name? = _
  rw [Path.name?_push _ proper]
  rfl

/-- A namespace with a file goes on after the bucket. -/
theorem exists_of_outputPath? {root : Path} {extension : String} {path : ModulePath} {output : Path}
    (found : outputPath? root extension path = some output) :
    ∃ bucket start last, path = bucket :: (start ++ [last]) := by
  match path with
  | [] => cases found
  | [_] => cases found
  | bucket :: first :: rest =>
    obtain ⟨start, last, same⟩ :=
      (List.eq_nil_or_concat' (first :: rest)).resolve_left (List.cons_ne_nil _ _)
    exact ⟨bucket, start, last, congrArg _ same⟩

/-- The file of a namespace stands strictly below the root, where its segments after the bucket
lead. -/
theorem destination_outputPath? {root : Path} {extension : String} (nonempty : extension ≠ "")
    (whole : '/' ∉ extension.toList) {path : ModulePath}
    (proper : ∀ segment ∈ path, Path.IsName segment) {output : Path}
    (found : outputPath? root extension path = some output) (fs : FileSystem) :
    ∃ bucket start last, path = bucket :: (start ++ [last]) ∧
      fs.destination output =
        fs.destination root ++ (start ++ [last ++ "." ++ extension]) := by
  obtain ⟨bucket, start, last, rfl⟩ := exists_of_outputPath? found
  have proper_start : ∀ segment ∈ start, Path.IsName segment :=
    fun segment listed => proper segment (List.mem_cons_of_mem _ (List.mem_append_left _ listed))
  have proper_last : Path.IsName last := proper last (by simp)
  have extended := isName_withExtension proper_last nonempty whole
  obtain rfl := Option.some.inj ((outputPath?_eq root extension bucket start proper_last).symm.trans
    found)
  obtain ⟨steps_eq, same_start⟩ :=
    Path.withName_push (start.foldl Path.push root) proper_last extended.toIsStep
  refine ⟨bucket, start, last, rfl, FileSystem.destination_append ?_ ?_ ?_⟩
  · intro name listed
    rcases List.mem_append.mp listed with inside | inside
    · exact proper_start name inside
    · exact List.mem_singleton.mp inside ▸ extended
  · rw [← List.append_assoc, ← Path.steps_foldl_push root fun name listed =>
      (proper_start name listed).toIsStep]
    exact steps_eq
  · rw [← Path.isAbsolute_foldl_push root fun name listed => (proper_start name listed).whole]
    exact same_start

/-- The files of units, without those that have none. -/
def outputs (root : Path) (extension : String) (units : List GeneratedUnit) :
    List (Path × Content) :=
  units.filterMap fun unit =>
    (outputPath? root extension unit.path).map fun path => (path, .text unit.body)

/-- Writing units is saving their files, and answering with their paths. -/
theorem writeUnits_eq (root : Path) (extension : String) (units : List GeneratedUnit)
    (fs : FileSystem) : writeUnits root extension units fs =
      match FileSystem.saveAll (outputs root extension units) fs with
      | (.error refused, after) => (.error (.write refused), after)
      | (.ok (), after) => (.ok ((outputs root extension units).map Prod.fst), after) := by
  induction units generalizing fs with
  | nil => rfl
  | cons unit rest ih =>
    rw [writeUnits]
    cases output : outputPath? root extension unit.path with
    | none =>
      rw [outputs, List.filterMap_cons_none (by rw [output]; rfl)]
      exact ih fs
    | some path =>
      rw [outputs, List.filterMap_cons_some (by rw [output]; rfl), ← outputs, FileSystem.saveAll]
      dsimp only
      cases saved : fs.save path (.text unit.body) with
      | mk outcome next =>
        cases outcome with
        | error refused => rfl
        | ok done =>
          dsimp only
          rw [ih next]
          cases others : FileSystem.saveAll (outputs root extension rest) next with
          | mk outcome last => cases outcome <;> rfl

theorem writeUnits_eq_ok_iff {root : Path} {extension : String} {units : List GeneratedUnit}
    {fs after : FileSystem} {written : List Path} :
    writeUnits root extension units fs = (.ok written, after) ↔
      FileSystem.saveAll (outputs root extension units) fs = (.ok (), after) ∧
        (outputs root extension units).map Prod.fst = written := by
  rw [writeUnits_eq]
  cases FileSystem.saveAll (outputs root extension units) fs with
  | mk outcome last =>
    cases outcome with
    | error refused => simp
    | ok done => simp [and_comm]

/-- A run that succeeds has extracted documents, rendered units and written them in order. -/
theorem Pipeline.generate_steps {σ : Type} {pipeline : Pipeline (StateM σ)} {models specs : Path}
    {fs after : FileSystem} {world later : σ} {written : List Path}
    (success : (pipeline.generate models specs fs).run world = ((.ok written, after), later)) :
    ∃ paths kept units,
      (pipeline.extractor.extract specs fs).run world = ((.ok paths, kept), later) ∧
      pipeline.rendering.units kept paths = .ok units ∧
      writeUnits models pipeline.rendering.generator.fileExtension
        (units.mergeSort GeneratedUnit.le) kept = (.ok written, after) := by
  unfold generate at success
  obtain ⟨⟨extracted, kept⟩, between, extraction, success⟩ := run_bind_eq success
  cases extracted with
  | error error => cases success
  | ok paths =>
    dsimp only at success
    split at success
    next => cases success
    next units rendered =>
      obtain ⟨wrote, rfl⟩ := Prod.mk.inj success
      exact ⟨paths, kept, units, extraction, rendered, wrote⟩

/-- Conversely, extracting, rendering and writing make a run. -/
theorem Pipeline.generate_of_extracted {σ : Type} {pipeline : Pipeline (StateM σ)}
    {models specs : Path} {fs kept : FileSystem} {world later : σ} {paths : List Path}
    {units : List GeneratedUnit}
    (extracted : (pipeline.extractor.extract specs fs).run world = ((.ok paths, kept), later))
    (rendered : pipeline.rendering.units kept paths = .ok units) :
    (pipeline.generate models specs fs).run world =
      (writeUnits models pipeline.rendering.generator.fileExtension
        (units.mergeSort GeneratedUnit.le) kept, later) := by
  unfold generate
  rw [run_bind_of extracted]
  dsimp only
  rw [rendered]
  rfl

end ResourceModels
