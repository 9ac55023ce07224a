import Mathlib
import ResourceModels.Pipeline
import ResourceModels.Proofs.FailedExtraction
import ResourceModels.Proofs.FileOrder
import ResourceModels.Proofs.Output

/-!
# What a run has written when it stops

A run has three stages before it writes, and a failure of any of them leaves the files as they are
after the extraction. Then units are written in the order of their namespaces. The first that is
refused ends the run: the units before it are in their files, just as if they alone had been
written, no file has been changed by the refused one, and those after it were not tried. Main
statement: `run_accounted`.
-/

namespace ResourceModels

/-- A new directory is no file, and where something stands none can be new. -/
theorem FileNode.content?_put_directory {place : List String} {node : FileNode}
    (missing : node.find? place = none) (other : List String) :
    ((node.put (.directory []) place).find? other).bind content? =
      (node.find? other).bind content? := by
  induction place generalizing node other with
  | nil => cases missing
  | cons name names ih =>
    cases node with
    | file content => rfl
    | directory entries =>
      rw [find?_directory_cons] at missing
      rw [put]
      cases below_eq : Entries.get? entries name with
      | some below =>
        rw [below_eq, Option.bind_some] at missing
        cases other with
        | nil => rfl
        | cons first rest =>
          simp only [find?_directory_cons, Entries.get?_insert]
          by_cases here : name = first
          · simp [← here, below_eq, ih missing rest]
          · simp [here]
      | none =>
        by_cases last : names = []
        · simp only [last, if_true]
          cases other with
          | nil => rfl
          | cons first rest =>
            simp only [find?_directory_cons, Entries.get?_insert]
            by_cases here : name = first
            · cases rest <;> simp [← here, below_eq, find?, entry?, content?, Entries.get?]
            · simp [here]
        · simp [last]

namespace FileSystem

theorem createAlong_fileAt {fs after : FileSystem} {place : List String} {segments : List String}
    {all_there : Bool} (created : fs.createAlong place segments = (all_there, after)) :
    after.fileAt = fs.fileAt := by
  induction segments generalizing fs place with
  | nil =>
    cases created
    rfl
  | cons segment rest ih =>
    rw [createAlong] at created
    split at created
    next => exact ih created
    next =>
      cases created
      rfl
    next missing =>
      split at created
      next =>
        rw [ih created]
        funext other
        exact FileNode.content?_put_directory missing other
      next =>
        cases created
        rfl

theorem createDirectories_fileAt {fs after : FileSystem} {path : Path} {all_there : Bool}
    (created : fs.createDirectories path = (all_there, after)) : after.fileAt = fs.fileAt := by
  unfold createDirectories at created
  split at created
  next =>
    cases created
    rfl
  next =>
    split at created
    next => exact createAlong_fileAt created
    next =>
      cases created
      rfl

/-- A save that fails names the path or its parent, and every file stays as it is. -/
theorem save_refused {fs after : FileSystem} {path refused : Path} {content : Content}
    (failed : fs.save path content = (.error refused, after)) :
    (refused = path ∨ path.parent? = some refused) ∧ after.fileAt = fs.fileAt := by
  unfold save at failed
  split at failed
  next =>
    split at failed
    next => cases failed
    next written =>
      cases failed
      exact ⟨.inl rfl, by rw [write_eq_false written]⟩
  next parent found =>
    split at failed
    next created =>
      cases failed
      exact ⟨.inr found, createDirectories_fileAt created⟩
    next grown created =>
      split at failed
      next => cases failed
      next written =>
        cases failed
        rw [write_eq_false written]
        exact ⟨.inl rfl, createDirectories_fileAt created⟩

/-- Saving that stops has saved all the files before the one that is refused. -/
theorem saveAll_stopped {items : List (Path × Content)} {fs after : FileSystem} {refused : Path}
    (failed : saveAll items fs = (.error refused, after)) :
    ∃ before item later between, items = before ++ item :: later ∧
      saveAll before fs = (.ok (), between) ∧
      between.save item.1 item.2 = (.error refused, after) := by
  induction items generalizing fs with
  | nil => cases failed
  | cons item rest ih =>
    rw [saveAll] at failed
    split at failed
    next refused' next saved =>
      cases failed
      exact ⟨[], item, rest, fs, rfl, rfl, saved⟩
    next next saved =>
      obtain ⟨before, stopped, later, between, rfl, all_saved, last⟩ := ih failed
      exact ⟨item :: before, stopped, later, between, rfl,
        (saveAll_cons saved before).trans all_saved, last⟩

end FileSystem

/-- How writing units goes, and which of them are written: all, or all before the first that is
refused. The answer is the paths of all that have one, or the path that was refused. -/
inductive WriteOut (root : Path) (extension : String) (units : List GeneratedUnit)
    (kept : FileSystem) :
    List GeneratedUnit → Except PipelineError (List Path) × FileSystem → Prop
  | done (after : FileSystem)
      (saved : FileSystem.saveAll (outputs root extension units) kept = (.ok (), after)) :
      WriteOut root extension units kept units
        (.ok (units.filterMap fun unit => outputPath? root extension unit.path), after)
  | stopped (before : List GeneratedUnit) (unit : GeneratedUnit) (later : List GeneratedUnit)
      (path refused : Path) (between after : FileSystem)
      (order : units = before ++ unit :: later)
      (has_path : outputPath? root extension unit.path = some path)
      (saved : FileSystem.saveAll (outputs root extension before) kept = (.ok (), between))
      (fails : between.save path (.text unit.body) = (.error refused, after))
      (named : refused = path ∨ path.parent? = some refused)
      (untouched : after.fileAt = between.fileAt) :
      WriteOut root extension units kept before (.error (.write refused), after)

variable {root : Path} {extension : String}

theorem outputs_map_fst (root : Path) (extension : String) (units : List GeneratedUnit) :
    (outputs root extension units).map Prod.fst =
      units.filterMap fun unit => outputPath? root extension unit.path := by
  simp [outputs, List.map_filterMap, Function.comp_def]

/-- A file among those of units belongs to one of them, and those before it to the units before. -/
theorem outputs_split {units : List GeneratedUnit} {before later : List (Path × Content)}
    {path : Path} {content : Content}
    (split : outputs root extension units = before ++ (path, content) :: later) :
    ∃ first unit rest, units = first ++ unit :: rest ∧ outputs root extension first = before ∧
      outputPath? root extension unit.path = some path ∧ content = .text unit.body := by
  obtain ⟨start, ending, rfl, first_outputs, others⟩ := List.filterMap_eq_append_iff.mp split
  obtain ⟨passed, unit, rest, rfl, none_passed, here, -⟩ := List.filterMap_eq_cons_iff.mp others
  obtain ⟨output, has_path, same⟩ := Option.map_eq_some_iff.mp here
  obtain ⟨rfl, rfl⟩ := Prod.mk.inj same
  refine ⟨start ++ passed, unit, rest, by simp, ?_, has_path, rfl⟩
  rw [outputs, List.filterMap_append, List.filterMap_eq_nil_iff.mpr none_passed, List.append_nil]
  exact first_outputs

/-- The writing of any units goes as the account says. -/
theorem writeUnits_accounted (root : Path) (extension : String) (units : List GeneratedUnit)
    (fs : FileSystem) :
    ∃ written, WriteOut root extension units fs written (writeUnits root extension units fs) := by
  rw [writeUnits_eq]
  cases result : FileSystem.saveAll (outputs root extension units) fs with
  | mk outcome after =>
    cases outcome with
    | ok done =>
      rw [outputs_map_fst]
      exact ⟨units, .done after result⟩
    | error refused =>
      obtain ⟨_, ⟨path, content⟩, _, between, split, saved, fails⟩ :=
        FileSystem.saveAll_stopped result
      obtain ⟨before, unit, later, order, rfl, has_path, rfl⟩ := outputs_split split
      obtain ⟨named, untouched⟩ := FileSystem.save_refused fails
      exact ⟨before, .stopped before unit later path refused between after order has_path saved
        fails named untouched⟩

namespace WriteOut

variable {units written : List GeneratedUnit} {kept : FileSystem}
  {outcome : Except PipelineError (List Path) × FileSystem}

theorem first_part (account : WriteOut root extension units kept written outcome) :
    written <+: units := by
  cases account with
  | done => exact List.prefix_refl units
  | stopped _ unit later _ _ _ _ order => exact order ▸ List.prefix_append written (unit :: later)

/-- The files hold what they held before, but for the bodies of the units that are written. -/
theorem files (account : WriteOut root extension units kept written outcome)
    (home : kept.isDirectoryAt kept.home = true) : outcome.2.fileAt =
      FileNode.overwrite kept.fileAt (kept.writesOf (outputs root extension written)) := by
  cases account with
  | done after saved => exact (FileSystem.saveAll_evolves home saved).1.files
  | stopped _ _ _ _ _ _ _ _ _ saved _ _ untouched =>
    rw [untouched, (FileSystem.saveAll_evolves home saved).1.files]

end WriteOut

namespace Rendering

variable {rendering : Rendering} {fs : FileSystem} {paths : List Path}

theorem units_of_underived {error : SpecsError}
    (derived : Derivation.ofFiles rendering.conventions rendering.collapse fs paths =
      .error error) : rendering.units fs paths = .error (.derivation error) := by
  unfold units
  rw [derived]
  rfl

theorem units_of_derived {set : ModelSet}
    (derived : Derivation.ofFiles rendering.conventions rendering.collapse fs paths = .ok set) :
    rendering.units fs paths = (rendering.generator.generate set).mapError .generator := by
  unfold units
  rw [derived]
  rfl

end Rendering

namespace Pipeline

variable {σ : Type}

/-- How a run goes. A stage that fails is the last one, and nothing has changed since the
extraction. Units that come out of the stages are written in the order of their namespaces: all of
them, or those before the first that is refused, and the files hold the bodies of these. -/
inductive Run (pipeline : Pipeline (StateM σ)) (models specs : Path) (fs : FileSystem) (world : σ) :
    (Except PipelineError (List Path) × FileSystem) × σ → Prop
  | unextracted (error : ExtractionError) (kept : FileSystem) (later : σ)
      (extracted : (pipeline.extractor.extract specs fs).run world =
        ((.error error, kept), later)) :
      Run pipeline models specs fs world ((.error (.extraction error), kept), later)
  | underived (paths : List Path) (error : SpecsError) (kept : FileSystem) (later : σ)
      (extracted : (pipeline.extractor.extract specs fs).run world = ((.ok paths, kept), later))
      (derived : Derivation.ofFiles pipeline.rendering.conventions pipeline.rendering.collapse kept
        paths = .error error) :
      Run pipeline models specs fs world ((.error (.derivation error), kept), later)
  | unrendered (paths : List Path) (set : ModelSet) (error : GeneratorError) (kept : FileSystem)
      (later : σ)
      (extracted : (pipeline.extractor.extract specs fs).run world = ((.ok paths, kept), later))
      (derived : Derivation.ofFiles pipeline.rendering.conventions pipeline.rendering.collapse kept
        paths = .ok set)
      (rendered : pipeline.rendering.generator.generate set = .error error) :
      Run pipeline models specs fs world ((.error (.generator error), kept), later)
  | written (paths : List Path) (set : ModelSet) (units ordered wrote : List GeneratedUnit)
      (kept : FileSystem) (later : σ) (outcome : Except PipelineError (List Path) × FileSystem)
      (extracted : (pipeline.extractor.extract specs fs).run world = ((.ok paths, kept), later))
      (derived : Derivation.ofFiles pipeline.rendering.conventions pipeline.rendering.collapse kept
        paths = .ok set)
      (rendered : pipeline.rendering.generator.generate set = .ok units)
      (same : ordered.Perm units)
      (sorted : ordered.Pairwise fun unit next => ModulePath.le unit.path next.path = true)
      (account :
        WriteOut models pipeline.rendering.generator.fileExtension ordered kept wrote outcome)
      (first : wrote <+: ordered)
      (files : kept.isDirectoryAt kept.home = true → outcome.2.fileAt =
        FileNode.overwrite kept.fileAt
          (kept.writesOf (outputs models pipeline.rendering.generator.fileExtension wrote))) :
      Run pipeline models specs fs world (outcome, later)

/-- Every run, whatever its source answers and its file system refuses, goes as the account says. -/
theorem run_accounted (pipeline : Pipeline (StateM σ)) (models specs : Path) (fs : FileSystem)
    (world : σ) :
    Run pipeline models specs fs world ((pipeline.generate models specs fs).run world) := by
  obtain ⟨⟨extraction, kept⟩, later, extracted⟩ : ∃ extraction later,
      (pipeline.extractor.extract specs fs).run world = (extraction, later) := ⟨_, _, rfl⟩
  unfold generate
  rw [run_bind_of extracted]
  cases extraction with
  | error error => exact .unextracted error kept later extracted
  | ok paths =>
    dsimp only
    cases derived : Derivation.ofFiles pipeline.rendering.conventions pipeline.rendering.collapse
        kept paths with
    | error error =>
      rw [Rendering.units_of_underived derived]
      exact .underived paths error kept later extracted derived
    | ok set =>
      rw [Rendering.units_of_derived derived]
      cases rendered : pipeline.rendering.generator.generate set with
      | error error => exact .unrendered paths set error kept later extracted derived rendered
      | ok units =>
        obtain ⟨wrote, account⟩ := writeUnits_accounted models
          pipeline.rendering.generator.fileExtension (units.mergeSort GeneratedUnit.le) kept
        exact .written paths set units _ wrote kept later _ extracted derived rendered
          (List.mergeSort_perm units GeneratedUnit.le)
          (ModulePath.sorted_mergeSort GeneratedUnit.path units) account account.first_part
          account.files

end Pipeline

end ResourceModels
