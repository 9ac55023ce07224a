import Mathlib
import ResourceModels.Proofs.Extraction
import ResourceModels.Proofs.Streaming

/-!
# What a failed extraction leaves behind

An extraction that fails before it has buckets changes nothing. Once there are buckets, the
directory is created for the first of them, and a file that cannot be written does not take it
away again: the buckets before the failure stay kept, and the directory is there exactly if it
could be created at all (`Interrupted`). Since a directory that is there is taken for a finished
result, the next extraction answers with the buckets that happen to be kept
(`failed_extraction`), which may be none (`LongRelease.empty_directory_left`).
-/

namespace ResourceModels

namespace FileSystem

variable {fs grown after : FileSystem} {place : List String} {segments : List String}
  {path directory : Path} {name : String} {content : Content}

/-- What is created stays, and the end of the way is there exactly when nothing stood in it. -/
theorem createAlong_outcome {done : Bool} (start : fs.isDirectoryAt place = true)
    (ran : fs.createAlong place segments = (done, grown)) :
    Evolves fs grown [] ∧
      (done = true ↔ ∃ reached, grown.follow place segments = some reached ∧
        grown.isDirectoryAt reached = true) := by
  induction segments generalizing fs place with
  | nil =>
    cases ran
    exact ⟨.refl _, fun _ => ⟨place, rfl, start⟩, fun _ => rfl⟩
  | cons segment rest ih =>
    -- A place that is no directory in the end ends the way.
    have blocked : fs.isDirectoryAt (advance place segment) = false →
        ¬ ∃ reached, fs.follow place (segment :: rest) = some reached ∧
          fs.isDirectoryAt reached = true := by
      rintro not_directory ⟨reached, followed, directory⟩
      rw [follow, if_pos start] at followed
      cases rest with
      | nil =>
        obtain rfl := Option.some.inj followed
        rw [directory] at not_directory
        cases not_directory
      | cons next others =>
        rw [isDirectoryAt_of_follow followed (List.cons_ne_nil _ _)] at not_directory
        cases not_directory
    rw [createAlong] at ran
    split at ran
    next entries found =>
      have here := isDirectoryAt_iff.mpr ⟨entries, found⟩
      obtain ⟨evolves, reaches⟩ := ih here ran
      rw [follow, if_pos (evolves.directories _ start)]
      exact ⟨evolves, reaches⟩
    next content found =>
      have not_directory : fs.isDirectoryAt (advance place segment) = false := by
        rw [isDirectoryAt, found]
        rfl
      cases ran
      exact ⟨.refl _, fun finished => absurd finished Bool.false_ne_true,
        fun reached => absurd reached (blocked not_directory)⟩
    next missing =>
      have not_directory := not_isDirectoryAt_of_missing missing
      split at ran
      next =>
        obtain ⟨made, here⟩ := evolves_put_next start missing
        obtain ⟨evolves, reaches⟩ := ih here ran
        rw [follow, if_pos (evolves.directories _ (made.directories _ start))]
        exact ⟨made.trans evolves, reaches⟩
      next =>
        cases ran
        exact ⟨.refl _, fun finished => absurd finished Bool.false_ne_true,
          fun reached => absurd reached (blocked not_directory)⟩

/-- Idle segments create nothing. -/
theorem createAlong_steps (start : fs.isDirectoryAt place = true) :
    fs.createAlong place (segments.filter (!Path.isIdle ·)) = fs.createAlong place segments := by
  induction segments generalizing fs place with
  | nil => rfl
  | cons segment rest ih =>
    by_cases idle : Path.isIdle segment = true
    · have stays : advance place segment = place := by rw [advance, if_pos idle]
      rw [List.filter_cons_of_neg (by simp [idle]), createAlong_of_directory (stays.symm ▸ start),
        stays, ih start]
    · rw [List.filter_cons_of_pos (by simp [idle]), createAlong, createAlong]
      split
      next entries found => exact ih (isDirectoryAt_iff.mpr ⟨entries, found⟩)
      next => rfl
      next missing =>
        split
        next => exact ih (evolves_put_next start missing).2
        next => rfl

/-- Text is usable as far as its steps are. -/
theorem isUsable_iff_steps (nonempty : path.text ≠ "") :
    isUsable path = true ↔ ∀ step ∈ path.steps, '\x00' ∉ step.toList := by
  rw [isUsable_iff]
  constructor
  · rintro ⟨-, absent⟩ step listed inside
    exact absent (Path.mem_text_of_mem_segments (List.mem_filter.mp listed).1 inside)
  · refine fun clean => ⟨nonempty, fun inside => ?_⟩
    obtain ⟨step, listed, here⟩ := Path.exists_step inside (by decide) (by decide)
    exact clean step listed here

/-- What is created depends on the steps and on where the path starts. -/
theorem createDirectories_eq (home : fs.isDirectoryAt fs.home = true) (path : Path) :
    fs.createDirectories path =
      if ∀ step ∈ path.steps, '\x00' ∉ step.toList then fs.createAlong (fs.start path) path.steps
      else (false, fs) := by
  unfold createDirectories
  split
  next empty =>
    obtain ⟨text⟩ := path
    obtain rfl : text = "" := empty
    have no_steps : Path.steps ⟨""⟩ = [] := by decide
    rw [no_steps, if_pos (by simp)]
    rfl
  next nonempty =>
    rw [Path.steps, createAlong_steps (start_isDirectory home path)]
    exact if_congr (isUsable_iff_steps nonempty) rfl rfl

/-- A way that is only partly there is not the way to a directory. -/
theorem createDirectories_outcome (home : fs.isDirectoryAt fs.home = true) {done : Bool}
    (ran : fs.createDirectories path = (done, grown)) :
    Evolves fs grown [] ∧ grown.isDirectory path = (decide (path.text ≠ "") && done) := by
  unfold createDirectories at ran
  split at ran
  next empty =>
    cases ran
    have unusable : isUsable path = false := by simp [isUsable, empty]
    refine ⟨.refl _, ?_⟩
    simp [isDirectory, find?, place?, unusable, empty]
  next nonempty =>
    split at ran
    next usable =>
      obtain ⟨evolves, reaches⟩ := createAlong_outcome (start_isDirectory home path) ran
      refine ⟨evolves, ?_⟩
      rw [decide_eq_true nonempty, Bool.true_and, Bool.eq_iff_iff, reaches, isDirectory, find?,
        place?, if_pos usable, evolves.start, Option.any_eq_true]
      constructor
      · rintro ⟨node, found, is_directory⟩
        obtain ⟨reached, followed, here⟩ := Option.bind_eq_some_iff.mp found
        exact ⟨reached, followed, by rw [isDirectoryAt, here]; exact is_directory⟩
      · rintro ⟨reached, followed, directory⟩
        obtain ⟨entries, here⟩ := isDirectoryAt_iff.mp directory
        exact ⟨_, by rw [followed]; exact here, rfl⟩
    next unusable =>
      cases ran
      refine ⟨.refl _, ?_⟩
      simp [isDirectory, find?, place?, unusable]

theorem write_eq_false (failed : fs.write path content = (false, after)) : after = fs := by
  unfold write at failed
  split at failed
  · cases failed
    rfl
  · split at failed
    · cases failed
    · cases failed
      rfl

/-- For a file in a directory, the directory is what is created first. -/
theorem createDirectories_parent (home : fs.isDirectoryAt fs.home = true) (directory : Path)
    (proper : Path.IsName name) :
    ∃ parent, (directory.push name).parent? = some parent ∧
      fs.createDirectories parent = fs.createDirectories directory := by
  obtain ⟨start, trail, before, idle, ends⟩ := directory.segments_push proper.whole
  obtain ⟨parent, found, same_steps, same_start⟩ := Path.parent?_of_segments ends proper.toIsStep
  have same_steps : parent.steps = directory.steps := by
    have pushed := Path.steps_push directory proper.toIsStep
    rw [Path.steps, ends, List.filter_append, ← same_steps,
      List.filter_cons_of_pos (by simp [proper.not_idle])] at pushed
    exact List.append_cancel_right pushed
  refine ⟨parent, found, ?_⟩
  rw [createDirectories_eq home, createDirectories_eq home, same_steps, FileSystem.start,
    FileSystem.start, same_start,
    Path.isAbsolute_push directory proper.whole]

theorem save_push_ok (home : fs.isDirectoryAt fs.home = true) (proper : Path.IsName name)
    (saved : fs.save (directory.push name) content = (.ok (), after)) :
    (fs.createDirectories directory).1 = true := by
  obtain ⟨parent, found, same⟩ := createDirectories_parent home directory proper
  rw [save, found] at saved
  dsimp only at saved
  rw [← same]
  split at saved
  next => cases saved
  next grown created => rw [created]

/-- A save that fails leaves the directories that it could create. -/
theorem save_push_failed (home : fs.isDirectoryAt fs.home = true) (proper : Path.IsName name)
    {refused : Path} (failed : fs.save (directory.push name) content = (.error refused, after)) :
    after = (fs.createDirectories directory).2 := by
  obtain ⟨parent, found, same⟩ := createDirectories_parent home directory proper
  rw [save, found] at failed
  dsimp only at failed
  rw [← same]
  split at failed
  next grown created =>
    cases failed
    rw [created]
  next grown created =>
    split at failed
    next => cases failed
    next written =>
      cases failed
      rw [created]
      exact write_eq_false written

/-- A name that is too long is refused once its directory is there. -/
theorem save_push_of_long (home : fs.isDirectoryAt fs.home = true) (proper : Path.IsName name)
    (long : nameLimit < name.utf8ByteSize)
    (created : fs.createDirectories directory = (true, grown)) :
    fs.save (directory.push name) content = (.error (directory.push name), grown) := by
  obtain ⟨parent, found, same⟩ := createDirectories_parent home directory proper
  have not_written : grown.write (directory.push name) content = (false, grown) := by
    unfold write
    split
    next => rfl
    next place leads =>
      rw [← destination_eq leads, destination_push grown directory proper, admits,
        List.getLast?_concat, Option.getD_some, decide_eq_false (by omega), Bool.false_and,
        Bool.and_false, if_neg Bool.false_ne_true]
  rw [save, found]
  dsimp only
  rw [same, created]
  dsimp only
  rw [not_written]

theorem save_failed (home : fs.isDirectoryAt fs.home = true) {refused : Path}
    (failed : fs.save path content = (.error refused, after)) : Evolves fs after [] := by
  unfold save at failed
  split at failed
  next =>
    split at failed
    next => cases failed
    next written =>
      cases failed
      rw [write_eq_false written]
      exact .refl fs
  next =>
    split at failed
    next created =>
      cases failed
      exact (createDirectories_outcome home created).1
    next grown created =>
      split at failed
      next => cases failed
      next written =>
        cases failed
        rw [write_eq_false written]
        exact (createDirectories_outcome home created).1

end FileSystem

namespace Buckets

variable {buckets kept : Buckets} {directory : Path} {fs between after : FileSystem}

/-- Keeping that fails has kept the buckets before the one it fails at. -/
theorem persist_stopped {error : ExtractionError}
    (failed : buckets.persist directory fs = (.error error, after)) :
    ∃ kept bucket rest between refused, buckets = kept ++ bucket :: rest ∧ error = .io refused ∧
      FileSystem.saveAll (documents directory kept) fs = (.ok (), between) ∧
      between.save (directory.push (fileName bucket.1)) (.text bucket.2.toJson.pretty) =
        (.error refused, after) := by
  induction buckets generalizing fs with
  | nil => cases failed
  | cons bucket rest ih =>
    rw [persist] at failed
    split at failed
    next refused next saved =>
      cases failed
      exact ⟨[], bucket, rest, fs, refused, rfl, rfl, rfl, saved⟩
    next next saved =>
      split at failed
      next others =>
        cases failed
        obtain ⟨kept, stopped, left, between, refused, rfl, rfl, all_saved, last⟩ := ih others
        exact ⟨bucket :: kept, stopped, left, between, refused, rfl, rfl,
          (FileSystem.saveAll_cons saved _).trans all_saved, last⟩
      next => cases failed

theorem Nameable.of_append {more : Buckets} (nameable : Nameable (buckets ++ more)) :
    buckets.Nameable := by
  obtain ⟨distinct, names⟩ := nameable
  rw [Entries.keys, List.map_append] at distinct
  refine ⟨(List.nodup_append.mp distinct).1, fun bucket listed => names bucket ?_⟩
  rw [Entries.keys, List.map_append]
  exact List.mem_append_left _ listed

/-- Keeping has failed after the buckets of `kept`. -/
structure Interrupted (buckets kept : Buckets) (directory : Path) (fs after : FileSystem) :
    Prop where
  stopped : ∃ bucket rest, buckets = kept ++ bucket :: rest
  /-- Their files are all that has been written. -/
  files : after.fileAt =
    FileNode.overwrite fs.fileAt (fs.writesOf (documents directory kept))
  /-- The directory is left if it could be created. The empty path names no directory. -/
  left : after.isDirectory directory =
    (decide (directory.text ≠ "") && (fs.createDirectories directory).1)
  /-- A directory that was not there before passes for one that holds just these buckets. -/
  found : fs.node? (fs.destination directory) = none → after.isDirectory directory = true →
    ((documents directory kept).map fun document => fs.absolute document.1).Perm
      (after.keptDocuments directory)

theorem keptDocuments_of_no_file (well : after.WellFormed)
    (directory_there : after.isDirectory directory = true)
    (no_file : ∀ names, (after.fileAt (after.destination directory ++ names)).isSome = false) :
    after.keptDocuments directory = [] := by
  unfold FileSystem.isDirectory FileSystem.find? at directory_there
  obtain ⟨node, here, is_directory⟩ := (Option.any_eq_true _ _).mp directory_there
  obtain ⟨place, found, here⟩ := Option.bind_eq_some_iff.mp here
  obtain rfl := FileSystem.destination_eq found
  have there : after.isDirectoryAt (after.destination directory) = true := by
    rw [FileSystem.isDirectoryAt, here]
    exact is_directory
  have none_below := FileSystem.filesBelow_perm well.tidy found there List.nodup_nil
    fun names => by simp [no_file names]
  rw [List.map_nil, List.perm_nil, List.map_eq_nil_iff] at none_below
  unfold FileSystem.keptDocuments
  rw [none_below]
  rfl

/-- Keeping buckets with proper names fails only in this way. -/
theorem Nameable.interrupted (nameable : buckets.Nameable) (well : fs.WellFormed)
    {error : ExtractionError} (failed : buckets.persist directory fs = (.error error, after)) :
    ∃ kept, Interrupted buckets kept directory fs after := by
  obtain ⟨kept, bucket, rest, between, refused, rfl, rfl, saved, last⟩ := persist_stopped failed
  have proper : Path.IsName (fileName bucket.1) := nameable.isName (by simp)
  have nameable_kept := nameable.of_append
  have home := well.home_isDirectory
  obtain ⟨evolves, places⟩ := FileSystem.saveAll_evolves home saved
  have between_well := evolves.wellFormed well
  have last_evolves := FileSystem.save_failed between_well.home_isDirectory last
  have files := (evolves.trans last_evolves).files
  rw [List.append_nil] at files
  have same_files : after.fileAt = between.fileAt := last_evolves.files
  have grown := FileSystem.save_push_failed between_well.home_isDirectory proper last
  refine ⟨kept, ⟨bucket, rest, rfl⟩, files, ?_, fun absent there => ?_⟩
  · cases kept with
    | nil =>
      cases saved
      rw [grown]
      exact (FileSystem.createDirectories_outcome home rfl).2
    | cons first others =>
      obtain ⟨next, first_saved, -⟩ := FileSystem.saveAll_cons_eq_ok saved
      have first_proper : Path.IsName (fileName first.1) := nameable_kept.isName List.mem_cons_self
      rw [FileSystem.save_push_ok home first_proper first_saved, Bool.and_true]
      by_cases empty : directory.text = ""
      · simp [FileSystem.isDirectory, FileSystem.find?, FileSystem.place?, FileSystem.isUsable,
          empty]
      · have kept_place := last_evolves.place? (places _ List.mem_cons_self)
        obtain ⟨found, directory_there⟩ := FileSystem.place?_of_push first_proper empty kept_place
        rw [decide_eq_true empty]
        exact FileSystem.isDirectory_of_place? found directory_there
  · by_cases empty : kept = []
    · subst empty
      cases saved
      rw [keptDocuments_of_no_file (last_evolves.wellFormed between_well) there]
      · rfl
      · intro names
        rw [last_evolves.destination, same_files, Bool.eq_false_iff]
        intro held
        exact List.not_mem_nil
          ((nameable_kept.fileAt_isSome_iff home absent rfl names).mp held)
    · exact nameable_kept.keptDocuments_perm empty well absent saved last_evolves.toKeeps
        fun names => congrFun same_files _

end Buckets

namespace Extractor

variable {σ : Type} {extractor : Extractor (StateM σ)} {world later : σ} {directory : Path}
  {fs after : FileSystem} {error : ExtractionError}

/-- Collecting does not touch the files. -/
theorem collect_ne_io {asked : List Exchange} {given : Option Strategy} {path : Path} :
    ¬ Account given asked (.error (.io path)) := by
  intro account
  generalize outcome_eq : Except.error (ExtractionError.io path) = outcome at account
  cases account with
  | no_release error unknown => cases outcome_eq
  | no_listing opening strategy error opened => cases outcome_eq
  | stopped opening strategy refs asked error opened stopped =>
    cases outcome_eq
    obtain ⟨_, _, _, -, -, -, fails⟩ := stopped
    cases fails
  | merged opening strategy refs asked documents opened finished =>
    split at outcome_eq <;> cases outcome_eq

/-- An extraction fails because there are no buckets, or because one cannot be kept. -/
theorem extract_error
    (failed : (extractor.extract directory fs).run world = ((.error error, after), later)) :
    fs.isDirectory directory = false ∧
      ((after = fs ∧ ∀ refused, error ≠ .io refused) ∨
        ∃ buckets, extractor.collect.run world = (.ok buckets, later) ∧
          buckets.persist directory fs = (.error error, after)) := by
  obtain ⟨-, succeeded, -⟩ | ⟨missing, same, reason, collected, failure⟩ |
    ⟨missing, buckets, collected, persisted⟩ := extract_cases failed
  · cases succeeded
  · obtain rfl := Except.error.inj failure
    refine ⟨missing, .inl ⟨same, ?_⟩⟩
    rintro refused rfl
    obtain ⟨outcome, done, asked, -, collecting, account⟩ := collect_recorded extractor world
    obtain ⟨rfl, -⟩ := Prod.mk.inj (collecting.symm.trans collected)
    exact collect_ne_io account
  · exact ⟨missing, .inr ⟨buckets, collected, persisted⟩⟩

/-- After an extraction that failed the directory is there exactly if the failure was one of the
file system and the directory could be created. In all other cases nothing has changed and the
source is asked again. A directory that is left holds the buckets before the failure, and every
later extraction takes them for the result and asks nothing. -/
theorem failed_extraction (well : fs.WellFormed)
    (named : ∀ strategy between,
      extractor.resolved.run world = (.ok strategy, between) → strategy.NamesFiles)
    (failed : (extractor.extract directory fs).run world = ((.error error, after), later)) :
    (after.isDirectory directory = true ↔
      (∃ refused, error = .io refused) ∧ directory.text ≠ "" ∧
        (fs.createDirectories directory).1 = true) ∧
    ((∀ refused, error ≠ .io refused) → after = fs) ∧
    (∀ refused, error = .io refused → ∃ buckets kept,
      extractor.collect.run world = (.ok buckets, later) ∧
        Buckets.Interrupted buckets kept directory fs after) ∧
    (after.isDirectory directory = true → ∀ (m : Type → Type) [Monad m] (again : Extractor m),
      again.extract directory after = pure (.ok (after.keptDocuments directory), after)) ∧
    (after.isDirectory directory = false → ∀ (again : Extractor (StateM σ)) (next : σ),
      (again.extract directory after).run next =
        (kept directory after (again.collect.run next).1, (again.collect.run next).2)) := by
  obtain ⟨missing, unchanged | ⟨buckets, collected, persisted⟩⟩ := extract_error failed
  · obtain ⟨rfl, other⟩ := unchanged
    refine ⟨?_, fun _ => rfl, fun refused same => absurd same (other refused), ?_, ?_⟩
    · rw [missing]
      refine ⟨nofun, ?_⟩
      rintro ⟨⟨refused, same⟩, -⟩
      exact absurd same (other refused)
    · intro left
      rw [missing] at left
      cases left
    · exact fun _ again next => extract_run again rfl missing
  · obtain ⟨strategy, between, documents, resolved, rfl, -⟩ := collect_eq_ok collected
    have nameable : (Merging.mergerAfter strategy documents).buckets.Nameable :=
      ⟨(bucket_names (named strategy between resolved) documents).1,
        (bucket_names (named strategy between resolved) documents).2⟩
    obtain ⟨refused, rfl⟩ := Buckets.persist_error persisted
    obtain ⟨kept, interrupted⟩ := nameable.interrupted well persisted
    refine ⟨?_, fun other => absurd rfl (other refused),
      fun _ _ => ⟨_, kept, collected, interrupted⟩, ?_,
      fun gone again next => extract_run again rfl gone⟩
    · rw [interrupted.left, Bool.and_eq_true, decide_eq_true_eq]
      exact ⟨fun left => ⟨⟨refused, rfl⟩, left⟩, And.right⟩
    · intro left m _ again
      unfold extract
      rw [if_pos left]

end Extractor

-- The name of the file is too long by one byte, so the only bucket cannot be kept.
namespace LongRelease

/-- A source that counts how often it is asked. -/
def extractor (tag : String) : Extractor (StateM Nat) where
  source := {
    release := fun asked => (.ok tag, asked + 1)
    listing := fun asked => (.ok [⟨"api__v1", "api__v1", "pods"⟩], asked + 1)
    fetch := fun _ asked => (.ok (.object [
      ("openapi", .string "3.0.0"),
      ("info", .object [("title", .string "Kubernetes"), ("version", .string "v1")]),
      ("components", .object [("schemas", .object [
        ("Pod", .object [("type", .string "object")])])])]), asked + 1) }
  strategy := none

def pods : Merged :=
  ⟨⟨"3.0.0", "Kubernetes", "v1"⟩, [("Pod", .object [("type", .string "object")])]⟩

def tag : String := String.ofList (List.replicate 251 'v')

def before : FileSystem := .empty ["work"]

/-- With the directory of the documents, and nothing in it. -/
def after : FileSystem := before.put ["work", "specs"] (.directory [])

def refused : Path := Path.push ⟨"specs"⟩ (Buckets.fileName tag)

theorem before_wellFormed : before.WellFormed := by
  refine .empty fun name listed => ?_
  obtain rfl := List.mem_singleton.mp listed
  exact ⟨⟨⟨by decide, by decide⟩, by decide⟩, by decide⟩

theorem collect_pods (tag : String) : ∃ bucket, Strategy.ofRelease tag = .single bucket ∧
    (extractor tag).collect.run 0 = (.ok [(bucket, pods)], 3) :=
  ⟨_, rfl, rfl⟩

theorem tag_toList : tag.toList = List.replicate 251 'v' := String.toList_ofList

theorem ofRelease_tag : Strategy.ofRelease tag = .single tag := by
  rw [Strategy.ofRelease, tag_toList, List.map_replicate]
  rfl

theorem tag_whole : '/' ∉ tag.toList := by
  rw [tag_toList]
  exact fun inside => absurd (List.eq_of_mem_replicate inside) (by decide)

theorem long : FileSystem.nameLimit < (Buckets.fileName tag).utf8ByteSize := by
  have bytes : ∀ n, String.utf8Len (List.replicate n 'v') = n := by
    intro n
    induction n with
    | zero => rfl
    | succ n ih =>
      rw [List.replicate_succ, String.utf8Len_cons, ih]
      rfl
  have stem : tag.utf8ByteSize = 251 := (String.utf8ByteSize_ofList _).trans (bytes 251)
  have extension : (".json" : String).utf8ByteSize = 5 := by decide
  have limit : FileSystem.nameLimit = 255 := rfl
  rw [Buckets.fileName, String.utf8ByteSize_append]
  omega

theorem createDirectories_specs : before.createDirectories ⟨"specs"⟩ = (true, after) := by
  rfl

theorem created : FileSystem.Evolves before after [] :=
  (FileSystem.createDirectories_outcome before_wellFormed.home_isDirectory
    createDirectories_specs).1

theorem extract_fails :
    ((extractor tag).extract ⟨"specs"⟩ before).run 0 = ((.error (.io refused), after), 3) := by
  obtain ⟨bucket, named, collected⟩ := collect_pods tag
  obtain rfl := Strategy.single.inj (named.symm.trans ofRelease_tag)
  rw [Extractor.extract_run _ collected (by decide)]
  change (Buckets.persist ⟨"specs"⟩ [(tag, pods)] before, 3) = _
  have not_kept (content : Content) : before.save refused content = (.error refused, after) :=
    FileSystem.save_push_of_long before_wellFormed.home_isDirectory
      (Buckets.isName_fileName tag_whole) long createDirectories_specs
  have file : Buckets.fileOf ⟨"specs"⟩ tag = refused := rfl
  rw [Buckets.persist, file, not_kept]

/-- Nothing was there before and the extraction failed, but the next one asks nothing and answers
with no documents, from the directory that was left. -/
theorem empty_directory_left :
    before.node? (before.destination ⟨"specs"⟩) = none ∧
      ((extractor tag).extract ⟨"specs"⟩ before).run 0 = ((.error (.io refused), after), 3) ∧
      after.isDirectory ⟨"specs"⟩ = true ∧
      ((extractor tag).extract ⟨"specs"⟩ after).run 3 = ((.ok [], after), 3) := by
  have left : after.isDirectory ⟨"specs"⟩ = true := by decide
  have well := created.wellFormed before_wellFormed
  have none_kept : after.keptDocuments ⟨"specs"⟩ = [] :=
    Buckets.keptDocuments_of_no_file well left fun names => by cases names <;> rfl
  refine ⟨rfl, extract_fails, left, ?_⟩
  rw [Extractor.extract, if_pos left, none_kept]
  rfl

/-- What the general result says of this run. -/
theorem failure_explained : ∃ buckets kept,
    (extractor tag).collect.run 0 = (.ok buckets, 3) ∧
      Buckets.Interrupted buckets kept ⟨"specs"⟩ before after := by
  refine (Extractor.failed_extraction before_wellFormed ?_ extract_fails).2.2.1 refused rfl
  rintro strategy between resolved
  have named : strategy = .single tag := by
    rw [← ofRelease_tag]
    exact (Except.ok.inj (congrArg Prod.fst resolved)).symm
  subst named
  exact ⟨fun empty => absurd (congrArg String.toList empty) (by rw [tag_toList]; simp), tag_whole⟩

end LongRelease

end ResourceModels
