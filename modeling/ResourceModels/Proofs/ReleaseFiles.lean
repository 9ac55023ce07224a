import Mathlib
import ResourceModels.Proofs.FailedExtraction

/-!
# Where a release is kept

Without a strategy the one bucket of an extraction is named after the release, so the text that a
source gives as its tag ends up in a path. Dots are replaced in it, which leaves no way to climb:
every step of the file's path is a name (`releaseNames`). Slashes stay. Inside a tag they only lead
further down, but a tag that starts with one replaces the directory altogether, and the file is
then kept where the tag says, counted from the top (`ReleaseFile`).
-/

namespace ResourceModels

/-- A place below a directory, and not the directory itself. -/
def Below (directory place : List String) : Prop := directory <+: place ∧ place ≠ directory

instance (directory place : List String) : Decidable (Below directory place) :=
  inferInstanceAs (Decidable (_ ∧ _))

theorem below_append {directory names : List String} (nonempty : names ≠ []) :
    Below directory (directory ++ names) :=
  ⟨List.prefix_append _ _, fun same => nonempty (List.append_right_eq_self.mp same)⟩

namespace FileSystem

/-- A row of names in the text of a path leads down, from where the text starts to be read. -/
theorem destination_push_names (fs : FileSystem) (path : Path) {segment : String}
    (proper : ∀ name ∈ Path.steps ⟨segment⟩, Path.IsName name) :
    fs.destination (path.push segment) =
      (if Path.startsWithSlash segment then [] else fs.destination path) ++
        Path.steps ⟨segment⟩ := by
  cases starts : Path.startsWithSlash segment with
  | true =>
    have top : fs.start ⟨segment⟩ = [] := if_pos starts
    rw [path.push_of_slash starts, if_pos rfl, destination_eq_steps, top,
      foldl_advance_names _ proper]
  | false =>
    rw [if_neg Bool.false_ne_true]
    exact destination_append proper (path.steps_push_of_relative starts)
      (path.isAbsolute_push_of_relative starts)

end FileSystem

/-- The bucket of a release. -/
def releaseBucket (tag : String) : String :=
  String.ofList (tag.toList.map fun c => if c = '.' then '_' else c)

theorem ofRelease_eq (tag : String) : Strategy.ofRelease tag = .single (releaseBucket tag) := rfl

/-- The steps that the file of a release adds to a path. -/
def releaseNames (tag : String) : List String :=
  Path.steps ⟨Buckets.fileName (releaseBucket tag)⟩

/-- A character of the bucket is one of the tag, or stands for a dot. -/
theorem of_mem_releaseBucket {tag : String} {c : Char} (inside : c ∈ (releaseBucket tag).toList) :
    c = '_' ∨ (c ∈ tag.toList ∧ c ≠ '.') := by
  rw [releaseBucket, String.toList_ofList, List.mem_map] at inside
  obtain ⟨original, listed, replaced⟩ := inside
  split at replaced
  next => exact .inl replaced.symm
  next other => exact .inr (replaced ▸ ⟨listed, other⟩)

theorem releaseBucket_no_dot (tag : String) : '.' ∉ (releaseBucket tag).toList := by
  intro inside
  rcases of_mem_releaseBucket inside with underscore | ⟨-, other⟩
  · revert underscore
    decide
  · exact other rfl

/-- No replacement gives or takes away a slash. -/
theorem startsWithSlash_fileName (tag : String) :
    Path.startsWithSlash (Buckets.fileName (releaseBucket tag)) = Path.startsWithSlash tag := by
  unfold Path.startsWithSlash
  rw [Buckets.fileName_toList, releaseBucket, String.toList_ofList]
  cases tag.toList with
  | nil => decide
  | cons c rest =>
    by_cases dot : c = '.'
    · subst dot
      rfl
    · rw [List.map_cons, if_neg dot]
      rfl

/-- The only dot is that of the extension, so no step climbs. -/
theorem isName_of_mem_releaseNames {tag name : String} (listed : name ∈ releaseNames tag) :
    Path.IsName name := by
  refine ⟨Path.isStep_of_mem_steps listed, ?_⟩
  rintro rfl
  obtain ⟨piece, part, same⟩ := List.mem_map.mp (List.mem_filter.mp listed).1
  have dots : piece = ['.', '.'] := by
    rw [← @String.toList_ofList piece, same]
    decide
  have count := (Text.part_of_mem_pieces part).1.count_le '.'
  have before := List.count_eq_zero_of_not_mem (releaseBucket_no_dot tag)
  have after : List.count '.' ('.' :: "json".toList) = 1 := by decide
  have two : List.count '.' ['.', '.'] = 2 := by decide
  rw [dots, two, Buckets.fileName_toList, List.count_append, before, after] at count
  omega

/-- The extension is part of a step. -/
theorem releaseNames_ne_nil (tag : String) : releaseNames tag ≠ [] := by
  have extension : 'j' ∈ (Buckets.fileName (releaseBucket tag)).toList := by
    rw [Buckets.fileName_toList]
    exact List.mem_append_right _ (by decide)
  obtain ⟨step, listed, -⟩ := Path.exists_step extension (by decide) (by decide)
  exact List.ne_nil_of_mem listed

/-- Without a slash, the file of a release is in the directory itself. -/
theorem releaseNames_of_whole {tag : String} (whole : '/' ∉ tag.toList) :
    releaseNames tag = [Buckets.fileName (releaseBucket tag)] := by
  have bucket_whole : '/' ∉ (releaseBucket tag).toList := by
    intro inside
    rcases of_mem_releaseBucket inside with underscore | ⟨listed, -⟩
    · revert underscore
      decide
    · exact whole listed
  exact Path.steps_of_isStep (Buckets.isName_fileName bucket_whole).toIsStep

/-- Whether or not all buckets could be kept, the files of the first of them are all that has been
written. -/
theorem Buckets.persist_writes {directory : Path} {buckets : Buckets} {fs after : FileSystem}
    {outcome : Except ExtractionError (List Path)} (home : fs.isDirectoryAt fs.home = true)
    (ran : buckets.persist directory fs = (outcome, after)) :
    ∃ kept, kept ⊆ buckets ∧
      after.fileAt = FileNode.overwrite fs.fileAt (fs.writesOf (documents directory kept)) := by
  cases outcome with
  | ok paths =>
    obtain ⟨saved, -⟩ := persist_eq_ok home ran
    exact ⟨buckets, List.Subset.refl _, (FileSystem.saveAll_evolves home saved).1.files⟩
  | error error =>
    obtain ⟨kept, bucket, rest, between, refused, rfl, -, saved, last⟩ := persist_stopped ran
    obtain ⟨evolves, -⟩ := FileSystem.saveAll_evolves home saved
    have none_more := (FileSystem.save_failed (evolves.home_isDirectory home) last).files
    exact ⟨kept, List.subset_append_left _ _, none_more.trans evolves.files⟩

namespace Extractor

variable {σ : Type} {extractor : Extractor (StateM σ)} {world later between : σ}
  {directory : Path} {fs after : FileSystem}

theorem resolved_eq_ok {strategy : Strategy} (by_release : extractor.strategy = none)
    (resolved : extractor.resolved.run world = (.ok strategy, between)) :
    ∃ tag, extractor.source.release.run world = (.ok tag, between) ∧
      strategy = .ofRelease tag := by
  unfold Extractor.resolved at resolved
  rw [by_release] at resolved
  obtain ⟨answer, then_state, asked, resolved⟩ := run_bind_eq resolved
  cases answer with
  | error error => cases resolved
  | ok tag =>
    obtain ⟨same, rfl⟩ := Prod.mk.inj resolved
    exact ⟨tag, asked, (Except.ok.inj same).symm⟩

/-- Every bucket of a release has its name. -/
theorem bucket_of_release {tag bucket : String} {documents : List Document}
    (listed : bucket ∈ Entries.keys (Merging.mergerAfter (.ofRelease tag) documents).buckets) :
    bucket = releaseBucket tag := by
  rw [Merging.keys_mergerAfter, List.mem_eraseDups] at listed
  obtain ⟨document, -, target⟩ := List.mem_filterMap.mp listed
  obtain ⟨-, assigned, -⟩ := (Merging.target?_eq_some_iff _ document bucket).mp target
  rw [ofRelease_eq] at assigned
  exact assigned.symm

end Extractor

/-- Where the file of a release stands. -/
structure ReleaseFile (fs : FileSystem) (directory : Path) (tag : String) (place : List String) :
    Prop where
  /-- The steps of the file lead down from the directory, or from the top after a leading slash. -/
  place_eq : place =
    (if Path.startsWithSlash tag then [] else fs.destination directory) ++ releaseNames tag
  names : ∀ name ∈ releaseNames tag, Path.IsName name
  /-- A tag without a slash adds one name. -/
  single : '/' ∉ tag.toList → releaseNames tag = [Buckets.fileName (releaseBucket tag)]
  /-- Only with a leading slash does the tag itself decide whether that is in the directory. -/
  below_iff : Below (fs.destination directory) place ↔
    Path.startsWithSlash tag = false ∨ Below (fs.destination directory) (releaseNames tag)

theorem ReleaseFile.of_destination (fs : FileSystem) (directory : Path) (tag : String) :
    ReleaseFile fs directory tag
      (fs.destination (directory.push (Buckets.fileName (releaseBucket tag)))) := by
  have leads := fs.destination_push_names directory fun name (listed : name ∈ releaseNames tag) =>
    isName_of_mem_releaseNames listed
  rw [startsWithSlash_fileName] at leads
  refine ⟨leads, fun name => isName_of_mem_releaseNames, releaseNames_of_whole, ?_⟩
  rw [leads]
  cases Path.startsWithSlash tag with
  | true =>
    rw [if_pos rfl, List.nil_append]
    exact ⟨.inr, fun other => other.resolve_left nofun⟩
  | false =>
    rw [if_neg Bool.false_ne_true]
    exact ⟨fun _ => .inl rfl, fun _ => below_append (releaseNames_ne_nil tag)⟩

namespace Extractor

variable {σ : Type} {extractor : Extractor (StateM σ)} {world later : σ} {directory : Path}
  {fs after : FileSystem}

/-- Whatever an extraction without a strategy writes, whether it succeeds or fails, is the one file
of the release that the source gave, and that file is below the directory except for a tag that
starts with a slash, which is followed from the top. -/
theorem release_file (by_release : extractor.strategy = none)
    (home : fs.isDirectoryAt fs.home = true) {outcome : Except ExtractionError (List Path)}
    (ran : (extractor.extract directory fs).run world = ((outcome, after), later))
    {place : List String} (changed : after.fileAt place ≠ fs.fileAt place) :
    ∃ tag between, extractor.source.release.run world = (.ok tag, between) ∧
      ReleaseFile fs directory tag place := by
  obtain ⟨-, -, rfl⟩ | ⟨-, rfl, -⟩ | ⟨-, buckets, collected, persisted⟩ := extract_cases ran
  · exact absurd rfl changed
  · exact absurd rfl changed
  obtain ⟨strategy, between, documents, resolved, rfl, -⟩ := collect_eq_ok collected
  obtain ⟨tag, asked, rfl⟩ := resolved_eq_ok by_release resolved
  obtain ⟨kept, some_of, written⟩ := Buckets.persist_writes home persisted
  refine ⟨tag, between, asked, ?_⟩
  have listed : place ∈ (fs.writesOf (Buckets.documents directory kept)).map Prod.fst := by
    by_contra other
    rw [written, FileNode.overwrite_of_not_mem other] at changed
    exact changed rfl
  rw [FileSystem.writesOf, Buckets.documents, List.map_map, List.map_map] at listed
  obtain ⟨bucket, here, leads⟩ := List.mem_map.mp listed
  have named := bucket_of_release (List.mem_map_of_mem (some_of here))
  have leads : fs.destination (directory.push (Buckets.fileName bucket.1)) = place := leads
  rw [← leads, named]
  exact .of_destination fs directory tag

end Extractor

namespace SlashedRelease

def before : FileSystem := .empty ["work"]

/-- The files after an extraction into `specs`. -/
def after (tag : String) : FileSystem :=
  (((LongRelease.extractor tag).extract ⟨"specs"⟩ before).run 0).1.2

def inside : List String := ["work", "specs", "release", "v1.json"]

def outside : List String := ["tmp", "release", "v1.json"]

/-- The slash inside `release/v1` leads one directory further down. -/
theorem inner_slash : ∃ outcome,
    ((LongRelease.extractor "release/v1").extract ⟨"specs"⟩ before).run 0 =
      ((outcome, after "release/v1"), 3) ∧
    (after "release/v1").fileAt inside ≠ before.fileAt inside ∧
    ∃ tag between, (LongRelease.extractor "release/v1").source.release.run 0 = (.ok tag, between) ∧
      ReleaseFile before ⟨"specs"⟩ tag inside := by
  have changed : (after "release/v1").fileAt inside ≠ before.fileAt inside := by
    decide +kernel
  exact ⟨_, rfl, changed, Extractor.release_file rfl (by decide) rfl changed⟩

/-- The slash at the start of `/tmp/release/v1` leads away from the directory: the extraction
succeeds with a new file that is not below it. -/
theorem leading_slash : ∃ paths,
    ((LongRelease.extractor "/tmp/release/v1").extract ⟨"specs"⟩ before).run 0 =
      ((.ok paths, after "/tmp/release/v1"), 3) ∧
    before.fileAt outside = none ∧
    ((after "/tmp/release/v1").fileAt outside).isSome = true ∧
    ¬ Below (before.destination ⟨"specs"⟩) outside :=
  ⟨_, rfl, by decide, by decide +kernel, by decide⟩

end SlashedRelease

end ResourceModels
