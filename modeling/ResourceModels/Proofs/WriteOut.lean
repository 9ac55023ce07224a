import Mathlib
import ResourceModels.Proofs.Extraction
import ResourceModels.Proofs.FileOrder
import ResourceModels.Proofs.Output
import ResourceModels.Proofs.Streaming

/-!
# What the files hold once units are written

Units are written in the order of their namespaces, and the bucket is no part of the path, so two
buckets share one tree of files. Units whose namespaces agree after the bucket are written to one
file, and the body of the last of them is what that file holds (`generate_settles`).
-/

namespace ResourceModels

theorem exists_last {α : Type} {keep : α → Prop} {values : List α}
    (some_kept : ∃ value ∈ values, keep value) :
    ∃ before last after, values = before ++ last :: after ∧ keep last ∧
      ∀ value ∈ after, ¬ keep value := by
  induction values with
  | nil =>
    obtain ⟨value, listed, -⟩ := some_kept
    cases listed
  | cons first rest ih =>
    by_cases later : ∃ value ∈ rest, keep value
    · obtain ⟨before, last, after, rfl, kept, none_after⟩ := ih later
      exact ⟨first :: before, last, after, rfl, kept, none_after⟩
    · obtain ⟨value, listed, kept⟩ := some_kept
      rcases List.mem_cons.mp listed with rfl | listed
      · exact ⟨[], value, rest, rfl, kept, fun other present other_kept =>
          later ⟨other, present, other_kept⟩⟩
      · exact absurd ⟨value, listed, kept⟩ later

/-- A place holds what was written there last. -/
theorem FileNode.overwrite_last {view : List String → Option Content}
    {before after : List (List String × Content)} {place : List String} {content : Content}
    (last : place ∉ after.map Prod.fst) :
    overwrite view (before ++ (place, content) :: after) place = some content := by
  rw [overwrite_append]
  change overwrite (Function.update (overwrite view before) place (some content)) after place = _
  rw [overwrite_of_not_mem last, Function.update_self]

/-- Where the unit of a namespace is written. -/
def FileSystem.unitPlace? (fs : FileSystem) (root : Path) (extension : String)
    (namespaced : ModulePath) : Option (List String) :=
  (outputPath? root extension namespaced).map fs.destination

section

variable {root : Path} {extension : String} {units : List GeneratedUnit} {fs after : FileSystem}

theorem FileSystem.Keeps.unitPlace? (keeps : fs.Keeps after) :
    after.unitPlace? = fs.unitPlace? := by
  funext root extension namespaced
  rw [FileSystem.unitPlace?, FileSystem.unitPlace?]
  exact congrArg (Option.map · _) (funext keeps.destination)

/-- The writes of units, in their order. -/
theorem writesOf_outputs (root : Path) (extension : String) (units : List GeneratedUnit)
    (fs : FileSystem) : fs.writesOf (outputs root extension units) =
      units.filterMap fun unit =>
        (fs.unitPlace? root extension unit.path).map fun place => (place, .text unit.body) := by
  rw [FileSystem.writesOf, outputs, List.map_filterMap]
  refine List.filterMap_congr fun unit _ => ?_
  rw [FileSystem.unitPlace?, Option.map_map, Option.map_map]
  rfl

/-- Of all units that are written to one file, the last one is in it. -/
theorem fileAt_of_last (home : fs.isDirectoryAt fs.home = true)
    (saved : FileSystem.saveAll (outputs root extension units) fs = (.ok (), after))
    {place : List String} (written : ∃ unit ∈ units,
      fs.unitPlace? root extension unit.path = some place) :
    ∃ before last later, units = before ++ last :: later ∧
      fs.unitPlace? root extension last.path = some place ∧
      (∀ unit ∈ later, fs.unitPlace? root extension unit.path ≠ some place) ∧
      after.fileAt place = some (.text last.body) := by
  obtain ⟨before, last, later, rfl, here, none_later⟩ := exists_last written
  refine ⟨before, last, later, rfl, here, none_later, ?_⟩
  rw [(FileSystem.saveAll_evolves home saved).1.files, writesOf_outputs, List.filterMap_append,
    List.filterMap_cons_some (by rw [here]; rfl)]
  refine FileNode.overwrite_last fun again => ?_
  obtain ⟨write, listed, same⟩ := List.mem_map.mp again
  obtain ⟨unit, present, found⟩ := List.mem_filterMap.mp listed
  obtain ⟨other, other_place, rfl⟩ := Option.map_eq_some_iff.mp found
  exact none_later unit present (other_place.trans (congrArg some same))

/-- A path is followed by the segments after the bucket. -/
theorem unitPlace?_of_tail {first second : ModulePath} (same : first.tail = second.tail)
    (found : (fs.unitPlace? root extension first).isSome = true) (nonempty : second ≠ []) :
    fs.unitPlace? root extension second = fs.unitPlace? root extension first := by
  match first, second with
  | [], _ => cases found
  | _ :: _, [] => exact absurd rfl nonempty
  | bucket :: segments, other :: rest =>
    obtain rfl : segments = rest := same
    cases segments <;> rfl

/-- Namespaces made of names share a file exactly when they agree after the bucket. -/
theorem unitPlace?_eq_iff (nonempty : extension ≠ "") (whole : '/' ∉ extension.toList)
    {first second : ModulePath} (first_names : ∀ segment ∈ first, Path.IsName segment)
    (second_names : ∀ segment ∈ second, Path.IsName segment)
    (found : (fs.unitPlace? root extension first).isSome = true) (not_empty : second ≠ []) :
    fs.unitPlace? root extension second = fs.unitPlace? root extension first ↔
      second.tail = first.tail := by
  refine ⟨fun same => ?_, fun same => unitPlace?_of_tail same.symm found not_empty⟩
  obtain ⟨place, first_place⟩ := Option.isSome_iff_exists.mp found
  obtain ⟨output, first_output, rfl⟩ := Option.map_eq_some_iff.mp first_place
  obtain ⟨other, second_output, same_place⟩ := Option.map_eq_some_iff.mp (same.trans first_place)
  obtain ⟨_, start, last, rfl, first_eq⟩ :=
    destination_outputPath? nonempty whole first_names first_output fs
  obtain ⟨_, start', last', rfl, second_eq⟩ :=
    destination_outputPath? nonempty whole second_names second_output fs
  rw [first_eq, second_eq] at same_place
  obtain ⟨starts, lasts⟩ := List.append_inj' (List.append_cancel_left same_place) rfl
  have names := (String.append_left_inj _).mp
    ((String.append_left_inj _).mp (List.cons.inj lasts).1)
  rw [List.tail_cons, List.tail_cons, starts, names]

/-- No unit that is written to the same file has a later namespace. -/
def FileSystem.IsLast (fs : FileSystem) (root : Path) (extension : String)
    (units : List GeneratedUnit) (unit : GeneratedUnit) : Prop :=
  ∀ other ∈ units,
    fs.unitPlace? root extension other.path = fs.unitPlace? root extension unit.path →
      ModulePath.le other.path unit.path = true

/-- What the files of units hold in the end. -/
structure FilesSettled (fs after : FileSystem) (root : Path) (extension : String)
    (units : List GeneratedUnit) : Prop where
  /-- The file of a unit holds the body of the last unit that is written there. -/
  held : ∀ unit ∈ units, ∀ path, outputPath? root extension unit.path = some path →
    ∃ last ∈ units,
      fs.unitPlace? root extension last.path = fs.unitPlace? root extension unit.path ∧
      fs.IsLast root extension units last ∧ after.readText? path = some last.body
  /-- So it holds the body of the unit itself, if no later one is written there. -/
  own : ∀ unit ∈ units, ∀ path, outputPath? root extension unit.path = some path →
    fs.IsLast root extension units unit → after.readText? path = some unit.body
  /-- Among namespaces made of names, those of one bucket share no file, and those of two buckets
  share one where they agree after the bucket. -/
  shared : extension ≠ "" → '/' ∉ extension.toList →
    ∀ first ∈ units, ∀ second ∈ units, (∀ segment ∈ first.path, Path.IsName segment) →
      (∀ segment ∈ second.path, Path.IsName segment) → second.path ≠ [] →
      (fs.unitPlace? root extension first.path).isSome = true →
      (fs.unitPlace? root extension second.path = fs.unitPlace? root extension first.path ↔
        second.path.tail = first.path.tail) ∧
      (fs.unitPlace? root extension second.path = fs.unitPlace? root extension first.path →
        second.path.head? = first.path.head? → second = first)

/-- Writing units in the order of their namespaces settles their files. -/
theorem writeUnits_settles (home : fs.isDirectoryAt fs.home = true)
    (distinct : (units.map GeneratedUnit.path).Nodup) {written : List Path}
    (wrote : writeUnits root extension (units.mergeSort GeneratedUnit.le) fs =
      (.ok written, after)) : FilesSettled fs after root extension units := by
  obtain ⟨saved, -⟩ := writeUnits_eq_ok_iff.mp wrote
  obtain ⟨-, found⟩ := FileSystem.saveAll_evolves home saved
  have ordered : (units.mergeSort GeneratedUnit.le).Pairwise fun a b =>
      ModulePath.le a.path b.path = true :=
    ModulePath.sorted_mergeSort GeneratedUnit.path units
  have held : ∀ unit ∈ units, ∀ path, outputPath? root extension unit.path = some path →
      ∃ last ∈ units,
        fs.unitPlace? root extension last.path = fs.unitPlace? root extension unit.path ∧
        fs.IsLast root extension units last ∧ after.readText? path = some last.body := by
    intro unit listed path output
    have unit_place : fs.unitPlace? root extension unit.path = some (fs.destination path) := by
      rw [FileSystem.unitPlace?, output]
      rfl
    obtain ⟨before, last, later, sorted_eq, last_place, none_later, holds⟩ :=
      fileAt_of_last home saved ⟨unit, List.mem_mergeSort.mpr listed, unit_place⟩
    have last_sorted : last ∈ units.mergeSort GeneratedUnit.le := by
      rw [sorted_eq]
      exact List.mem_append_right _ List.mem_cons_self
    have last_listed := List.mem_mergeSort.mp last_sorted
    have is_last : fs.IsLast root extension units last := by
      intro other present same
      have sorted_present : other ∈ before ++ last :: later := by
        rw [← sorted_eq]
        exact List.mem_mergeSort.mpr present
      rw [sorted_eq, List.pairwise_append] at ordered
      obtain ⟨-, -, across⟩ := ordered
      rcases List.mem_append.mp sorted_present with earlier | here
      · exact across other earlier last List.mem_cons_self
      · rcases List.mem_cons.mp here with rfl | afterwards
        · exact (Bool.or_self _).symm.trans (ModulePath.le_total other.path other.path)
        · exact absurd (same.trans last_place) (none_later other afterwards)
    have reached : after.place? path = some (fs.destination path) := by
      refine found (path, .text unit.body) ?_
      exact List.mem_filterMap.mpr ⟨unit, List.mem_mergeSort.mpr listed, by rw [output]; rfl⟩
    refine ⟨last, last_listed, last_place.trans unit_place.symm, is_last, ?_⟩
    rw [FileSystem.readText?_eq, reached, Option.bind_some, holds]
  refine ⟨held, ?_, ?_⟩
  · intro unit listed path output unit_last
    obtain ⟨last, last_listed, same, last_last, read⟩ := held unit listed path output
    have same_path := ModulePath.le_antisymm (last_last unit listed same.symm)
      (unit_last last last_listed same)
    have same_unit := List.inj_on_of_nodup_map distinct listed last_listed same_path
    rw [read, same_unit]
  · intro nonempty whole first first_listed second second_listed first_names second_names
      second_nonempty first_found
    have agree := unitPlace?_eq_iff nonempty whole first_names second_names first_found
      second_nonempty
    refine ⟨agree, fun same heads => ?_⟩
    have tails := agree.mp same
    have first_nonempty : first.path ≠ [] := by
      intro empty
      rw [empty] at first_found
      cases first_found
    have same_path : second.path = first.path := by
      obtain ⟨bucket, segments, first_eq⟩ := List.exists_cons_of_ne_nil first_nonempty
      obtain ⟨other, rest, second_eq⟩ := List.exists_cons_of_ne_nil second_nonempty
      rw [first_eq, second_eq] at heads tails ⊢
      rw [Option.some.inj heads, List.tail_cons, List.tail_cons] at *
      rw [tails]
    exact List.inj_on_of_nodup_map distinct second_listed first_listed same_path

end

/-- Extracting documents keeps the directories that are there. -/
theorem Extractor.extract_keeps {σ : Type} {extractor : Extractor (StateM σ)} {specs : Path}
    {fs kept : FileSystem} {world later : σ} {paths : List Path}
    (home : fs.isDirectoryAt fs.home = true)
    (extracted : (extractor.extract specs fs).run world = ((.ok paths, kept), later)) :
    fs.Keeps kept := by
  obtain ⟨-, -, rfl⟩ | ⟨-, rfl, -⟩ | ⟨-, buckets, -, persisted⟩ := extract_cases extracted
  · exact .refl kept
  · exact .refl kept
  · obtain ⟨saved, -⟩ := Buckets.persist_eq_ok home persisted
    exact (FileSystem.saveAll_evolves home saved).1.toKeeps

/-- A run that succeeds leaves in the file of every unit the body of the last unit, in the order of
namespaces, that is written there. -/
theorem Pipeline.generate_settles {σ : Type} {pipeline : Pipeline (StateM σ)}
    {models specs : Path} {fs kept after : FileSystem} {world between later : σ}
    {paths written : List Path} {units : List GeneratedUnit}
    (home : fs.isDirectoryAt fs.home = true)
    (extracted :
      (pipeline.extractor.extract specs fs).run world = ((.ok paths, kept), between))
    (rendered : pipeline.rendering.units kept paths = .ok units)
    (distinct : (units.map GeneratedUnit.path).Nodup)
    (success : (pipeline.generate models specs fs).run world = ((.ok written, after), later)) :
    FilesSettled fs after models pipeline.rendering.generator.fileExtension units := by
  obtain ⟨paths', kept', units', extracted', rendered', wrote⟩ := generate_steps success
  obtain ⟨same_extraction, rfl⟩ := Prod.mk.inj (extracted.symm.trans extracted')
  obtain ⟨same_paths, rfl⟩ := Prod.mk.inj same_extraction
  obtain rfl := Except.ok.inj same_paths
  obtain rfl := Except.ok.inj (rendered.symm.trans rendered')
  have keeps := Extractor.extract_keeps home extracted
  obtain ⟨held, own, shared⟩ := writeUnits_settles (keeps.home_isDirectory home) distinct wrote
  simp only [FileSystem.IsLast, keeps.unitPlace?] at held own shared
  exact ⟨held, own, shared⟩

namespace TwoNotes

def units : List GeneratedUnit := [⟨["crd", "note"], "one"⟩, ⟨["k8s", "note"], "two"⟩]

/-- The source is never asked, because the directory of the documents is there. -/
def pipeline : Pipeline (StateM Unit) where
  extractor := {
    source := {
      release := fun world => (.ok "v1", world)
      listing := fun world => (.ok [], world)
      fetch := fun ref world => (.error (.transport ref.url), world) }
    strategy := some .byTitle }
  rendering := { generator := { fileExtension := "py", generate := fun _ => .ok units } }

def before : FileSystem :=
  ⟨.directory [("work", .directory [("specs", .directory [])])], ["work"], fun _ => false⟩

def after : FileSystem := (writeUnits ⟨"models"⟩ "py" units before).2

theorem extracted :
    (pipeline.extractor.extract ⟨"specs"⟩ before).run () = ((.ok [], before), ()) := by
  cbv

theorem rendered : pipeline.rendering.units before [] = .ok units := by
  cbv

theorem sorted : units.mergeSort GeneratedUnit.le = units :=
  List.mergeSort_of_pairwise (by decide)

theorem generated : (pipeline.generate ⟨"models"⟩ ⟨"specs"⟩ before).run () =
    ((.ok [⟨"models/note.py"⟩, ⟨"models/note.py"⟩], after), ()) := by
  rw [Pipeline.generate_of_extracted extracted rendered, sorted]
  rfl

/-- The run succeeds with different namespaces, and the note of the first bucket is gone. -/
theorem first_note_overwritten :
    before.isDirectoryAt before.home = true ∧
    (pipeline.extractor.extract ⟨"specs"⟩ before).run () = ((.ok [], before), ()) ∧
    pipeline.rendering.units before [] = .ok units ∧
    (units.map GeneratedUnit.path).Nodup ∧
    (pipeline.generate ⟨"models"⟩ ⟨"specs"⟩ before).run () =
      ((.ok [⟨"models/note.py"⟩, ⟨"models/note.py"⟩], after), ()) ∧
    (⟨["crd", "note"], "one"⟩ : GeneratedUnit) ∈ units ∧
    outputPath? ⟨"models"⟩ "py" ["crd", "note"] = some ⟨"models/note.py"⟩ ∧
    after.readText? ⟨"models/note.py"⟩ ≠ some "one" := by
  have read : after.readText? ⟨"models/note.py"⟩ = some "two" := by rfl
  refine ⟨rfl, extracted, rendered, by decide, generated, List.mem_cons_self, by rfl, ?_⟩
  rw [read]
  decide

/-- The note of the second bucket has the later namespace, and its body is what the file holds. -/
theorem notes_settled : FilesSettled before after ⟨"models"⟩ "py" units ∧
    after.readText? ⟨"models/note.py"⟩ = some "two" := by
  have settled : FilesSettled before after ⟨"models"⟩ "py" units :=
    Pipeline.generate_settles rfl extracted rendered (by decide) generated
  refine ⟨settled, settled.own ⟨["k8s", "note"], "two"⟩ (by decide) _ (by rfl) ?_⟩
  intro other listed same
  rcases List.mem_cons.mp listed with rfl | listed
  · rfl
  · obtain rfl := List.mem_singleton.mp listed
    rfl

end TwoNotes

end ResourceModels
