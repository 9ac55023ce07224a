import Mathlib
import ResourceModels.Extraction
import ResourceModels.Proofs.Merging
import ResourceModels.Proofs.Places
import ResourceModels.Proofs.Steps

/-!
# What an extraction leaves behind

Whatever a source answers, the buckets collected from it have different names, and each is a name
that the strategy gives. Kept in a directory that was not there before, they are all the files of
that directory: looking for kept documents then finds the paths that the extraction answered with,
in another order (`keptDocuments_perm`).
-/

namespace ResourceModels

/-- Buckets are named by a text that can be the stem of a file name. -/
def Strategy.NamesFiles : Strategy → Prop
  | .byTitle => True
  | .single bucket => bucket ≠ "" ∧ '/' ∉ bucket.toList

theorem Strategy.NamesFiles.of_assigns {strategy : Strategy} (names : strategy.NamesFiles)
    {title bucket : String} (assigned : strategy.Assigns title bucket) :
    bucket ≠ "" ∧ '/' ∉ bucket.toList := by
  cases strategy with
  | byTitle =>
    have known : bucket = "k8s" ∨ bucket = "crd" := by
      change List.lookup title [("Kubernetes", "k8s"), ("Kubernetes CRD Swagger", "crd")] = _
        at assigned
      simp only [List.lookup] at assigned
      split at assigned
      · exact .inl (Option.some.inj assigned).symm
      · split at assigned
        · exact .inr (Option.some.inj assigned).symm
        · cases assigned
    rcases known with rfl | rfl <;> decide
  | single name => exact assigned ▸ names

theorem Merger.accept_eq_ok {merger found : Merger} {name : String} {value : Json}
    (success : merger.accept name value = .ok found) :
    found = merger ∨ ∃ document, found = merger.add document := by
  obtain ⟨header, -, success⟩ := bind_eq_ok success
  split at success
  next => exact .inl (Except.ok.inj success).symm
  next =>
    obtain ⟨document, -, success⟩ := bind_eq_ok success
    exact .inr ⟨document, (Except.ok.inj success).symm⟩

namespace Extractor

variable {σ : Type}

/-- Whatever is fetched, the merger at the end is the one after some documents. -/
theorem gather_eq_ok {source : Source (StateM σ)} {merger found : Merger} {refs : List DocumentRef}
    {world later : σ} (success : (gather source merger refs).run world = (.ok found, later)) :
    ∃ documents : List Document, found = documents.foldl Merger.add merger := by
  induction refs generalizing merger world with
  | nil =>
    cases success
    exact ⟨[], rfl⟩
  | cons ref rest ih =>
    rw [gather] at success
    split at success
    next => exact ih success
    next =>
      obtain ⟨fetched, between, -, success⟩ := run_bind_eq success
      cases fetched with
      | error error => cases success
      | ok value =>
        dsimp only at success
        split at success
        next => cases success
        next accepted_merger accepted =>
          obtain ⟨documents, rfl⟩ := ih success
          rcases Merger.accept_eq_ok accepted with rfl | ⟨document, rfl⟩
          · exact ⟨documents, rfl⟩
          · exact ⟨document :: documents, rfl⟩

/-- The buckets come from documents by the strategy in use. -/
theorem collect_eq_ok {extractor : Extractor (StateM σ)} {buckets : Buckets} {world later : σ}
    (success : extractor.collect.run world = (.ok buckets, later)) :
    ∃ strategy between documents, extractor.resolved.run world = (.ok strategy, between) ∧
      buckets = (Merging.mergerAfter strategy documents).buckets ∧ buckets ≠ [] := by
  unfold collect at success
  obtain ⟨outcome, between, resolved, success⟩ := run_bind_eq success
  cases outcome with
  | error error => cases success
  | ok strategy =>
    obtain ⟨listing, listed, -, success⟩ := run_bind_eq success
    cases listing with
    | error error => cases success
    | ok refs =>
      obtain ⟨gathered, done, gathering, success⟩ := run_bind_eq success
      cases gathered with
      | error error => cases success
      | ok merger =>
        obtain ⟨documents, rfl⟩ := gather_eq_ok gathering
        dsimp only at success
        unfold Merger.finish? at success
        split at success
        next none_left =>
          split at none_left
          next => cases success
          next => cases none_left
        next found some_left =>
          split at some_left
          next => cases some_left
          next nonempty =>
            cases some_left
            cases success
            refine ⟨strategy, between, documents, resolved, rfl, ?_⟩
            rintro empty
            exact nonempty (by rw [empty]; rfl)

/-- Collected buckets have different names, and each can name a file. -/
theorem bucket_names {strategy : Strategy} (names : strategy.NamesFiles)
    (documents : List Document) :
    (Entries.keys (Merging.mergerAfter strategy documents).buckets).Nodup ∧
      ∀ bucket ∈ Entries.keys (Merging.mergerAfter strategy documents).buckets,
        bucket ≠ "" ∧ '/' ∉ bucket.toList := by
  rw [Merging.keys_mergerAfter]
  refine ⟨nodup_eraseDups _, fun bucket listed => ?_⟩
  rw [List.mem_eraseDups] at listed
  obtain ⟨document, -, target⟩ := List.mem_filterMap.mp listed
  obtain ⟨-, assigned, -⟩ := (Merging.target?_eq_some_iff _ document bucket).mp target
  exact names.of_assigns assigned

end Extractor

namespace Buckets

/-- The name of the file that a bucket is kept in. -/
def fileName (bucket : String) : String := bucket ++ ".json"

theorem fileName_toList (bucket : String) :
    (fileName bucket).toList = bucket.toList ++ '.' :: "json".toList := by
  unfold fileName
  rw [String.toList_append]
  rfl

theorem isName_fileName {bucket : String} (whole : '/' ∉ bucket.toList) :
    Path.IsName (fileName bucket) := by
  refine Path.isName_of_length ?_ ?_
  · have extension : (".json" : String).length = 5 := by decide
    rw [fileName, String.length_append]
    omega
  · rw [fileName_toList, List.mem_append]
    rintro (inside | inside)
    · exact whole inside
    · revert inside
      decide

/-- A bucket is read off the name of its file. -/
theorem splitAtDot_fileName {bucket : String} (nonempty : bucket ≠ "") :
    Path.splitAtDot (fileName bucket).toList = (bucket.toList, some "json".toList) := by
  rw [fileName_toList]
  refine Path.splitAtDot_append ?_ (by decide)
  rw [Ne, String.toList_eq_nil_iff]
  exact nonempty

theorem stem?_push (path : Path) {bucket : String} (nonempty : bucket ≠ "")
    (whole : '/' ∉ bucket.toList) : (path.push (fileName bucket)).stem? = some bucket := by
  rw [Path.stem?, Path.name?_push path (isName_fileName whole), Option.map_some,
    splitAtDot_fileName nonempty, String.ofList_toList]

theorem stem?_absolute (fs : FileSystem) (path : Path) {bucket : String} (nonempty : bucket ≠ "")
    (whole : '/' ∉ bucket.toList) :
    (fs.absolute (path.push (fileName bucket))).stem? = some bucket := by
  obtain ⟨start, same⟩ := @Path.absolute_push fs.home path _ (isName_fileName whole).toIsStep
  rw [FileSystem.absolute_eq, same, stem?_push start nonempty whole]

theorem extension?_push (path : Path) {bucket : String} (nonempty : bucket ≠ "")
    (whole : '/' ∉ bucket.toList) : (path.push (fileName bucket)).extension? = some "json" := by
  rw [Path.extension?, Path.name?_push path (isName_fileName whole), Option.bind_some,
    splitAtDot_fileName nonempty, Option.map_some, String.ofList_toList]

/-- The files of buckets. -/
def documents (directory : Path) (buckets : Buckets) : List (Path × Content) :=
  buckets.map fun bucket =>
    (directory.push (fileName bucket.1), .text bucket.2.toJson.pretty)

/-- Keeping buckets is saving their files; the answer names them by their absolute paths. -/
theorem persist_eq_ok {directory : Path} {buckets : Buckets} {fs after : FileSystem}
    (home : fs.isDirectoryAt fs.home = true) {paths : List Path}
    (success : persist directory buckets fs = (.ok paths, after)) :
    FileSystem.saveAll (documents directory buckets) fs = (.ok (), after) ∧
      paths = (documents directory buckets).map fun document => fs.absolute document.1 := by
  induction buckets generalizing fs paths with
  | nil =>
    cases success
    exact ⟨rfl, rfl⟩
  | cons entry rest ih =>
    obtain ⟨bucket, merged⟩ := entry
    rw [persist] at success
    split at success
    next => cases success
    next next saved =>
      have keeps := (FileSystem.save_spec home saved).evolves.toKeeps
      split at success
      next => cases success
      next more last others =>
        cases success
        have next_home := keeps.home_isDirectory home
        obtain ⟨saved_rest, rfl⟩ := ih next_home others
        have keeps_rest := (FileSystem.saveAll_evolves next_home saved_rest).1.toKeeps
        have here : after.absolute (fileOf directory bucket) =
            fs.absolute (fileOf directory bucket) :=
          (keeps.trans keeps_rest).absolute _
        have below : (documents directory rest).map (fun document => next.absolute document.1) =
            (documents directory rest).map fun document => fs.absolute document.1 :=
          List.map_congr_left fun document _ => keeps.absolute document.1
        refine ⟨(FileSystem.saveAll_cons saved _).trans saved_rest, ?_⟩
        rw [here, below]
        rfl

end Buckets

namespace Buckets

/-- Different buckets with names for files. -/
structure Nameable (buckets : Buckets) : Prop where
  distinct : (Entries.keys buckets).Nodup
  names : ∀ bucket ∈ Entries.keys buckets, bucket ≠ "" ∧ '/' ∉ bucket.toList

variable {buckets : Buckets} {directory : Path} {fs after later : FileSystem}

theorem Nameable.isName (nameable : buckets.Nameable) {bucket : String × Merged}
    (listed : bucket ∈ buckets) : Path.IsName (fileName bucket.1) :=
  isName_fileName (nameable.names _ (List.mem_map_of_mem listed)).2

theorem fileName_injective : Function.Injective fileName := by
  intro first second same
  have same_chars := congrArg String.toList same
  rw [fileName_toList, fileName_toList] at same_chars
  exact String.toList_inj.mp (List.append_cancel_right same_chars)

/-- The places below the directory at which buckets are kept. -/
def places (buckets : Buckets) : List (List String) := buckets.map fun bucket => [fileName bucket.1]

theorem Nameable.nodup_places (nameable : buckets.Nameable) : buckets.places.Nodup := by
  have injective : Function.Injective fun bucket => [fileName bucket] :=
    fun _ _ same => fileName_injective (List.cons.inj same).1
  have distinct := nameable.distinct.map injective
  rw [Entries.keys, List.map_map] at distinct
  exact distinct

theorem Nameable.writesOf (nameable : buckets.Nameable) :
    (fs.writesOf (documents directory buckets)).map Prod.fst =
      buckets.places.map (fs.destination directory ++ ·) := by
  rw [FileSystem.writesOf, documents, places, List.map_map, List.map_map, List.map_map]
  refine List.map_congr_left fun bucket listed => ?_
  simp only [Function.comp_apply]
  exact fs.destination_push directory (nameable.isName listed)

/-- Where nothing was before, the files of the buckets are all there is. -/
theorem Nameable.fileAt_isSome_iff (nameable : buckets.Nameable)
    (home : fs.isDirectoryAt fs.home = true)
    (absent : fs.node? (fs.destination directory) = none)
    (saved : FileSystem.saveAll (documents directory buckets) fs = (.ok (), after))
    (names : List String) :
    (after.fileAt (fs.destination directory ++ names)).isSome = true ↔ names ∈ buckets.places := by
  rw [(FileSystem.saveAll_evolves home saved).1.files]
  have listed_iff : fs.destination directory ++ names ∈
      (fs.writesOf (documents directory buckets)).map Prod.fst ↔ names ∈ buckets.places := by
    rw [nameable.writesOf]
    exact List.mem_map_of_injective fun _ _ same => List.append_cancel_left same
  constructor
  · intro held
    by_contra other
    rw [FileNode.overwrite_of_not_mem (listed_iff.not.mpr other), FileSystem.fileAt,
      FileSystem.node?, FileNode.find?_append] at held
    change (Option.bind (Option.bind (fs.node? (fs.destination directory)) _) _).isSome = true
      at held
    rw [absent] at held
    cases held
  · exact fun listed => FileNode.overwrite_isSome (listed_iff.mpr listed) fs.fileAt

/-- Every bucket is kept in a file that its absolute path leads to, now and later. -/
theorem Nameable.place?_absolute (nameable : buckets.Nameable) (well : fs.WellFormed)
    (saved : FileSystem.saveAll (documents directory buckets) fs = (.ok (), after))
    (keeps : after.Keeps later) {bucket : String × Merged} (listed : bucket ∈ buckets) :
    later.place? (fs.absolute (directory.push (fileName bucket.1))) =
      some (fs.destination directory ++ [fileName bucket.1]) := by
  obtain ⟨evolves, found⟩ := FileSystem.saveAll_evolves well.home_isDirectory saved
  have document : (directory.push (fileName bucket.1), Content.text bucket.2.toJson.pretty) ∈
      documents directory buckets := List.mem_map.mpr ⟨bucket, listed, rfl⟩
  have kept := keeps.place? (found _ document)
  rw [fs.destination_push directory (nameable.isName listed)] at kept
  have same := (evolves.toKeeps.trans keeps).absolute (directory.push (fileName bucket.1))
  have later_well := keeps.wellFormed (evolves.wellFormed well)
  rw [← same]
  exact FileSystem.place?_absolute later_well (nameable.isName listed) kept

/-- The directory is there from then on. -/
theorem Nameable.place?_directory (nameable : buckets.Nameable) (nonempty : buckets ≠ [])
    (home : fs.isDirectoryAt fs.home = true)
    (absent : fs.node? (fs.destination directory) = none)
    (saved : FileSystem.saveAll (documents directory buckets) fs = (.ok (), after))
    (keeps : after.Keeps later) :
    later.place? directory = some (later.destination directory) ∧
      later.isDirectoryAt (later.destination directory) = true := by
  obtain ⟨evolves, found⟩ := FileSystem.saveAll_evolves home saved
  obtain ⟨bucket, rest, rfl⟩ := List.exists_cons_of_ne_nil nonempty
  have has_text : directory.text ≠ "" := by
    intro empty
    have here : fs.destination directory = fs.home := by
      obtain ⟨text⟩ := directory
      subst empty
      rfl
    rw [FileSystem.isDirectoryAt, ← here, absent] at home
    cases home
  exact FileSystem.place?_of_push (nameable.isName List.mem_cons_self) has_text
    (keeps.place? (found _ List.mem_cons_self))

/-- Looking for kept documents finds what has been kept, in some order, as long as nothing else
comes into the directory. -/
theorem Nameable.keptDocuments_perm (nameable : buckets.Nameable) (nonempty : buckets ≠ [])
    (well : fs.WellFormed) (absent : fs.node? (fs.destination directory) = none)
    (saved : FileSystem.saveAll (documents directory buckets) fs = (.ok (), after))
    (keeps : after.Keeps later)
    (same_files : ∀ names, later.fileAt (fs.destination directory ++ names) =
      after.fileAt (fs.destination directory ++ names)) :
    ((documents directory buckets).map fun document => fs.absolute document.1).Perm
      (later.keptDocuments directory) := by
  obtain ⟨evolves, -⟩ := FileSystem.saveAll_evolves well.home_isDirectory saved
  have keeps_all := evolves.toKeeps.trans keeps
  obtain ⟨found, is_directory⟩ :=
    nameable.place?_directory nonempty well.home_isDirectory absent saved keeps
  have below : ((later.filesBelow directory).map Prod.fst).Perm
      ((documents directory buckets).map Prod.fst) := by
    have files := FileSystem.filesBelow_perm (keeps_all.tidy well.tidy) found is_directory
      nameable.nodup_places ?_
    · rw [places, List.map_map] at files
      rw [documents, List.map_map]
      exact files
    · intro names
      rw [keeps_all.destination, same_files names]
      exact nameable.fileAt_isSome_iff well.home_isDirectory absent saved names
  have all_json : ∀ path ∈ (later.filesBelow directory).map Prod.fst,
      path.extension? = some "json" := by
    intro path listed
    obtain ⟨document, among, rfl⟩ := List.mem_map.mp (below.subset listed)
    obtain ⟨bucket, inside, rfl⟩ := List.mem_map.mp among
    obtain ⟨has_text, whole⟩ := nameable.names _ (List.mem_map_of_mem inside)
    exact extension?_push directory has_text whole
  have kept_all : (later.filesBelow directory).filter (·.1.extension? = some "json") =
      later.filesBelow directory := by
    rw [List.filter_eq_self]
    intro file listed
    rw [decide_eq_true_eq]
    exact all_json _ (List.mem_map_of_mem listed)
  unfold FileSystem.keptDocuments
  rw [kept_all]
  have same_paths := below.symm.map later.absolute
  rw [List.map_map, List.map_map] at same_paths
  refine (List.Perm.of_eq ?_).trans same_paths
  exact List.map_congr_left fun document _ => (keeps_all.absolute document.1).symm

end Buckets

end ResourceModels
