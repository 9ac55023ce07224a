import Mathlib
import ResourceModels.Proofs.Extraction
import ResourceModels.Proofs.FileOrder
import ResourceModels.Proofs.Output
import ResourceModels.Proofs.Streaming

/-!
# Running again

The first run fetches and merges documents, keeps them and writes models derived from them. A
second run finds the kept documents instead, in the order of their paths. Its answer is the same
and it changes nothing, whatever its source would have said (`rerun_reproduces`): the model
set does not depend on the order of the files, and the files of the models, written apart from
the documents, are there with the contents that are written again.
-/

namespace ResourceModels

namespace Pipeline

/-- A run that finds the directory of the documents asks the source nothing. -/
theorem generate_of_kept {m : Type → Type} [Monad m] [LawfulMonad m] (pipeline : Pipeline m)
    (models : Path) {specs : Path} {fs : FileSystem} (kept : fs.isDirectory specs = true) :
    pipeline.generate models specs fs =
      pure (match pipeline.rendering.units fs (fs.keptDocuments specs) with
        | .error error => (.error error, fs)
        | .ok units => writeUnits models pipeline.rendering.generator.fileExtension
            (units.mergeSort GeneratedUnit.le) fs) := by
  unfold generate Extractor.extract
  rw [if_pos kept, pure_bind]
  dsimp only
  cases pipeline.rendering.units fs (fs.keptDocuments specs) <;> rfl

/-- A run that starts without the directory collects, keeps, derives and writes. -/
theorem generate_eq_ok {σ : Type} {pipeline : Pipeline (StateM σ)} {models specs : Path}
    {fs after : FileSystem} {world later : σ} {written : List Path}
    (missing : fs.isDirectory specs = false)
    (success : (pipeline.generate models specs fs).run world = ((.ok written, after), later)) :
    ∃ buckets kept paths units,
      pipeline.extractor.collect.run world = (.ok buckets, later) ∧
      buckets.persist specs fs = (.ok paths, kept) ∧
      pipeline.rendering.units kept paths = .ok units ∧
      writeUnits models pipeline.rendering.generator.fileExtension
        (units.mergeSort GeneratedUnit.le) kept = (.ok written, after) := by
  obtain ⟨paths, kept, units, extraction, derived, wrote⟩ := generate_steps success
  obtain ⟨here, -⟩ | ⟨-, -, error, -, failure⟩ | ⟨-, buckets, collecting, persisted⟩ :=
    Extractor.extract_cases extraction
  · rw [missing] at here
    cases here
  · cases failure
  · exact ⟨buckets, kept, paths, units, collecting, persisted, derived, wrote⟩

/-- Conversely, these four steps make a run. -/
theorem generate_of_missing {σ : Type} {pipeline : Pipeline (StateM σ)} {models specs : Path}
    {fs kept : FileSystem} {world later : σ} {buckets : Buckets} {paths : List Path}
    {units : List GeneratedUnit} (missing : fs.isDirectory specs = false)
    (collected : pipeline.extractor.collect.run world = (.ok buckets, later))
    (persisted : buckets.persist specs fs = (.ok paths, kept))
    (rendered : pipeline.rendering.units kept paths = .ok units) :
    (pipeline.generate models specs fs).run world =
      (writeUnits models pipeline.rendering.generator.fileExtension
        (units.mergeSort GeneratedUnit.le) kept, later) := by
  have extracted :
      (pipeline.extractor.extract specs fs).run world = ((.ok paths, kept), later) := by
    rw [Extractor.extract_run _ collected missing]
    exact congrArg (·, later) persisted
  exact generate_of_extracted extracted rendered

end Pipeline

theorem Rendering.units_eq_ok {rendering : Rendering} {fs : FileSystem} {paths : List Path}
    {units : List GeneratedUnit} (success : rendering.units fs paths = .ok units) :
    ∃ set, Derivation.ofFiles rendering.conventions rendering.collapse fs paths = .ok set ∧
      rendering.generator.generate set = .ok units := by
  obtain ⟨set, found, generated⟩ := bind_eq_ok success
  exact ⟨set, mapError_eq_ok found, mapError_eq_ok generated⟩

theorem Rendering.units_of_set {rendering : Rendering} {fs : FileSystem} {paths : List Path}
    {set : ModelSet} {units : List GeneratedUnit}
    (derived : Derivation.ofFiles rendering.conventions rendering.collapse fs paths = .ok set)
    (generated : rendering.generator.generate set = .ok units) :
    rendering.units fs paths = .ok units := by
  unfold Rendering.units
  rw [derived]
  change (rendering.generator.generate set).mapError _ = _
  rw [generated]
  rfl

/-- The namespaces of sorted units have names that paths can hold. -/
theorem Rendering.isName_of_units {rendering : Rendering} {style : Code.Style}
    (pydantic : rendering.generator = Code.generator style) {fs : FileSystem} {paths : List Path}
    {units : List GeneratedUnit} (success : rendering.units fs paths = .ok units) :
    ∀ unit ∈ units.mergeSort GeneratedUnit.le, ∀ segment ∈ unit.path, Path.IsName segment := by
  intro unit listed segment inside
  obtain ⟨set, -, generated⟩ := Rendering.units_eq_ok success
  rw [pydantic] at generated
  obtain rfl := Except.ok.inj generated
  exact Code.isName_of_mem_generate (List.mem_mergeSort.mp listed) inside

/-- Files below one directory are not below another that stands apart from it. -/
theorem not_mem_of_apart {first second : List String} (apart : ¬ first <+: second)
    (apart' : ¬ second <+: first) {writes : List (List String × Content)}
    (below : ∀ write ∈ writes, first <+: write.1) (names : List String) :
    second ++ names ∉ writes.map Prod.fst := by
  intro listed
  obtain ⟨write, among, same⟩ := List.mem_map.mp listed
  have under_first := below write among
  rw [same] at under_first
  rcases List.prefix_or_prefix_of_prefix under_first (List.prefix_append second names) with
    shorter | shorter
  · exact apart shorter
  · exact apart' shorter

/-- The outputs of a model set stand below the directory of the models. -/
theorem writesOf_outputs_below {root : Path} {units : List GeneratedUnit}
    (proper : ∀ unit ∈ units, ∀ segment ∈ unit.path, Path.IsName segment) (fs : FileSystem) :
    ∀ write ∈ fs.writesOf (outputs root Code.fileExtension units),
      fs.destination root <+: write.1 := by
  intro write listed
  obtain ⟨item, among, rfl⟩ := List.mem_map.mp listed
  obtain ⟨unit, inside, output⟩ := List.mem_filterMap.mp among
  obtain ⟨path, found, rfl⟩ := Option.map_eq_some_iff.mp output
  obtain ⟨_, _, _, -, same⟩ := destination_outputPath? (by decide) (by decide) (proper unit inside)
    found fs
  exact ⟨_, same.symm⟩

/-- The documents give the same model set when they are found again, whatever has been written
elsewhere. -/
theorem Buckets.Nameable.ofFiles_kept {buckets : Buckets} {directory : Path}
    {fs kept later : FileSystem} (nameable : buckets.Nameable) (nonempty : buckets ≠ [])
    (well : fs.WellFormed) (absent : fs.node? (fs.destination directory) = none)
    (saved : FileSystem.saveAll (documents directory buckets) fs = (.ok (), kept))
    (keeps : kept.Keeps later)
    (same_files : ∀ names, later.fileAt (fs.destination directory ++ names) =
      kept.fileAt (fs.destination directory ++ names))
    {conventions : Conventions} {collapse : Bool} {set : ModelSet}
    (derived : Derivation.ofFiles conventions collapse kept
      ((documents directory buckets).map fun document => fs.absolute document.1) = .ok set) :
    Derivation.ofFiles conventions collapse later (later.keptDocuments directory) = .ok set := by
  refine Derivation.ofFiles_perm
    (nameable.keptDocuments_perm nonempty well absent saved keeps same_files) ?_ ?_ derived
  · have stems : ((documents directory buckets).map fun document => fs.absolute document.1).map
        (fun path => path.stem?.getD "") = Entries.keys buckets := by
      rw [documents, List.map_map, List.map_map]
      refine List.map_congr_left fun bucket listed => ?_
      obtain ⟨has_text, whole⟩ := nameable.names _ (List.mem_map_of_mem listed)
      rw [Function.comp_apply, Function.comp_apply, stem?_absolute fs directory has_text whole,
        Option.getD_some]
    rw [stems]
    exact nameable.distinct
  · intro path listed
    obtain ⟨document, among, rfl⟩ := List.mem_map.mp listed
    obtain ⟨bucket, inside, rfl⟩ := List.mem_map.mp among
    exact FileSystem.readText?_congr (nameable.place?_absolute well saved (.refl kept) inside)
      (nameable.place?_absolute well saved keeps inside) (same_files [fileName bucket.1])

/-- A second run with the Pydantic generator answers as the first did and leaves every file as it
is, and no source is asked anything. -/
theorem rerun_reproduces {σ : Type} {pipeline : Pipeline (StateM σ)} {style : Code.Style}
    (pydantic : pipeline.rendering.generator = Code.generator style) {models specs : Path}
    {fs after : FileSystem} {world later : σ} {written : List Path} (well : fs.WellFormed)
    (named : ∀ strategy between,
      pipeline.extractor.resolved.run world = (.ok strategy, between) → strategy.NamesFiles)
    (absent : fs.node? (fs.destination specs) = none)
    (apart : ¬ fs.destination models <+: fs.destination specs)
    (apart' : ¬ fs.destination specs <+: fs.destination models)
    (success : (pipeline.generate models specs fs).run world = ((.ok written, after), later)) :
    ∀ (m : Type → Type) [Monad m] [LawfulMonad m] (extractor : Extractor m),
      Pipeline.generate ⟨extractor, pipeline.rendering⟩ models specs after =
        pure (.ok written, after) := by
  have missing := FileSystem.isDirectory_eq_false absent
  obtain ⟨buckets, kept, paths, units, collected, persisted, derived, wrote⟩ :=
    Pipeline.generate_eq_ok missing success
  obtain ⟨strategy, between, merged, resolved, rfl, nonempty⟩ := Extractor.collect_eq_ok collected
  have nameable : (Merging.mergerAfter strategy merged).buckets.Nameable :=
    ⟨(Extractor.bucket_names (named strategy between resolved) merged).1,
      (Extractor.bucket_names (named strategy between resolved) merged).2⟩
  obtain ⟨saved, rfl⟩ := Buckets.persist_eq_ok well.home_isDirectory persisted
  rw [pydantic] at wrote
  obtain ⟨saved_units, rfl⟩ := writeUnits_eq_ok_iff.mp wrote
  obtain ⟨kept_evolves, -⟩ := FileSystem.saveAll_evolves well.home_isDirectory saved
  have kept_well := kept_evolves.wellFormed well
  obtain ⟨after_evolves, -⟩ := FileSystem.saveAll_evolves kept_well.home_isDirectory saved_units
  obtain ⟨set, derived_set, generated⟩ := Rendering.units_eq_ok derived
  have proper := Rendering.isName_of_units pydantic derived
  have same_files : ∀ names, after.fileAt (fs.destination specs ++ names) =
      kept.fileAt (fs.destination specs ++ names) := by
    intro names
    rw [after_evolves.files]
    refine FileNode.overwrite_of_not_mem (not_mem_of_apart apart apart' ?_ names) _
    intro write listed
    rw [← kept_evolves.destination]
    exact writesOf_outputs_below proper kept write listed
  have same_set := nameable.ofFiles_kept nonempty well absent saved after_evolves.toKeeps same_files
    derived_set
  have same_units := Rendering.units_of_set same_set generated
  intro m _ _ extractor
  have kept_directory : after.isDirectory specs = true := by
    obtain ⟨found, directory⟩ := nameable.place?_directory nonempty well.home_isDirectory absent
      saved after_evolves.toKeeps
    exact FileSystem.isDirectory_of_place? found directory
  rw [Pipeline.generate_of_kept _ models kept_directory, same_units, pydantic]
  dsimp only
  congr 1
  exact writeUnits_eq_ok_iff.mpr
    ⟨FileSystem.saveAll_again kept_well.home_isDirectory saved_units, rfl⟩

-- Two documents whose buckets come in one order and the files of the buckets in the other. Both
-- modules are written to one file.
namespace TwoDocuments

def document (title schema : String) : Json :=
  .object [
    ("openapi", .string "3.0.0"),
    ("info", .object [("title", .string title), ("version", .string "v1")]),
    ("components", .object [("schemas", .object [(schema, .object [("type", .string "object")])])])]

/-- A source that counts how often it is asked. -/
def pipeline : Pipeline (StateM Nat) where
  extractor := {
    source := {
      release := fun asked => (.ok "v1", asked + 1)
      listing := fun asked =>
        (.ok [⟨"api__v1", "api__v1", "pods"⟩, ⟨"apis__v1", "apis__v1", "customs"⟩], asked + 1)
      fetch := fun ref asked =>
        (.ok (if ref.url = "pods" then document "Kubernetes" "Pod"
          else document "Kubernetes CRD Swagger" "Custom"), asked + 1) }
    strategy := some .byTitle }

def pods : Merged :=
  ⟨⟨"3.0.0", "Kubernetes", "v1"⟩, [("Pod", .object [("type", .string "object")])]⟩

def customs : Merged :=
  ⟨⟨"3.0.0", "Kubernetes CRD Swagger", "v1"⟩, [("Custom", .object [("type", .string "object")])]⟩

def buckets : Buckets := [("k8s", pods), ("crd", customs)]

def before : FileSystem := .empty ["work"]

def kept : FileSystem := (buckets.persist ⟨"specs"⟩ before).2

def paths : List Path := [⟨"/work/specs/k8s.json"⟩, ⟨"/work/specs/crd.json"⟩]

def written : List Path :=
  [⟨"models/__init__.py"⟩, ⟨"models/models.py"⟩, ⟨"models/__init__.py"⟩, ⟨"models/models.py"⟩]

theorem before_wellFormed : before.WellFormed := by
  refine .empty fun name listed => ?_
  obtain rfl := List.mem_singleton.mp listed
  exact ⟨⟨⟨by decide, by decide⟩, by decide⟩, by decide⟩

theorem readText?_pods :
    kept.readText? ⟨"/work/specs/k8s.json"⟩ = some pods.toJson.pretty := by rfl

theorem readText?_customs :
    kept.readText? ⟨"/work/specs/crd.json"⟩ = some customs.toJson.pretty := by rfl

theorem written_documents : ∀ merged ∈ [pods, customs],
    Json.Token.all? (merged.toJson.indented 0) = some merged.toJson.tokens := by
  decide +kernel

theorem ofFile_pods :
    (Derivation.ofFile .kubernetes true kept ⟨"/work/specs/k8s.json"⟩).map (·.map Module.path) =
      .ok [["k8s", "models"]] := by
  have loaded : Derivation.load kept ⟨"/work/specs/k8s.json"⟩ =
      .ok ⟨⟨pods.metadata, none⟩, pods.schemas⟩ :=
    Derivation.load_of_written readText?_pods (written_documents pods (by simp)) rfl rfl (by decide)
  unfold Derivation.ofFile
  rw [loaded]
  decide

theorem ofFile_customs :
    (Derivation.ofFile .kubernetes true kept ⟨"/work/specs/crd.json"⟩).map (·.map Module.path) =
      .ok [["crd", "models"]] := by
  have loaded : Derivation.load kept ⟨"/work/specs/crd.json"⟩ =
      .ok ⟨⟨customs.metadata, none⟩, customs.schemas⟩ :=
    Derivation.load_of_written readText?_customs (written_documents customs (by simp)) rfl rfl
      (by decide)
  unfold Derivation.ofFile
  rw [loaded]
  decide

theorem ofFiles_kept : ∃ first second, Derivation.ofFiles .kubernetes true kept paths =
    .ok [⟨["crd", "models"], first⟩, ⟨["k8s", "models"], second⟩] := by
  obtain ⟨pod_modules, from_pods, pods_listed⟩ := map_eq_ok ofFile_pods
  obtain ⟨custom_modules, from_customs, customs_listed⟩ := map_eq_ok ofFile_customs
  match pod_modules, custom_modules, pods_listed, customs_listed with
  | [⟨_, second⟩], [⟨_, first⟩], rfl, rfl =>
    have modules : Derivation.modulesOf .kubernetes true kept paths =
        .ok [⟨["k8s", "models"], second⟩, ⟨["crd", "models"], first⟩] :=
      Derivation.modulesOf_cons_eq_ok.mpr ⟨_, _, from_pods,
        Derivation.modulesOf_cons_eq_ok.mpr ⟨_, _, from_customs, rfl, rfl⟩, rfl⟩
    refine ⟨first, second, ?_⟩
    unfold Derivation.ofFiles
    rw [modules]
    cbv

def units (first second : String) : List GeneratedUnit :=
  [⟨["crd", "__init__"], ""⟩, ⟨["crd", "models"], first⟩,
    ⟨["k8s", "__init__"], ""⟩, ⟨["k8s", "models"], second⟩]

theorem sorted_units (first second : String) :
    (units first second).mergeSort GeneratedUnit.le = units first second := by
  refine List.mergeSort_of_pairwise ?_
  have ascending : ([["crd", "__init__"], ["crd", "models"], ["k8s", "__init__"],
      ["k8s", "models"]] : List ModulePath).Pairwise fun a b => ModulePath.le a b = true := by
    decide
  exact (@List.pairwise_map _ _ GeneratedUnit.path _ (units first second)).mp ascending

theorem generate_models (crd_models k8s_models : List Model) : ∃ first second,
    Code.generate {} [⟨["crd", "models"], crd_models⟩, ⟨["k8s", "models"], k8s_models⟩] =
      units first second := by
  have initializers : Code.initializers [["crd", "models"], ["k8s", "models"]] =
      [⟨["crd", "__init__"], ""⟩, ⟨["k8s", "__init__"], ""⟩] := by cbv
  have crd : Code.modulePath ["crd", "models"] = ["crd", "models"] := by decide
  have k8s : Code.modulePath ["k8s", "models"] = ["k8s", "models"] := by decide
  unfold Code.generate
  simp only [List.map_cons, List.map_nil, crd, k8s, initializers]
  generalize Code.moduleText {} _ ⟨["crd", "models"], crd_models⟩ = first
  generalize Code.moduleText {} _ ⟨["k8s", "models"], k8s_models⟩ = second
  refine ⟨first, second, (@mergeSort_eq_of_perm _ GeneratedUnit.path _ _ ?_ ?_).trans
    (sorted_units first second)⟩
  · exact List.perm_append_comm.trans (.cons _ (.swap _ _ _))
  · simp

theorem collect_buckets : pipeline.extractor.collect.run 0 = (.ok buckets, 3) := by rfl

theorem persist_buckets : buckets.persist ⟨"specs"⟩ before = (.ok paths, kept) := by rfl

theorem write_units (first second : String) :
    (writeUnits ⟨"models"⟩ "py" (units first second) kept).1 = .ok written := by rfl

theorem generate_run : ∃ after,
    (pipeline.generate ⟨"models"⟩ ⟨"specs"⟩ before).run 0 = ((.ok written, after), 3) := by
  obtain ⟨crd_models, k8s_models, derived⟩ := ofFiles_kept
  obtain ⟨first, second, generated⟩ := generate_models crd_models k8s_models
  refine ⟨(writeUnits ⟨"models"⟩ "py" (units first second) kept).2, ?_⟩
  have rendered : pipeline.rendering.units kept paths = .ok (units first second) :=
    Rendering.units_of_set derived (congrArg Except.ok generated)
  rw [Pipeline.generate_of_missing (by decide) collect_buckets persist_buckets rendered,
    sorted_units]
  have wrote := write_units first second
  change (writeUnits ⟨"models"⟩ "py" (units first second) kept, 3) = _
  generalize writeUnits ⟨"models"⟩ "py" (units first second) kept = result at wrote ⊢
  rw [← wrote]

/-- The second run finds both documents in the order of their paths. -/
theorem two_documents_rerun : ∃ after,
    (pipeline.generate ⟨"models"⟩ ⟨"specs"⟩ before).run 0 = ((.ok written, after), 3) ∧
      ∀ (m : Type → Type) [Monad m] [LawfulMonad m] (extractor : Extractor m),
        Pipeline.generate ⟨extractor, pipeline.rendering⟩ ⟨"models"⟩ ⟨"specs"⟩ after =
          pure (.ok written, after) := by
  obtain ⟨after, success⟩ := generate_run
  refine ⟨after, success, rerun_reproduces rfl before_wellFormed ?_ rfl ?_ ?_ success⟩
  · intro strategy between resolved
    obtain ⟨⟩ := resolved
    trivial
  · decide
  · decide

end TwoDocuments

end ResourceModels
