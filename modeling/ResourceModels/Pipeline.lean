import ResourceModels.Derivation.Files
import ResourceModels.Extraction
import ResourceModels.Code.Package

/-!
# The whole run

Documents are extracted, models are derived from them and rendered, and each unit is written to
the file its namespace names. Nothing is written before all units are there; then they are written
in the order of their namespaces, up to the first failure.
-/

namespace ResourceModels

/-- A generator refuses when its template does not fit. -/
inductive GeneratorError where
  | template
  deriving DecidableEq, Repr

/-- What turns a model set into source texts. -/
structure Generator where
  /-- The extension of the files, without the dot. -/
  fileExtension : String
  generate : ModelSet → Except GeneratorError (List GeneratedUnit)

/-- Pydantic models in one style. -/
def Code.generator (style : Style) : Generator where
  fileExtension := fileExtension
  generate set := .ok (generate style set)

inductive PipelineError where
  | extraction (error : ExtractionError)
  | derivation (error : SpecsError)
  | generator (error : GeneratorError)
  | write (path : Path)
  deriving DecidableEq, Repr

/-- The file of a namespace: below `root`, without the bucket, with the extension after the last
name. A namespace that is only a bucket, or that ends in no name, has no file. -/
def outputPath? (root : Path) (extension : String) (path : ModulePath) : Option Path :=
  match path with
  | [] | [_] => none
  | _ :: segments =>
    let target := segments.foldl Path.push root
    target.name?.map fun name => target.withName (name ++ "." ++ extension)

/-- Write each unit that has a file, up to the first failure. -/
def writeUnits (root : Path) (extension : String) :
    List GeneratedUnit → FileSystem → Except PipelineError (List Path) × FileSystem
  | [], fs => (.ok [], fs)
  | unit :: rest, fs =>
    match outputPath? root extension unit.path with
    | none => writeUnits root extension rest fs
    | some path =>
      match fs.save path (.text unit.body) with
      | (.error refused, fs) => (.error (.write refused), fs)
      | (.ok (), fs) =>
        match writeUnits root extension rest fs with
        | (.error error, fs) => (.error error, fs)
        | (.ok paths, fs) => (.ok (path :: paths), fs)

/-- How schemas become units. -/
structure Rendering where
  conventions : Conventions := .kubernetes
  /-- Whether schemas that are no models are inlined where they are used. -/
  collapse : Bool := true
  generator : Generator := Code.generator {}

/-- Derive models from documents kept in files and render them. -/
def Rendering.units (rendering : Rendering) (fs : FileSystem) (paths : List Path) :
    Except PipelineError (List GeneratedUnit) := do
  let set ← (Derivation.ofFiles rendering.conventions rendering.collapse fs paths).mapError
    .derivation
  (rendering.generator.generate set).mapError .generator

structure Pipeline (m : Type → Type) where
  extractor : Extractor m
  rendering : Rendering := {}

/-- Generate models below `models` from the documents kept in `specs`, which are extracted first
if that directory is missing. Answers with the paths written. -/
def Pipeline.generate {m : Type → Type} [Monad m] (pipeline : Pipeline m) (models specs : Path)
    (fs : FileSystem) : m (Except PipelineError (List Path) × FileSystem) := do
  match ← pipeline.extractor.extract specs fs with
  | (.error error, fs) => pure (.error (.extraction error), fs)
  | (.ok paths, fs) =>
    match pipeline.rendering.units fs paths with
    | .error error => pure (.error error, fs)
    | .ok units =>
      pure (writeUnits models pipeline.rendering.generator.fileExtension
        (units.mergeSort GeneratedUnit.le) fs)

end ResourceModels
