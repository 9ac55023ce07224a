import ResourceModels.Bucket
import ResourceModels.Files.FileSystem
import ResourceModels.Source.Basic

/-!
# Extraction

The documents of a source are fetched in order, merged, and kept as one file for each bucket. A
directory that is already there is taken for the result of an earlier extraction, and the source
is not asked at all.
-/

namespace ResourceModels

inductive ExtractionError where
  | fetch (error : FetchError)
  | malformed (name : String) (error : DocumentError)
  | noSchemaFound
  | io (path : Path)
  deriving DecidableEq, Repr

/-- The wording, where it is the program's own. -/
def ExtractionError.message : ExtractionError → Option String
  | .noSchemaFound => some "no schema found"
  | .fetch _ | .malformed .. | .io _ => none

/-- Merge a document that has been fetched. It is classified by its header, and the components of
one that is not supported are never looked at. -/
def Merger.accept (merger : Merger) (name : String) (value : Json) :
    Except ExtractionError Merger := do
  let header ← (Header.ofJson value).mapError (.malformed name)
  match merger.strategy.bucket? header.metadata with
  | none => .ok merger
  | some _ =>
    let document ← (Document.ofJson value).mapError (.malformed name)
    .ok (merger.add document)

/-- A source, and how its documents are merged. Without a strategy there is one bucket, named after
the release. -/
structure Extractor (m : Type → Type) where
  source : Source m
  strategy : Option Strategy

namespace Extractor

variable {m : Type → Type} [Monad m]

/-- Fetch and merge the documents of a list, up to the first failure. -/
def gather (source : Source m) (merger : Merger) :
    List DocumentRef → m (Except ExtractionError Merger)
  | [] => pure (.ok merger)
  | ref :: rest =>
    if ref.isSkipped then gather source merger rest
    else do
      match ← source.fetch ref with
      | .error error => pure (.error (.fetch error))
      | .ok value =>
        match merger.accept ref.name value with
        | .error error => pure (.error error)
        | .ok merger => gather source merger rest

/-- The strategy in use. The release is asked for only where it names the bucket. -/
def resolved (extractor : Extractor m) : m (Except FetchError Strategy) :=
  match extractor.strategy with
  | some strategy => pure (.ok strategy)
  | none => do
    match ← extractor.source.release with
    | .error error => pure (.error error)
    | .ok tag => pure (.ok (.ofRelease tag))

/-- Fetch and merge everything that the source has. -/
def collect (extractor : Extractor m) : m (Except ExtractionError Buckets) := do
  match ← extractor.resolved with
  | .error error => pure (.error (.fetch error))
  | .ok strategy =>
    match ← extractor.source.listing with
    | .error error => pure (.error (.fetch error))
    | .ok refs =>
      match ← gather extractor.source ⟨strategy, []⟩ refs with
      | .error error => pure (.error error)
      | .ok merger =>
        match merger.finish? with
        | none => pure (.error .noSchemaFound)
        | some buckets => pure (.ok buckets)

end Extractor

namespace Buckets

def fileOf (directory : Path) (bucket : String) : Path := directory.push (bucket ++ ".json")

/-- Write each bucket to its file, up to the first failure. -/
def persist (directory : Path) :
    Buckets → FileSystem → Except ExtractionError (List Path) × FileSystem
  | [], fs => (.ok [], fs)
  | (bucket, merged) :: rest, fs =>
    let path := fileOf directory bucket
    match fs.save path (.text merged.toJson.pretty) with
    | (.error refused, fs) => (.error (.io refused), fs)
    | (.ok (), fs) =>
      match persist directory rest fs with
      | (.error error, fs) => (.error error, fs)
      | (.ok paths, fs) => (.ok (fs.absolute path :: paths), fs)

end Buckets

/-- The documents kept in a directory: its `json` files at any depth. -/
def FileSystem.keptDocuments (fs : FileSystem) (directory : Path) : List Path :=
  ((fs.filesBelow directory).filter (·.1.extension? = some "json")).map (fs.absolute ·.1)

/-- The paths of the merged documents, which are kept in `directory`. -/
def Extractor.extract {m : Type → Type} [Monad m] (extractor : Extractor m) (directory : Path)
    (fs : FileSystem) : m (Except ExtractionError (List Path) × FileSystem) :=
  if fs.isDirectory directory then pure (.ok (fs.keptDocuments directory), fs)
  else do
    match ← extractor.collect with
    | .error error => pure (.error error, fs)
    | .ok buckets => pure (buckets.persist directory fs)

end ResourceModels
