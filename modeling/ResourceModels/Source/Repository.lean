import ResourceModels.Source.Http

/-!
# The documents of a repository

Published documents are kept in a directory of a source repository, which is listed through the
contents interface of its host. The documents are read at a version, and that version, or the
newest release where it is the main branch, gives the release tag.
-/

namespace ResourceModels

structure Repository where
  apiUrl : String
  owner : String
  name : String
  /-- The tag or branch to read. -/
  version : String
  deriving DecidableEq, Repr

namespace Repository

/-- The version that follows the newest release. -/
def latestVersion : String := "master"

def documentDirectory : String := "api/openapi-spec/v3"

/-- The address of something in the repository. Slashes at the end of the host are dropped. -/
def url (repository : Repository) (path : String) : String :=
  String.ofList ((repository.apiUrl.toList.reverse.dropWhile (· = '/')).reverse) ++ "/repos/" ++
    repository.owner ++ "/" ++ repository.name ++ "/" ++ path

def releaseUrl (repository : Repository) : String :=
  if repository.version = latestVersion then repository.url "releases/latest"
  else repository.url ("releases/tags/" ++ repository.version)

def headers : Http.Headers := { accept := "application/vnd.github+json" }

def entryFields : List String := ["name", "path", "type", "download_url"]

/-- An entry of a directory. Only files that can be downloaded are documents. -/
def entry? (value : Json) : Option (Option DocumentRef) :=
  match value.fields? entryFields with
  | some [some (.string name), some (.string path), some (.string type), download] =>
    match download with
    | some (.string url) => some (if type = "file" then some ⟨name, path, url⟩ else none)
    | none | some .null => some none
    | some _ => none
  | _ => none

def entries? : Json → Option (List DocumentRef)
  | .array items => (items.mapM entry?).map fun found => found.filterMap id
  | _ => none

def listing : Http.Reading (List DocumentRef) := ⟨.each (.fields entryFields .whole), entries?⟩

def source {m : Type → Type} [Monad m] (repository : Repository) (client : Http.Client m) :
    Source m where
  release := Http.get client headers repository.releaseUrl [] (Http.record "tag_name")
  listing := Http.get client headers (repository.url ("contents/" ++ documentDirectory))
    [("ref", repository.version)] listing
  fetch ref := Http.get client headers ref.url [] Http.document

end Repository

end ResourceModels
