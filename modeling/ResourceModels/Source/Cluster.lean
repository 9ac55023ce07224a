import ResourceModels.Source.Http

/-!
# The documents of a cluster

An API server publishes an index of its documents, with an address relative to the server for
each, and its own version.
-/

namespace ResourceModels

/-- A server and the token it is shown. -/
structure Cluster where
  server : String
  token : Option String
  deriving DecidableEq, Repr

namespace Cluster

/-- Slashes at the end of the server are dropped. -/
def ofServer (server : String) (token : Option String) : Cluster :=
  ⟨String.ofList ((server.toList.reverse.dropWhile (· = '/')).reverse), token⟩

/-- One slash stands between the server and what is relative to it. -/
def url (cluster : Cluster) (relative : String) : String :=
  cluster.server ++ "/" ++ String.ofList (relative.toList.dropWhile (· = '/'))

def headers (cluster : Cluster) : Http.Headers :=
  { authorization := cluster.token.map ("Bearer " ++ ·) }

def decodePaths : Json → Option (Entries String String)
  | .object members => do
    let paths ← members.mapM fun (name, value) => do
      some (name, ← Http.soleText? "serverRelativeURL" value)
    some (Entries.ofList paths)
  | _ => none

/-- The relative address of each document. An index without any is empty. -/
def index? : Json → Option (Entries String String)
  | .array [] => some []
  | value =>
    match value.fields? ["paths"] with
    | some [none] => some []
    | some [some paths] => decodePaths paths
    | _ => none

def index : Http.Reading (Entries String String) :=
  ⟨.fields ["paths"] (.each (.fields ["serverRelativeURL"] .whole)), index?⟩

def refs (cluster : Cluster) (paths : Entries String String) : List DocumentRef :=
  paths.map fun (name, path) => ⟨name, path, cluster.url path⟩

def source {m : Type → Type} [Monad m] (cluster : Cluster) (client : Http.Client m) :
    Source m where
  release :=
    Http.get client cluster.headers (cluster.url "version") [] (Http.record "gitVersion")
  listing := do
    return (← Http.get client cluster.headers (cluster.url "openapi/v3") [] index).map cluster.refs
  fetch ref := Http.get client cluster.headers ref.url [] Http.document

end Cluster

end ResourceModels
