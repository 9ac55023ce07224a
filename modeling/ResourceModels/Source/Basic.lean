import ResourceModels.Files.Path
import ResourceModels.Json.Basic

/-!
# Sources of schema documents

A source lists the documents it has, hands them out one at a time and knows the release they
belong to. It is asked in some monad, so that one account of extraction serves a table of answers,
a record of the questions and a network alike.
-/

namespace ResourceModels

inductive FetchError where
  /-- No answer came. -/
  | transport (url : String)
  /-- The answer was a refusal. -/
  | status (url : String) (code : Nat)
  /-- The answer could not be read. -/
  | body (url : String)
  deriving DecidableEq, Repr

/-- The wording, where it is the program's own. -/
def FetchError.message : FetchError → Option String
  | .status url code => some ("request to " ++ url ++ " returned HTTP " ++ toString code)
  | .transport _ | .body _ => none

/-- A document that a source offers. -/
structure DocumentRef where
  name : String
  path : String
  url : String
  deriving DecidableEq, Repr

namespace DocumentRef

/-- Documents that are never fetched. -/
def refused : List String :=
  ["version_openapi.json",
   "apis__resource.k8s.io__v1alpha2_openapi.json",
   "apis__internal.apiserver.k8s.io__v1alpha1_openapi.json",
   "apis__storagemigration.k8s.io__v1alpha1_openapi.json"]

/-- The path without its query. -/
def location (ref : DocumentRef) : Path := ⟨String.ofList (ref.path.toList.takeWhile (· ≠ '?'))⟩

/-- What comes before the first two underscores in a row. -/
def beforeUnderscores : List Char → List Char
  | '_' :: '_' :: _ => []
  | c :: rest => c :: beforeUnderscores rest
  | [] => []

/-- What comes after the last two underscores in a row. -/
def afterUnderscores (text : List Char) : List Char := (beforeUnderscores text.reverse).reverse

/-- Only documents of one API version are fetched: the last part of the file name is a version,
and an extension can only be `json`. -/
def isSkipped (ref : DocumentRef) : Bool :=
  let stem := ref.location.stem?.getD ""
  !List.isPrefixOf ['v'] (afterUnderscores stem.toList) || stem = "version" || ref.name ∈ refused ||
    ref.location.extension?.any (· ≠ "json")

end DocumentRef

/-- A source that is asked in the monad `m`. -/
structure Source (m : Type → Type) where
  /-- The tag of the release that the documents belong to. -/
  release : m (Except FetchError String)
  listing : m (Except FetchError (List DocumentRef))
  fetch : DocumentRef → m (Except FetchError Json)

end ResourceModels
