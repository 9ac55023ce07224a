import ResourceModels.Json.Parser
import ResourceModels.Json.Printer

/-!
# OpenAPI documents

A document is read in two steps. Its four required fields are looked for first, in order, and
the first one missing is reported; then the values are checked. The header can be read alone,
without looking at the components. Schemas are kept as JSON in document order.
-/

namespace ResourceModels

inductive DocumentError where
  | json (error : Json.Error)
  | missingField (field : String)
  | unsupportedVersion (version : String)
  deriving DecidableEq, Repr

/-- The wording, where it is the program's own. -/
def DocumentError.message : DocumentError → Option String
  | .json _ => none
  | .missingField field => some ("missing required field: " ++ field)
  | .unsupportedVersion version => some ("unsupported OpenAPI version: " ++ version)

/-- The identity of a document. -/
structure Metadata where
  openapi : String
  title : String
  version : String
  deriving DecidableEq, Repr, Inhabited

structure Header where
  metadata : Metadata
  description : Option String
  deriving DecidableEq, Repr

structure Document where
  header : Header
  schemas : Entries String Json
  deriving Repr

namespace Document

/-- Required fields in the order in which they are looked for. -/
def requiredFields : List (List String) :=
  [["openapi"], ["info"], ["info", "title"], ["info", "version"]]

/-- The value at a path of member names. -/
def locate (value : Json) : List String → Option Json
  | [] => some value
  | key :: path => (value.member? key).bind (locate · path)

def isPresent (value : Json) (path : List String) : Bool :=
  match locate value path with
  | some found => !found.isNull
  | none => false

def checkRequired (value : Json) : Except DocumentError Unit :=
  match requiredFields.find? (fun path => !isPresent value path) with
  | some path => .error (.missingField (".".intercalate path))
  | none => .ok ()

def textAt? (value : Json) (path : List String) : Option String :=
  (locate value path).bind Json.text?

/-- The text of an optional member: absent or `null` is none, another shape is an error. -/
def optionalText (value : Json) (key : String) : Except Json.Error (Option String) :=
  match value.member? key with
  | none | some .null => .ok none
  | some (.string text) => .ok (some text)
  | some _ => .error .dataError

def decodeHeader (value : Json) : Except Json.Error Header := do
  let info := (value.member? "info").getD .null
  let description ← optionalText info "description"
  match textAt? value ["openapi"], info.member? "title", info.member? "version" with
  | some openapi, some (.string title), some (.string version) =>
    .ok ⟨⟨openapi, title, version⟩, description⟩
  | _, _, _ => .error .dataError

def decodeSchemas : Json → Except Json.Error (Entries String Json)
  | .object members => .ok members
  | _ => .error .dataError

/-- The components are an object, or a list of its fields in order. -/
def decodeComponents : Json → Except Json.Error (Entries String Json)
  | .object members =>
    match Entries.get? members "schemas" with
    | none => .ok []
    | some schemas => decodeSchemas schemas
  | .array [] => .ok []
  | .array [schemas] => decodeSchemas schemas
  | _ => .error .dataError

def ofJson (value : Json) : Except DocumentError Document := do
  checkRequired value
  let header ← (decodeHeader value).mapError .json
  let schemas ←
    match value.member? "components" with
    | none => .ok []
    | some components => (decodeComponents components).mapError .json
  .ok ⟨header, schemas⟩

def parse (text : String) : Except DocumentError Document := do
  ofJson (← (Json.parse text).mapError .json)

def metadata (document : Document) : Metadata := document.header.metadata

end Document

/-- The header of a document whose components are not looked at. -/
def Header.ofJson (value : Json) : Except DocumentError Header := do
  Document.checkRequired value
  (Document.decodeHeader value).mapError .json

namespace Metadata

/-- Document titles with a bucket of their own. -/
def bucketOfTitle : List (String × String) :=
  [("Kubernetes", "k8s"), ("Kubernetes CRD Swagger", "crd")]

def bucket? (metadata : Metadata) : Option String := bucketOfTitle.lookup metadata.title

def isVersion3 (metadata : Metadata) : Bool :=
  ['3', '.'].isPrefixOf metadata.openapi.toList

def isSupported (metadata : Metadata) : Bool :=
  metadata.isVersion3 && metadata.bucket?.isSome

end Metadata

/-- Models are derived from version 3 of the format. -/
def Document.checkVersion (document : Document) : Except DocumentError Unit :=
  if document.metadata.isVersion3 then .ok ()
  else .error (.unsupportedVersion document.metadata.openapi)

end ResourceModels
