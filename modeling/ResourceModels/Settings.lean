import ResourceModels.Files.FileSystem
import ResourceModels.Source.Cluster
import ResourceModels.Source.Repository
import ResourceModels.Yaml.Node

/-!
# Settings

What the program is told by its configuration file. Every field has a default, unknown keys are
ignored, and a known key may stand only once. A section that is left empty is its default.
-/

namespace ResourceModels

/-- Where schemas are read from. -/
inductive SourceKind where
  /-- A live API server. -/
  | cluster
  /-- Documents published in a repository. -/
  | github
  deriving DecidableEq, Repr

structure ClusterSettings where
  server : String := "http://127.0.0.1:8001"
  token : Option String := none
  /-- A file with a token, read when no token is given. -/
  tokenFile : Option Path := none
  deriving DecidableEq, Repr

structure SourceSettings where
  kind : SourceKind := .cluster
  cluster : ClusterSettings := {}
  github : Repository :=
    { apiUrl := "https://api.github.com"
      owner := "kubernetes"
      name := "kubernetes"
      version := Repository.latestVersion }
  deriving DecidableEq, Repr

/-- Limits in seconds. -/
structure Timeouts where
  connect : Nat := 3
  read : Nat := 30
  deriving DecidableEq, Repr

structure Settings where
  outputPath : String := "kubemodel_models"
  specsPath : String := "kubemodel_specs"
  source : SourceSettings := {}
  timeouts : Timeouts := {}
  deriving DecidableEq, Repr

inductive SettingsError where
  | unreadable (path : Path)
  | malformed (path : Path)
  deriving DecidableEq, Repr

namespace Settings

variable (document : Yaml.Document)

/-- The members of a section by their keys, which have to be scalars. -/
def section? : Yaml → Option (List (String × Yaml))
  | .mapping members => members.mapM fun (key, value) => do
    some ((← (← document.follow? key).text?), value)
  | .scalar _ .plain "" => some []
  | _ => none

variable {α : Type}

/-- The value of a key, or a default where it is missing. -/
def field? (members : List (String × Yaml)) (key : String) (default : α)
    (decode : Yaml → Option α) : Option α :=
  match members.filter (·.1 = key) with
  | [] => some default
  | [(_, value)] => (document.follow? value).bind decode
  | _ => none

/-- The plain words for no value. -/
def nullWords : List String := ["~", "null", "Null", "NULL"]

/-- A plain word for no value, or nothing at all. -/
def isNothing (text : String) : Bool := text = "" || text ∈ nullWords

/-- A text that may be missing. A tag makes a text of a plain word, unless it asks for no value. -/
def optionalText? : Yaml → Option (Option String)
  | .scalar none .plain text => some (if isNothing text then none else some text)
  | .scalar (some tag) .plain text =>
    if tag ≠ .standard "null" then some (some text)
    else if text ∈ nullWords then some none
    else none
  | .scalar _ _ text => some (some text)
  | _ => none

/-- A number from its digits in some base. -/
def digits? (base : Nat) (digits : List Char) : Option Nat :=
  if digits.isEmpty then none
  else do
    let value ← digits.foldlM (fun n c => do
      let digit ← Json.Token.hexValue? c
      if digit < base then some (base * n + digit) else none) 0
    if value < NumberLiteral.wordLimit then some value else none

/-- The base that two characters in front of the digits stand for. -/
def base? : List Char → Option Nat
  | ['0', 'x'] => some 16
  | ['0', 'o'] => some 8
  | ['0', 'b'] => some 2
  | _ => none

/-- A number without a sign, or with a plus sign. Decimal digits that start with a zero are no
number, unless the zero stands alone. -/
def natural? (text : List Char) : Option Nat :=
  let unsigned := if text.head? = some '+' then text.drop 1 else text
  match base? (unsigned.take 2) with
  | some base => digits? base (unsigned.drop 2)
  | none => if unsigned.head? = some '0' && 1 < unsigned.length then none else digits? 10 unsigned

/-- A number is written plainly, or as a literal block with the tag of a number. -/
def seconds? : Yaml → Option Nat
  | .scalar _ .plain text => natural? text.toList
  | .scalar tag .literal text =>
    if tag = some (.standard "int") then natural? text.toList else none
  | _ => none

def kindNamed? : String → Option SourceKind
  | "cluster" => some .cluster
  | "github" => some .github
  | _ => none

/-- A kind is named by a text, or by a tag of its own with no value after it. -/
def kind? : Yaml → Option SourceKind
  | .scalar tag style text =>
    match tag.bind Yaml.Tag.localName? with
    | some name => if style = .plain && isNothing text then kindNamed? name else none
    | none => kindNamed? text
  | _ => none

def cluster? (node : Yaml) : Option ClusterSettings := do
  let members ← section? document node
  let default : ClusterSettings := {}
  let server ← field? document members "server" default.server Yaml.text?
  let token ← field? document members "token" none optionalText?
  let tokenFile ← field? document members "token_file" none optionalText?
  some ⟨server, token, tokenFile.map Path.mk⟩

def repository? (default : Repository) (node : Yaml) : Option Repository := do
  let members ← section? document node
  let apiUrl ← field? document members "api_url" default.apiUrl Yaml.text?
  let owner ← field? document members "owner" default.owner Yaml.text?
  let name ← field? document members "repo" default.name Yaml.text?
  let version ← field? document members "version" default.version Yaml.text?
  some ⟨apiUrl, owner, name, version⟩

def source? (node : Yaml) : Option SourceSettings := do
  let members ← section? document node
  let default : SourceSettings := {}
  let kind ← field? document members "kind" default.kind kind?
  let cluster ← field? document members "cluster" default.cluster (cluster? document)
  let github ← field? document members "github" default.github
    (repository? document default.github)
  some ⟨kind, cluster, github⟩

def timeouts? (node : Yaml) : Option Timeouts := do
  let members ← section? document node
  let default : Timeouts := {}
  let connect ← field? document members "connect_secs" default.connect seconds?
  let read ← field? document members "read_secs" default.read seconds?
  some ⟨connect, read⟩

def ofDocument? : Option Settings := do
  let members ← section? document document.root
  let default : Settings := {}
  let outputPath ← field? document members "output_path" default.outputPath Yaml.text?
  let specsPath ← field? document members "specs_path" default.specsPath Yaml.text?
  let source ← field? document members "source" default.source (source? document)
  let timeouts ← field? document members "timeouts" default.timeouts (timeouts? document)
  some ⟨outputPath, specsPath, source, timeouts⟩

def ofText? (text : String) : Option Settings := (Yaml.Document.ofText? text).bind ofDocument?

/-- The file that is read when none is named. -/
def fileName : String := ".kubemodel.yaml"

/-- The settings of a file; none where there is no such file. -/
def load (fs : FileSystem) (path : Path) : Except SettingsError (Option Settings) :=
  match fs.find? path with
  | none => .ok none
  | some _ =>
    match fs.readText? path with
    | none => .error (.unreadable path)
    | some text =>
      match ofText? text with
      | none => .error (.malformed path)
      | some settings => .ok (some settings)

end Settings

/-- The token to show. One that is given wins over one in a file, which is stripped of blanks. -/
def ClusterSettings.bearerToken (settings : ClusterSettings) (fs : FileSystem) :
    Except SettingsError (Option String) :=
  match settings.token, settings.tokenFile with
  | some token, _ => .ok (some token)
  | none, none => .ok none
  | none, some path =>
    match fs.readText? path with
    | none => .error (.unreadable path)
    | some text => .ok (some (String.ofList (Text.trim text.toList)))

end ResourceModels
