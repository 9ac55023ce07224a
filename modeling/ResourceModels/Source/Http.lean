import ResourceModels.Json.Parser
import ResourceModels.Source.Basic
import ResourceModels.Source.Url

/-!
# Requests for JSON

The client is a parameter: it sends a request and brings the answer, or none when the server
cannot be reached. Here an answer is judged by its status and then decoded. An error names the
address as it was given, without what was added to its query.
-/

namespace ResourceModels.Http

structure Headers where
  accept : String := "*/*"
  authorization : Option String := none
  userAgent : String := "kubemodel/0.3.0"
  deriving DecidableEq, Repr

structure Request where
  url : Url
  headers : Headers
  deriving DecidableEq, Repr

structure Response where
  status : Nat
  body : String
  deriving DecidableEq, Repr

abbrev Client (m : Type → Type) := Request → m (Option Response)

/-- From this status on an answer is a refusal. -/
def firstRefusal : Nat := 400

/-- How the body of an answer is read, and which parts of it are looked at. -/
structure Reading (α : Type) where
  selection : Json.Selection
  decode : Json → Option α

variable {m : Type → Type} [Monad m] {α : Type}

/-- What an answer holds. -/
def decodeResponse (address : String) (reading : Reading α) :
    Option Response → Except FetchError α
  | none => .error (.transport address)
  | some response =>
    if firstRefusal ≤ response.status then .error (.status address response.status)
    else
      match (Json.selected? reading.selection response.body.toList).bind reading.decode with
      | none => .error (.body address)
      | some value => .ok value

/-- Ask for a JSON value. -/
def get (client : Client m) (headers : Headers) (address : String)
    (query : List (String × String)) (reading : Reading α) : m (Except FetchError α) :=
  match Url.ofText? address with
  | none => pure (.error (.transport address))
  | some url => do
    let url := query.foldl (fun url pair => url.withPair pair.1 pair.2) url
    return decodeResponse address reading (← client ⟨url, headers⟩)

/-- The text of the one field of a record. -/
def soleText? (name : String) (value : Json) : Option String :=
  match value.fields? [name] with
  | some [some (.string text)] => some text
  | _ => none

/-- A record of which one field is looked at. -/
def record (name : String) : Reading String := ⟨.fields [name] .whole, soleText? name⟩

/-- A document is any value. -/
def document : Reading Json := ⟨.whole, fun value => some value.settled⟩

end ResourceModels.Http
