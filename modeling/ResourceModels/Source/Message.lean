import ResourceModels.Source.Http

/-!
# Messages on the wire

How a request is written and an answer is read. Version 1.0 of the protocol is spoken, in which the
server ends its answer by closing the connection, so an answer is all that has been received.
-/

namespace ResourceModels.Http

def lineEnd : String := "\r\n"

/-- The request with its headers, up to the empty line. -/
def Request.text (request : Request) : String :=
  let headers := request.headers
  let authorization := match headers.authorization with
    | none => []
    | some value => ["Authorization: " ++ value]
  let lines := ["GET " ++ request.url.target ++ " HTTP/1.0", "Host: " ++ request.url.authority,
    "Accept: " ++ headers.accept, "User-Agent: " ++ headers.userAgent] ++ authorization
  String.join (lines.map (· ++ lineEnd)) ++ lineEnd

/-- Split at the first empty line. -/
def splitHead : List UInt8 → List UInt8 × List UInt8
  | 13 :: 10 :: 13 :: 10 :: body => ([], body)
  | byte :: rest => let (head, body) := splitHead rest; (byte :: head, body)
  | [] => ([], [])

/-- The three digits after the version of the protocol. -/
def status? (head : List UInt8) : Option Nat :=
  let line := (head.takeWhile (· ≠ 13)).map fun byte => Char.ofNat byte.toNat
  match line.take 5, line.dropWhile (· ≠ ' ') with
  | ['H', 'T', 'T', 'P', '/'], ' ' :: rest => (String.ofList (rest.take 3)).toNat?
  | _, _ => none

/-- A body that is no text holds no JSON either, and counts as empty. -/
def Response.ofBytes? (bytes : ByteArray) : Option Response :=
  let (head, body) := splitHead bytes.toList
  (status? head).map fun status => ⟨status, (String.fromUTF8? ⟨body.toArray⟩).getD ""⟩

end ResourceModels.Http
