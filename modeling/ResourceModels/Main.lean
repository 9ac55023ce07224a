import ResourceModels.CommandLine.Command
import ResourceModels.Source.Message
import Std.Async.DNS
import Std.Async.TCP
import Std.Async.Timer

/-!
# The program

Brings the files that the command reads into a file system, runs the command against servers that
are asked over the network, and writes to the disk what the command has written. Only plain
connections are made, as to a proxy on the same machine; a server that wants a secure one counts as
unreachable.
-/

namespace ResourceModels

open Std.Async

/-- Give up an action after some seconds. -/
def within {α : Type} [Inhabited α] (seconds : Nat) (action : Async α) : Async α :=
  Async.race action do
    sleep (.ofNat (1000 * min seconds 1000000))
    throw (IO.userError "timed out")

/-- Everything up to the end of the connection. -/
partial def receive (limit : Nat) (socket : TCP.Socket.Client) (received : ByteArray) :
    Async ByteArray := do
  match ← within limit (socket.recv? 65536) with
  | none => return received
  | some bytes => receive limit socket (received ++ bytes)

def address (service : Nat) : Std.Net.IPAddr → Std.Net.SocketAddress
  | .v4 place => .v4 ⟨place, service.toUInt16⟩
  | .v6 place => .v6 ⟨place, service.toUInt16⟩

/-- Send a request and wait for the answer. -/
def exchange (timeouts : Timeouts) (request : Http.Request) : IO (Option Http.Response) := do
  if request.url.secure then return none
  try
    let (host, service) := request.url.endpoint
    Async.block do
      let places ← DNS.getAddrInfo host (toString service)
      match places[0]? with
      | none => return none
      | some place =>
        let socket ← TCP.Socket.Client.mk
        within timeouts.connect (socket.connect (address service place))
        socket.send request.text.toUTF8
        return Http.Response.ofBytes? (← receive timeouts.read socket ByteArray.empty)
  catch _ => return none

/-- Bring a file, or a directory with all that is in it, into a file system. What cannot be read is
no text. -/
partial def observe (fs : FileSystem) (path : Path) : IO FileSystem := do
  if path.text = "" then return fs
  let place := (← IO.currentDir) / path.text
  if ← place.isDir then
    (← place.readDir).foldlM (fun fs entry => observe fs (path.push entry.fileName))
      (fs.createDirectories path).2
  else if ← place.pathExists then
    let content ← try Content.ofBytes <$> IO.FS.readBinFile place catch _ => pure (.binary [])
    return (fs.save path content).2
  else return fs

/-- The files that the command may read, and how long it waits for a server. -/
def surroundings (arguments : List String) (fs : FileSystem) : IO (FileSystem × Timeouts) := do
  match CommandLine.Options.parse arguments with
  | .error _ => return (fs, {})
  | .ok options =>
    let fs ← observe fs options.config
    match options.resolve fs with
    | .error _ => return (fs, {})
    | .ok settings =>
      let fs ← observe fs ⟨settings.specsPath⟩
      let fs ← (settings.source.cluster.tokenFile.toList).foldlM observe fs
      return (fs, settings.timeouts)

/-- Write what is new or has changed to the disk. -/
def apply (before after : FileSystem) : IO Unit :=
  (before.changes after).forM fun (names, content) => do
    let path : Path := ⟨"/" ++ "/".intercalate names⟩
    if let some parent := path.parent? then IO.FS.createDirAll parent.text
    IO.FS.writeBinFile path.text content.bytes

/-- Report how the command ended. -/
def report (outcome : CommandLine.Outcome) : IO UInt32 := do
  IO.print outcome.output
  match outcome with
  | .failed failure => IO.eprintln ("Error: " ++ failure.message)
  | .stopped stop =>
    if stop.exitCode ≠ 0 then IO.eprintln "error: the arguments cannot be used; try --help"
  | .written _ => pure ()
  return outcome.exitCode.toUInt32

end ResourceModels

open ResourceModels in
def main (arguments : List String) : IO UInt32 := do
  let home := ((← IO.currentDir).toString.splitOn "/").filter (· ≠ "")
  let (before, timeouts) ← surroundings arguments (FileSystem.empty home)
  let (outcome, after) ← CommandLine.run arguments (exchange timeouts) before
  apply before after
  report outcome
