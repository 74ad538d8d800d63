import BrokerQuery.Broker.Http
import BrokerQuery.Program
import Std.Async.DNS
import Std.Async.Select
import Std.Async.System
import Std.Async.TCP
import Std.Async.Timer
import Std.Time.DateTime.Timestamp
/-
  The command line program.

  Everything that is decided is decided in `Program.run`; here its session is played against the
  world: files and variables are looked up before, requests are sent over a connection of their
  own, output and warnings are written.  Only plain connections are spoken, so a broker that wants
  a secure one counts as silent.
-/

namespace BrokerQuery.Main

open Std.Async

/-- What stands at a path; what is there and is no text counts as a folder. -/
def entry (path : String) : IO FileEntry := do
  try
    return .text (← IO.FS.readFile path)
  catch
    | .noFileOrDirectory .. => return .missing
    | _ => return .folder

/-- The variable file of the working folder or of the nearest folder above it that has one;
`levels` bounds the way up. -/
def findVariableFile (path : String) : Nat → IO FileEntry
  | 0 => return .missing
  | levels + 1 => do
    match ← entry path with
    | .text content => return .text content
    | _ => findVariableFile ("../" ++ path) levels

/-- The file system of the entries that were looked up. -/
def filesOf (entries : List (String × FileEntry)) : FileSystem := fun path =>
  (entries.lookup path).getD .missing

/-- The home folder of the user: the one that the environment names, else the one that the system has
on record; an empty path is none. -/
def homeFolder (environment : Environment) : IO (Option String) := do
  let named := (environment.lookup "HOME").filter (· ≠ "")
  if named.isSome then return named
  try
    let user ← System.getCurrentUser
    return (user.homeDir.map (·.toString)).filter (· ≠ "")
  catch _ => return none

/-- What surrounds a run with these arguments. -/
def surroundings (args : List String) : IO Surroundings := do
  let set ← System.getEnv
  let environment : Environment := ⟨set.get?⟩
  let now ← Std.Time.Timestamp.now
  let file := (Surroundings.variableFile, ← findVariableFile Surroundings.variableFile 64)
  let s : Surroundings :=
    { files := filesOf [file]
      environment := environment
      home := none
      clock := .ofSeconds now.toSecondsSinceUnixEpoch.val }
  -- The variable file may name the home folder too.
  let s := { s with home := ← homeFolder s.fullEnvironment }
  let entries ← (Program.configFiles s args).mapM fun path => do return (path, ← entry path)
  return { s with files := filesOf (file :: entries) }

/-! ## Requests -/

/-- The rest of an answer; `none` if the broker keeps still for too long. -/
partial def receive (socket : TCP.Socket.Client) (timeoutSecs : Nat) (before : ByteArray) :
    Async (Option ByteArray) := do
  let timer ← Selector.sleep (.ofNat (timeoutSecs * 1000))
  let part ← Selectable.one #[
    .case (socket.recvSelector 65536) fun part => return some part,
    .case timer fun _ => return none]
  match part with
  | none => return none
  | some none => return some before
  | some (some bytes) => receive socket timeoutSecs (before ++ bytes)

/-- Sends a request to an address and reads the answer. -/
def exchangeAt (r : Request) (address : Std.Net.IPAddr) : Async Outcome := do
  let socket ← TCP.Socket.Client.mk
  let port := (Http.port r.url).toUInt16
  let place : Std.Net.SocketAddress := match address with
    | .v4 a => .v4 ⟨a, port⟩
    | .v6 a => .v6 ⟨a, port⟩
  socket.connect place
  socket.send (Http.message r).toUTF8
  match ← receive socket r.timeoutSecs ByteArray.empty with
  | some bytes => return Http.readAnswer (bytes.toList.map UInt8.toNat)
  | none => return .silence

/-- Sends a request to the host of its URL. -/
def exchange (r : Request) : IO Outcome := do
  if r.url.secure then return .silence
  try
    let name := String.ofList (r.url.host.chars.filter fun c => c ≠ '[' ∧ c ≠ ']')
    let addresses ← (DNS.getAddrInfo name (toString (Http.port r.url))).block
    match addresses[0]? with
    | some address => (exchangeAt r address).block
    | none => return .silence
  catch _ => return .silence

/-- Plays a session against the world. -/
def play : Session α → IO α
  | .done a => return a
  | .ask r next => do play (next (← exchange r))
  | .warn w next => do
    IO.eprintln ("WARN " ++ w.text)
    play next
  | .print text next => do
    IO.print text
    play next

end BrokerQuery.Main

/-- Runs the program; the exit code is 0, 1 for a command that fails, 2 for a wrong use. -/
def main (args : List String) : IO UInt32 := do
  let s ← BrokerQuery.Main.surroundings args
  match ← BrokerQuery.Main.play (BrokerQuery.Program.run s args) with
  | .ok () => return 0
  | .error stop =>
    IO.eprint stop.report
    return stop.exitCode.toUInt32
