import EscapeRoom.CommandLine.Run
import EscapeRoom.Http.Wire
import EscapeRoom.Room.Console
import Std.Async.DNS
import Std.Async.TCP
import Std.Async.Timer

/-!
# The program

Files, the network, the clock and the terminal, and the command that the command line names.
-/

namespace EscapeRoom.Program

open CommandLine
open Std.Async (Async)

def octetsOf (bytes : ByteArray) : List UInt8 := bytes.data.toList

def bytesOf (octets : List UInt8) : ByteArray := ⟨octets.toArray⟩

/-- Whether an action goes through. -/
def succeeds (action : IO Unit) : IO Bool := do
  try
    action
    return true
  catch _ => return false

/-- Writes a file and tells whether it could be opened, filled and brought to the disk. -/
def writeFile (path : Path) (content : List UInt8) : IO (Except WriteFault Unit) := do
  try
    let file ← IO.FS.Handle.mk path.text .write
    if !(← succeeds (file.write (bytesOf content))) then return .error .fill
    else if !(← succeeds file.flush) then return .error .sync
    else return .ok ()
  catch _ => return .error .openFile

/-- The files of the machine. -/
def disk : Disk IO where
  isPresent path := do ((← IO.currentDir) / path.text).pathExists
  read path := do
    try
      return some (octetsOf (← IO.FS.readBinFile path.text))
    catch _ => return none
  createDirectories path := succeeds (IO.FS.createDirAll path.text)
  write := writeFile
  rename source target := succeeds (IO.FS.rename source.text target.text)

def socketAddress (port : UInt16) : Std.Net.IPAddr → Std.Net.SocketAddress
  | .v4 address => .v4 ⟨address, port⟩
  | .v6 address => .v6 ⟨address, port⟩

/-- What comes until the other side ends the connection. -/
partial def receive (client : Std.Async.TCP.Socket.Client) (before : ByteArray) :
    Async ByteArray := do
  match ← client.recv? 65536 with
  | some bytes => receive client (before ++ bytes)
  | none => return before

/-- Sends a request to the first address of a host, and waits for the response. -/
def exchange (r : HttpRequest) (a : Authority) : Async (Option HttpResponse) := do
  let addresses ← Std.Async.DNS.getAddrInfo a.host (toString a.port)
  match addresses[0]? with
  | none => return none
  | some address => do
      let client ← Std.Async.TCP.Socket.Client.mk
      client.connect (socketAddress a.port address)
      client.send (bytesOf (r.octets a))
      return HttpResponse.ofOctets? (octetsOf (← receive client .empty))

/-- The longest time that can be waited for, in seconds. -/
def longestWait : Nat := 1000000000

/-- The network. -/
def transport (seconds : UInt64) : Transport IO := fun r =>
  match r.authority? with
  | none => return none
  | some a => do
      let limit : Std.Time.Millisecond.Offset := .ofNat (min seconds.toNat longestWait * 1000)
      let timeout : Async (Option HttpResponse) := do
        Std.Async.sleep limit
        return none
      try
        (Async.race (exchange r a) timeout).block
      catch _ => return none

/-- The reading of the clock. -/
def clock : IO TimeOfDay := do
  let now ← Std.Time.PlainTime.now
  return ⟨now.hour.toNat, now.minute.toNat, now.second.toNat⟩

/-- What commands need. -/
def machine : Machine IO :=
  ⟨disk, do return PlayerId.ofRandom (octetsOf (← IO.getRandomBytes 16)), transport⟩

/-- Shows what a console has written. -/
def present (s : Console Unit) : IO (Console Unit) := do
  let out ← IO.getStdout
  out.putStr s.output
  out.flush
  return { s with output := "" }

/-- Carries out the requests under way and shows their events. -/
partial def settle (c : Option (Connection IO)) (s : Console Unit) : IO (Console Unit) := do
  match c, s.play.take? 0 with
  | some connection, some (request, play) =>
      let event ← connection.perform request
      settle c { s with play := play.enqueue event }
  | _, _ =>
      if s.play.events.isEmpty then return s
      else settle c (← present (s.step none (.deliver (← clock))))

/-- Takes a line. -/
def typeLine (s : Console Unit) (line : List UInt8) : IO (Console Unit) := do
  present (s.step none (.line (Text.typedText? line) (← clock)))

/-- Takes lines until the input ends. -/
partial def converse (c : Option (Connection IO)) (s : Console Unit) (pending : List UInt8) :
    IO (Console Unit) := do
  if s.status ≠ .running then return s
  let chunk ← (← IO.getStdin).read 4096
  if chunk.isEmpty then
    let s ← if pending.isEmpty then pure s else typeLine s pending
    present (s.step none .finish)
  else
    let (lines, rest) := Text.typedLines (pending ++ octetsOf chunk)
    let s ← lines.foldlM (fun s line => typeLine s (Text.withoutReturn line)) s
    converse c (← settle c s) rest

/-- Shows why a command failed. -/
def fail (failure : Failure) : IO UInt32 := do
  IO.eprintln failure.message
  return ExitStatus.invalid.code.toUInt32

/-- Plays level 1. -/
def play (c : Option (Connection IO)) : IO UInt32 := do
  let s ← present (.start c.isSome ())
  let s ← converse c (← settle c s) []
  if s.status = .unreadable then fail .input else return ExitStatus.ok.code.toUInt32

/-- Carries out a command line. -/
def run (words : List String) : IO UInt32 := do
  match Invocation.ofWords (← IO.getEnv "ESCAPE_SERVER_URL") words with
  | .error .help =>
      IO.print usageText
      return ExitStatus.ok.code.toUInt32
  | .error .version =>
      IO.print versionText
      return ExitStatus.ok.code.toUInt32
  | .error .misuse =>
      IO.eprint usageText
      return ExitStatus.notPassed.code.toUInt32
  | .ok invocation =>
      match ← invocation.run machine with
      | .failed failure => fail failure
      | .play c => play c
      | .done status output note =>
          IO.print output
          if !note.isEmpty then IO.eprintln note
          return status.code.toUInt32

end EscapeRoom.Program

/-- Carries out the command line and ends with its status. -/
def main (words : List String) : IO UInt32 := EscapeRoom.Program.run words
