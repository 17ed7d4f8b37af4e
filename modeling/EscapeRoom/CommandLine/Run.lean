import EscapeRoom.CommandLine.Invocation
import EscapeRoom.Manifest.Samples
import EscapeRoom.Player
import EscapeRoom.Room.Check
import EscapeRoom.Room.Play
import EscapeRoom.Store.Remote

/-!
# Carrying out commands

A command works on files and asks a progress store.  Playing is left to whoever has the terminal.

* `Machine` — what commands need.
* `Invocation.run` — carrying out a command.
* `Outcome` — how that ends.
-/

namespace EscapeRoom.CommandLine

/-- Why a command failed. -/
inductive Failure
  | config (fault : ConfigFault)
  | serverUrl (fault : SettingFault)
  | player (fault : PlayerIdFault)
  | manifest (path : Path)
  | savedOffline
  | progressOffline
  | unknownLevel (number : UInt8)
  | fetchProgress (level : Level) (error : StoreError)
  | fetchSaved (error : StoreError)
  | configExists (path : Path)
  | input
  deriving DecidableEq, Repr

/-- The text of a failure. -/
def Failure.message : Failure → String
  | config fault => fault.message
  | serverUrl fault => "--server-url: " ++ fault.message
  | player fault => fault.message
  | manifest path => "read " ++ path.text
  | savedOffline => "saved manifests are kept on the progress store; drop --offline"
  | progressOffline => "progress is kept on the progress store; drop --offline"
  | unknownLevel number => Level.unknownMessage number
  | fetchProgress level error =>
      "fetch progress for level " ++ toString level.number ++ ": " ++ error.message
  | fetchSaved error => "fetch level 2 progress: " ++ error.message
  | configExists path => path.text ++ " already exists; pass --force to replace it"
  | input => "read input"

/-- What commands need from outside. -/
structure Machine (m : Type → Type) where
  disk : Disk m
  /-- Makes the id of a new player. -/
  newPlayer : m String
  /-- Reaches servers; an answer may take so many seconds. -/
  transport : UInt64 → Transport m

/-- How a process ends. -/
inductive ExitStatus
  | ok
  /-- Something is wrong with the request. -/
  | invalid
  /-- The manifest did not pass, or the command line is not admitted. -/
  | notPassed
  deriving DecidableEq, Repr

/-- The number of a status. -/
def ExitStatus.code : ExitStatus → UInt8
  | ok => 0
  | invalid => 1
  | notPassed => 2

/-- How a command ends. -/
inductive Outcome (m : Type → Type)
  /-- With some output, and a note beside it. -/
  | done (status : ExitStatus) (output note : String)
  | failed (failure : Failure)
  /-- A play begins, with a store or without one. -/
  | play (connection : Option (Connection m))

variable {m : Type → Type} [Monad m]

namespace Invocation

/-- The settings: those of the file, with the store that the command line names. -/
def settings (inv : Invocation) (disk : Disk m) : m (Except Failure Config) := do
  match ← Config.load disk inv.configPath with
  | .error fault => return .error (.config fault)
  | .ok c =>
      match inv.serverUrl with
      | none => return .ok c
      | some url => return { c with serverUrl := url }.validated.mapError .serverUrl

/-- The store and the player. -/
def connect (machine : Machine m) (c : Config) : m (Except Failure (Connection m)) := do
  match ← PlayerId.load machine.disk machine.newPlayer c.playerIdPath with
  | .error fault => return .error (.player fault)
  | .ok player => return .ok ⟨Remote.store (machine.transport c.timeoutSeconds) c.serverUrl, player⟩

/-- The store and the player that the settings name. -/
def connection (inv : Invocation) (machine : Machine m) : m (Except Failure (Connection m)) := do
  match ← inv.settings machine.disk with
  | .error failure => return .error failure
  | .ok c => connect machine c

/-- The store and the player; offline there are none. -/
def connection? (inv : Invocation) (machine : Machine m) :
    m (Except Failure (Option (Connection m))) := do
  if inv.offline then return (← inv.settings machine.disk).map fun _ => none
  else return (← inv.connection machine).map some

/-- Checks a manifest. -/
def check (inv : Invocation) (machine : Machine m) (path : Path) : m (Outcome m) := do
  match (← machine.disk.read path).bind Text.Utf8.decode? with
  | none => return .failed (.manifest path)
  | some manifest =>
      match ← inv.connection? machine with
      | .error failure => return .failed failure
      | .ok c =>
          let player := (c.map (·.player)).getD "offline"
          let report ← runCheck (c.map (·.store)) player (String.ofList manifest)
          return .done (if report.verdict.ok then .ok else .notPassed) report.render ""

/-- Shows the manifest that the store last accepted. -/
def savedManifest (inv : Invocation) (machine : Machine m) : m (Outcome m) := do
  if inv.offline then return .failed .savedOffline
  match ← inv.connection machine with
  | .error failure => return .failed failure
  | .ok c =>
      match ← fetchSavedManifest c.store c.player with
      | .error e => return .failed (.fetchSaved e)
      | .ok (some manifest) => return .done .ok manifest ""
      | .ok none =>
          return .done .ok starterManifest "No saved manifest yet; printing the starter."

def progressText (level : Level) (progress : Progress) : String :=
  Text.unlines (level.title ::
    level.requiredTasks.map (fun task =>
      "  [" ++ (if progress.tasks.isDone task then "x" else " ") ++ "] " ++ taskLabel task) ++
    ["done: " ++ if progress.done then "yes" else "no"])

/-- Shows the progress in a level. -/
def progress (inv : Invocation) (machine : Machine m) (number : UInt8) : m (Outcome m) := do
  if inv.offline then return .failed .progressOffline
  match Level.ofNumber? number with
  | none => return .failed (.unknownLevel number)
  | some level =>
      match ← inv.connection machine with
      | .error failure => return .failed failure
      | .ok c =>
          match ← c.store.fetch c.player level with
          | .error e => return .failed (.fetchProgress level e)
          | .ok progress => return .done .ok (progressText level progress) ""

/-- Shows the player id. -/
def whoami (inv : Invocation) (machine : Machine m) : m (Outcome m) := do
  match ← inv.connection machine with
  | .error failure => return .failed failure
  | .ok c => return .done .ok (Text.unlines [c.player]) ""

/-- Writes the configuration. -/
def init (inv : Invocation) (disk : Disk m) (force : Bool) : m (Outcome m) := do
  if (← disk.isPresent inv.configPath) && !force then return .failed (.configExists inv.configPath)
  match ← inv.settings disk with
  | .error failure => return .failed failure
  | .ok c =>
      match ← c.save disk inv.configPath with
      | .error fault => return .failed (.config fault)
      | .ok () => return .done .ok (Text.unlines ["Wrote " ++ inv.configPath.text]) ""

/-- Carries out a command. -/
def run (inv : Invocation) (machine : Machine m) : m (Outcome m) := do
  match inv.command with
  | .play =>
      match ← inv.connection? machine with
      | .error failure => return .failed failure
      | .ok c => return .play c
  | .check path => inv.check machine path
  | .manifest solution saved =>
      if saved then inv.savedManifest machine
      else return .done .ok (if solution then passingManifest else starterManifest) ""
  | .progress level => inv.progress machine level
  | .whoami => inv.whoami machine
  | .init force => inv.init machine.disk force

end Invocation

end EscapeRoom.CommandLine
