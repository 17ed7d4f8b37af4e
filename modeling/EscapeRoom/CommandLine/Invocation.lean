import EscapeRoom.CommandLine.Words
import EscapeRoom.Config

/-!
# Commands

A command line names a command.  Options that every command has may stand before or after the name;
of two values the later one counts.

* `Invocation` — a command with its options.
* `Invocation.ofWords` — the command of a command line.
-/

namespace EscapeRoom

namespace CommandLine

/-- What to do. -/
inductive Command
  /-- Play level 1. -/
  | play
  /-- Check a manifest for level 2. -/
  | check (path : Path)
  /-- Show a manifest: the one to start with, one that passes, or the one that was accepted. -/
  | manifest (solution saved : Bool)
  /-- Show the progress in a level. -/
  | progress (level : UInt8)
  /-- Show the player id. -/
  | whoami
  /-- Write the configuration; `force` replaces one that is there. -/
  | init (force : Bool)
  deriving DecidableEq, Repr

/-- A command with the options that every command has. -/
structure Invocation where
  configPath : Path
  /-- Where the progress store is, in place of what the configuration says. -/
  serverUrl : Option String
  /-- Whether to do without a progress store. -/
  offline : Bool
  /-- Whether to log more. -/
  verbose : Bool
  command : Command
  deriving DecidableEq, Repr

/-- The number from 0 to 255 of a word. -/
def octet? (word : String) : Option UInt8 :=
  let (negative, digits) :=
    match word.toList with
    | '-' :: ds => (true, ds)
    | '+' :: ds => (false, ds)
    | ds => (false, ds)
  let n := decimalValue digits
  if digits.isEmpty || !digits.all Char.isDigit || 255 < n || (negative && 0 < n) then none
  else some (.ofNat n)

/-- The options that every command has. -/
def commonSwitches : List Switch :=
  [⟨"config", none, some fun v => !v.isEmpty⟩, ⟨"server-url", none, some fun _ => true⟩,
    .flag "offline", ⟨"verbose", some 'v', none⟩]

/-- The commands with their options and operands. -/
def commandGrammars : List (String × Grammar) :=
  let grammar (switches : List Switch) (operands : Nat) : Grammar :=
    ⟨commonSwitches ++ switches, operands, [], false⟩
  [("play", grammar [] 0), ("check", grammar [] 1),
    ("manifest", grammar [.flag "solution", .flag "saved"] 0),
    ("progress", grammar [⟨"level", none, some fun v => (octet? v).isSome⟩] 0),
    ("whoami", grammar [] 0), ("init", grammar [.flag "force"] 0)]

/-- The words before the name of a command. -/
def outerGrammar : Grammar :=
  ⟨commonSwitches, 0, commandGrammars.map Prod.fst ++ ["help"], true⟩

/-- The command that has a name and was given some words. -/
def Command.of? (name : String) (given : Given) : Option Command :=
  match name with
  | "play" => some .play
  | "check" =>
      match given.operands with
      | [path] => if path.isEmpty then none else some (.check ⟨path⟩)
      | _ => none
  | "manifest" =>
      let solution := given.has "solution"
      let saved := given.has "saved"
      if solution && saved then none else some (.manifest solution saved)
  | "progress" => some (.progress (((given.value? "level").bind octet?).getD 1))
  | "whoami" => some .whoami
  | "init" => some (.init (given.has "force"))
  | _ => none

/-- What is shown when the version is asked for. -/
def versionText : String := "escape 0.1.0\n"

/-- What is shown when help is asked for. -/
def usageText : String :=
  "Usage: escape [--config PATH] [--server-url URL] [--offline] [-v] COMMAND\n\n" ++
    "Commands:\n" ++
    "  play                          Level 1: a simulated container terminal\n" ++
    "  check PATH                    Level 2: check a deployment manifest\n" ++
    "  manifest [--solution|--saved] Print the starter, a solution or the saved manifest\n" ++
    "  progress [--level N]          Show stored task progress for a level\n" ++
    "  whoami                        Print the player id\n" ++
    "  init [--force]                Write the client configuration file\n"

/-- The answer to a command line that begins with `help`: the words after it name a command. -/
def helpOn : List String → Interruption
  | [] => .help
  | [name] => if outerGrammar.subcommands.contains name then .help else .misuse
  | _ => .misuse

/-- The command of a command line.  The environment may name a progress store too. -/
def Invocation.ofWords (environmentUrl : Option String) (words : List String) :
    Except Interruption Invocation := do
  let outer ← outerGrammar.scan .empty .anything words
  match outer.subcommand with
  | none => throw .misuse
  | some (name, rest) =>
      match commandGrammars.lookup name with
      | none => throw (helpOn rest)
      | some grammar =>
          let inner ← grammar.scan .empty .anything rest
          match Command.of? name inner with
          | none => throw .misuse
          | some command =>
              let value? (key : String) : Option String := inner.value? key <|> outer.value? key
              let has (key : String) : Bool := inner.has key || outer.has key
              return {
                configPath := ((value? "config").map .mk).getD Config.defaultPath
                serverUrl := value? "server-url" <|> environmentUrl
                offline := has "offline"
                verbose := has "verbose"
                command := command }

end CommandLine

end EscapeRoom
