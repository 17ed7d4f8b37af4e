import EscapeRoom.Files.Disk
import EscapeRoom.Text.Blank
import EscapeRoom.Text.Utf8
import EscapeRoom.Toml.Document

/-!
# Configuration

The configuration names the progress store, how long to wait for it, and the file with the player
id.  It is kept in a TOML file, in which each setting may be missing.

* `Config`, `Config.default` — the settings.
* `Config.fault?` — what is wrong with them.
* `Config.text`, `Config.ofText?` — the content of the file.
* `Config.load`, `Config.save` — reading and replacing the file.
-/

namespace EscapeRoom

/-- The settings of the program. -/
structure Config where
  /-- Where the progress store is. -/
  serverUrl : String
  /-- How long to wait for an answer. -/
  timeoutSeconds : UInt64
  /-- The file with the player id. -/
  playerIdPath : Path
  deriving DecidableEq, Repr

/-- What is wrong with settings. -/
inductive SettingFault
  | blankUrl
  | unknownScheme (url : String)
  | noTimeout
  | noPlayerIdPath
  deriving DecidableEq, Repr

/-- The text of a fault. -/
def SettingFault.message : SettingFault → String
  | blankUrl => "server_url must be non-empty"
  | unknownScheme url =>
      "server_url must start with http:// or https:// (got \x27" ++ url ++ "\x27)"
  | noTimeout => "request_timeout_secs must be > 0"
  | noPlayerIdPath => "player_id_path must be non-empty"

/-- Why a configuration was not read or written. -/
inductive ConfigFault
  | setting (fault : SettingFault)
  | read (path : Path)
  | parse (path : Path)
  | noParent (path : Path)
  | createDirectories (directory : Path)
  | write (temporary : Path)
  | replace (path : Path)
  deriving DecidableEq, Repr

/-- The text of a fault. -/
def ConfigFault.message : ConfigFault → String
  | setting fault => fault.message
  | read path => "read " ++ path.text
  | parse path => "parse " ++ path.text
  | noParent path => "config path missing parent " ++ path.text
  | createDirectories directory => "create directory " ++ directory.text
  | write temporary => "write temp config " ++ temporary.text
  | replace path => "replace config " ++ path.text

/-- The fault of a step in replacing a configuration. -/
def ConfigFault.ofReplace : ReplaceFault → ConfigFault
  | .createDirectories directory => createDirectories directory
  | .write _ temporary => write temporary
  | .rename _ target => replace target

namespace Config

/-- The settings of a game whose progress store is on the same machine. -/
def default : Config := ⟨"http://localhost:5000", 15, ⟨".escape/player_id"⟩⟩

/-- Where the configuration is kept. -/
def defaultPath : Path := ⟨".escape/config.toml"⟩

/-- The first fault of the settings. -/
def fault? (c : Config) : Option SettingFault :=
  if Text.isBlankText c.serverUrl then some .blankUrl
  else if !Text.startsWith "http://" c.serverUrl && !Text.startsWith "https://" c.serverUrl then
    some (.unknownScheme c.serverUrl)
  else if c.timeoutSeconds = 0 then some .noTimeout
  else if c.playerIdPath.text.isEmpty then some .noPlayerIdPath
  else none

/-- The settings, if nothing is wrong with them. -/
def validated (c : Config) : Except SettingFault Config :=
  match c.fault? with
  | some fault => .error fault
  | none => .ok c

/-! ### The file's content -/

def settingLine (key : String) (value : List Char) : List Char :=
  key.toList ++ [' ', '=', ' '] ++ value ++ ['\n']

/-- The content of a configuration file. -/
def text (c : Config) : String :=
  String.ofList
    (settingLine "server_url" (Toml.quoted c.serverUrl) ++
      settingLine "request_timeout_secs" (toString c.timeoutSeconds.toNat).toList ++
      settingLine "player_id_path" (Toml.quoted c.playerIdPath.text) ++ ['\n'])

def textOf? : Toml.Value → Option String
  | .text s => some s
  | _ => none

def secondsOf? : Toml.Value → Option UInt64
  | .integer n => if 0 ≤ n && n < 0x10000000000000000 then some (.ofNat n.toNat) else none
  | _ => none

/-- The settings of a file's content, with defaults for those that are missing. -/
def ofText? (text : String) : Option Config := do
  let d ← Toml.Definitions.ofText? text
  let serverUrl ← d.field "server_url" default.serverUrl textOf?
  let timeoutSeconds ← d.field "request_timeout_secs" default.timeoutSeconds secondsOf?
  let playerIdPath ← d.field "player_id_path" default.playerIdPath fun v => (textOf? v).map .mk
  return ⟨serverUrl, timeoutSeconds, playerIdPath⟩

/-! ### The file -/

variable {m : Type → Type} [Monad m]

/-- Settings with nothing wrong, or the fault. -/
def checked (c : Config) : Except ConfigFault Config := c.validated.mapError .setting

/-- The settings of a file; without the file, the default ones. -/
def load (disk : Disk m) (path : Path) : m (Except ConfigFault Config) := do
  if ← disk.isPresent path then
    match (← disk.read path).bind Text.Utf8.decode? with
    | none => return .error (.read path)
    | some content =>
        match ofText? (String.ofList content) with
        | none => return .error (.parse path)
        | some c => return c.checked
  else return default.checked

/-- Replaces a configuration file, unless something is wrong with the settings. -/
def save (disk : Disk m) (path : Path) (c : Config) : m (Except ConfigFault Unit) := do
  match c.validated with
  | .error fault => return .error (.setting fault)
  | .ok c =>
      if path.parent?.isNone then return .error (.noParent path)
      else
        match ← disk.replace path "toml.tmp" (Text.Utf8.encode c.text.toList) with
        | .error fault => return .error (.ofReplace fault)
        | .ok () => return .ok ()

end Config

end EscapeRoom
