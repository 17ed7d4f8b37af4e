import EscapeRoom.Terminal.Session
import EscapeRoom.Text.Blank

/-!
# Commands of the simulated terminal

A line is trimmed and recognized as a command; what it does is a function of the session and the
clock.  Nothing is an error: malformed arguments are answered with the way to write them, and an
unknown line is answered as such.

* `Command.ofLine` — recognition.
* `RunRequest.ofWords?` — the arguments of `docker run`.
* `Session.interpret` — the reply to a line and the next session.
-/

namespace EscapeRoom

/-- The first lines of a session. -/
def banner : List String :=
  ["Container Escape Room: Level 1 (Docker)", "Type 'help' for available commands."]

/-- The answer to `help`. -/
def helpText : List String :=
  ["Available commands:",
    "  help                Show this help",
    "  clear               Clear terminal",
    "  hint                Show a contextual hint",
    "  docker images       List pulled images",
    "  docker pull <img>   Pull an image (e.g. docker pull nginx)",
    "  docker run --name <name> -p <host:cont> <image>",
    "  docker ps           List running containers",
    "  docker logs <name>  Show container logs"]

/-- The hints, in the order in which they are given. -/
def hints : List String :=
  ["Hint #1: start with docker pull nginx",
    "Hint #2: run a container: docker run --name web -p 8080:80 nginx",
    "Hint #3: now look at the logs: docker logs web"]

/-- The number of the last hint, which is repeated. -/
def lastHint : Nat := hints.length - 1

/-- What `docker run` is asked to do. -/
structure RunRequest where
  name : String
  ports : PortMapping
  image : String
  deriving DecidableEq, Repr

/-- The arguments of `docker run` that have been read: of each kind the last one. -/
structure RunOptions where
  name : Option String
  ports : Option String
  image : Option String
  deriving DecidableEq

namespace RunOptions

/-- No argument has been read. -/
def none : RunOptions := ⟨.none, .none, .none⟩

/-- Reads the words after `docker run`.  `--name` and `-p` take the next word, whatever it is; a
word of its own is an image.  A flag without a word after it makes the arguments malformed. -/
def read : RunOptions → List String → Option RunOptions
  | opts, [] => some opts
  | opts, [word] =>
      if word = "--name" || word = "-p" then .none else some { opts with image := some word }
  | opts, word :: next :: rest =>
      if word = "--name" then read { opts with name := some next } rest
      else if word = "-p" then read { opts with ports := some next } rest
      else read { opts with image := some word } (next :: rest)

end RunOptions

/-- A container name has at least one character, all of them letters, digits, `_` or `-`. -/
def isContainerName (name : String) : Bool :=
  !name.toList.isEmpty && name.toList.all fun c => c.isAlphanum || c == '_' || c == '-'

/-- What the words after `docker run` ask for, if they are well formed. -/
def RunRequest.ofWords? (args : List String) : Option RunRequest := do
  let opts ← RunOptions.none.read args
  let name ← opts.name.filter isContainerName
  let ports ← opts.ports.bind PortMapping.ofText?
  let image ← opts.image
  return ⟨name, ports, image⟩

/-- A line, recognized. -/
inductive Command
  | blank
  | help
  | clear
  | hint
  | images
  | pull (image : Option String)
  | ps
  | run (request : Option RunRequest)
  | logs (name : Option String)
  | unknown (line : String)
  deriving DecidableEq, Repr

namespace Command

/-- Recognizes a trimmed line.  Of the commands that a line begins with, the first one counts. -/
def ofTrimmed (line : String) : Command :=
  let args := (Text.wordsOf line).drop 2
  if line = "" then blank
  else if line = "help" then help
  else if line = "clear" then clear
  else if line = "hint" then hint
  else if line = "docker images" then images
  else if Text.startsWith "docker pull" line then pull args.head?
  else if line = "docker ps" then ps
  else if Text.startsWith "docker run" line then run (RunRequest.ofWords? args)
  else if Text.startsWith "docker logs" line then logs args.head?
  else unknown line

/-- Recognizes a line as typed. -/
def ofLine (line : String) : Command := ofTrimmed (Text.trimmed line)

end Command

/-- Whether the terminal is cleared before a reply. -/
inductive Screen
  | append
  | clear
  deriving DecidableEq, Repr

/-- What a line leads to beside the next session. -/
structure Reply where
  lines : List String
  screen : Screen
  signals : List TaskSignal
  deriving DecidableEq, Repr

namespace Reply

/-- Nothing is shown. -/
def none : Reply := ⟨[], .append, []⟩

/-- Some lines are shown. -/
def ofLines (lines : List String) : Reply := ⟨lines, .append, []⟩

/-- One line is shown. -/
def ofLine (line : String) : Reply := ofLines [line]

/-- The same reply, with a task done. -/
def withDone (r : Reply) (task : String) : Reply :=
  { r with signals := r.signals ++ [.done task] }

end Reply

namespace Session

/-- The next hint; the last one is repeated. -/
def hint (s : Session) : Reply × Session :=
  let shown := min s.hintCursor lastHint
  (.ofLine (hints.getD shown ""), { s with hintCursor := min (shown + 1) lastHint })

def imageRows (s : Session) : List String :=
  let rows := s.resources.images.elements.map fun image => image ++ "\tlatest"
  if rows.isEmpty then ["REPOSITORY\tTAG", "<none>\t\t<none>"] else rows

/-- The row of a container in a listing, under the first twelve characters of its name. -/
def containerRow (c : Container) : String :=
  String.ofList (c.name.toList.take 12) ++ "   " ++ c.image ++ "   " ++ c.status

def containerRows (s : Session) : List String :=
  let rows := s.resources.containers.values.map containerRow
  if rows.isEmpty then ["CONTAINER ID   IMAGE   STATUS", "<none>"] else rows

def pull (s : Session) (image : String) : Reply × Session :=
  let reply := Reply.ofLine ("Pulling " ++ image ++ "... done")
  (if image = bootstrapImage then reply.withDone Task.pull else reply,
    { s with resources := s.resources.addImage image })

/-- Whether a request is the one that the level asks for, its ports compared as typed. -/
def isCanonicalRun (r : RunRequest) : Bool :=
  r.name = canonicalName && r.ports.text = canonicalPorts.text && r.image = bootstrapImage

/-- Runs a container. -/
def run (s : Session) (r : RunRequest) (now : TimeOfDay) : Reply × Session :=
  if s.resources.hasImage r.image then
    let reply :=
      Reply.ofLine ("Started container '" ++ r.name ++ "' (ports " ++ r.ports.text ++ ")")
    (if isCanonicalRun r then reply.withDone Task.run else reply,
      { s with
        resources := s.resources.putContainer (startedContainer r.name r.image r.ports now) })
  else
    (.ofLine ("Unable to find image '" ++ r.image ++ "'. Try: docker pull " ++ r.image), s)

/-- Shows the log of a container. -/
def logs (s : Session) (name : String) : Reply :=
  match s.resources.container? name with
  | some c => (Reply.ofLines c.logs).withDone Task.logs
  | none => .ofLine ("No such container: " ++ name)

/-- Carries out a command. -/
def perform (s : Session) (now : TimeOfDay) : Command → Reply × Session
  | .blank => (.none, s)
  | .help => (.ofLines helpText, s)
  | .clear => (⟨[], .clear, []⟩, s)
  | .hint => s.hint
  | .images => (.ofLines s.imageRows, s)
  | .pull none => (.ofLine "Error: missing image name. Try: docker pull nginx", s)
  | .pull (some image) => s.pull image
  | .ps => (.ofLines s.containerRows, s)
  | .run none => (.ofLine "Usage: docker run --name web -p 8080:80 nginx", s)
  | .run (some request) => s.run request now
  | .logs none => (.ofLine "Usage: docker logs <name>", s)
  | .logs (some name) => (s.logs name, s)
  | .unknown line => (.ofLines ["Command not found: " ++ line, "Type 'help' for help."], s)

def interpret (s : Session) (line : String) (now : TimeOfDay) : Reply × Session :=
  s.perform now (.ofLine line)

end Session

end EscapeRoom
