import EscapeRoom.Container.Resources
import EscapeRoom.Task.State

/-!
# Terminal sessions

A session holds the simulated resources and how far the hints have been read.  Progress made
elsewhere is turned back into resources by `Session.restore`, so that a returning player finds what
the completed tasks imply.
-/

namespace EscapeRoom

/-- A reading of the clock, in hours, minutes and seconds. -/
structure TimeOfDay where
  hour : Nat
  minute : Nat
  second : Nat
  deriving DecidableEq, Repr

/-- A number with at least two digits. -/
def twoDigits (n : Nat) : String := if n < 10 then "0" ++ toString n else toString n

/-- The clock reading as it is shown. -/
def TimeOfDay.text (t : TimeOfDay) : String :=
  twoDigits t.hour ++ ":" ++ twoDigits t.minute ++ ":" ++ twoDigits t.second

/-- The image whose pull completes a task. -/
def bootstrapImage : String := "nginx"

/-- The container name that completes a task. -/
def canonicalName : String := "web"

/-- The ports of that container. -/
def canonicalPorts : PortMapping := ⟨"8080", "80"⟩

/-- The last log line of every container. -/
def completionMarker : String := "flag{docker-stage-1-ok}"

/-- The container that running an image gives, with its log. -/
def startedContainer (name image : String) (ports : PortMapping) (now : TimeOfDay) : Container where
  name := name
  image := image
  ports := ports
  running := true
  logs :=
    ["[" ++ now.text ++ "] Starting " ++ name ++ " from " ++ image,
      "App listening on 0.0.0.0:" ++ ports.container,
      completionMarker]

/-- The state of a terminal: the resources and the number of the next hint. -/
structure Session where
  resources : Resources
  hintCursor : Nat
  deriving DecidableEq

namespace Session

/-- A terminal in which nothing has happened. -/
def new : Session := ⟨.empty, 0⟩

instance : Inhabited Session := ⟨new⟩

/-- Adds what the completed tasks imply: the image, and the container unless one of its name
exists. -/
def restore (s : Session) (tasks : TaskState) (now : TimeOfDay) : Session :=
  let r := s.resources
  let r :=
    if tasks.isDone Task.pull || tasks.isDone Task.run then r.addImage bootstrapImage else r
  let r :=
    if tasks.isDone Task.run && (r.container? canonicalName).isNone then
      r.putContainer (startedContainer canonicalName bootstrapImage canonicalPorts now)
    else r
  { s with resources := r }

end Session

end EscapeRoom
