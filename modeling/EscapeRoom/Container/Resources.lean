import EscapeRoom.Ordered.Map

/-!
# Simulated images and containers

Images are only ever added.  A container is stored under its name, replaces the container of that
name, and needs an image that has been pulled.  Its ports are written `host:container` with decimal
digits on both sides.  The digits are kept as typed: neither leading zeros nor the range of port
numbers matter.

* `PortMapping.ofText?`, `PortMapping.text` — reading and writing ports.
* `Resources` — the images and the containers.
-/

namespace EscapeRoom

/-- A host port and a container port, each as typed. -/
structure PortMapping where
  host : String
  container : String
  deriving DecidableEq, Repr

namespace PortMapping

/-- The mapping that a text denotes. -/
def ofText? (raw : String) : Option PortMapping :=
  let cs := raw.toList
  let host := cs.takeWhile Char.isDigit
  match cs.dropWhile Char.isDigit with
  | ':' :: container =>
      if host.isEmpty || container.isEmpty || !container.all Char.isDigit then none
      else some ⟨String.ofList host, String.ofList container⟩
  | _ => none

def text (p : PortMapping) : String := p.host ++ ":" ++ p.container

end PortMapping

/-- A simulated container. -/
structure Container where
  name : String
  image : String
  ports : PortMapping
  running : Bool
  logs : List String
  deriving DecidableEq, Repr

/-- What a listing shows as the state of a container. -/
def Container.status (c : Container) : String := if c.running then "Up" else "Exited"

/-- The images and containers of a session. -/
structure Resources where
  images : OrderedSet String
  containers : OrderedMap String Container
  deriving DecidableEq

namespace Resources

/-- Nothing pulled and nothing run. -/
def empty : Resources := ⟨.empty, .empty⟩

instance : Inhabited Resources := ⟨empty⟩

/-- Whether an image has been pulled. -/
def hasImage (r : Resources) (name : String) : Bool := r.images.contains name

/-- Adds an image. -/
def addImage (r : Resources) (name : String) : Resources :=
  { r with images := r.images.insert name }

def container? (r : Resources) (name : String) : Option Container := r.containers.get? name

/-- Adds or replaces a container, if its image has been pulled. -/
def putContainer? (r : Resources) (c : Container) : Option Resources :=
  if r.hasImage c.image then some { r with containers := r.containers.insert c.name c } else none

/-- Adds or replaces a container, or changes nothing when its image is missing. -/
def putContainer (r : Resources) (c : Container) : Resources := (r.putContainer? c).getD r

end Resources

end EscapeRoom
