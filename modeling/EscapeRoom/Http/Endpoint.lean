import EscapeRoom.Http.Message

/-!
# What the progress server offers

Server and clients agree on the paths and the methods.

* `Endpoint.path`, `Endpoint.ofPath?` — the paths.
* `Endpoint.accepts` — the methods.
-/

namespace EscapeRoom

/-- What the server offers. -/
inductive Endpoint
  | health
  | welcome
  | register
  | progress
  | update
  | validate
  deriving DecidableEq, Repr

namespace Endpoint

/-- All of the server. -/
def all : List Endpoint := [health, welcome, register, progress, update, validate]

def path : Endpoint → String
  | health => "/health"
  | welcome => "/api/welcome"
  | register => "/api/player/init"
  | progress => "/api/progress"
  | update => "/api/progress/update"
  | validate => "/api/level/2/validate"

/-- Whether an endpoint is asked with `POST` and not with `GET`. -/
def takesBody : Endpoint → Bool
  | update => true
  | validate => true
  | _ => false

def ofPath? (path : String) : Option Endpoint := all.find? fun e => e.path == path

/-- Whether an endpoint answers a method. -/
def accepts (e : Endpoint) (method : HttpMethod) : Bool :=
  if e.takesBody then method == .post else method == .get || method == .head

end Endpoint

end EscapeRoom
