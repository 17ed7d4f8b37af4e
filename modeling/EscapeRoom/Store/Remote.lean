import EscapeRoom.Http.Endpoint
import EscapeRoom.Http.Form
import EscapeRoom.Message
import EscapeRoom.Store.Basic

/-!
# Progress on a server

A store that asks a progress server.  How requests get there is left to a transport, which may lose
them.

* `Transport` — sending a request.
* `Remote.store` — the requests of a store.
-/

namespace EscapeRoom

open Json (Codec)

/-- Sends a request to its address; there may be no response. -/
abbrev Transport (m : Type → Type) := HttpRequest → m (Option HttpResponse)

/-- A transport that reaches nobody. -/
def Transport.unreachable {m : Type → Type} [Monad m] : Transport m := fun _ => return none

namespace Remote

/-- An address without slashes at its end. -/
def withoutSlashes (url : String) : String :=
  String.ofList (url.toList.reverse.dropWhile (· == '/')).reverse

def address (base : String) (e : Endpoint) : String := withoutSlashes base ++ e.path

def getRequest (base : String) (e : Endpoint) (query : List (String × String)) : HttpRequest :=
  ⟨.get, address base e ++ "?" ++ Form.write query, [], []⟩

/-- A request with a message. -/
def postRequest {α : Type} (base : String) (e : Endpoint) (codec : Codec α) (a : α) :
    HttpRequest :=
  ⟨.post, address base e, [("content-type", "application/json")],
    Text.Utf8.encode (codec.encode a).compact⟩

/-- The message in a response; `what` names it in an error. -/
def readResponse {α : Type} (codec : Codec α) (what : String) (method : HttpMethod) (url : String) :
    Option HttpResponse → Except StoreError α
  | none => .error (.unanswered method.name url)
  | some r =>
      if 400 ≤ r.status && r.status < 600 then .error (.unanswered method.name url)
      else
        match codec.decoder.runOctets r.body with
        | .ok a => .ok a
        | .error _ => .error (.undecodable what)

/-- The question to register a player. -/
def registerRequest (base player : String) : HttpRequest :=
  getRequest base .register [("playerId", player)]

/-- The question for the progress of a player. -/
def fetchRequest (base player : String) (level : Level) : HttpRequest :=
  getRequest base .progress [("playerId", player), ("level", toString level.number)]

/-- The request to raise a flag. -/
def updateRequest (base player : String) (level : Level) (signal : TaskSignal) : HttpRequest :=
  postRequest base .update TaskUpdate.codec
    ⟨player, level.number, signal.task, signal.completed⟩

/-- The request to grade a manifest. -/
def validateRequest (base player manifest : String) : HttpRequest :=
  postRequest base .validate Submission.codec ⟨player, manifest⟩

/-- What a response to a registration means. -/
def readRegistration (base : String) (response : Option HttpResponse) : Except StoreError Unit := do
  let r ← readResponse Registration.codec "player init" .get (address base .register) response
  if r.ok then return () else throw .rejected

/-- What a response with progress means. -/
def readProgress (base : String) (method : HttpMethod) (e : Endpoint)
    (response : Option HttpResponse) : Except StoreError Progress := do
  let r ← readResponse ProgressReport.codec "progress" method (address base e) response
  return r.progress

/-- What a response to a submission means. -/
def readVerdict (base : String) (response : Option HttpResponse) : Except StoreError Verdict := do
  let r ← readResponse Grading.codec "validate" .post (address base .validate) response
  return r.verdict

/-- The store on a server with an address. -/
def store {m : Type → Type} [Monad m] (transport : Transport m) (base : String) :
    ProgressStore m where
  register player := return readRegistration base (← transport (registerRequest base player))
  fetch player level :=
    return readProgress base .get .progress (← transport (fetchRequest base player level))
  update player level signal :=
    return readProgress base .post .update (← transport (updateRequest base player level signal))
  validate player manifest :=
    return readVerdict base (← transport (validateRequest base player manifest))

end Remote

end EscapeRoom
