import EscapeRoom.Http.Endpoint
import EscapeRoom.Http.Form
import EscapeRoom.Http.MediaType
import EscapeRoom.Player
import EscapeRoom.Server.Database

/-!
# The progress server

A request is answered from the database.  The answer says whether the database has to be saved
first; when that fails, the client is told so, and the database keeps the change.

* `Refusal` — why a request is refused.
* `Database.answer` — the database after a request, and the response.
* `serve` — answering a request and saving the database.
-/

namespace EscapeRoom

open Json (Codec DecodeError)

/-- Whether the server accepts a player id, which it measures in characters. -/
def isPlayerId (player : String) : Bool := PlayerId.minLength ≤ player.length

/-- The greeting. -/
def welcomeMessage : String := "Welcome to the Container Escape Room"

/-- The longest body that is read, in octets. -/
def bodyLimit : Nat := 2097152

/-- Why a request is refused. -/
inductive Refusal
  /-- Nothing is there. -/
  | notFound
  /-- The method is another one. -/
  | methodNotAllowed
  /-- The query, the JSON text, the player id or the level is not valid. -/
  | badRequest
  /-- The body does not come as JSON. -/
  | unsupportedMediaType
  /-- The body is too long. -/
  | payloadTooLarge
  /-- The body is JSON of another shape. -/
  | unprocessable
  /-- The database was not saved. -/
  | notSaved
  deriving DecidableEq, Repr

def Refusal.status : Refusal → Nat
  | notFound => 404
  | methodNotAllowed => 405
  | badRequest => 400
  | unsupportedMediaType => 415
  | payloadTooLarge => 413
  | unprocessable => 422
  | notSaved => 500

/-- The response to a refused request.  A refusal also comes with a text that explains it and, where
the method is another one, with the methods that are allowed; nobody reads these, and they are left
out. -/
def Refusal.response (r : Refusal) : HttpResponse := ⟨r.status, [], []⟩

/-- The response with a message. -/
def okResponse {α : Type} (codec : Codec α) (a : α) : HttpResponse :=
  ⟨200, [("content-type", "application/json")], Text.Utf8.encode (codec.encode a).compact⟩

/-- A number from 0 to 255 in decimal digits, perhaps with a plus. -/
def octetOfText? (text : String) : Option UInt8 :=
  let cs := text.toList
  let ds := if cs.head? == some '+' then cs.drop 1 else cs
  if ds.isEmpty || !ds.all Char.isDigit then none
  else if h : decimalValue ds < 256 then some (.ofNatLT (decimalValue ds) h)
  else none

namespace HttpRequest

/-- The value of a query's key. -/
def queryValue (r : HttpRequest) (key : String) : Except Refusal String :=
  match Form.single? (Form.read r.query) key with
  | some value => .ok value
  | none => .error .badRequest

/-- The number that is the value of a query's key. -/
def queryOctet (r : HttpRequest) (key : String) : Except Refusal UInt8 := do
  match octetOfText? (← r.queryValue key) with
  | some n => return n
  | none => throw .badRequest

/-- The message in a body. -/
def message {α : Type} (r : HttpRequest) (codec : Codec α) : Except Refusal α :=
  if !((r.header? "content-type").any MediaType.isJson) then .error .unsupportedMediaType
  else if bodyLimit < r.body.length then .error .payloadTooLarge
  else
    match codec.decoder.runOctets r.body with
    | .ok a => .ok a
    | .error .malformed => .error .badRequest
    | .error _ => .error .unprocessable

end HttpRequest

/-- The outcome of a request: the database after it, whether it has to be saved before the response
is sent, and the response. -/
structure Handled where
  database : Database
  mustSave : Bool
  response : HttpResponse
  deriving DecidableEq

namespace Database

/-- A request that changes nothing. -/
def reply (db : Database) (response : HttpResponse) : Handled := ⟨db, false, response⟩

/-- A player id, if the server accepts it. -/
def checkPlayer (player : String) : Except Refusal Unit :=
  if isPlayerId player then .ok () else .error .badRequest

/-- The level with a number. -/
def levelOf (n : UInt8) : Except Refusal Level :=
  match Level.ofNumber? n with
  | some level => .ok level
  | none => .error .badRequest

/-- Registers a player; a known player is not saved again. -/
def handleRegister (db : Database) (player : String) : Except Refusal Handled := do
  checkPlayer player
  return ⟨db.register player, !db.isRegistered player,
    okResponse Registration.codec ⟨true, player⟩⟩

/-- Reports the progress of a player. -/
def handleProgress (db : Database) (q : ProgressQuery) : Except Refusal Handled := do
  checkPlayer q.player
  let level ← levelOf q.level
  return db.reply (okResponse ProgressReport.codec (db.report q.player level))

/-- Raises a flag. -/
def handleUpdate (db : Database) (u : TaskUpdate) : Except Refusal Handled := do
  checkPlayer u.player
  let level ← levelOf u.level
  let after := db.update u.player level ⟨u.task, u.completed⟩
  return ⟨after, true, okResponse ProgressReport.codec (after.report u.player level)⟩

/-- Grades a manifest, and keeps it when it passes. -/
def handleSubmission (db : Database) (s : Submission) : Except Refusal Handled := do
  checkPlayer s.player
  let verdict := checkManifest s.manifest
  let response := okResponse Grading.codec (.ofVerdict verdict)
  if verdict.ok then return ⟨db.recordManifest s.player s.manifest, true, response⟩
  else return db.reply response

/-- What an endpoint does with a request. -/
def handle (db : Database) (r : HttpRequest) : Endpoint → Except Refusal Handled
  | .health => .ok (db.reply (okResponse Health.codec ⟨"ok"⟩))
  | .welcome => .ok (db.reply (okResponse Welcome.codec ⟨welcomeMessage⟩))
  | .register => do db.handleRegister (← r.queryValue "playerId")
  | .progress => do db.handleProgress ⟨← r.queryValue "playerId", ← r.queryOctet "level"⟩
  | .update => do db.handleUpdate (← r.message TaskUpdate.codec)
  | .validate => do db.handleSubmission (← r.message Submission.codec)

/-- Finds the endpoint of a request and lets it do its work. -/
def route (db : Database) (r : HttpRequest) : Except Refusal Handled :=
  match Endpoint.ofPath? r.path with
  | none => .error .notFound
  | some e => if e.accepts r.method then db.handle r e else .error .methodNotAllowed

/-- The outcome of a request. -/
def answer (db : Database) (r : HttpRequest) : Handled :=
  match db.route r with
  | .ok handled => handled
  | .error refusal => db.reply refusal.response

end Database

/-- The response with the header by which any page may use the server.  The headers that tell which
headers a page may see (`expose`) and on what the response depends (`vary`) are left out. -/
def openToAll (r : HttpResponse) : HttpResponse :=
  { r with headers := r.headers ++ [("access-control-allow-origin", "*")] }

/-- The response to the question which requests are allowed: all of them.  The `vary` header is left
out, as in every response. -/
def preflight : HttpResponse :=
  ⟨200, [("access-control-allow-methods", "*"), ("access-control-allow-headers", "*")], []⟩

/-- The response as it is sent: a `HEAD` request gets no body. -/
def HttpResponse.forMethod (r : HttpResponse) (method : HttpMethod) : HttpResponse :=
  if method = .head then { r with body := [] } else r

/-- Answers a request.  `save` stores a database and tells whether that worked. -/
def serve {m : Type → Type} [Monad m] (save : Database → m Bool) (db : Database)
    (r : HttpRequest) : m (HttpResponse × Database) := do
  if r.method = .options then return (openToAll preflight, db)
  let handled := db.answer r
  let saved ← if handled.mustSave then save handled.database else pure true
  let response := if saved then handled.response else Refusal.notSaved.response
  return (openToAll (response.forMethod r.method), handled.database)

end EscapeRoom
