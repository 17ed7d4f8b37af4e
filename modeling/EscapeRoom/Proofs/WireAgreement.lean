import EscapeRoom.Proofs.Client
import EscapeRoom.Proofs.StoreAgreement

/-!
# A client and the server speak the same language

Whatever characters the player id, the task or the manifest of a request have, the server reads the
values that the client wrote, hands them to the handler that is meant, and the client reads what the
handler answers.  So asking a server is the same as using its database directly, except for player
ids that the server does not accept: they get an error and change nothing.

* `Remote.request`, `StoreOperation.endpoint` — what a client sends, and to which endpoint.
* `StoreOperation.IsReadIn`, `Remote.isReadIn_request` — the values are read back.
* `Remote.handle_request_refused` — a player id that is too short.
* `Remote.perform_toServer` — a client at a server that can save.
* `Remote.client_and_server_agree` — the way there and back.
-/

namespace EscapeRoom

/-! ### Requests -/

/-- The endpoint for a request. -/
def StoreOperation.endpoint : StoreOperation → Endpoint
  | register _ => .register
  | fetch _ _ => .progress
  | update _ _ _ => .update
  | validate _ _ => .validate

/-- Whether the server reads the values of a request in what arrives. -/
def StoreOperation.IsReadIn (r : HttpRequest) : StoreOperation → Prop
  | register player => r.queryValue "playerId" = .ok player
  | fetch player level =>
      r.queryValue "playerId" = .ok player ∧ r.queryOctet "level" = .ok level.number
  | update player level signal =>
      r.message TaskUpdate.codec = .ok ⟨player, level.number, signal.task, signal.completed⟩
  | validate player manifest => r.message Submission.codec = .ok ⟨player, manifest⟩

namespace Remote

/-- What a client sends. -/
def request (base : String) : StoreOperation → HttpRequest
  | .register player => registerRequest base player
  | .fetch player level => fetchRequest base player level
  | .update player level signal => updateRequest base player level signal
  | .validate player manifest => validateRequest base player manifest

section
variable {base : String} (operation : StoreOperation)

theorem accepts_request :
    operation.endpoint.accepts (request base operation).method = true := by
  cases operation <;> rfl

theorem method_request : (request base operation).method ≠ .options := by
  cases operation <;> exact HttpMethod.noConfusion

variable (hbase : IsOrigin base)
include hbase

/-- A request arrives at its endpoint. -/
theorem ofPath?_request :
    Endpoint.ofPath? (request base operation).path = some operation.endpoint := by
  have hpath : (request base operation).path = operation.endpoint.path := by
    cases operation with
    | register player => exact path_getRequest hbase .register _
    | fetch player level => exact path_getRequest hbase .progress _
    | update player level signal => exact path_postRequest hbase .update TaskUpdate.codec _
    | validate player manifest => exact path_postRequest hbase .validate Submission.codec _
  rw [hpath, Endpoint.ofPath?_path]

/-- The values of a request arrive, unless its body is too long. -/
theorem isReadIn_request (hsize : (request base operation).body.length ≤ bodyLimit) :
    operation.IsReadIn (request base operation) := by
  cases operation with
  | register player => exact queryValue_registerRequest hbase player
  | fetch player level =>
      constructor
      · exact queryValue_fetchRequest hbase player level
      · exact queryOctet_fetchRequest hbase player level
  | update player level signal =>
      have hmessage := message_postRequest_self base .update TaskUpdate.lawful_codec
        ⟨player, level.number, signal.task, signal.completed⟩
      exact hmessage.trans (if_neg (Nat.not_lt.2 hsize))
  | validate player manifest =>
      have hmessage := message_postRequest_self base .validate Submission.lawful_codec
        ⟨player, manifest⟩
      exact hmessage.trans (if_neg (Nat.not_lt.2 hsize))

end

end Remote

/-! ### Handlers -/

namespace Database

variable (db : Database) {operation : StoreOperation} {r : HttpRequest}

/-- What is read goes to the handler. -/
theorem handle_of_isReadIn (h : operation.IsReadIn r) :
    db.handle r operation.endpoint = db.handleOperation operation := by
  cases operation with
  | register player =>
      have hplayer : r.queryValue "playerId" = .ok player := h
      simp only [StoreOperation.endpoint, handle, handleOperation, hplayer, bind, Except.bind]
  | fetch player level =>
      obtain ⟨hplayer, hlevel⟩ := h
      simp only [StoreOperation.endpoint, handle, handleOperation, hplayer, hlevel, bind,
        Except.bind]
  | update player level signal =>
      have hmessage : r.message TaskUpdate.codec = .ok _ := h
      simp only [StoreOperation.endpoint, handle, handleOperation, hmessage, bind, Except.bind]
  | validate player manifest =>
      have hmessage : r.message Submission.codec = .ok _ := h
      simp only [StoreOperation.endpoint, handle, handleOperation, hmessage, bind, Except.bind]

theorem route_eq_handle {e : Endpoint} (hpath : Endpoint.ofPath? r.path = some e)
    (haccepts : e.accepts r.method = true) : db.route r = db.handle r e := by
  rw [route, hpath]
  exact if_pos haccepts

end Database

namespace Remote

section
variable (db : Database) {base : String} {operation : StoreOperation}

/-- A request whose body is too long is refused without being read. -/
theorem handle_request_of_long (hlong : bodyLimit < (request base operation).body.length) :
    db.handle (request base operation) operation.endpoint = .error .payloadTooLarge := by
  cases operation with
  | register player | fetch player level =>
      exact absurd hlong (Nat.not_lt.2 (Nat.zero_le bodyLimit))
  | update player level signal =>
      have hmessage : (request base (.update player level signal)).message TaskUpdate.codec =
          .error .payloadTooLarge :=
        (message_postRequest_self base .update TaskUpdate.lawful_codec _).trans (if_pos hlong)
      simp only [StoreOperation.endpoint, Database.handle, hmessage, bind, Except.bind]
  | validate player manifest =>
      have hmessage : (request base (.validate player manifest)).message Submission.codec =
          .error .payloadTooLarge :=
        (message_postRequest_self base .validate Submission.lawful_codec _).trans (if_pos hlong)
      simp only [StoreOperation.endpoint, Database.handle, hmessage, bind, Except.bind]

variable (hbase : IsOrigin base)
include hbase

theorem handle_request (hsize : (request base operation).body.length ≤ bodyLimit) :
    db.handle (request base operation) operation.endpoint = db.handleOperation operation :=
  db.handle_of_isReadIn (isReadIn_request operation hbase hsize)

/-- With a player id that is too short, a request is refused, however long its body is. -/
theorem handle_request_refused (h : ¬ isPlayerId operation.player = true) :
    ∃ refusal, db.handle (request base operation) operation.endpoint = .error refusal := by
  by_cases hsize : (request base operation).body.length ≤ bodyLimit
  · refine ⟨.badRequest, ?_⟩
    rw [handle_request db hbase hsize]
    exact db.handleOperation_refused h
  · exact ⟨.payloadTooLarge, handle_request_of_long db (Nat.not_le.1 hsize)⟩

end

/-! ### Responses -/

section
variable (base : String)

/-- The headers of a response do not matter. -/
theorem readAnswer_openToAll (response : HttpResponse) (operation : StoreOperation) :
    readAnswer base (some (openToAll (response.forMethod (request base operation).method)))
      operation = readAnswer base (some response) operation := by
  cases operation <;> rfl

theorem readAnswer_refusal (refusal : Refusal) (operation : StoreOperation) :
    readAnswer base (some refusal.response) operation =
      .error (.unanswered (request base operation).method.name
        (address base operation.endpoint)) := by
  cases operation <;>
    · simp only [readAnswer, readRegistration, readProgress, readVerdict, readResponse_refusal]
      rfl

end

/-! ### Asking a server -/

section
variable {σ : Type}

/-- A client sends its request and reads the response. -/
theorem perform_store (transport : Transport (StateM σ)) (base : String)
    (operation : StoreOperation) (s : σ) :
    (store transport base).perform operation s =
      (readAnswer base (transport (request base operation) s).1 operation,
        (transport (request base operation) s).2) := by
  cases operation <;> rfl

variable {save : Database → StateM σ Bool} (hsave : ∀ db s, (save db s).1 = true)
include hsave

/-- A client at a server that can save reads the answer to its request. -/
theorem perform_toServer (base : String) (operation : StoreOperation) (db : Database) (s : σ) :
    let handled := db.answer (request base operation)
    ∃ t, (store (.toServer save) base).perform operation (db, s) =
      (readAnswer base (some handled.response) operation, (handled.database, t)) := by
  intro handled
  have hmethod : (request base operation).method ≠ .options := method_request operation
  obtain ⟨saved, t, hserve, hworks⟩ := serve_cases db (request base operation) save s
  have hsaved : saved = true := hworks (hsave _ s)
  rw [hsaved, db.respond_eq true _ hmethod, db.after_answer _ hmethod] at hserve
  have hsent : Transport.toServer save (request base operation) (db, s) =
      (some (openToAll (handled.response.forMethod (request base operation).method)),
        (handled.database, t)) := by
    rw [Transport.toServer, hserve]
    simp only [Bool.not_true, Bool.and_false, Bool.false_eq_true, if_false]
    rfl
  exact ⟨t, by rw [perform_store, hsent, readAnswer_openToAll]⟩

/-- **A client and the server speak the same language.**  Over any transport, a client sends one
request and reads the response.  That request, whatever its values are, is routed to the handler
that is meant and read there with the same values, if its body is not too long.  With a player id
of the least length, the client then reads exactly what using the database directly gives, and the
database is left the same as by that.  With a shorter id every request is an error and leaves the
database alone. -/
theorem client_and_server_agree {base : String} (hbase : IsOrigin base) (operation : StoreOperation)
    (db : Database) (s : σ) :
    let sent := request base operation
    let outcome := (store (.toServer save) base).perform operation (db, s)
    (∀ (transport : Transport (StateM σ)) (t : σ), (store transport base).perform operation t =
      (readAnswer base (transport sent t).1 operation, (transport sent t).2)) ∧
    (sent.body.length ≤ bodyLimit →
      db.route sent = db.handleOperation operation ∧ operation.IsReadIn sent) ∧
    (PlayerId.minLength ≤ operation.player.length → sent.body.length ≤ bodyLimit →
      outcome.1 = .ok (db.answerTo operation) ∧ outcome.2.1 = db.effect operation) ∧
    (operation.player.length < PlayerId.minLength →
      outcome.1 = .error (.unanswered sent.method.name (address base operation.endpoint)) ∧
        outcome.2.1 = db) := by
  intro sent outcome
  have hpath : Endpoint.ofPath? sent.path = some operation.endpoint :=
    ofPath?_request operation hbase
  have haccepts : operation.endpoint.accepts sent.method = true := accepts_request operation
  obtain ⟨t, houtcome⟩ : ∃ t, outcome =
      (readAnswer base (some (db.answer sent).response) operation,
        ((db.answer sent).database, t)) :=
    perform_toServer hsave base operation db s
  refine ⟨?_, ?_, ?_, ?_⟩
  · intro transport t
    exact perform_store transport base operation t
  · intro hsize
    rw [db.route_eq_handle hpath haccepts, handle_request db hbase hsize]
    exact ⟨rfl, isReadIn_request operation hbase hsize⟩
  · intro hlength hsize
    have hplayer : isPlayerId operation.player = true := decide_eq_true hlength
    obtain ⟨handled, hhandled, heffect, hread⟩ := readAnswer_handled base db hplayer
    have hanswer : db.answer sent = handled :=
      db.answer_of_ok hpath haccepts ((handle_request db hbase hsize).trans hhandled)
    rw [houtcome, hanswer]
    exact ⟨hread, heffect⟩
  · intro hlength
    have hplayer : ¬ isPlayerId operation.player = true := by
      intro haccepted
      exact absurd (of_decide_eq_true haccepted) (Nat.not_le.2 hlength)
    obtain ⟨refusal, hrefused⟩ := handle_request_refused db hbase hplayer
    have hanswer : db.answer sent = db.reply refusal.response :=
      db.answer_of_refused hpath haccepts hrefused
    rw [houtcome, hanswer]
    exact ⟨readAnswer_refusal base refusal operation, rfl⟩

end

/-- The characters of the player id have a meaning in queries and in messages; a shorter id is
refused. -/
theorem agree_on_any_characters :
    let base := Config.default.serverUrl
    let save : Database → StateM Unit Bool := fun _ => pure true
    let update : StoreOperation := .update "&=+%2F/\"\\ \u0001" .docker ⟨"a\nb", false⟩
    (∀ db s, (save db s).1 = true) ∧ IsOrigin base ∧
      PlayerId.minLength ≤ update.player.length ∧ (request base update).body.length ≤ bodyLimit ∧
      ((store (.toServer save) base).perform update (.empty, ())).1 =
        .ok (.progress ⟨.ofList [("a\nb", false), (Task.logs, false), (Task.pull, false),
          (Task.run, false)], false, none⟩) ∧
      ((store (.toServer save) base).perform (.register "é&") (.empty, ())).2.1 = .empty := by
  intro base save update
  have hsave : ∀ db s, (save db s).1 = true := fun _ _ => rfl
  have hbase : IsOrigin base := isOrigin_default
  have hlength : PlayerId.minLength ≤ update.player.length := by decide
  have hsize : (request base update).body.length ≤ bodyLimit := by decide +kernel
  obtain ⟨-, -, hanswered, -⟩ :=
    client_and_server_agree hsave hbase update .empty ()
  obtain ⟨-, -, -, hrefused⟩ :=
    client_and_server_agree hsave hbase (.register "é&") .empty ()
  refine ⟨hsave, hbase, hlength, hsize, ?_, (hrefused (by decide)).2⟩
  refine (hanswered hlength hsize).1.trans ?_
  decide +kernel

end Remote

end EscapeRoom
