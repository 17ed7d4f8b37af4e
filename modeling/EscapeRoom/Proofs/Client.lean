import EscapeRoom.Config
import EscapeRoom.Proofs.Http.Address
import EscapeRoom.Proofs.Service
import EscapeRoom.Room.Check

/-!
# A client at the server

A client's question for progress arrives at its endpoint, and the client reads the progress that the
server has.  A player id that the server does not accept gets an error instead.

* `Transport.toServer`, `Transport.lossy` — transports to one server, of which the second one may
  lose what is sent.
* `Transport.ReachesServer` — transports to servers of any kind.
* `Database.answer_fetchRequest`, `Remote.readProgress_respond` — a question for progress, and what
  is read in the response.
* `Remote.fetch_toServer`, `fetchSavedManifest_toServer` — asking a server.
-/

namespace EscapeRoom

/-! ### Transports to a server -/

namespace Transport

/-- Brings every request to a server at once, and its response back. -/
def toServer {σ : Type} (save : Database → StateM σ Bool) : Transport (StateM (Database × σ)) :=
  fun r s =>
    let ((response, db), t) := serve save s.1 r s.2
    (some response, (db, t))

end Transport

/-- What happens to a request on its way. -/
inductive Delivery
  | requestLost
  | responseLost
  /-- It is answered; `saved` tells whether the server can save. -/
  | delivered (saved : Bool)
  deriving DecidableEq, Repr

namespace Transport

/-- Loses requests and responses, as told by a list; after that everything arrives. -/
def lossy : Transport (StateM (Database × List Delivery)) := fun r s =>
  match s.2 with
  | [] => (some (s.1.respond true r), (s.1.after r, []))
  | .requestLost :: rest => (none, (s.1, rest))
  | .responseLost :: rest => (none, (s.1.after r, rest))
  | .delivered saved :: rest => (some (s.1.respond saved r), (s.1.after r, rest))

/-- Whatever comes back is what a server answers, in some state. -/
def ReachesServer {σ : Type} (t : Transport (StateM σ)) : Prop :=
  ∀ r s response, (t r s).1 = some response →
    ∃ (db : Database) (saved : Bool), response = db.respond saved r

theorem toServer_eq {σ : Type} (save : Database → StateM σ Bool) (r : HttpRequest) (db : Database)
    (s : σ) :
    ∃ saved t, toServer save r (db, s) = (some (db.respond saved r), (db.after r, t)) := by
  obtain ⟨saved, t, hserve⟩ := serve_eq db r save s
  exact ⟨saved, t, by rw [toServer, hserve]⟩

theorem reachesServer_lossy : lossy.ReachesServer := by
  rintro r ⟨db, deliveries⟩ response h
  cases deliveries with
  | nil => exact ⟨db, true, (Option.some.inj h).symm⟩
  | cons delivery rest =>
      cases delivery with
      | requestLost | responseLost => cases h
      | delivered saved => exact ⟨db, saved, (Option.some.inj h).symm⟩

end Transport

/-! ### Asking for progress -/

/-- The configured address is one that a server can be asked at. -/
theorem Remote.isOrigin_default : IsOrigin Config.default.serverUrl := by
  have hhost : "localhost:5000".toList.all (!HttpRequest.endsHost ·) = true := by decide
  refine ⟨"http://".toList, "localhost:5000".toList, 0, .inl rfl, by decide, ?_, by decide⟩
  exact fun c hc => (Bool.not_eq_true' _).mp (List.all_eq_true.1 hhost c hc)

namespace Database

variable (db : Database) {r : HttpRequest} {e : Endpoint}

theorem answer_of_ok (hpath : Endpoint.ofPath? r.path = some e) (haccepts : e.accepts r.method)
    {outcome : Handled} (h : db.handle r e = .ok outcome) : db.answer r = outcome := by
  rw [answer, route, hpath]
  simp only [haccepts, if_true, h]

theorem answer_of_refused (hpath : Endpoint.ofPath? r.path = some e) (haccepts : e.accepts r.method)
    {refusal : Refusal} (h : db.handle r e = .error refusal) :
    db.answer r = db.reply refusal.response := by
  rw [answer, route, hpath]
  simp only [haccepts, if_true, h]

section
variable {base : String} (hbase : Remote.IsOrigin base) (player : String) (level : Level)
include hbase

theorem answer_fetchRequest :
    db.answer (Remote.fetchRequest base player level) =
      db.reply (if isPlayerId player then okResponse ProgressReport.codec (db.report player level)
        else Refusal.badRequest.response) := by
  have hpath : Endpoint.ofPath? (Remote.fetchRequest base player level).path = some .progress := by
    rw [Remote.fetchRequest, Remote.path_getRequest hbase, Endpoint.ofPath?_path]
  have hhandle : db.handle (Remote.fetchRequest base player level) .progress =
      db.handleProgress ⟨player, level.number⟩ := by
    simp only [handle, Remote.queryValue_fetchRequest hbase, Remote.queryOctet_fetchRequest hbase,
      bind, Except.bind]
  by_cases h : isPlayerId player = true
  · rw [if_pos h]
    rw [db.handleProgress_eq h (Level.ofNumber?_number level)] at hhandle
    exact db.answer_of_ok hpath rfl hhandle
  · rw [if_neg h]
    rw [db.handleProgress_refused (.inl h)] at hhandle
    exact db.answer_of_refused hpath rfl hhandle

/-- A client reads the progress that the server has. -/
theorem readProgress_respond (saved : Bool) :
    Remote.readProgress base .get .progress
        (some (db.respond saved (Remote.fetchRequest base player level))) =
      if isPlayerId player then .ok (db.progress player level)
      else .error (.unanswered "GET" (Remote.address base .progress)) := by
  have hget : (Remote.fetchRequest base player level).method ≠ .options := HttpMethod.noConfusion
  rw [db.respond_eq saved _ hget, db.answer_fetchRequest hbase]
  by_cases h : isPlayerId player = true
  · rw [if_pos h, if_pos h]
    exact Remote.readProgress_okResponse base .get .progress (db.report player level)
  · rw [if_neg h, if_neg h]
    rfl

/-- With a player id that is not accepted the question is a bad request. -/
theorem status_respond_fetchRequest (saved : Bool) (h : isPlayerId player = false) :
    (db.respond saved (Remote.fetchRequest base player level)).status = 400 := by
  have hget : (Remote.fetchRequest base player level).method ≠ .options := HttpMethod.noConfusion
  have hanswer := db.answer_fetchRequest hbase player level
  rw [if_neg (Bool.eq_false_iff.1 h)] at hanswer
  rw [db.status_respond saved _ hget, hanswer]
  rfl

end

end Database

/-! ### Asking a server -/

namespace Remote

/-- The answer to a question for progress is in the response to it. -/
theorem fetch_eq {τ : Type} (transport : Transport (StateM τ)) (base player : String)
    (level : Level) (x : τ) :
    ((store transport base).fetch player level x).1 =
      readProgress base .get .progress (transport (fetchRequest base player level) x).1 := rfl

theorem fetch_toServer {σ : Type} (save : Database → StateM σ Bool) (db : Database) (s : σ)
    {base : String} (hbase : IsOrigin base) (player : String) (level : Level) :
    ((store (Transport.toServer save) base).fetch player level (db, s)).1 =
      if isPlayerId player then .ok (db.progress player level)
      else .error (.unanswered "GET" (address base .progress)) := by
  obtain ⟨saved, t, hsent⟩ := Transport.toServer_eq save (fetchRequest base player level) db s
  rw [fetch_eq, hsent, db.readProgress_respond hbase player level saved]

end Remote

theorem fetchSavedManifest_eq {σ : Type} (store : ProgressStore (StateM σ)) (player : String)
    (s : σ) :
    (fetchSavedManifest store player s).1 =
      (store.fetch player .manifest s).1.map fun progress =>
        (ManifestLevel.new.load progress).2.savedManifest := by
  simp only [fetchSavedManifest, bind, StateT.bind]
  rcases store.fetch player .manifest s with ⟨answer, t⟩
  cases answer <;> rfl

end EscapeRoom
