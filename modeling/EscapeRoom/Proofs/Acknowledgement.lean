import EscapeRoom.Proofs.DataFile
import EscapeRoom.Proofs.Handlers

/-!
# What a response promises about the data file

A request may ask the server to keep something, and the response with status 200 acknowledges it.
Raised flags and manifests are saved before they are acknowledged.  A registration is saved only
when the player was not known before; a player who is known because of a registration that could not
be saved is acknowledged all the same.

* `Change`, `HttpRequest.change?` — what a request asks the server to keep.
* `Database.Reaction`, `Database.Outcome` — what comes of a request at an endpoint, and of any
  request.
* `Server`, `Server.take`, `Server.run` — a server with its data file, and its runs.
* `Server.acknowledged_is_stored_iff` — what is stored when a change was acknowledged.
-/

namespace EscapeRoom

/-! ### Changes -/

/-- Something that a server is asked to keep. -/
inductive Change
  | registration (player : String)
  | flag (player : String) (level : Level) (signal : TaskSignal)
  | manifest (player text : String)
  deriving DecidableEq

/-- What a request to an endpoint asks to keep; of the manifests only those that pass are kept. -/
def Endpoint.change? (r : HttpRequest) : Endpoint → Option Change
  | .register => (r.queryValue "playerId").toOption.map .registration
  | .update =>
      (r.message TaskUpdate.codec).toOption.bind fun u =>
        (Level.ofNumber? u.level).map fun level => .flag u.player level ⟨u.task, u.completed⟩
  | .validate =>
      (r.message Submission.codec).toOption.bind fun s =>
        if (checkManifest s.manifest).ok then some (.manifest s.player s.manifest) else none
  | _ => none

/-- What a request asks to keep. -/
def HttpRequest.change? (r : HttpRequest) : Option Change :=
  (Endpoint.ofPath? r.path).bind fun e => if e.accepts r.method then e.change? r else none

namespace Database

/-- The flags that a database has of a player in a level. -/
def tasks (db : Database) (player : String) (level : Level) : TaskState :=
  ((db.record? player level).getD .empty).tasks

end Database

namespace Change

/-- The database with a change. -/
def apply (db : Database) : Change → Database
  | registration player => db.register player
  | flag player level signal => db.update player level signal
  | manifest player text => db.recordManifest player text

/-- Whether the change is saved before it is acknowledged. -/
def mustSave (db : Database) : Change → Bool
  | registration player => !db.isRegistered player
  | _ => true

/-- Whether a database has the change, where `before` is the database that it was asked for in. -/
def IsIn (before db : Database) : Change → Prop
  | registration player => db.isRegistered player = true
  | flag player level signal =>
      db.tasks player level = (before.tasks player level).set signal.task signal.completed
  | manifest player text =>
      (db.record? player .manifest).bind LevelRecord.manifest = some text ∧
        (db.tasks player .manifest).isDone Task.validManifest = true

end Change

theorem Change.isIn_apply (db : Database) (change : Change) : change.IsIn db (change.apply db) := by
  cases change with
  | registration player => exact decide_eq_true (OrderedSet.mem_insert.2 (.inl rfl))
  | flag player level signal =>
      show (db.update player level signal).tasks player level = _
      rw [Database.tasks, Database.update, Database.record?_modifyRecord, if_pos ⟨rfl, rfl⟩]
      rfl
  | manifest player text =>
      have hrecord : (db.recordManifest player text).record? player .manifest =
          some ⟨(db.tasks player .manifest).set Task.validManifest true, some text⟩ := by
        rw [Database.recordManifest, Database.record?_modifyRecord, if_pos ⟨rfl, rfl⟩]
        rfl
      refine ⟨by rw [apply, hrecord]; rfl, ?_⟩
      rw [apply, Database.tasks, hrecord]
      simp [TaskState.isDone_set]

theorem Endpoint.accepts_options (e : Endpoint) : e.accepts .options = false := by
  cases e <;> rfl

theorem Refusal.status_ne_ok (refusal : Refusal) : refusal.status ≠ 200 := by
  cases refusal <;> decide

namespace Database

theorem isRegistered_register_of {db : Database} {player : String}
    (h : db.isRegistered player = true) (q : String) :
    (db.register q).isRegistered player = true := by
  have hmem : player ∈ db.players := of_decide_eq_true h
  exact decide_eq_true (OrderedSet.mem_insert.2 (.inr hmem))

/-- What a request does to a database. -/
inductive Outcome (db : Database) (r : HttpRequest) : Handled → Prop
  /-- What it asks for is done. -/
  | changed {change : Change} (h : r.change? = some change) (response : HttpResponse) :
      Outcome db r ⟨change.apply db, change.mustSave db, response⟩
  /-- Nothing is changed, and no change is acknowledged. -/
  | unchanged {response : HttpResponse} (h : response.status = 200 → r.change? = none) :
      Outcome db r (db.reply response)

/-- What comes of a request that asks to keep something, or nothing. -/
inductive Reaction (db : Database) (change? : Option Change) : Except Refusal Handled → Prop
  /-- It is refused. -/
  | refused (refusal : Refusal) : Reaction db change? (.error refusal)
  /-- It is answered without a change. -/
  | quiet (h : change? = none) (response : HttpResponse) :
      Reaction db change? (.ok (db.reply response))
  /-- What it asks for is done. -/
  | changed {change : Change} (h : change? = some change) (response : HttpResponse) :
      Reaction db change? (.ok ⟨change.apply db, change.mustSave db, response⟩)

section
variable (db : Database)

theorem reaction_register (player : String) :
    db.Reaction (some (.registration player)) (db.handleRegister player) := by
  by_cases h : isPlayerId player = true
  · rw [db.handleRegister_eq player h]
    exact .changed rfl _
  · rw [db.handleRegister_refused h]
    exact .refused _

theorem reaction_progress (q : ProgressQuery) : db.Reaction none (db.handleProgress q) := by
  by_cases h : isPlayerId q.player = true
  · cases hlevel : Level.ofNumber? q.level with
    | none =>
        rw [db.handleProgress_refused (.inr hlevel)]
        exact .refused _
    | some level =>
        rw [db.handleProgress_eq h hlevel]
        exact .quiet rfl _
  · rw [db.handleProgress_refused (.inl h)]
    exact .refused _

theorem reaction_update (u : TaskUpdate) :
    db.Reaction
      ((Level.ofNumber? u.level).map fun level => .flag u.player level ⟨u.task, u.completed⟩)
      (db.handleUpdate u) := by
  by_cases h : isPlayerId u.player = true
  · cases hlevel : Level.ofNumber? u.level with
    | none =>
        rw [db.handleUpdate_refused (.inr hlevel)]
        exact .refused _
    | some level =>
        rw [db.handleUpdate_eq h hlevel]
        have hasked : (some level).map (fun level => Change.flag u.player level
            ⟨u.task, u.completed⟩) = some (.flag u.player level ⟨u.task, u.completed⟩) := rfl
        exact .changed hasked _
  · rw [db.handleUpdate_refused (.inl h)]
    exact .refused _

theorem reaction_submission (s : Submission) :
    db.Reaction
      (if (checkManifest s.manifest).ok then some (.manifest s.player s.manifest) else none)
      (db.handleSubmission s) := by
  by_cases h : isPlayerId s.player = true
  · rw [db.handleSubmission_eq h]
    by_cases hpasses : (checkManifest s.manifest).ok = true
    · rw [hpasses, if_pos rfl, if_pos rfl]
      have hasked : some (Change.manifest s.player s.manifest) = some _ := rfl
      exact .changed hasked _
    · rw [if_neg hpasses, if_neg hpasses, Bool.eq_false_iff.2 hpasses]
      exact .quiet rfl _
  · rw [db.handleSubmission_refused h]
    exact .refused _

theorem reaction_handle (r : HttpRequest) (e : Endpoint) :
    db.Reaction (e.change? r) (db.handle r e) := by
  cases e with
  | health | welcome => exact .quiet rfl _
  | register =>
      simp only [handle, Endpoint.change?]
      cases r.queryValue "playerId" with
      | error refusal => exact .refused refusal
      | ok player => exact db.reaction_register player
  | progress =>
      simp only [handle, Endpoint.change?]
      cases r.queryValue "playerId" with
      | error refusal => exact .refused refusal
      | ok player =>
          cases r.queryOctet "level" with
          | error refusal => exact .refused refusal
          | ok n => exact db.reaction_progress ⟨player, n⟩
  | update =>
      simp only [handle, Endpoint.change?]
      cases r.message TaskUpdate.codec with
      | error refusal => exact .refused refusal
      | ok u => exact db.reaction_update u
  | validate =>
      simp only [handle, Endpoint.change?]
      cases r.message Submission.codec with
      | error refusal => exact .refused refusal
      | ok s => exact db.reaction_submission s

end

theorem outcome_answer (db : Database) (r : HttpRequest) : db.Outcome r (db.answer r) := by
  have hrefused : ∀ refusal : Refusal, db.Outcome r (db.reply refusal.response) :=
    fun refusal => .unchanged fun h => absurd h refusal.status_ne_ok
  unfold answer route
  cases hpath : Endpoint.ofPath? r.path with
  | none => exact hrefused _
  | some e =>
      dsimp only
      by_cases haccepts : e.accepts r.method = true
      · have hchange : r.change? = e.change? r := by
          rw [HttpRequest.change?, hpath, Option.bind_some, if_pos haccepts]
        have hreaction := db.reaction_handle r e
        rw [if_pos haccepts]
        generalize db.handle r e = handled at hreaction
        cases hreaction with
        | refused refusal => exact hrefused refusal
        | quiet hnone response => exact .unchanged fun _ => hchange.trans hnone
        | changed hsome response => exact .changed (hchange.trans hsome) response
      · rw [if_neg haccepts]
        exact hrefused _

end Database

/-! ### Servers with a data file -/

/-- A server: its database in memory, and the disk with its data file. -/
structure Server where
  database : Database
  disk : DataDisk
  deriving DecidableEq

/-- A request that arrives, and what goes wrong if it makes the server save. -/
structure ServerStep where
  request : HttpRequest
  fault : Option SaveFault
  deriving DecidableEq

namespace Server

variable (path : Path) (server : Server) (step : ServerStep)

/-- Saves a database, and tells whether that worked. -/
def save (db : Database) : StateM DataDisk Bool := do
  return (← db.save (DataDisk.disk path) path).toBool

/-- The response to a request, and the server after it. -/
def take : HttpResponse × Server :=
  let outcome := serve (save path) server.database step.request
    { server.disk with fault := step.fault }
  (outcome.1.1, ⟨outcome.1.2, outcome.2⟩)

/-- The server after a run. -/
def run (server : Server) (steps : List ServerStep) : Server :=
  steps.foldl (fun server step => (server.take path step).2) server

/-- The database that the server would load if it were started again. -/
def stored : Except DataFault Database := server.disk.stored path

/-- Whether a request makes the server save, and that works. -/
def saves : Bool :=
  step.request.method != .options && (server.database.answer step.request).mustSave &&
    (save path (server.database.answer step.request).database
      { server.disk with fault := step.fault }).1

/-- Whether a run saves a database in which a player is registered. -/
def savesPlayer (player : String) : Server → List ServerStep → Bool
  | _, [] => false
  | server, step :: rest =>
      (server.saves path step && (server.take path step).2.database.isRegistered player) ||
        savesPlayer player (server.take path step).2 rest

theorem take_options (h : step.request.method = .options) :
    server.take path step =
      (openToAll preflight, ⟨server.database, { server.disk with fault := step.fault }⟩) := by
  rw [take, serve, if_pos h]
  rfl

/-- A request that changes nothing that has to be saved. -/
theorem take_quiet (h : step.request.method ≠ .options)
    (hquiet : (server.database.answer step.request).mustSave = false) :
    server.take path step =
      (openToAll ((server.database.answer step.request).response.forMethod step.request.method),
        ⟨(server.database.answer step.request).database,
          { server.disk with fault := step.fault }⟩) := by
  rw [take, serve, if_neg h]
  simp only [hquiet, Bool.false_eq_true, if_false]
  rfl

/-- A request that makes the server save. -/
theorem take_saving (h : step.request.method ≠ .options)
    (hsaving : (server.database.answer step.request).mustSave = true) :
    server.take path step =
      let handled := server.database.answer step.request
      let saved := save path handled.database { server.disk with fault := step.fault }
      (openToAll ((if saved.1 then handled.response else Refusal.notSaved.response).forMethod
        step.request.method), ⟨handled.database, saved.2⟩) := by
  rw [take, serve, if_neg h]
  simp only [hsaving, if_true]
  rfl

/-! ### What a request does to the data file -/

theorem status_openToAll (r : HttpResponse) (method : HttpMethod) :
    (openToAll (r.forMethod method)).status = r.status := by
  rw [openToAll, HttpResponse.forMethod]
  split <;> rfl

/-- What is stored after a request: the whole database if it was saved, and otherwise what was
stored before. -/
theorem stored_take :
    (server.saves path step = true →
        (server.take path step).2.stored path = .ok (server.take path step).2.database) ∧
      (server.saves path step = false →
        (server.take path step).2.stored path = server.stored path) := by
  by_cases hoptions : step.request.method = .options
  · have hsaves : server.saves path step = false := by simp [saves, hoptions]
    rw [take_options path server step hoptions, hsaves]
    exact ⟨fun h => Bool.noConfusion h, fun _ => DataDisk.stored_fault path server.disk step.fault⟩
  · cases hsave : (server.database.answer step.request).mustSave with
    | false =>
        have hsaves : server.saves path step = false := by simp [saves, hsave]
        rw [take_quiet path server step hoptions hsave, hsaves]
        exact ⟨fun h => Bool.noConfusion h,
          fun _ => DataDisk.stored_fault path server.disk step.fault⟩
    | true =>
        have hsaves : server.saves path step =
            (save path (server.database.answer step.request).database
              { server.disk with fault := step.fault }).1 := by simp [saves, hoptions, hsave]
        have hstored := DataDisk.stored_save path { server.disk with fault := step.fault }
          (server.database.answer step.request).database
        rw [take_saving path server step hoptions hsave, hsaves]
        refine ⟨hstored.1, fun h => (hstored.2 h).trans ?_⟩
        exact DataDisk.stored_fault path server.disk step.fault

theorem database_take :
    (server.take path step).2.database =
      if step.request.method = .options then server.database
      else (server.database.answer step.request).database := by
  by_cases hoptions : step.request.method = .options
  · rw [take_options path server step hoptions, if_pos hoptions]
  · rw [if_neg hoptions]
    cases hsave : (server.database.answer step.request).mustSave with
    | false => rw [take_quiet path server step hoptions hsave]
    | true => rw [take_saving path server step hoptions hsave]

theorem isRegistered_take {player : String} (h : server.database.isRegistered player = true) :
    (server.take path step).2.database.isRegistered player = true := by
  rw [database_take]
  split
  · exact h
  · have houtcome := server.database.outcome_answer step.request
    generalize server.database.answer step.request = handled at houtcome
    cases houtcome with
    | unchanged => exact h
    | @changed change _ response =>
        cases change with
        | registration q => exact Database.isRegistered_register_of h q
        | flag q level signal => exact h
        | manifest q text => exact h

section
variable {path server step}

/-- A request that asks to keep something is no preflight. -/
theorem method_ne_options_of_change {change : Change} {r : HttpRequest}
    (h : r.change? = some change) : r.method ≠ .options := by
  intro hmethod
  rw [HttpRequest.change?] at h
  obtain ⟨e, -, he⟩ := Option.bind_eq_some_iff.1 h
  rw [hmethod, e.accepts_options] at he
  cases he

theorem database_of_saving {change : Change} (hchange : step.request.change? = some change)
    (hsaving : (server.database.answer step.request).mustSave = true) :
    (server.database.answer step.request).database = change.apply server.database := by
  have houtcome := server.database.outcome_answer step.request
  generalize server.database.answer step.request = handled at houtcome hsaving
  cases houtcome with
  | unchanged => cases hsaving
  | changed hsome response =>
      rw [hsome] at hchange
      cases hchange
      rfl

/-- What is acknowledged without being saved is a registration. -/
theorem registration_of_quiet {change : Change} (hchange : step.request.change? = some change)
    (hquiet : (server.database.answer step.request).mustSave = false)
    (hstatus : (server.database.answer step.request).response.status = 200) :
    (server.database.answer step.request).database = change.apply server.database ∧
      ∃ player, change = .registration player := by
  have houtcome := server.database.outcome_answer step.request
  generalize server.database.answer step.request = handled at houtcome hquiet hstatus
  cases houtcome with
  | unchanged hnone =>
      rw [hnone hstatus] at hchange
      cases hchange
  | changed hsome response =>
      rw [hsome] at hchange
      cases hchange
      refine ⟨rfl, ?_⟩
      cases change with
      | registration player => exact ⟨player, rfl⟩
      | flag | manifest => cases hquiet

/-- A response with status 200 comes after a save that worked. -/
theorem saves_of_status (hoptions : step.request.method ≠ .options)
    (hsaving : (server.database.answer step.request).mustSave = true)
    (hstatus : (server.take path step).1.status = 200) : server.saves path step = true := by
  have hworked : (save path (server.database.answer step.request).database
      { server.disk with fault := step.fault }).1 = true := by
    rw [take_saving path server step hoptions hsaving, status_openToAll] at hstatus
    by_contra hfailed
    rw [if_neg hfailed] at hstatus
    exact absurd hstatus (by decide)
  simp [saves, hoptions, hsaving, hworked]

/-- An acknowledged change was made, and was saved unless it is a registration. -/
theorem acknowledged_take {change : Change} (hchange : step.request.change? = some change)
    (hacknowledged : (server.take path step).1.status = 200) :
    (server.take path step).2.database = change.apply server.database ∧
      (server.saves path step = true ∨ ∃ player, change = .registration player) := by
  have hoptions := method_ne_options_of_change hchange
  rw [database_take, if_neg hoptions]
  cases hsave : (server.database.answer step.request).mustSave with
  | false =>
      rw [take_quiet path server step hoptions hsave, status_openToAll] at hacknowledged
      exact (registration_of_quiet hchange hsave hacknowledged).imp_right .inr
  | true =>
      exact ⟨database_of_saving hchange hsave, .inl (saves_of_status hoptions hsave hacknowledged)⟩

end

/-! ### What runs leave in the data file -/

/-- A run stores the players that were stored before it, and those of the databases that it saved.
-/
theorem stored_run (steps : List ServerStep) {before : Database}
    (hbefore : server.stored path = .ok before)
    (hknown : ∀ player, before.isRegistered player = true →
      server.database.isRegistered player = true) :
    ∃ after, (server.run path steps).stored path = .ok after ∧
      (∀ player, after.isRegistered player = true ↔
        before.isRegistered player = true ∨ savesPlayer path player server steps = true) := by
  induction steps generalizing server before with
  | nil => exact ⟨before, hbefore, fun player => by simp [savesPlayer]⟩
  | cons step rest ih =>
      obtain ⟨hsaved, hunsaved⟩ := stored_take path server step
      have hkept : ∀ player, before.isRegistered player = true →
          (server.take path step).2.database.isRegistered player = true :=
        fun player h => isRegistered_take path server step (hknown player h)
      cases hsaves : server.saves path step with
      | true =>
          -- the save stores all of memory, so the rest of the run starts from there
          obtain ⟨after, hafter, hplayers⟩ :=
            ih (server.take path step).2 (hsaved hsaves) fun _ => id
          refine ⟨after, hafter, fun player => (hplayers player).trans ?_⟩
          rw [savesPlayer, hsaves, Bool.true_and, Bool.or_eq_true]
          constructor
          · exact .inr
          · rintro (h | h)
            · exact .inl (hkept player h)
            · exact h
      | false =>
          obtain ⟨after, hafter, hplayers⟩ := ih (server.take path step).2
            ((hunsaved hsaves).trans hbefore) hkept
          refine ⟨after, hafter, fun player => (hplayers player).trans ?_⟩
          rw [savesPlayer, hsaves, Bool.false_and, Bool.false_or]

end Server

end EscapeRoom
