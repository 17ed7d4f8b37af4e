import EscapeRoom.Proofs.Handlers
import EscapeRoom.Proofs.StoreRun

/-!
# The store in memory and the server agree

The store in memory begins a record with the required tasks, and the server adds them when a record
is read.  Adding flags later and adding the required tasks are joins, so it does not matter which
comes first: the two stores give the same answers to the same requests.

* `Database.handlers` — the server's handlers as a store, whose responses are read as a client does.
* `Remote.readAnswer_handled` — what a client reads in the response of a handler.
* `LevelRecord.filled` — a record of the server as it is shown.
* `Database.Mirrors` — the database shows what the store in memory holds.
* `Database.handlers_agree` — the same answers to any run of requests.
-/

namespace EscapeRoom

/-! ### The handlers as a store -/

namespace Database

/-- Lets a handler answer, and reads its response. -/
def ask {α : Type} (handler : Database → Except Refusal Handled)
    (read : Option HttpResponse → Except StoreError α) : StateM Database (Except StoreError α) :=
  fun db =>
    match handler db with
    | .ok handled => (read (some handled.response), handled.database)
    | .error refusal => (read (some refusal.response), db)

/-- The store that the server's handlers make for a client who knows it under an address. -/
def handlers (base : String) : ProgressStore (StateM Database) where
  register player := ask (·.handleRegister player) (Remote.readRegistration base)
  fetch player level :=
    ask (·.handleProgress ⟨player, level.number⟩) (Remote.readProgress base .get .progress)
  update player level signal :=
    ask (·.handleUpdate ⟨player, level.number, signal.task, signal.completed⟩)
      (Remote.readProgress base .post .update)
  validate player manifest :=
    ask (·.handleSubmission ⟨player, manifest⟩) (Remote.readVerdict base)

/-- The database after a request that is not refused. -/
def effect (db : Database) : StoreOperation → Database
  | .register player => db.register player
  | .fetch _ _ => db
  | .update player level signal => db.update player level signal
  | .validate player manifest =>
      if (checkManifest manifest).ok then db.recordManifest player manifest else db

/-- What a client reads in the response to a request that is not refused. -/
def answerTo (db : Database) : StoreOperation → StoreAnswer
  | .register _ => .registered
  | .fetch player level => .progress (db.progress player level)
  | .update player level signal => .progress ((db.update player level signal).progress player level)
  | .validate _ manifest => .verdict (checkManifest manifest)

/-- What the handler of a request makes of its values. -/
def handleOperation (db : Database) : StoreOperation → Except Refusal Handled
  | .register player => db.handleRegister player
  | .fetch player level => db.handleProgress ⟨player, level.number⟩
  | .update player level signal =>
      db.handleUpdate ⟨player, level.number, signal.task, signal.completed⟩
  | .validate player manifest => db.handleSubmission ⟨player, manifest⟩

/-- No handler takes a player id that is too short. -/
theorem handleOperation_refused (db : Database) {operation : StoreOperation}
    (h : ¬ isPlayerId operation.player = true) :
    db.handleOperation operation = .error .badRequest := by
  cases operation with
  | register player => exact db.handleRegister_refused h
  | fetch player level => exact db.handleProgress_refused (.inl h)
  | update player level signal => exact db.handleUpdate_refused (.inl h)
  | validate player manifest => exact db.handleSubmission_refused h

end Database

namespace Remote

variable (base : String)

/-- What a client reads in the response to a request. -/
def readAnswer (response : Option HttpResponse) : StoreOperation → Except StoreError StoreAnswer
  | .register _ => (readRegistration base response).map fun _ => .registered
  | .fetch _ _ => (readProgress base .get .progress response).map .progress
  | .update _ _ _ => (readProgress base .post .update response).map .progress
  | .validate _ _ => (readVerdict base response).map .verdict

/-- A handler that takes its values changes the database in the way that the request asks for, and
the client reads what there is to know. -/
theorem readAnswer_handled (db : Database) {operation : StoreOperation}
    (h : isPlayerId operation.player = true) :
    ∃ handled, db.handleOperation operation = .ok handled ∧
      handled.database = db.effect operation ∧
      readAnswer base (some handled.response) operation = .ok (db.answerTo operation) := by
  cases operation with
  | register player =>
      refine ⟨_, db.handleRegister_eq player h, rfl, ?_⟩
      simp only [readAnswer, readRegistration_okResponse]
      rfl
  | fetch player level =>
      refine ⟨_, db.handleProgress_eq (q := ⟨player, level.number⟩) h
        (Level.ofNumber?_number level), rfl, ?_⟩
      simp only [readAnswer, Database.reply, readProgress_okResponse]
      rfl
  | update player level signal =>
      refine ⟨_, db.handleUpdate_eq
        (u := ⟨player, level.number, signal.task, signal.completed⟩) h
        (Level.ofNumber?_number level), rfl, ?_⟩
      simp only [readAnswer, readProgress_okResponse]
      rfl
  | validate player manifest =>
      refine ⟨_, db.handleSubmission_eq (s := ⟨player, manifest⟩) h, rfl, ?_⟩
      simp only [readAnswer, readVerdict_okResponse, Grading.verdict_checkManifest]
      rfl

end Remote

/-- What comes of a question to a handler. -/
theorem Database.ask_map {α β : Type} (handler : Database → Except Refusal Handled)
    (read : Option HttpResponse → Except StoreError α) (f : α → β) (db : Database) :
    (do return (← ask handler read).map f : StateM Database (Except StoreError β)) db =
      match handler db with
      | .ok handled => ((read (some handled.response)).map f, handled.database)
      | .error refusal => ((read (some refusal.response)).map f, db) := by
  simp only [ask, bind, StateT.bind]
  cases handler db <;> rfl

/-- A request to the handlers, from its values to what is read. -/
theorem Database.perform_handlers_eq (db : Database) (base : String) (operation : StoreOperation) :
    (handlers base).perform operation db =
      match db.handleOperation operation with
      | .ok handled => (Remote.readAnswer base (some handled.response) operation, handled.database)
      | .error refusal => (Remote.readAnswer base (some refusal.response) operation, db) := by
  cases operation with
  | register player => exact ask_map _ _ _ db
  | fetch player level => exact ask_map _ _ _ db
  | update player level signal => exact ask_map _ _ _ db
  | validate player manifest => exact ask_map _ _ _ db

/-! ### Records -/

/-- A record with the required tasks of its level. -/
def LevelRecord.filled (r : LevelRecord) (level : Level) : LevelRecord :=
  ⟨(TaskState.forLevel level).merge r.tasks, r.manifest⟩

namespace Database

variable (db : Database) (player : String) (level : Level)

/-- The record of a player and a level as the server shows it. -/
def shown : LevelRecord := ((db.record? player level).getD .empty).filled level

theorem progress_eq_shown :
    db.progress player level =
      .of level (db.shown player level).tasks (db.shown player level).manifest :=
  rfl

theorem perform_handlers (base : String) {operation : StoreOperation}
    (h : isPlayerId operation.player = true) :
    (handlers base).perform operation db = (.ok (db.answerTo operation), db.effect operation) := by
  obtain ⟨handled, hhandler, heffect, hread⟩ := Remote.readAnswer_handled base db h
  rw [perform_handlers_eq, hhandler, ← heffect, ← hread]

/-- The database shows what a store in memory holds. -/
structure Mirrors (db : Database) (s : MemoryStore) : Prop where
  players : s.players = db.players
  records : ∀ player level, s.recordOf player level = db.shown player level
  /-- The store in memory answers requests. -/
  answers : s.failing = false

namespace Mirrors

variable {db : Database} {s : MemoryStore}

theorem new : Mirrors empty .new where
  players := rfl
  records player level := by cases level <;> rfl
  answers := rfl

/-- A change that may be made before or after the required tasks are added. -/
theorem modifyRecord (h : db.Mirrors s) (player : String) (level : Level)
    {f : LevelRecord → LevelRecord}
    (hf : ∀ r : LevelRecord, f (r.filled level) = (f r).filled level) :
    (db.modifyRecord player level f).Mirrors (s.modifyRecord player level f) where
  players := h.players
  answers := h.answers
  records q m := by
    rw [MemoryStore.recordOf_modifyRecord, shown, record?_modifyRecord]
    by_cases hm : m = level ∧ q = player
    · rw [if_pos hm, if_pos hm, Option.getD_some, hm.1, h.records]
      exact hf _
    · rw [if_neg hm, if_neg hm]
      exact h.records q m

/-- Raising a flag and adding the required tasks are joins. -/
theorem set_filled (level : Level) (tasks : TaskState) (task : String) (completed : Bool) :
    ((TaskState.forLevel level).merge tasks).set task completed =
      (TaskState.forLevel level).merge (tasks.set task completed) := by
  rw [TaskState.set_eq_sup, TaskState.set_eq_sup, TaskState.merge_eq_sup, TaskState.merge_eq_sup,
    sup_assoc]

/-- Updating keeps the two alike; a store in memory also notes the update. -/
theorem update (h : db.Mirrors s) (player : String) (level : Level) (signal : TaskSignal) :
    (db.update player level signal).Mirrors (s.update player level signal) := by
  -- `Mirrors` does not look at what the store in memory notes
  have hnoted : db.Mirrors { s with updates := s.updates ++ [(player, level, signal)] } :=
    ⟨h.players, h.records, h.answers⟩
  refine hnoted.modifyRecord player level fun r => ?_
  show LevelRecord.mk _ _ = LevelRecord.mk _ _
  rw [LevelRecord.filled, set_filled]

theorem recordManifest (h : db.Mirrors s) (player manifest : String) :
    (db.recordManifest player manifest).Mirrors (s.accept player manifest) := by
  refine h.modifyRecord player .manifest fun r => ?_
  show LevelRecord.mk _ _ = LevelRecord.mk _ _
  rw [LevelRecord.filled, set_filled]

theorem effect (h : db.Mirrors s) (operation : StoreOperation) :
    (db.effect operation).Mirrors (s.effect operation) := by
  cases operation with
  | register player => exact ⟨congrArg (·.insert player) h.players, h.records, h.answers⟩
  | fetch player level => exact h
  | update player level signal => exact h.update player level signal
  | validate player manifest =>
      simp only [Database.effect, MemoryStore.effect]
      split
      · exact h.recordManifest player manifest
      · exact h

theorem progress_eq (h : db.Mirrors s) (player : String) (level : Level) :
    s.progress player level = db.progress player level := by
  rw [progress_eq_shown, ← h.records]
  rfl

theorem answerTo_eq (h : db.Mirrors s) (operation : StoreOperation) :
    s.answerTo operation = db.answerTo operation := by
  cases operation with
  | register player => rfl
  | fetch player level => exact congrArg StoreAnswer.progress (h.progress_eq player level)
  | update player level signal =>
      exact congrArg StoreAnswer.progress ((h.update player level signal).progress_eq player level)
  | validate player manifest => rfl

/-- Runs of requests are answered alike, and keep the two alike. -/
theorem performAll (h : db.Mirrors s) (base : String) {operations : List StoreOperation}
    (hplayers : ∀ operation ∈ operations, isPlayerId operation.player = true) :
    (∀ answer ∈ (MemoryStore.store.performAll operations s).1, ∃ a, answer = .ok a) ∧
      (MemoryStore.store.performAll operations s).1 =
        ((handlers base).performAll operations db).1 ∧
      ((handlers base).performAll operations db).2.Mirrors
        (MemoryStore.store.performAll operations s).2 := by
  induction operations generalizing db s with
  | nil => exact ⟨fun _ hanswer => absurd hanswer List.not_mem_nil, rfl, h⟩
  | cons operation rest ih =>
      obtain ⟨hplayer, hrest⟩ := List.forall_mem_cons.1 hplayers
      obtain ⟨hanswered, hsame, hmirrors⟩ := ih (h.effect operation) hrest
      rw [ProgressStore.performAll_cons, ProgressStore.performAll_cons,
        MemoryStore.perform_eq h.answers, perform_handlers db base hplayer, h.answerTo_eq]
      dsimp only
      refine ⟨?_, by rw [hsame], hmirrors⟩
      exact List.forall_mem_cons.2 ⟨⟨_, rfl⟩, hanswered⟩

end Mirrors

/-- **The store in memory and the server agree.**  Any run of requests by players whom the server
accepts is answered in the same way by a new store in memory and by the handlers over an empty
database: none is refused, and progress, finished levels, manifests and verdicts are the same.  The
same players are registered afterwards. -/
theorem handlers_agree (base : String) (operations : List StoreOperation)
    (hplayers : ∀ operation ∈ operations, isPlayerId operation.player = true) :
    let inMemory := MemoryStore.store.performAll operations .new
    let onServer := (handlers base).performAll operations empty
    (∀ answer ∈ inMemory.1, ∃ a, answer = .ok a) ∧ inMemory.1 = onServer.1 ∧
      inMemory.2.players = onServer.2.players := by
  obtain ⟨hanswered, hsame, hmirrors⟩ := Mirrors.new.performAll base hplayers
  exact ⟨hanswered, hsame, hmirrors.players⟩

/-- A session with a task that no level requires: the last answer lists it, though it is not done.
-/
theorem handlers_agree_on_extra_task :
    let operations : List StoreOperation :=
      [.register "ada", .validate "ada" "kind: Pod", .update "ada" .docker ⟨"extra", false⟩,
        .update "ada" .docker (.done Task.run)]
    let inMemory := MemoryStore.store.performAll operations .new
    let onServer := (handlers "http://localhost").performAll operations empty
    (∀ operation ∈ operations, isPlayerId operation.player = true) ∧ inMemory.1 = onServer.1 ∧
      inMemory.2.players = onServer.2.players ∧
      onServer.1.getLast? = some (.ok (.progress ⟨.ofList [("extra", false), (Task.logs, false),
        (Task.pull, false), (Task.run, true)], false, none⟩)) := by
  have hagree := handlers_agree "http://localhost"
    [.register "ada", .validate "ada" "kind: Pod", .update "ada" .docker ⟨"extra", false⟩,
      .update "ada" .docker (.done Task.run)]
  dsimp only at hagree ⊢
  have hplayers : ∀ operation ∈ ([.register "ada", .validate "ada" "kind: Pod",
      .update "ada" .docker ⟨"extra", false⟩, .update "ada" .docker (.done Task.run)] :
        List StoreOperation), isPlayerId operation.player = true := by decide
  obtain ⟨-, hanswers, hregistered⟩ := hagree hplayers
  refine ⟨hplayers, hanswers, hregistered, ?_⟩
  rw [← hanswers]
  decide +kernel

end Database

end EscapeRoom
