import EscapeRoom.Proofs.Acknowledgement

/-!
# Starting the server again

A server that is started again has lost its memory and loads the data file.  As long as every save
works, the file holds what memory holds, and so nobody can tell when the server was started again.

* `ServerEvent`, `Server.restart`, `Server.live` — requests and restarts in any order.
* `Server.savesWork` — no save of a run fails.
* `Server.stored_take_of_keepsUp` — a request keeps the file and memory alike.
* `Server.restarts_are_transparent` — the responses and the server at the end are those of the run
  without restarts.
-/

namespace EscapeRoom

/-! ### What is read and what is not saved -/

/-- Loading reads what is stored and leaves the disk alone. -/
theorem DataDisk.load_eq (path : Path) (d : DataDisk) :
    Database.load (disk path) path d = (d.stored path, d) := by
  have hdisk : (Database.load (disk path) path d).2 = d := by
    cases hfile : d.file with
    | none =>
        simp only [Database.load, bind, StateT.bind, disk, if_true, hfile, Option.isSome_none,
          Bool.false_eq_true, if_false]
        rfl
    | some content =>
        simp only [Database.load, bind, StateT.bind, disk, if_true, hfile, Option.isSome_some]
        dsimp only [Option.bind]
        cases Text.Utf8.decode? content with
        | none => rfl
        | some text =>
            dsimp only
            cases Database.ofFileText? (String.ofList text) <;> rfl
  exact Prod.ext rfl hdisk

namespace Database

theorem register_of_isRegistered {db : Database} {player : String}
    (h : db.isRegistered player = true) : db.register player = db := by
  have hmem : player ∈ db.players := of_decide_eq_true h
  show Database.mk (db.players.insert player) db.records = db
  rw [OrderedSet.insert_of_mem hmem]

/-- What need not be saved is no change. -/
theorem database_answer_of_quiet (db : Database) (r : HttpRequest)
    (h : (db.answer r).mustSave = false) : (db.answer r).database = db := by
  have houtcome := db.outcome_answer r
  generalize db.answer r = handled at houtcome h
  cases houtcome with
  | unchanged => rfl
  | @changed change _ response =>
      cases change with
      | registration player =>
          have hknown : db.isRegistered player = true := by
            simpa [Change.mustSave] using h
          exact register_of_isRegistered hknown
      | flag | manifest => cases h

end Database

/-! ### Runs with restarts -/

/-- What happens to a server: a request arrives, or it is started again. -/
inductive ServerEvent
  | request (step : ServerStep)
  | restart
  deriving DecidableEq

/-- The requests among some events. -/
def ServerEvent.requests : List ServerEvent → List ServerStep
  | [] => []
  | request step :: rest => step :: requests rest
  | restart :: rest => requests rest

namespace Server

variable (path : Path) (server : Server) (step : ServerStep)

/-- The server after its memory was lost and the data file was loaded. -/
def restart : Except DataFault Server :=
  let (loaded, disk) := Database.load (DataDisk.disk path) path server.disk
  loaded.map fun db => ⟨db, disk⟩

/-- The responses of a run without restarts. -/
def responses : Server → List ServerStep → List HttpResponse
  | _, [] => []
  | server, step :: rest => (server.take path step).1 :: responses (server.take path step).2 rest

/-- The responses of a run with restarts, and the server after it. -/
def live : Server → List ServerEvent → Except DataFault (List HttpResponse × Server)
  | server, [] => .ok ([], server)
  | server, .request step :: rest => do
      let (response, after) := server.take path step
      let (responses, last) ← live after rest
      return (response :: responses, last)
  | server, .restart :: rest => do live (← server.restart path) rest

/-- Whether a request makes no save necessary, or the save works. -/
def keepsUp : Bool :=
  step.request.method == .options || !(server.database.answer step.request).mustSave ||
    server.saves path step

/-- Whether no save of a run fails. -/
def savesWork : Server → List ServerStep → Bool
  | _, [] => true
  | server, step :: rest =>
      server.keepsUp path step && savesWork (server.take path step).2 rest

section
variable {path server step}

theorem database_take_of_unsaved (h : server.keepsUp path step = true)
    (hunsaved : server.saves path step = false) :
    (server.take path step).2.database = server.database := by
  rw [keepsUp, hunsaved, Bool.or_false, Bool.or_eq_true, beq_iff_eq, Bool.not_eq_true'] at h
  rw [database_take]
  by_cases hoptions : step.request.method = .options
  · rw [if_pos hoptions]
  · rw [if_neg hoptions]
    have hquiet := h.resolve_left hoptions
    exact server.database.database_answer_of_quiet step.request hquiet

/-- A request without a failed save leaves the data file and memory alike. -/
theorem stored_take_of_keepsUp (hstored : server.stored path = .ok server.database)
    (h : server.keepsUp path step = true) :
    (server.take path step).2.stored path = .ok (server.take path step).2.database := by
  obtain ⟨hsaved, hunsaved⟩ := stored_take path server step
  cases hsaves : server.saves path step with
  | true => exact hsaved hsaves
  | false =>
      rw [hunsaved hsaves, database_take_of_unsaved h hsaves]
      exact hstored

/-- A server whose data file holds what memory holds is the same after a restart. -/
theorem restart_eq (hstored : server.stored path = .ok server.database) :
    server.restart path = .ok server := by
  have hload : server.disk.stored path = .ok server.database := hstored
  rw [restart, DataDisk.load_eq, hload]
  rfl

end

/-- A run with restarts comes to the same as its requests alone. -/
theorem live_eq (hstored : server.stored path = .ok server.database) (events : List ServerEvent)
    (hsaved : savesWork path server (ServerEvent.requests events) = true) :
    server.live path events =
      .ok (server.responses path (ServerEvent.requests events),
        server.run path (ServerEvent.requests events)) := by
  -- the invariant of the run is that the data file holds what memory holds
  induction events generalizing server with
  | nil => rfl
  | cons event rest ih =>
      cases event with
      | request step =>
          rw [ServerEvent.requests, savesWork, Bool.and_eq_true] at hsaved
          have hafter := stored_take_of_keepsUp hstored hsaved.1
          have hrest := ih (server.take path step).2 hafter hsaved.2
          simp only [live, hrest]
          rfl
      | restart =>
          rw [ServerEvent.requests] at hsaved
          rw [live, restart_eq hstored]
          exact ih server hstored hsaved

end Server

end EscapeRoom
