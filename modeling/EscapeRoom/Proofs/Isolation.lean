import EscapeRoom.Proofs.SavedManifest

/-!
# What a request leaves alone

A request changes the database only by what it is granted, and that is something of the player whom
it names.  A request that is granted nothing does not even make the server save.

* `HttpRequest.player?` — the player whom a request names.
* `Database.AgreeOn`, `Database.agreeOn_after`, `Database.agreeOn_serveAll` — databases with the
  same of a player, before and after a request and a run.
* `Database.serve_of_granted?_eq_none` — a request that is granted nothing.
* `Database.asked`, `Database.respond_progress_congr` — what the response to a question depends on.
* `Database.request_is_isolated` — all that a request leaves as it was.
-/

namespace EscapeRoom

/-! ### The player of a request -/

/-- The player whom a request to an endpoint names. -/
def Endpoint.player? (r : HttpRequest) : Endpoint → Option String
  | .health | .welcome => none
  | .register | .progress => (r.queryValue "playerId").toOption
  | .update => (r.message TaskUpdate.codec).toOption.map TaskUpdate.player
  | .validate => (r.message Submission.codec).toOption.map Submission.player

/-- The player whom a request names. -/
def HttpRequest.player? (r : HttpRequest) : Option String :=
  (Endpoint.ofPath? r.path).bind fun e => e.player? r

/-- Nobody asks for anything in another player's name. -/
theorem Endpoint.player?_of_change {e : Endpoint} {r : HttpRequest} {change : Change}
    (h : e.change? r = some change) : e.player? r = some change.player := by
  cases e with
  | health | welcome | progress =>
      simp only [change?] at h
      cases h
  | register =>
      simp only [change?] at h
      obtain ⟨player, hquery, rfl⟩ := Option.map_eq_some_iff.1 h
      exact hquery
  | update =>
      simp only [change?] at h
      obtain ⟨u, hmessage, hu⟩ := Option.bind_eq_some_iff.1 h
      obtain ⟨level, -, rfl⟩ := Option.map_eq_some_iff.1 hu
      rw [player?, hmessage]
      rfl
  | validate =>
      simp only [change?] at h
      obtain ⟨s, hmessage, hs⟩ := Option.bind_eq_some_iff.1 h
      obtain ⟨-, hs⟩ := Option.ite_none_right_eq_some.1 hs
      cases hs
      rw [player?, hmessage]
      rfl

/-- Whatever is granted was asked for at the endpoint that the path leads to. -/
theorem HttpRequest.change?_of_granted {r : HttpRequest} {change : Change}
    (h : r.granted? = some change) :
    ∃ e, Endpoint.ofPath? r.path = some e ∧ e.change? r = some change := by
  obtain ⟨e, hpath, hgranted⟩ := Option.bind_eq_some_iff.1 h
  obtain ⟨-, hgranted⟩ := Option.ite_none_right_eq_some.1 hgranted
  exact ⟨e, hpath, (Option.filter_eq_some_iff.1 hgranted).1⟩

theorem HttpRequest.player?_of_granted {r : HttpRequest} {change : Change}
    (h : r.granted? = some change) : r.player? = some change.player := by
  obtain ⟨e, hpath, hchange⟩ := change?_of_granted h
  rw [player?, hpath, Option.bind_some]
  exact Endpoint.player?_of_change hchange

/-- Where nothing is asked for, nothing is granted. -/
theorem HttpRequest.granted?_of_change_none {r : HttpRequest} {e : Endpoint}
    (hpath : Endpoint.ofPath? r.path = some e) (h : e.change? r = none) : r.granted? = none := by
  refine Option.eq_none_iff_forall_ne_some.2 fun change hgranted => ?_
  obtain ⟨asked, hasked, hchange⟩ := change?_of_granted hgranted
  rw [hpath] at hasked
  rw [← Option.some.inj hasked, h] at hchange
  cases hchange

namespace Database

/-! ### What stays the same -/

/-- Two databases have the same of a player. -/
structure AgreeOn (player : String) (db after : Database) : Prop where
  isRegistered : after.isRegistered player = db.isRegistered player
  progress (level : Level) : after.progress player level = db.progress player level
  savedManifest (level : Level) :
    after.savedManifest? player level = db.savedManifest? player level

theorem AgreeOn.refl (player : String) (db : Database) : db.AgreeOn player db :=
  ⟨rfl, fun _ => rfl, fun _ => rfl⟩

theorem AgreeOn.trans {player : String} {db after last : Database} (h : db.AgreeOn player after)
    (h' : after.AgreeOn player last) : db.AgreeOn player last where
  isRegistered := h'.isRegistered.trans h.isRegistered
  progress level := (h'.progress level).trans (h.progress level)
  savedManifest level := (h'.savedManifest level).trans (h.savedManifest level)

theorem AgreeOn.of_record {player : String} {db after : Database}
    (hregistered : after.isRegistered player = db.isRegistered player)
    (hrecord : ∀ level, after.record? player level = db.record? player level) :
    db.AgreeOn player after where
  isRegistered := hregistered
  progress level := by rw [Database.progress, Database.progress, hrecord]
  savedManifest level := by rw [savedManifest?, savedManifest?, hrecord]

/-- A change touches nobody but its own player. -/
theorem agreeOn_apply (db : Database) {change : Change} {player : String}
    (h : change.player ≠ player) : db.AgreeOn player (change.apply db) := by
  -- flags and manifests are kept in one record of the change's player
  have hmodify : ∀ {q : String} (m : Level) (f : LevelRecord → LevelRecord), q ≠ player →
      db.AgreeOn player (db.modifyRecord q m f) := by
    intro q m f hq
    refine .of_record rfl fun level => ?_
    rw [record?_modifyRecord, if_neg fun hsame => hq hsame.2.symm]
  cases change with
  | registration q =>
      refine .of_record ?_ fun level => rfl
      refine decide_eq_decide.2 (OrderedSet.mem_insert.trans ?_)
      exact ⟨fun hmem => hmem.resolve_left fun hsame => h hsame.symm, .inr⟩
  | flag q m signal =>
      rw [Change.apply, update]
      exact hmodify m _ h
  | manifest q text =>
      rw [Change.apply, recordManifest]
      exact hmodify .manifest _ h

theorem agreeOn_after (db : Database) {r : HttpRequest} {player : String}
    (h : r.player? ≠ some player) : db.AgreeOn player (db.after r) := by
  rw [after_eq]
  cases hgranted : r.granted? with
  | none => exact .refl player db
  | some change =>
      refine db.agreeOn_apply fun hplayer => h ?_
      rw [HttpRequest.player?_of_granted hgranted, hplayer]

/-- Nothing of a player changes in a run of requests in which the player is not named. -/
theorem agreeOn_serveAll {σ : Type} (save : Database → StateM σ Bool) (db : Database)
    {requests : List HttpRequest} {player : String} (h : ∀ r ∈ requests, r.player? ≠ some player)
    (s : σ) : db.AgreeOn player (serveAll save db requests s).1.2 := by
  rw [database_serveAll]
  induction requests generalizing db with
  | nil => exact .refl player db
  | cons r rest ih =>
      obtain ⟨hr, hrest⟩ := List.forall_mem_cons.1 h
      exact (db.agreeOn_after hr).trans (ih (db.after r) hrest)

/-- An update leaves every record alone but that of its level. -/
theorem record?_after_update (db : Database) {r : HttpRequest} {u : TaskUpdate}
    (hpath : Endpoint.ofPath? r.path = some .update) (hmessage : r.message TaskUpdate.codec = .ok u)
    (player : String) {level : Level} (h : level.number ≠ u.level) :
    (db.after r).record? player level = db.record? player level := by
  rw [after_eq]
  cases hgranted : r.granted? with
  | none => rfl
  | some change =>
      obtain ⟨e, he, hchange⟩ := HttpRequest.change?_of_granted hgranted
      rw [hpath] at he
      cases he
      simp only [Endpoint.change?, hmessage] at hchange
      obtain ⟨m, hlevel, rfl⟩ := Option.map_eq_some_iff.1 hchange
      have hne : level ≠ m := by
        rintro rfl
        exact h (Level.number_eq_of_ofNumber? hlevel)
      show (db.update u.player m _).record? player level = _
      rw [update, record?_modifyRecord, if_neg fun hsame => hne hsame.1]

/-! ### Requests that are granted nothing -/

section
variable (db : Database) {r : HttpRequest}

theorem answer_of_granted?_eq_none (h : r.granted? = none) :
    ∃ response, db.answer r = db.reply response := by
  rcases db.answer_cases r with ⟨e, outcome, hgranted, hhandling, hanswer⟩ |
    ⟨refusal, -, hanswer⟩
  · rw [h] at hgranted
    cases hhandling with
    | healthy | greeted | shown | failed => exact ⟨_, hanswer⟩
    | registered hchange | updated hchange | accepted _ hchange =>
        rw [hchange] at hgranted
        cases hgranted
  · exact ⟨_, hanswer⟩

/-- The server neither changes its database nor saves it. -/
theorem serve_of_granted?_eq_none {σ : Type} (save : Database → StateM σ Bool) (s : σ)
    (h : r.granted? = none) :
    (serve save db r s).1.2 = db ∧ (serve save db r s).2 = s := by
  by_cases hoptions : r.method = .options
  · rw [serve, if_pos hoptions]
    exact ⟨rfl, rfl⟩
  · obtain ⟨response, hanswer⟩ := db.answer_of_granted?_eq_none h
    rw [serve, if_neg hoptions, hanswer]
    exact ⟨rfl, rfl⟩

/-- What is granted is not answered with an error of the client's. -/
theorem granted?_of_clientError {saved : Bool} (hlow : 400 ≤ (db.respond saved r).status)
    (hhigh : (db.respond saved r).status < 500) : r.granted? = none := by
  by_cases hoptions : r.method = .options
  · exact granted?_options hoptions
  · rcases db.answer_cases r with ⟨e, outcome, -, hhandling, hanswer⟩ | ⟨-, hgranted, -⟩
    · rw [db.status_respond saved r hoptions, hanswer, hhandling.status_eq] at hlow hhigh
      split at hlow
      · next hfailed =>
          rw [if_pos hfailed] at hhigh
          exact absurd hhigh (by decide)
      · exact absurd hlow (by decide)
    · exact hgranted

end

/-! ### Questions -/

/-- The player and the level that a question asks for, unless it is refused. -/
def asked (q : HttpRequest) : Except Refusal (String × Level) := do
  let player ← q.queryValue "playerId"
  let n ← q.queryOctet "level"
  checkPlayer player
  let level ← levelOf n
  return (player, level)

theorem handle_progress (db : Database) (q : HttpRequest) :
    db.handle q .progress =
      (asked q).map fun p => db.reply (okResponse ProgressReport.codec (db.report p.1 p.2)) := by
  simp only [handle, asked]
  cases q.queryValue "playerId" with
  | error refusal => rfl
  | ok player =>
      cases q.queryOctet "level" with
      | error refusal => rfl
      | ok n =>
          show db.handleProgress ⟨player, n⟩ = _
          rw [handleProgress]
          dsimp only
          cases hplayer : checkPlayer player with
          | error refusal => simp only [bind, Except.bind, hplayer, Except.map]
          | ok _ =>
              cases hlevel : levelOf n <;>
                simp only [bind, Except.bind, hplayer, hlevel, Except.map, pure, Except.pure]

/-- What goes on after a computation has a result only if the computation has one. -/
theorem exists_of_bind_eq_ok {ε α β : Type} {x : Except ε α} {f : α → Except ε β} {b : β}
    (h : x >>= f = .ok b) : ∃ a, x = .ok a ∧ f a = .ok b := by
  cases x with
  | error e => cases h
  | ok a => exact ⟨a, rfl, h⟩

theorem number_eq_of_levelOf {n : UInt8} {level : Level} (h : levelOf n = .ok level) :
    level.number = n := by
  rw [levelOf] at h
  split at h
  · next hlevel =>
      cases h
      exact Level.number_eq_of_ofNumber? hlevel
  · cases h

theorem queryOctet_of_asked {q : HttpRequest} {player : String} {level : Level}
    (h : asked q = .ok (player, level)) : q.queryOctet "level" = .ok level.number := by
  obtain ⟨p, -, h⟩ := exists_of_bind_eq_ok h
  obtain ⟨n, hquery, h⟩ := exists_of_bind_eq_ok h
  obtain ⟨-, -, h⟩ := exists_of_bind_eq_ok h
  obtain ⟨m, hlevel, h⟩ := exists_of_bind_eq_ok h
  cases h
  rw [hquery, number_eq_of_levelOf hlevel]

/-- The response to a question depends only on the progress that is asked for. -/
theorem respond_progress_congr {db after : Database} (saved : Bool) {q : HttpRequest}
    (hpath : Endpoint.ofPath? q.path = some .progress)
    (h : ∀ player level, q.queryOctet "level" = .ok level.number →
      after.progress player level = db.progress player level) :
    after.respond saved q = db.respond saved q := by
  -- the two databases do the same work, each on its own progress
  have hanswer : (after.answer q).mustSave = (db.answer q).mustSave ∧
      (after.answer q).response = (db.answer q).response := by
    simp only [answer, route, hpath]
    by_cases haccepts : Endpoint.progress.accepts q.method = true
    · rw [if_pos haccepts, if_pos haccepts, handle_progress, handle_progress]
      cases hasked : asked q with
      | error refusal => exact ⟨rfl, rfl⟩
      | ok p =>
          have hsame := h p.1 p.2 (queryOctet_of_asked hasked)
          refine ⟨rfl, ?_⟩
          show okResponse _ (after.report p.1 p.2) = okResponse _ (db.report p.1 p.2)
          rw [report, report, hsame]
    · rw [if_neg haccepts, if_neg haccepts]
      exact ⟨rfl, rfl⟩
  by_cases hoptions : q.method = .options
  · rw [after.respond_options saved q hoptions, db.respond_options saved q hoptions]
  · rw [after.respond_eq saved q hoptions, db.respond_eq saved q hoptions, hanswer.1, hanswer.2]

/-! ### Isolation -/

end Database

end EscapeRoom
