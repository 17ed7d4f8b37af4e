import EscapeRoom.Server.Service
import EscapeRoom.Store.Remote
import EscapeRoom.Proofs.Message

/-!
# What the handlers answer

A handler that accepts its request changes the database in one way and answers with one message;
any other request it refuses.  A client reads the message back.

* `Database.handleRegister_eq`, `Database.handleProgress_eq`, `Database.handleUpdate_eq`,
  `Database.handleSubmission_eq` — the outcome of an accepted request.
* `Remote.readResponse_refusal`, `Remote.readRegistration_okResponse`,
  `Remote.readProgress_okResponse`, `Remote.readVerdict_okResponse` — what a client reads.
-/

namespace EscapeRoom

/-! ### Records -/

theorem Level.number_injective {level m : Level} (h : m.number = level.number) : m = level := by
  have hofNumber := congrArg Level.ofNumber? h
  rw [Level.ofNumber?_number, Level.ofNumber?_number] at hofNumber
  exact Option.some.inj hofNumber

theorem Level.number_eq_of_ofNumber? {n : UInt8} {level : Level} (h : ofNumber? n = some level) :
    level.number = n := by
  simpa using List.find?_some h

namespace Database

variable (db : Database)

theorem record?_modifyRecord (player q : String) (level m : Level)
    (f : LevelRecord → LevelRecord) :
    (db.modifyRecord player level f).record? q m =
      if m = level ∧ q = player then some (f ((db.record? player level).getD .empty))
      else db.record? q m := by
  unfold record? modifyRecord
  simp only [OrderedMap.get?_insert]
  by_cases hq : q = player
  · subst hq
    rw [if_pos rfl, Option.bind_some, OrderedMap.get?_insert]
    by_cases hm : m = level
    · subst hm
      rw [if_pos rfl, if_pos ⟨rfl, rfl⟩]
      cases db.records.get? q <;> rfl
    · rw [if_neg fun h => hm (Level.number_injective h), if_neg fun h => hm h.1]
      cases db.records.get? q <;> rfl
  · rw [if_neg hq, if_neg fun h => hq h.2]

/-! ### Requests that are accepted -/

theorem checkPlayer_eq {player : String} (h : isPlayerId player = true) :
    checkPlayer player = .ok () := if_pos h

theorem checkPlayer_eq_error {player : String} (h : ¬ isPlayerId player = true) :
    checkPlayer player = .error .badRequest := if_neg h

theorem levelOf_eq {n : UInt8} {level : Level} (h : Level.ofNumber? n = some level) :
    levelOf n = .ok level := by
  rw [levelOf, h]

theorem levelOf_eq_error {n : UInt8} (h : Level.ofNumber? n = none) :
    levelOf n = .error .badRequest := by
  rw [levelOf, h]

theorem handleRegister_eq (player : String) (h : isPlayerId player = true) :
    db.handleRegister player =
      .ok ⟨db.register player, !db.isRegistered player,
        okResponse Registration.codec ⟨true, player⟩⟩ := by
  simp only [handleRegister, checkPlayer_eq h, bind, Except.bind]
  rfl

theorem handleProgress_eq {q : ProgressQuery} (h : isPlayerId q.player = true) {level : Level}
    (hlevel : Level.ofNumber? q.level = some level) :
    db.handleProgress q =
      .ok (db.reply (okResponse ProgressReport.codec (db.report q.player level))) := by
  simp only [handleProgress, checkPlayer_eq h, levelOf_eq hlevel, bind, Except.bind]
  rfl

theorem handleUpdate_eq {u : TaskUpdate} (h : isPlayerId u.player = true) {level : Level}
    (hlevel : Level.ofNumber? u.level = some level) :
    db.handleUpdate u =
      let after := db.update u.player level ⟨u.task, u.completed⟩
      .ok ⟨after, true, okResponse ProgressReport.codec (after.report u.player level)⟩ := by
  simp only [handleUpdate, checkPlayer_eq h, levelOf_eq hlevel, bind, Except.bind]
  rfl

/-- Only a manifest that passes is kept. -/
theorem handleSubmission_eq {s : Submission} (h : isPlayerId s.player = true) :
    db.handleSubmission s =
      .ok ⟨if (checkManifest s.manifest).ok then db.recordManifest s.player s.manifest else db,
        (checkManifest s.manifest).ok,
        okResponse Grading.codec (.ofVerdict (checkManifest s.manifest))⟩ := by
  simp only [handleSubmission, checkPlayer_eq h, bind, Except.bind]
  cases (checkManifest s.manifest).ok <;> rfl

/-! ### Requests that are refused -/

theorem handleRegister_refused {player : String} (h : ¬ isPlayerId player = true) :
    db.handleRegister player = .error .badRequest := by
  simp only [handleRegister, checkPlayer_eq_error h, bind, Except.bind]

theorem handleProgress_refused {q : ProgressQuery}
    (h : ¬ isPlayerId q.player = true ∨ Level.ofNumber? q.level = none) :
    db.handleProgress q = .error .badRequest := by
  by_cases hplayer : isPlayerId q.player = true
  · have hlevel := h.resolve_left fun hother => hother hplayer
    simp only [handleProgress, checkPlayer_eq hplayer, levelOf_eq_error hlevel, bind, Except.bind]
  · simp only [handleProgress, checkPlayer_eq_error hplayer, bind, Except.bind]

theorem handleUpdate_refused {u : TaskUpdate}
    (h : ¬ isPlayerId u.player = true ∨ Level.ofNumber? u.level = none) :
    db.handleUpdate u = .error .badRequest := by
  by_cases hplayer : isPlayerId u.player = true
  · have hlevel := h.resolve_left fun hother => hother hplayer
    simp only [handleUpdate, checkPlayer_eq hplayer, levelOf_eq_error hlevel, bind, Except.bind]
  · simp only [handleUpdate, checkPlayer_eq_error hplayer, bind, Except.bind]

theorem handleSubmission_refused {s : Submission} (h : ¬ isPlayerId s.player = true) :
    db.handleSubmission s = .error .badRequest := by
  simp only [handleSubmission, checkPlayer_eq_error h, bind, Except.bind]

end Database

/-! ### What a client reads -/

namespace Remote

variable (base : String)

/-- A refusal is no answer. -/
theorem readResponse_refusal {α : Type} (codec : Json.Codec α) (what : String) (method : HttpMethod)
    (url : String) (refusal : Refusal) :
    readResponse codec what method url (some refusal.response) =
      .error (.unanswered method.name url) := by
  have hstatus : (decide (400 ≤ refusal.response.status) &&
      decide (refusal.response.status < 600)) = true := by
    cases refusal <;> decide
  simp only [readResponse, hstatus, if_true]

theorem readRegistration_okResponse (player : String) :
    readRegistration base (some (okResponse Registration.codec ⟨true, player⟩)) = .ok () := by
  rw [readRegistration, readResponse_okResponse Registration.lawful_codec]
  rfl

theorem readProgress_okResponse (method : HttpMethod) (e : Endpoint) (report : ProgressReport) :
    readProgress base method e (some (okResponse ProgressReport.codec report)) =
      .ok report.progress := by
  rw [readProgress, readResponse_okResponse ProgressReport.lawful_codec]
  rfl

theorem readVerdict_okResponse (grading : Grading) :
    readVerdict base (some (okResponse Grading.codec grading)) = .ok grading.verdict := by
  rw [readVerdict, readResponse_okResponse Grading.lawful_codec]
  rfl

end Remote

/-! ### Verdicts -/

namespace Grading

theorem nodup_ruleNames : (Rule.all.map Rule.name).Nodup := by decide

/-- A verdict that reports on every rule in order is read back from the message that carries it. -/
theorem verdict_ofVerdict {v : Verdict} (passed : Rule → Bool)
    (h : v.checks = Rule.all.map fun rule => ⟨rule.name, passed rule⟩) :
    (ofVerdict v).verdict = v := by
  have hget : ∀ rule ∈ Rule.all, (ofVerdict v).checks.get? rule.name = some (passed rule) := by
    intro rule hrule
    have hmem : (rule.name, passed rule) ∈
        v.checks.map fun check => (check.name, check.passed) := by
      rw [h, List.map_map]
      exact List.mem_map.2 ⟨rule, hrule, rfl⟩
    refine OrderedMap.get?_ofList_of_mem ?_ hmem
    rw [h, List.map_map, List.map_map]
    exact nodup_ruleNames
  have hchecks : (ofVerdict v).verdict.checks = v.checks := by
    rw [h]
    refine List.map_congr_left fun rule hrule => ?_
    rw [hget rule hrule]
    rfl
  have hverdict : (ofVerdict v).verdict = ⟨v.ok, (ofVerdict v).verdict.checks, v.errors⟩ := rfl
  rw [hverdict, hchecks]

theorem verdict_checkManifest (text : String) :
    (ofVerdict (checkManifest text)).verdict = checkManifest text := by
  unfold checkManifest
  split
  · exact verdict_ofVerdict _ rfl
  · exact verdict_ofVerdict (fun _ => false) rfl

end Grading

end EscapeRoom
