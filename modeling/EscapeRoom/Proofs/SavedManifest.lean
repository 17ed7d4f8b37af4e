import EscapeRoom.Proofs.Client
import EscapeRoom.Proofs.ManifestLevel
import EscapeRoom.Proofs.VerdictShape

/-!
# The manifest that is kept

Of all the manifests that a player submits, the server keeps the text of the last one that passed.
It is part of the record of the manifest level and of no other.

* `HttpRequest.passing?` — the manifest that a request submits for a player, if it passes.
* `Database.savedManifest?_run` — what is kept after a run of requests.
* `Database.ManifestsPass` — whatever is kept passes, and its level is finished.
* `isBlankText_of_passes` — no text of blanks passes.
* `Database.saved_manifest_is_last_passing` — what the player gets back.
-/

namespace EscapeRoom

/-! ### Manifests in requests -/

/-- The manifest that a request submits for a player, if the server accepts the id and the manifest
passes. -/
def HttpRequest.passing? (r : HttpRequest) (player : String) : Option String :=
  if Endpoint.ofPath? r.path = some .validate ∧ r.method = .post then
    ((r.message Submission.codec).toOption.filter fun s =>
      s.player == player && isPlayerId s.player && (checkManifest s.manifest).ok).map
        Submission.manifest
  else none

/-- The manifest that a change keeps for a player. -/
def Change.manifestFor? (player : String) : Change → Option String
  | manifest q text => if q = player then some text else none
  | _ => none

theorem Endpoint.change?_eq_manifest {e : Endpoint} {r : HttpRequest} {player text : String}
    (h : e.change? r = some (.manifest player text)) :
    e = .validate ∧ (checkManifest text).ok = true := by
  cases e with
  | health | welcome | progress =>
      simp only [change?] at h
      cases h
  | register =>
      simp only [change?] at h
      obtain ⟨q, -, hq⟩ := Option.map_eq_some_iff.1 h
      cases hq
  | update =>
      simp only [change?] at h
      obtain ⟨u, -, hu⟩ := Option.bind_eq_some_iff.1 h
      obtain ⟨level, -, hlevel⟩ := Option.map_eq_some_iff.1 hu
      cases hlevel
  | validate =>
      simp only [change?] at h
      obtain ⟨s, -, hs⟩ := Option.bind_eq_some_iff.1 h
      by_cases hpasses : (checkManifest s.manifest).ok = true
      · rw [if_pos hpasses] at hs
        cases hs
        exact ⟨rfl, hpasses⟩
      · rw [if_neg hpasses] at hs
        cases hs

/-- A manifest is granted to an accepted player when it passes. -/
theorem HttpRequest.granted?_eq_manifest {r : HttpRequest} {player text : String}
    (h : r.granted? = some (.manifest player text)) :
    Endpoint.ofPath? r.path = some .validate ∧ isPlayerId player = true ∧
      (checkManifest text).ok = true := by
  obtain ⟨e, hpath, hgranted⟩ := Option.bind_eq_some_iff.1 h
  split at hgranted
  · obtain ⟨hchange, hplayer⟩ := Option.filter_eq_some_iff.1 hgranted
    obtain ⟨rfl, hpasses⟩ := Endpoint.change?_eq_manifest hchange
    exact ⟨hpath, hplayer, hpasses⟩
  · cases hgranted

theorem Endpoint.manifestFor?_validate (r : HttpRequest) (player : String) :
    (Endpoint.validate.granted? r).bind (Change.manifestFor? player) =
      ((r.message Submission.codec).toOption.filter fun s =>
        s.player == player && isPlayerId s.player && (checkManifest s.manifest).ok).map
          Submission.manifest := by
  rw [granted?, change?]
  cases r.message Submission.codec with
  | error refusal => rfl
  | ok s =>
      show (((if (checkManifest s.manifest).ok = true then _ else none).filter _).bind _) =
        ((some s).filter _).map _
      by_cases hpasses : (checkManifest s.manifest).ok = true
      · rw [if_pos hpasses, Option.filter_some, Option.filter_some, hpasses, Bool.and_true]
        by_cases hid : isPlayerId s.player = true
        · by_cases hplayer : s.player = player
          · subst hplayer
            simp [Change.player, Change.manifestFor?, hid]
          · simp [Change.player, Change.manifestFor?, hid, hplayer]
        · simp [Change.player, hid]
      · simp [hpasses]

/-- The manifests that pass are the manifests that are granted. -/
theorem HttpRequest.passing?_eq (r : HttpRequest) (player : String) :
    r.passing? player = r.granted?.bind (Change.manifestFor? player) := by
  rw [passing?, granted?]
  cases hpath : Endpoint.ofPath? r.path with
  | none => rfl
  | some e =>
      rw [Option.bind_some]
      by_cases he : e = .validate
      · subst he
        by_cases hmethod : r.method = .post
        · have haccepts : Endpoint.validate.accepts r.method = true := by
            rw [hmethod]
            rfl
          rw [if_pos ⟨rfl, hmethod⟩, if_pos haccepts, Endpoint.manifestFor?_validate]
        · have haccepts : ¬ Endpoint.validate.accepts r.method = true := by
            simpa [Endpoint.accepts, Endpoint.takesBody] using hmethod
          rw [if_neg fun h => hmethod h.2, if_neg haccepts]
          rfl
      · rw [if_neg fun h => he (Option.some.inj h.1)]
        refine (Option.bind_eq_none_iff.2 fun change hchange => ?_).symm
        split at hchange
        · cases change with
          | registration | flag => rfl
          | manifest q text =>
              -- only submissions keep manifests
              have happlied := (Option.filter_eq_some_iff.1 hchange).1
              exact absurd (Endpoint.change?_eq_manifest happlied).1 he
        · cases hchange

/-- The manifest that a client submits, if the request is not too long. -/
theorem Remote.passing?_validateRequest {base player manifest : String} (hbase : IsOrigin base)
    (hshort : (validateRequest base player manifest).body.length ≤ bodyLimit)
    (hplayer : isPlayerId player = true) (hpasses : (checkManifest manifest).ok = true) :
    (validateRequest base player manifest).passing? player = some manifest := by
  have hpath : Endpoint.ofPath? (validateRequest base player manifest).path = some .validate := by
    rw [validateRequest, path_postRequest hbase, Endpoint.ofPath?_path]
  have hmessage : (validateRequest base player manifest).message Submission.codec =
      .ok ⟨player, manifest⟩ := by
    rw [validateRequest, message_postRequest_self base .validate Submission.lawful_codec]
    exact if_neg (Nat.not_lt.2 hshort)
  rw [HttpRequest.passing?, if_pos ⟨hpath, rfl⟩, hmessage]
  simp [Except.toOption, Option.filter, hplayer, hpasses]

/-- How long a submission gets at most. -/
theorem Remote.length_validateRequest_le (base player manifest : String) :
    (validateRequest base player manifest).body.length ≤
      4 * (6 * (player.toList.length + manifest.toList.length) + 29) := by
  have htext : (Submission.codec.encode ⟨player, manifest⟩).compact =
      '\x7b' :: ((Json.quoted "playerId" ++ ':' :: Json.quoted player) ++ [','] ++
        (Json.quoted "manifest" ++ ':' :: Json.quoted manifest)) ++ ['\x7d'] := rfl
  have hplayer := Json.length_quoted_le player
  have hmanifest := Json.length_quoted_le manifest
  have hnames : (Json.quoted "playerId").length = 10 ∧ (Json.quoted "manifest").length = 10 := by
    decide
  have hlength := Text.Utf8.length_encode_le (Submission.codec.encode ⟨player, manifest⟩).compact
  refine Nat.le_trans hlength (Nat.mul_le_mul_left 4 ?_)
  rw [htext]
  simp only [List.length_append, List.length_cons, List.length_nil, hnames]
  omega

/-- A manifest is submitted alike with one more member in front, whatever octets it holds. -/
theorem HttpRequest.passing?_noted {r : HttpRequest} {submission : Submission} {name : String}
    {octets : List UInt8}
    (hbody : r.body = Text.Utf8.encode (Submission.codec.encode submission).compact)
    (hunknown : Submission.fields.knows name = false) (hplain : ∀ b ∈ octets, Json.IsPlain b)
    (hshort : (r.noted name octets).body.length ≤ bodyLimit) (player : String) :
    (r.noted name octets).passing? player = r.passing? player := by
  have hmessage : (r.noted name octets).message Submission.codec = r.message Submission.codec :=
    message_noted Submission.lawful_fields (List.cons_ne_nil _ _) hunknown hplain hbody hshort
  rw [passing?, passing?, hmessage]
  rfl

/-! ### Manifests in databases -/

namespace Database

/-- The manifest in the record of a player and a level. -/
def savedManifest? (db : Database) (player : String) (level : Level) : Option String :=
  (db.record? player level).bind LevelRecord.manifest

section
variable (db : Database) (player : String) (level : Level)

theorem savedManifest?_eq :
    db.savedManifest? player level = ((db.record? player level).getD .empty).manifest := by
  rw [savedManifest?]
  cases db.record? player level <;> rfl

theorem manifest_progress :
    (db.progress player level).manifest = db.savedManifest? player level :=
  (db.savedManifest?_eq player level).symm

theorem savedManifest?_modifyRecord (q : String) (m : Level) (f : LevelRecord → LevelRecord) :
    (db.modifyRecord player level f).savedManifest? q m =
      if m = level ∧ q = player then (f ((db.record? player level).getD .empty)).manifest
      else db.savedManifest? q m := by
  rw [savedManifest?, record?_modifyRecord]
  split <;> rfl

/-- Raising a flag leaves the manifests alone. -/
theorem savedManifest?_update (signal : TaskSignal) (q : String) (m : Level) :
    (db.update player level signal).savedManifest? q m = db.savedManifest? q m := by
  rw [update, savedManifest?_modifyRecord]
  split
  · next h => rw [h.1, h.2, savedManifest?_eq]
  · rfl

theorem savedManifest?_recordManifest (text q : String) (m : Level) :
    (db.recordManifest player text).savedManifest? q m =
      if m = .manifest ∧ q = player then some text else db.savedManifest? q m := by
  rw [recordManifest, savedManifest?_modifyRecord]

/-- What was done stays done. -/
theorem isDone_tasks_apply {task : String} (change : Change)
    (h : (db.tasks player level).isDone task = true) :
    ((change.apply db).tasks player level).isDone task = true := by
  have hset : ∀ (q added : String) (m : Level) (completed : Bool) (f : LevelRecord → LevelRecord),
      (∀ r, (f r).tasks = r.tasks.set added completed) →
        ((db.modifyRecord q m f).tasks player level).isDone task = true := by
    intro q added m completed f hf
    rw [tasks, record?_modifyRecord]
    split
    · next hm =>
        rw [Option.getD_some, hf, TaskState.isDone_set, ← hm.1, ← hm.2]
        exact Bool.or_eq_true_iff.2 (.inl h)
    · exact h
  cases change with
  | registration q => exact h
  | flag q m signal => exact hset q signal.task m signal.completed _ fun _ => rfl
  | manifest q text => exact hset q Task.validManifest .manifest true _ fun _ => rfl

end

/-! ### One request -/

/-- A request that passes replaces the manifest. -/
theorem savedManifest?_after (db : Database) (r : HttpRequest) (player : String) :
    (db.after r).savedManifest? player .manifest =
      (r.passing? player).or (db.savedManifest? player .manifest) := by
  rw [after_eq, HttpRequest.passing?_eq]
  cases r.granted? with
  | none => rfl
  | some change =>
      rw [Option.bind_some]
      cases change with
      | registration q => rfl
      | flag q level signal => exact db.savedManifest?_update q level signal player .manifest
      | manifest q text =>
          show (db.recordManifest q text).savedManifest? player .manifest = _
          rw [savedManifest?_recordManifest, Change.manifestFor?]
          by_cases hplayer : q = player
          · rw [if_pos ⟨rfl, hplayer.symm⟩, if_pos hplayer]
            rfl
          · rw [if_neg fun h => hplayer h.2.symm, if_neg hplayer]
            rfl

/-- Whatever is kept passes, belongs to an accepted player, and finishes the manifest level. -/
structure ManifestsPass (db : Database) : Prop where
  docker (player : String) : db.savedManifest? player .docker = none
  isPlayerId {player text : String} (h : db.savedManifest? player .manifest = some text) :
    isPlayerId player = true
  passes {player text : String} (h : db.savedManifest? player .manifest = some text) :
    (checkManifest text).ok = true
  done {player text : String} (h : db.savedManifest? player .manifest = some text) :
    (db.tasks player .manifest).isDone Task.validManifest = true

namespace ManifestsPass

theorem empty : Database.empty.ManifestsPass where
  docker _ := rfl
  isPlayerId h := nomatch h
  passes h := nomatch h
  done h := nomatch h

variable {db : Database} (h : db.ManifestsPass)
include h

theorem update (player : String) (level : Level) (signal : TaskSignal) :
    (db.update player level signal).ManifestsPass where
  docker q := by rw [savedManifest?_update, h.docker]
  isPlayerId hsaved := h.isPlayerId (by rwa [savedManifest?_update] at hsaved)
  passes hsaved := h.passes (by rwa [savedManifest?_update] at hsaved)
  done hsaved := by
    rw [savedManifest?_update] at hsaved
    exact db.isDone_tasks_apply _ _ (.flag player level signal) (h.done hsaved)

theorem recordManifest {player text : String} (hplayer : EscapeRoom.isPlayerId player = true)
    (hpasses : (checkManifest text).ok = true) : (db.recordManifest player text).ManifestsPass := by
  -- the manifest of a player is the new one or was there before
  have hcases : ∀ {q saved : String},
      (db.recordManifest player text).savedManifest? q .manifest = some saved →
        (q = player ∧ saved = text) ∨ db.savedManifest? q .manifest = some saved := by
    intro q saved hsaved
    rw [savedManifest?_recordManifest] at hsaved
    by_cases hq : q = player
    · rw [if_pos ⟨rfl, hq⟩] at hsaved
      exact .inl ⟨hq, (Option.some.inj hsaved).symm⟩
    · rw [if_neg fun h => hq h.2] at hsaved
      exact .inr hsaved
  constructor
  · intro q
    rw [savedManifest?_recordManifest, if_neg fun h => Level.noConfusion h.1, h.docker]
  · intro q saved hsaved
    rcases hcases hsaved with ⟨rfl, -⟩ | hbefore
    · exact hplayer
    · exact h.isPlayerId hbefore
  · intro q saved hsaved
    rcases hcases hsaved with ⟨-, rfl⟩ | hbefore
    · exact hpasses
    · exact h.passes hbefore
  · intro q saved hsaved
    rcases hcases hsaved with ⟨rfl, -⟩ | hbefore
    · exact (Change.isIn_apply db (.manifest q text)).2
    · exact db.isDone_tasks_apply _ _ (.manifest player text) (h.done hbefore)

/-- Every request keeps it so. -/
theorem after (r : HttpRequest) : (db.after r).ManifestsPass := by
  rw [after_eq]
  cases hgranted : r.granted? with
  | none => exact h
  | some change =>
      cases change with
      | registration q => exact ⟨h.docker, h.isPlayerId, h.passes, h.done⟩
      | flag q level signal => exact h.update q level signal
      | manifest q text =>
          obtain ⟨-, hplayer, hpasses⟩ := HttpRequest.granted?_eq_manifest hgranted
          exact h.recordManifest hplayer hpasses

end ManifestsPass

/-! ### Runs -/

theorem savedManifest?_run (requests : List HttpRequest) (db : Database) (player : String) :
    (requests.foldl after db).savedManifest? player .manifest =
      (requests.filterMap (·.passing? player)).getLast?.or (db.savedManifest? player .manifest) :=
  keeps_last_write (fun db : Database => db.savedManifest? player .manifest)
    (HttpRequest.passing? · player) (P := fun _ => True) (fun _ _ => id)
    (fun db r _ => db.savedManifest?_after r player) requests trivial

theorem ManifestsPass.run (requests : List HttpRequest) {db : Database} (h : db.ManifestsPass) :
    (requests.foldl Database.after db).ManifestsPass := by
  induction requests generalizing db with
  | nil => exact h
  | cons r rest ih => exact ih (h.after r)

end Database

/-! ### Blank texts -/

theorem Manifest.isBlankDocument_of_isBlankText {text : String} (h : Text.isBlankText text = true) :
    isBlankDocument text = true := by
  refine List.all_eq_true.2 fun line hline => ?_
  have hblank : ∀ c ∈ line, Text.isBlank c = true := fun c hc =>
    List.all_eq_true.1 h c (Text.mem_of_mem_lines hline hc)
  have hleft : Text.trimLeft line = [] := List.dropWhile_eq_nil_iff.2 hblank
  rw [isBlankLine, Text.trim, hleft]
  rfl

/-- A text of blanks is an empty manifest, of which hardly any rule holds. -/
theorem isBlankText_of_passes {text : String} (h : (checkManifest text).ok = true) :
    Text.isBlankText text = false := by
  by_contra hblank
  have hempty : Manifest.ofText text = .ok .empty :=
    if_pos (Manifest.isBlankDocument_of_isBlankText (Bool.eq_true_of_not_eq_false hblank))
  rw [checkManifest, hempty] at h
  exact absurd h (by decide)

/-! ### What the player gets back -/

namespace Database

theorem fetchSavedManifest_toServer {σ : Type} (save : Database → StateM σ Bool) {db : Database}
    (s : σ) (h : db.ManifestsPass) {base : String} (hbase : Remote.IsOrigin base)
    (player : String) :
    (fetchSavedManifest (Remote.store (.toServer save) base) player (db, s)).1 =
      if isPlayerId player then .ok (db.savedManifest? player .manifest)
      else .error (.unanswered "GET" (Remote.address base .progress)) := by
  rw [fetchSavedManifest_eq, Remote.fetch_toServer save db s hbase]
  split
  · have hkept : (db.savedManifest? player .manifest).filter (fun text => !Text.isBlankText text) =
        db.savedManifest? player .manifest := by
      cases hsaved : db.savedManifest? player .manifest with
      | none => rfl
      | some text => rw [Option.filter_some, isBlankText_of_passes (h.passes hsaved)]; rfl
    have hload := ManifestLevel.savedManifest_load_new (db.progress player .manifest)
    rw [manifest_progress, hkept] at hload
    exact congrArg Except.ok hload
  · rfl

/-- The solution is not too long to be submitted, be it next to an octet that is no text. -/
theorem length_noted_solution (base : String) :
    ((Remote.validateRequest base "bob" passingManifest).noted "note" [0xFF]).body.length ≤
      bodyLimit := by
  have hbody := Remote.length_validateRequest_le base "bob" passingManifest
  have hnoted := Json.length_noted_le "note" [0xFF]
    (Remote.validateRequest base "bob" passingManifest).body
  have hsolution : passingManifest.toList.length ≤ 2000 := by
    rw [passingManifest, Text.toList_unlines]
    decide +kernel
  have hplayer : "bob".toList.length = 3 := by decide
  have hname : (Json.quoted "note").length = 6 := by decide
  have hoctets : [(0xFF : UInt8)].length = 1 := rfl
  show (Json.noted "note" [0xFF] (Remote.validateRequest base "bob" passingManifest).body).length ≤
    2097152
  omega

/-- The solution is kept although an octet that is no text stands next to it. -/
theorem passing?_noted_solution {base : String} (hbase : Remote.IsOrigin base) :
    ((Remote.validateRequest base "bob" passingManifest).noted "note" [0xFF]).passing? "bob" =
      some passingManifest := by
  have hlength := length_noted_solution base
  have hlonger := Json.length_le_noted "note" [0xFF]
    (Remote.validateRequest base "bob" passingManifest).body
  have hbody : (Remote.validateRequest base "bob" passingManifest).body =
      Text.Utf8.encode (Submission.codec.encode ⟨"bob", passingManifest⟩).compact := rfl
  rw [HttpRequest.passing?_noted hbody rfl (by decide +kernel) hlength]
  exact Remote.passing?_validateRequest hbase (Nat.le_trans hlonger hlength) (by decide)
    ok_checkManifest_passingManifest

end Database

end EscapeRoom
