import EscapeRoom.CommandLine.Run
import EscapeRoom.Proofs.Client
import EscapeRoom.Proofs.ManifestLevel
import EscapeRoom.Proofs.VerdictShape
import EscapeRoom.Store.Memory
import EscapeRoom.Store.Unreliable

/-!
# A verdict is about the manifest alone

A check asks a store for its verdict and falls back on its own rules.  Whoever gives the verdict,
and whatever becomes of the requests, it is the verdict of the rules on the manifest: a store that
answers has used the same rules, and the message that carries a verdict is read back whole.

* `ProgressStore.Grades` — stores with the verdict of the rules.
* `CheckReport.IsAbout` — what a report says, up to the progress that was fetched.
* `Remote.grades_store` — a server, at any address and behind any transport.
* `verdict_is_about_manifest` — checks offline, in memory and with a server, and how the command
  ends.
-/

namespace EscapeRoom

/-- A store whose verdicts, if it gives any, are those of the rules. -/
def ProgressStore.Grades {σ : Type} (store : ProgressStore (StateM σ)) : Prop :=
  ∀ player manifest s verdict, (store.validate player manifest s).1 = .ok verdict →
    verdict = checkManifest manifest

/-! ### Stores in memory -/

theorem MemoryStore.grades_store : store.Grades := by
  intro player manifest s verdict h
  simp only [store, answer] at h
  split at h
  · cases h
  · exact (Except.ok.inj h).symm

theorem Unreliable.grades_store {σ : Type} {inner : ProgressStore (StateM σ)} (h : inner.Grades) :
    (store inner).Grades := by
  intro player manifest s verdict hanswer
  simp only [store, attempt] at hanswer
  split at hanswer
  · cases hanswer
  · exact h player manifest s.inner verdict hanswer

/-! ### A server -/

section
variable (db : Database) (base player manifest : String)

theorem Database.handle_update_submission :
    ∃ refusal,
      db.handle (Remote.validateRequest base player manifest) .update = .error refusal := by
  have hmessage : ∃ refusal,
      (Remote.validateRequest base player manifest).message TaskUpdate.codec = .error refusal := by
    rw [Remote.validateRequest, Remote.message_postRequest, TaskUpdate.run_submission]
    split
    · exact ⟨_, rfl⟩
    · exact ⟨_, rfl⟩
  obtain ⟨refusal, hrefusal⟩ := hmessage
  exact ⟨refusal, by simp only [handle, hrefusal, bind, Except.bind]⟩

theorem Database.handle_validate_submission :
    (∃ refusal, db.handle (Remote.validateRequest base player manifest) .validate =
        .error refusal) ∨
      ∃ after mustSave, db.handle (Remote.validateRequest base player manifest) .validate =
        .ok ⟨after, mustSave, okResponse Grading.codec (.ofVerdict (checkManifest manifest))⟩ := by
  have hmessage := Remote.message_postRequest_self base .validate Submission.lawful_codec
    ⟨player, manifest⟩
  rw [← Remote.validateRequest] at hmessage
  split at hmessage
  · exact .inl ⟨.payloadTooLarge, by simp only [handle, hmessage, bind, Except.bind]⟩
  · have hhandle : db.handle (Remote.validateRequest base player manifest) .validate =
        db.handleSubmission ⟨player, manifest⟩ := by
      simp only [handle, hmessage, bind, Except.bind]
    rw [hhandle]
    by_cases hplayer : isPlayerId player = true
    · exact .inr ⟨_, _, db.handleSubmission_eq hplayer⟩
    · exact .inl ⟨_, db.handleSubmission_refused hplayer⟩

/-- Wherever a submission arrives, it is refused or answered with the verdict of the rules. -/
theorem Database.answer_validateRequest :
    (∃ refusal : Refusal, (db.answer (Remote.validateRequest base player manifest)).response =
        refusal.response) ∨
      (db.answer (Remote.validateRequest base player manifest)).response =
        okResponse Grading.codec (.ofVerdict (checkManifest manifest)) := by
  cases hpath : Endpoint.ofPath? (Remote.validateRequest base player manifest).path with
  | none =>
      rw [answer, route, hpath]
      exact .inl ⟨_, rfl⟩
  | some e =>
      cases e with
      | health | welcome | register | progress =>
          rw [answer, route, hpath]
          exact .inl ⟨_, rfl⟩
      | update =>
          obtain ⟨refusal, hrefusal⟩ := db.handle_update_submission base player manifest
          rw [db.answer_of_refused hpath rfl hrefusal]
          exact .inl ⟨refusal, rfl⟩
      | validate =>
          rcases db.handle_validate_submission base player manifest with
            ⟨refusal, hrefusal⟩ | ⟨after, mustSave, haccepted⟩
          · rw [db.answer_of_refused hpath rfl hrefusal]
            exact .inl ⟨refusal, rfl⟩
          · rw [db.answer_of_ok hpath rfl haccepted]
            exact .inr rfl

/-- The headers of a response do not matter. -/
theorem Remote.readVerdict_openToAll (response : HttpResponse) :
    readVerdict base (some (openToAll (response.forMethod .post))) =
      readVerdict base (some response) := rfl

theorem Remote.readVerdict_refusal (refusal : Refusal) :
    readVerdict base (some refusal.response) =
      .error (.unanswered HttpMethod.post.name (address base .validate)) := by
  rw [readVerdict, readResponse_refusal]
  rfl

/-- In a response to a submission a client reads the verdict of the rules, or nothing. -/
theorem Remote.readVerdict_respond {saved : Bool} {verdict : Verdict}
    (h : readVerdict base (some (db.respond saved (validateRequest base player manifest))) =
      .ok verdict) : verdict = checkManifest manifest := by
  have hpost : (validateRequest base player manifest).method ≠ .options := HttpMethod.noConfusion
  have hmethod : (validateRequest base player manifest).method = .post := rfl
  have hrefused : ∀ refusal : Refusal, readVerdict base (some refusal.response) ≠ .ok verdict := by
    intro refusal
    rw [readVerdict_refusal]
    exact fun hread => nomatch hread
  rw [db.respond_eq saved _ hpost, hmethod, readVerdict_openToAll] at h
  by_cases hfailed : ((db.answer (validateRequest base player manifest)).mustSave && !saved) = true
  · rw [if_pos hfailed] at h
    exact absurd h (hrefused .notSaved)
  · rw [if_neg hfailed] at h
    rcases db.answer_validateRequest base player manifest with ⟨refusal, hresponse⟩ | hresponse
    · rw [hresponse] at h
      exact absurd h (hrefused refusal)
    · rw [hresponse, readVerdict_okResponse, Grading.verdict_checkManifest] at h
      exact (Except.ok.inj h).symm

end

theorem Remote.grades_store {σ : Type} {transport : Transport (StateM σ)}
    (h : transport.ReachesServer) (base : String) : (store transport base).Grades := by
  intro player manifest s verdict hanswer
  have hread : readVerdict base (transport (validateRequest base player manifest) s).1 =
      .ok verdict := hanswer
  cases hresponse : (transport (validateRequest base player manifest) s).1 with
  | none =>
      rw [hresponse] at hread
      cases hread
  | some response =>
      obtain ⟨db, saved, hserved⟩ := h (validateRequest base player manifest) s response hresponse
      rw [hresponse, hserved] at hread
      exact readVerdict_respond db base player manifest hread

/-! ### Reports -/

/-- What a report says about a manifest: the verdict of the rules with its checklist, and a level
that is finished by that verdict or by the progress that was fetched. -/
structure CheckReport.IsAbout (r : CheckReport) (manifest : String)
    (fetched : Except StoreError Progress) : Prop where
  verdict : r.verdict = checkManifest manifest
  checklist : r.checklist =
    EscapeRoom.checklist (some (checkManifest manifest)) (checkManifest manifest).ok
  levelComplete : r.levelComplete = true ↔ (checkManifest manifest).ok = true ∨
    ∃ progress, fetched = .ok progress ∧ progress.tasks.isDone Task.validManifest = true

theorem ManifestLevel.isFinishedBy_iff (fetched : Except StoreError Progress) :
    isFinishedBy fetched = true ↔
      ∃ progress, fetched = .ok progress ∧ progress.tasks.isDone Task.validManifest = true := by
  cases fetched with
  | error e => exact ⟨fun h => Bool.noConfusion h, fun ⟨_, h, _⟩ => nomatch h⟩
  | ok progress => exact ⟨fun h => ⟨progress, rfl, h⟩, fun ⟨_, h, hdone⟩ => Except.ok.inj h ▸ hdone⟩

theorem CheckReport.isAbout_of {level : ManifestLevel} (h : level.IsTracked) {manifest : String}
    {fetched : Except StoreError Progress}
    (hfetched : level.isComplete = ManifestLevel.isFinishedBy fetched) (source : VerdictSource) :
    (CheckReport.of level (checkManifest manifest) source).IsAbout manifest fetched where
  verdict := rfl
  checklist := checklist_of level (checkManifest manifest) source
  levelComplete := by
    rw [levelComplete_of level _ source h, hfetched, Bool.or_eq_true, or_comm,
      ManifestLevel.isFinishedBy_iff]

/-- A check with a store that grades. -/
theorem isAbout_runCheckWith {σ : Type} {store : ProgressStore (StateM σ)} (h : store.Grades)
    (player manifest : String) (s : σ) :
    (runCheckWith store player manifest s).1.IsAbout manifest
      (store.fetch player .manifest s).1 := by
  have hdecided : ∀ answer, (∀ verdict, answer = .ok verdict → verdict = checkManifest manifest) →
      (decideVerdict manifest answer).1 = checkManifest manifest := by
    intro answer hanswer
    cases answer with
    | ok verdict => exact hanswer verdict rfl
    | error e => rfl
  rw [runCheckWith_eq]
  dsimp only
  rw [hdecided _ (h player manifest _)]
  exact CheckReport.isAbout_of (ManifestLevel.isTracked_afterFetch _)
    (ManifestLevel.isComplete_afterFetch _) _

/-- A check without a store. -/
theorem isAbout_runCheck_none (player manifest : String) :
    (runCheck (m := Id) none player manifest).IsAbout manifest (.error .unavailable) :=
  CheckReport.isAbout_of ManifestLevel.isTracked_new rfl .own

/-! ### The command -/

namespace CommandLine.Invocation

variable {σ : Type} (inv : Invocation) (machine : Machine (StateM σ))

/-- The store of a command is a server behind the machine's transport. -/
theorem store_of_connection? {s : σ} {c : Connection (StateM σ)}
    (h : (inv.connection? machine s).1 = .ok (some c)) :
    ∃ seconds base, c.store = Remote.store (machine.transport seconds) base := by
  by_cases hoffline : inv.offline = true
  · rw [connection?, if_pos hoffline] at h
    simp only [bind, StateT.bind] at h
    generalize inv.settings machine.disk s = settings at h
    obtain ⟨settings, t⟩ := settings
    cases settings <;> cases h
  · rw [connection?, if_neg hoffline] at h
    simp only [connection, bind, StateT.bind] at h
    generalize inv.settings machine.disk s = settings at h
    obtain ⟨settings, t⟩ := settings
    cases settings with
    | error failure => cases h
    | ok config =>
        simp only [connect, bind, StateT.bind] at h
        generalize PlayerId.load machine.disk machine.newPlayer config.playerIdPath t = loaded at h
        obtain ⟨loaded, u⟩ := loaded
        cases loaded with
        | error fault => cases h
        | ok player =>
            refine ⟨config.timeoutSeconds, config.serverUrl, ?_⟩
            cases h
            rfl

/-- A check ends as the rules say, if there is a manifest and nothing is wrong with the settings. -/
theorem check_eq (hserver : ∀ seconds, (machine.transport seconds).ReachesServer) {path : Path}
    {s : σ} {text : List Char} {c : Option (Connection (StateM σ))}
    (htext : (machine.disk.read path s).1.bind Text.Utf8.decode? = some text)
    (hconnection : (inv.connection? machine (machine.disk.read path s).2).1 = .ok c) :
    ∃ output, (inv.check machine path s).1 =
      .done (if (checkManifest (String.ofList text)).ok then .ok else .notPassed) output "" := by
  have hstores : ∀ connected, c = some connected → connected.store.Grades := by
    rintro connected rfl
    obtain ⟨seconds, base, hstore⟩ := store_of_connection? inv machine hconnection
    rw [hstore]
    exact Remote.grades_store (hserver seconds) base
  simp only [check, bind, StateT.bind]
  generalize machine.disk.read path s = content at htext hconnection
  obtain ⟨content, t⟩ := content
  dsimp only at htext hconnection ⊢
  rw [htext]
  simp only [StateT.bind]
  generalize inv.connection? machine t = connection at hconnection
  obtain ⟨connection, u⟩ := connection
  dsimp only at hconnection
  rw [hconnection]
  cases c with
  | none => exact ⟨_, rfl⟩
  | some connected =>
      have hreport := isAbout_runCheckWith (hstores connected rfl) connected.player
        (String.ofList text) u
      rw [← hreport.verdict]
      exact ⟨_, rfl⟩

end CommandLine.Invocation

open CommandLine in
/-- **A verdict is about the manifest alone.**  The machine's network leads to servers: what comes
back is the answer of a server in some state, and anything may be lost on the way.  A check offline,
with a store in memory of which any requests fail, or with a server at any address reports the
verdict of the rules and its checklist; the level is finished by that verdict or by the progress
that was fetched.  So the command that checks a readable manifest under valid settings ends as the
manifest deserves. -/
theorem verdict_is_about_manifest {σ : Type} (machine : Machine (StateM σ))
    (hserver : ∀ seconds, (machine.transport seconds).ReachesServer) (seconds : UInt64)
    (base player manifest : String) (s : σ) (t : Unreliable MemoryStore) :
    let memory := Unreliable.store MemoryStore.store
    let remote := Remote.store (machine.transport seconds) base
    (runCheck (m := Id) none player manifest).IsAbout manifest (.error .unavailable) ∧
      (runCheck (some memory) player manifest t).1.IsAbout manifest
        (memory.fetch player .manifest t).1 ∧
      (runCheck (some remote) player manifest s).1.IsAbout manifest
        (remote.fetch player .manifest s).1 ∧
      ∀ (inv : Invocation) (path : Path) (text : List Char) (c : Option (Connection (StateM σ))),
        (machine.disk.read path s).1.bind Text.Utf8.decode? = some text →
        (inv.connection? machine (machine.disk.read path s).2).1 = .ok c →
        ∃ output, (inv.check machine path s).1 = .done
          (if (checkManifest (String.ofList text)).ok then .ok else .notPassed) output "" := by
  intro memory remote
  have hmemory : memory.Grades := Unreliable.grades_store MemoryStore.grades_store
  have hremote : remote.Grades := Remote.grades_store (hserver seconds) base
  refine ⟨isAbout_runCheck_none player manifest, isAbout_runCheckWith hmemory player manifest t,
    isAbout_runCheckWith hremote player manifest s, ?_⟩
  intro inv path text c htext hconnection
  exact inv.check_eq machine hserver htext hconnection

/-- A machine with a manifest and a player id on its disk and a network that may lose messages. -/
def CommandLine.Machine.lossy (manifest : String) :
    CommandLine.Machine (StateM (Database × List Delivery)) where
  disk :=
    { isPresent := fun path => return path == ⟨".escape/player_id"⟩
      read := fun path =>
        return some (if path == ⟨".escape/player_id"⟩ then Text.Utf8.encode "ada\n".toList
          else Text.Utf8.encode manifest.toList)
      createDirectories := fun _ => return true
      write := fun _ _ => return .ok ()
      rename := fun _ _ => return true }
  newPlayer := return "ada"
  transport _ := .lossy

/-- What is read from a path that is no path of the player id. -/
theorem CommandLine.Machine.read_lossy (manifest : String) {path : Path}
    (hpath : (path == ⟨".escape/player_id"⟩) = false) (s : Database × List Delivery) :
    ((Machine.lossy manifest).disk.read path s).1.bind Text.Utf8.decode? =
      some manifest.toList := by
  show some (if path == _ then _ else Text.Utf8.encode manifest.toList) >>= Text.Utf8.decode? = _
  rw [hpath]
  exact Text.Utf8.decode?_encode manifest.toList

open CommandLine in
/-- The question for progress is lost, but the server grades the manifest; then the command is
carried out, with everything arriving.  The same with the solution. -/
theorem verdict_is_about_manifest_when_question_is_lost :
    let remote := Remote.store .lossy Config.default.serverUrl
    let lost : Database × List Delivery := (.empty, [.requestLost, .delivered true])
    let inv : Invocation := ⟨Config.defaultPath, none, false, false, .check ⟨"deploy.yaml"⟩⟩
    (∀ manifest seconds, ((Machine.lossy manifest).transport seconds).ReachesServer) ∧
      (runCheck (some remote) "ada" "kind: Pod" lost).1.IsAbout "kind: Pod"
        (remote.fetch "ada" .manifest lost).1 ∧
      (runCheck (some remote) "ada" "kind: Pod" lost).1.source = .remote ∧
      (∃ output, (inv.check (Machine.lossy "kind: Pod") ⟨"deploy.yaml"⟩ (.empty, [])).1 =
        .done .notPassed output "") ∧
      (runCheck (some remote) "ada" passingManifest lost).1.IsAbout passingManifest
        (remote.fetch "ada" .manifest lost).1 ∧
      ∃ output, (inv.check (Machine.lossy passingManifest) ⟨"deploy.yaml"⟩ (.empty, [])).1 =
        .done .ok output "" := by
  have hserver : ∀ manifest seconds, ((Machine.lossy manifest).transport seconds).ReachesServer :=
    fun _ _ => Transport.reachesServer_lossy
  obtain ⟨-, -, hreport, -⟩ := verdict_is_about_manifest (Machine.lossy "kind: Pod") (hserver _) 15
    Config.default.serverUrl "ada" "kind: Pod" (.empty, [.requestLost, .delivered true])
    ⟨.new, [.validate]⟩
  obtain ⟨-, -, hsolved, -⟩ := verdict_is_about_manifest (Machine.lossy passingManifest) (hserver _)
    15 Config.default.serverUrl "ada" passingManifest (.empty, [.requestLost, .delivered true])
    ⟨.new, [.validate]⟩
  have hends : ∀ manifest, ∃ output, ((⟨Config.defaultPath, none, false, false,
      .check ⟨"deploy.yaml"⟩⟩ : Invocation).check (Machine.lossy manifest) ⟨"deploy.yaml"⟩
        (.empty, [])).1 =
      .done (if (checkManifest manifest).ok then .ok else .notPassed) output "" := by
    intro manifest
    obtain ⟨-, -, -, hend⟩ := verdict_is_about_manifest (Machine.lossy manifest) (hserver _) 15
      Config.default.serverUrl "ada" manifest (.empty, []) ⟨.new, [.validate]⟩
    obtain ⟨output, houtput⟩ := hend
      ⟨Config.defaultPath, none, false, false, .check ⟨"deploy.yaml"⟩⟩ ⟨"deploy.yaml"⟩
      manifest.toList (some ⟨Remote.store .lossy Config.default.serverUrl, "ada"⟩)
      (Machine.read_lossy manifest (by decide) _) (by rfl)
    rw [String.ofList_toList] at houtput
    exact ⟨output, houtput⟩
  have hfails : (checkManifest "kind: Pod").ok = false := by decide +kernel
  obtain ⟨failed, hfailed⟩ := hends "kind: Pod"
  obtain ⟨passed, hpassed⟩ := hends passingManifest
  rw [hfails] at hfailed
  rw [ok_checkManifest_passingManifest] at hpassed
  exact ⟨hserver, hreport, by decide +kernel, ⟨failed, hfailed⟩, hsolved, passed, hpassed⟩

end EscapeRoom
