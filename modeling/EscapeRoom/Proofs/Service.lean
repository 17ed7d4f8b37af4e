import EscapeRoom.Proofs.Acknowledgement

/-!
# What the server does with any request

Whether a save works decides only what the client is told: the database is the same afterwards.  It
changes when a request asks to keep something for a player id that the server accepts, and then it
has exactly that change.

* `Database.respond`, `Database.after`, `serve_cases` — the response to a request, given whether a
  save works, and the database after it.
* `serve_noted`, `serve_noted_update`, `serve_noted_submission` — requests with one more member, of
  any octets.
* `Database.Handling`, `Database.answer_cases` — everything that can come of a request.
* `HttpRequest.granted?`, `Database.after_eq` — the change that a request makes.
* `HttpResponse.Carries`, `Database.report_of_carries` — which progress a response can report.
* `serveAll`, `database_serveAll`, `responses_serveAll` — runs of requests.
-/

namespace EscapeRoom

open Json (Codec Fields)

/-! ### One request -/

/-- The response to a request when saving works or does not. -/
def Database.respond (db : Database) (saved : Bool) (r : HttpRequest) : HttpResponse :=
  (serve (m := Id) (fun _ => saved) db r).1

/-- The database after a request. -/
def Database.after (db : Database) (r : HttpRequest) : Database :=
  (serve (m := Id) (fun _ => true) db r).2

section
variable (db : Database) (saved : Bool) (r : HttpRequest)

theorem Database.respond_options (h : r.method = .options) :
    db.respond saved r = openToAll preflight := by
  rw [respond, serve, if_pos h]
  rfl

theorem Database.respond_eq (h : r.method ≠ .options) :
    db.respond saved r =
      openToAll ((if (db.answer r).mustSave && !saved then Refusal.notSaved.response
        else (db.answer r).response).forMethod r.method) := by
  rw [respond, serve, if_neg h]
  cases hsave : (db.answer r).mustSave with
  | false =>
      simp only [hsave, Bool.false_eq_true, if_false, Bool.false_and]
      rfl
  | true =>
      cases saved <;>
        · simp only [hsave, if_true]
          rfl

theorem Database.after_options (h : r.method = .options) : db.after r = db := by
  rw [after, serve, if_pos h]
  rfl

theorem Database.after_answer (h : r.method ≠ .options) : db.after r = (db.answer r).database := by
  rw [after, serve, if_neg h]
  cases hsave : (db.answer r).mustSave <;>
    · simp only [hsave, Bool.false_eq_true, if_true, if_false]
      rfl

/-- However databases are saved, a request is answered like this; only a save that fails shows. -/
theorem serve_cases {σ : Type} (save : Database → StateM σ Bool) (s : σ) :
    ∃ saved t, serve save db r s = ((db.respond saved r, db.after r), t) ∧
      ((save (db.answer r).database s).1 = true → saved = true) := by
  by_cases hoptions : r.method = .options
  · refine ⟨true, s, ?_, fun _ => rfl⟩
    rw [db.respond_options true r hoptions, db.after_options r hoptions, serve, if_pos hoptions]
    rfl
  · cases hsave : (db.answer r).mustSave with
    | false =>
        refine ⟨true, s, ?_, fun _ => rfl⟩
        rw [db.respond_eq true r hoptions, db.after_answer r hoptions, serve, if_neg hoptions]
        simp only [hsave, Bool.false_eq_true, if_false, Bool.false_and]
        rfl
    | true =>
        obtain ⟨saved, t, ht⟩ : ∃ saved t, save (db.answer r).database s = (saved, t) := ⟨_, _, rfl⟩
        refine ⟨saved, t, ?_, fun hsaved => by rwa [ht] at hsaved⟩
        rw [db.respond_eq saved r hoptions, db.after_answer r hoptions, serve, if_neg hoptions]
        simp only [hsave, if_true, bind, StateT.bind, ht]
        cases saved <;> rfl

theorem serve_eq {σ : Type} (save : Database → StateM σ Bool) (s : σ) :
    ∃ saved t, serve save db r s = ((db.respond saved r, db.after r), t) := by
  obtain ⟨saved, t, hserve, -⟩ := serve_cases db r save s
  exact ⟨saved, t, hserve⟩

end

/-! ### Octets that are no text -/

section
variable {db : Database} {r : HttpRequest} {name : String} {octets : List UInt8}

/-- At an endpoint that looks at nothing but the message, a request is served alike with one more
member in front, whatever octets it holds. -/
theorem serve_noted {σ τ α : Type} (save : Database → StateM σ Bool) {f : Fields τ α}
    (hf : f.Lawful) {a : α} (hsome : f.members a ≠ []) (hunknown : f.knows name = false)
    (hplain : ∀ b ∈ octets, Json.IsPlain b) {e : Endpoint}
    (hpath : Endpoint.ofPath? r.path = some e)
    (hbody : r.body = Text.Utf8.encode ((Codec.record f).encode a).compact)
    (hshort : (r.noted name octets).body.length ≤ bodyLimit)
    (hhandle : ∀ r' : HttpRequest, r'.message (.record f) = r.message (.record f) →
      db.handle r' e = db.handle r e) :
    serve save db (r.noted name octets) = serve save db r := by
  have hpath' : Endpoint.ofPath? (r.noted name octets).path = some e := hpath
  have hsame := hhandle (r.noted name octets)
    (HttpRequest.message_noted hf hsome hunknown hplain hbody hshort)
  have hanswer : db.answer (r.noted name octets) = db.answer r := by
    rw [Database.answer, Database.answer, Database.route, Database.route, hpath, hpath']
    simp only [hsame]
    rfl
  rw [serve, serve, hanswer]
  rfl

/-- **An update is served alike with one more member in front, whatever octets it holds.** -/
theorem serve_noted_update {σ : Type} (save : Database → StateM σ Bool) {u : TaskUpdate}
    (hunknown : TaskUpdate.fields.knows name = false) (hplain : ∀ b ∈ octets, Json.IsPlain b)
    (hpath : Endpoint.ofPath? r.path = some .update)
    (hbody : r.body = Text.Utf8.encode (TaskUpdate.codec.encode u).compact)
    (hshort : (r.noted name octets).body.length ≤ bodyLimit) :
    serve save db (r.noted name octets) = serve save db r := by
  refine serve_noted save TaskUpdate.lawful_fields (List.cons_ne_nil _ _) hunknown hplain hpath
    hbody hshort fun r' (hmessage : r'.message TaskUpdate.codec = r.message TaskUpdate.codec) => ?_
  rw [Database.handle, Database.handle, hmessage]

/-- **A submission is served alike with one more member in front, whatever octets it holds.** -/
theorem serve_noted_submission {σ : Type} (save : Database → StateM σ Bool)
    {submission : Submission} (hunknown : Submission.fields.knows name = false)
    (hplain : ∀ b ∈ octets, Json.IsPlain b) (hpath : Endpoint.ofPath? r.path = some .validate)
    (hbody : r.body = Text.Utf8.encode (Submission.codec.encode submission).compact)
    (hshort : (r.noted name octets).body.length ≤ bodyLimit) :
    serve save db (r.noted name octets) = serve save db r := by
  refine serve_noted save Submission.lawful_fields (List.cons_ne_nil _ _) hunknown hplain hpath
    hbody hshort fun r' (hmessage : r'.message Submission.codec = r.message Submission.codec) => ?_
  rw [Database.handle, Database.handle, hmessage]

end

/-! ### What comes of a request -/

/-- The player for whom something is to be kept. -/
def Change.player : Change → String
  | registration player => player
  | flag player _ _ => player
  | manifest player _ => player

/-- What a request to an endpoint makes the server keep: what it asks for, if the player id is
accepted. -/
def Endpoint.granted? (r : HttpRequest) (e : Endpoint) : Option Change :=
  (e.change? r).filter fun change => isPlayerId change.player

/-- What a request makes the server keep. -/
def HttpRequest.granted? (r : HttpRequest) : Option Change :=
  (Endpoint.ofPath? r.path).bind fun e => if e.accepts r.method then e.granted? r else none

theorem Endpoint.granted?_of_change {r : HttpRequest} {e : Endpoint} {change : Change}
    (h : e.change? r = some change) :
    e.granted? r = if isPlayerId change.player then some change else none := by
  rw [granted?, h, Option.filter_some]

theorem Endpoint.granted?_of_none {r : HttpRequest} {e : Endpoint} (h : e.change? r = none) :
    e.granted? r = none := by
  rw [granted?, h]
  rfl

namespace Database

/-- Everything that can come of a request at an endpoint. -/
inductive Handling (db : Database) (r : HttpRequest) : Endpoint → Except Refusal Handled → Prop
  | refused {e : Endpoint} (refusal : Refusal) (h : e.granted? r = none) :
      Handling db r e (.error refusal)
  | healthy : Handling db r .health (.ok (db.reply (okResponse Health.codec ⟨"ok"⟩)))
  | greeted :
      Handling db r .welcome (.ok (db.reply (okResponse Welcome.codec ⟨welcomeMessage⟩)))
  | registered {player : String}
      (h : Endpoint.register.granted? r = some (.registration player)) :
      Handling db r .register (.ok ⟨db.register player, !db.isRegistered player,
        okResponse Registration.codec ⟨true, player⟩⟩)
  | shown (player : String) (level : Level) :
      Handling db r .progress
        (.ok (db.reply (okResponse ProgressReport.codec (db.report player level))))
  | updated {player : String} {level : Level} {signal : TaskSignal}
      (h : Endpoint.update.granted? r = some (.flag player level signal)) :
      Handling db r .update (.ok ⟨db.update player level signal, true,
        okResponse ProgressReport.codec ((db.update player level signal).report player level)⟩)
  | accepted {player text : String} (hpasses : (checkManifest text).ok = true)
      (h : Endpoint.validate.granted? r = some (.manifest player text)) :
      Handling db r .validate (.ok ⟨db.recordManifest player text, true,
        okResponse Grading.codec (.ofVerdict (checkManifest text))⟩)
  | failed (verdict : Verdict) (h : Endpoint.validate.granted? r = none) :
      Handling db r .validate (.ok (db.reply (okResponse Grading.codec (.ofVerdict verdict))))

section
variable (db : Database) (r : HttpRequest)

theorem handling_register {player : String} (hquery : r.queryValue "playerId" = .ok player) :
    db.Handling r .register (db.handleRegister player) := by
  have hchange : Endpoint.register.change? r = some (.registration player) := by
    simp only [Endpoint.change?, hquery]
    rfl
  have hgranted := Endpoint.granted?_of_change hchange
  by_cases h : isPlayerId player = true
  · rw [db.handleRegister_eq player h]
    exact .registered (hgranted.trans (if_pos h))
  · rw [db.handleRegister_refused h]
    exact .refused _ (hgranted.trans (if_neg h))

theorem handling_progress (q : ProgressQuery) :
    db.Handling r .progress (db.handleProgress q) := by
  by_cases h : isPlayerId q.player = true ∧ ∃ level, Level.ofNumber? q.level = some level
  · obtain ⟨hplayer, level, hlevel⟩ := h
    rw [db.handleProgress_eq hplayer hlevel]
    exact .shown q.player level
  · rw [not_and_or, not_exists] at h
    rw [db.handleProgress_refused (h.imp_right Option.eq_none_iff_forall_ne_some.2)]
    exact .refused _ rfl

theorem handling_update {u : TaskUpdate} (hmessage : r.message TaskUpdate.codec = .ok u) :
    db.Handling r .update (db.handleUpdate u) := by
  have hchange : Endpoint.update.change? r =
      (Level.ofNumber? u.level).map fun level => .flag u.player level ⟨u.task, u.completed⟩ := by
    simp only [Endpoint.change?, hmessage]
    rfl
  cases hlevel : Level.ofNumber? u.level with
  | none =>
      rw [hlevel] at hchange
      rw [db.handleUpdate_refused (.inr hlevel)]
      exact .refused _ (Endpoint.granted?_of_none hchange)
  | some level =>
      rw [hlevel, Option.map_some] at hchange
      have hgranted := Endpoint.granted?_of_change hchange
      by_cases h : isPlayerId u.player = true
      · rw [db.handleUpdate_eq h hlevel]
        exact .updated (hgranted.trans (if_pos h))
      · rw [db.handleUpdate_refused (.inl h)]
        exact .refused _ (hgranted.trans (if_neg h))

theorem handling_validate {s : Submission} (hmessage : r.message Submission.codec = .ok s) :
    db.Handling r .validate (db.handleSubmission s) := by
  have hchange : Endpoint.validate.change? r =
      if (checkManifest s.manifest).ok then some (.manifest s.player s.manifest) else none := by
    simp only [Endpoint.change?, hmessage]
    rfl
  by_cases hpasses : (checkManifest s.manifest).ok = true
  · rw [if_pos hpasses] at hchange
    have hgranted := Endpoint.granted?_of_change hchange
    by_cases h : isPlayerId s.player = true
    · rw [db.handleSubmission_eq h, if_pos hpasses, hpasses]
      exact .accepted hpasses (hgranted.trans (if_pos h))
    · rw [db.handleSubmission_refused h]
      exact .refused _ (hgranted.trans (if_neg h))
  · rw [if_neg hpasses] at hchange
    have hgranted := Endpoint.granted?_of_none hchange
    by_cases h : isPlayerId s.player = true
    · rw [db.handleSubmission_eq h, if_neg hpasses, Bool.eq_false_iff.2 hpasses]
      exact .failed _ hgranted
    · rw [db.handleSubmission_refused h]
      exact .refused _ hgranted

/-- A request whose query or body cannot be read asks for nothing and is refused. -/
theorem handling_of_read {α : Type} {e : Endpoint} {input : Except Refusal α}
    {handler : α → Except Refusal Handled} (hhandle : db.handle r e = input >>= handler)
    (hunread : ∀ refusal, input = .error refusal → e.change? r = none)
    (hread : ∀ a, input = .ok a → db.Handling r e (handler a)) :
    db.Handling r e (db.handle r e) := by
  rw [hhandle]
  cases input with
  | error refusal => exact .refused refusal (Endpoint.granted?_of_none (hunread refusal rfl))
  | ok a => exact hread a rfl

/-- The list of outcomes is complete. -/
theorem handling_handle (e : Endpoint) : db.Handling r e (db.handle r e) := by
  cases e with
  | health => exact .healthy
  | welcome => exact .greeted
  | register =>
      refine db.handling_of_read r rfl (fun refusal hquery => ?_)
        (fun player hquery => db.handling_register r hquery)
      simp only [Endpoint.change?, hquery]
      rfl
  | progress =>
      refine db.handling_of_read r rfl (fun _ _ => rfl) (fun player _ => ?_)
      cases r.queryOctet "level" with
      | error refusal => exact .refused refusal rfl
      | ok n => exact db.handling_progress r ⟨player, n⟩
  | update =>
      refine db.handling_of_read r rfl (fun refusal hmessage => ?_)
        (fun u hmessage => db.handling_update r hmessage)
      simp only [Endpoint.change?, hmessage]
      rfl
  | validate =>
      refine db.handling_of_read r rfl (fun refusal hmessage => ?_)
        (fun s hmessage => db.handling_validate r hmessage)
      simp only [Endpoint.change?, hmessage]
      rfl

/-- An endpoint that does not refuse a request answers it with status 200. -/
theorem Handling.status_eq {db : Database} {r : HttpRequest} {e : Endpoint} {outcome : Handled}
    (h : db.Handling r e (.ok outcome)) : outcome.response.status = 200 := by
  cases h <;> rfl

/-- A request comes to what an endpoint makes of it, or is refused. -/
theorem answer_cases :
    (∃ e outcome, r.granted? = e.granted? r ∧ db.Handling r e (.ok outcome) ∧
        db.answer r = outcome) ∨
      ∃ refusal : Refusal, r.granted? = none ∧ db.answer r = db.reply refusal.response := by
  rw [HttpRequest.granted?, answer, route]
  cases Endpoint.ofPath? r.path with
  | none => exact .inr ⟨_, rfl, rfl⟩
  | some e =>
      rw [Option.bind_some]
      dsimp only
      by_cases haccepts : e.accepts r.method = true
      · rw [if_pos haccepts, if_pos haccepts]
        have hhandling := db.handling_handle r e
        generalize db.handle r e = outcome at hhandling
        cases outcome with
        | ok outcome => exact .inl ⟨e, outcome, rfl, hhandling, rfl⟩
        | error refusal =>
            cases hhandling with
            | refused _ h => exact .inr ⟨refusal, h, rfl⟩
      · rw [if_neg haccepts, if_neg haccepts]
        exact .inr ⟨_, rfl, rfl⟩

/-- A database with a change, or without one. -/
def applyAll (db : Database) : Option Change → Database
  | some change => change.apply db
  | none => db

theorem database_answer : (db.answer r).database = db.applyAll r.granted? := by
  rcases db.answer_cases r with ⟨e, outcome, hgranted, hhandling, hanswer⟩ |
    ⟨refusal, hgranted, hanswer⟩
  · rw [hanswer, hgranted]
    cases hhandling with
    | healthy | greeted | shown => rfl
    | registered h | updated h | accepted _ h | failed _ h =>
        rw [h]
        rfl
  · rw [hanswer, hgranted]
    rfl

theorem granted?_options {r : HttpRequest} (h : r.method = .options) : r.granted? = none := by
  rw [HttpRequest.granted?, h]
  cases Endpoint.ofPath? r.path with
  | none => rfl
  | some e =>
      rw [Option.bind_some, e.accepts_options]
      rfl

/-- **A request changes the database by what it is granted, and by nothing else.** -/
theorem after_eq : db.after r = db.applyAll r.granted? := by
  by_cases hoptions : r.method = .options
  · rw [db.after_options r hoptions, granted?_options hoptions]
    rfl
  · rw [db.after_answer r hoptions, database_answer]

end

end Database

/-! ### Progress in responses -/

/-- Whether the body of a response is a message. -/
def HttpResponse.Carries {α : Type} (r : HttpResponse) (codec : Codec α) (a : α) : Prop :=
  r.body = Text.Utf8.encode (codec.encode a).compact

/-- Two messages with one text are the same. -/
theorem HttpResponse.eq_of_carries {α : Type} {codec : Codec α} (h : codec.Lawful) {a b : α}
    (hcarries : (okResponse codec a).Carries codec b) : b = a := by
  have hbodies : Text.Utf8.encode (codec.encode a).compact =
      Text.Utf8.encode (codec.encode b).compact := hcarries
  have htext := congrArg Text.Utf8.decode? hbodies
  rw [Text.Utf8.decode?_encode, Text.Utf8.decode?_encode] at htext
  have hread := h.run_compact a
  rw [Option.some.inj htext, h.run_compact] at hread
  exact Except.ok.inj hread

/-- A body that is no progress report. -/
def IsNoReport (body : List UInt8) : Prop :=
  ∀ report : ProgressReport, body ≠ Text.Utf8.encode (ProgressReport.codec.encode report).compact

theorem isNoReport_nil : IsNoReport [] := by
  intro report h
  have htext := congrArg Text.Utf8.decode? h
  rw [Text.Utf8.decode?_encode] at htext
  have hnil : ([] : List Char) = (ProgressReport.codec.encode report).compact :=
    Option.some.inj htext
  exact absurd hnil (List.cons_ne_nil _ _).symm

/-- A message whose first field has a name that does not begin with a `p` is no progress report. -/
theorem isNoReport_encode {cs : List Char} {c : Char} {rest : List Char}
    (hcs : cs = '{' :: '"' :: c :: rest) (hc : c ≠ 'p') : IsNoReport (Text.Utf8.encode cs) := by
  intro report h
  have htext := congrArg Text.Utf8.decode? h
  rw [Text.Utf8.decode?_encode, Text.Utf8.decode?_encode, hcs] at htext
  have hfront : ('{' :: '"' :: c :: rest).take 3 =
      (ProgressReport.codec.encode report).compact.take 3 :=
    congrArg (List.take 3) (Option.some.inj htext)
  have hreport : (ProgressReport.codec.encode report).compact.take 3 = ['{', '"', 'p'] := rfl
  rw [hreport] at hfront
  have hchar : c = 'p' := by simpa using hfront
  exact hc hchar

namespace Database

/-- What the response to a request says: the progress in the database after it, or none. -/
inductive Says (after : Database) : HttpResponse → Prop
  | progress (player : String) (level : Level) :
      Says after (okResponse ProgressReport.codec (after.report player level))
  | other {response : HttpResponse} (h : IsNoReport response.body) : Says after response

theorem says_answer (db : Database) (r : HttpRequest) :
    (db.answer r).database.Says (db.answer r).response := by
  rcases db.answer_cases r with ⟨e, outcome, -, hhandling, hanswer⟩ | ⟨refusal, -, hanswer⟩
  · rw [hanswer]
    cases hhandling with
    | shown player level => exact .progress player level
    | @updated player level _ _ => exact .progress player level
    | healthy | greeted | registered | accepted | failed =>
        exact .other (isNoReport_encode rfl (by decide))
  · rw [hanswer]
    exact .other isNoReport_nil

/-- The status of a response is that of the answer, unless a save fails. -/
theorem status_respond (db : Database) (saved : Bool) (r : HttpRequest) (h : r.method ≠ .options) :
    (db.respond saved r).status =
      if (db.answer r).mustSave && !saved then Refusal.notSaved.status
      else (db.answer r).response.status := by
  rw [db.respond_eq saved r h, Server.status_openToAll]
  split <;> rfl

/-- The body of a response is that of the answer, unless nothing is sent. -/
theorem body_respond (db : Database) (saved : Bool) (r : HttpRequest) :
    (db.respond saved r).body = [] ∨
      r.method ≠ .options ∧ (db.respond saved r).body = (db.answer r).response.body := by
  by_cases hoptions : r.method = .options
  · rw [db.respond_options saved r hoptions]
    exact .inl rfl
  · rw [db.respond_eq saved r hoptions]
    show (HttpResponse.forMethod _ r.method).body = [] ∨
      _ ∧ (HttpResponse.forMethod _ r.method).body = _
    rw [HttpResponse.forMethod]
    split
    · exact .inl rfl
    · split
      · exact .inl rfl
      · exact .inr ⟨hoptions, rfl⟩

/-- **The progress in a response is progress in the database after the request.** -/
theorem report_of_carries {db : Database} {saved : Bool} {r : HttpRequest} {report : ProgressReport}
    (h : (db.respond saved r).Carries ProgressReport.codec report) :
    ∃ player level, report = (db.after r).report player level := by
  rcases db.body_respond saved r with hempty | ⟨hoptions, hsame⟩
  · rw [HttpResponse.Carries, hempty] at h
    exact absurd h (isNoReport_nil report)
  · rw [HttpResponse.Carries, hsame] at h
    have hsays := db.says_answer r
    rw [db.after_answer r hoptions]
    generalize (db.answer r).database = after at hsays
    generalize (db.answer r).response = response at hsays h
    cases hsays with
    | other hnone => exact absurd h (hnone report)
    | progress player level =>
        exact ⟨player, level, HttpResponse.eq_of_carries ProgressReport.lawful_codec h⟩

end Database

/-! ### Runs -/

/-- Answers requests one after the other. -/
def serveAll {m : Type → Type} [Monad m] (save : Database → m Bool) :
    Database → List HttpRequest → m (List HttpResponse × Database)
  | db, [] => return ([], db)
  | db, r :: rest => do
      let (response, after) ← serve save db r
      let (responses, last) ← serveAll save after rest
      return (response :: responses, last)

section
variable {σ : Type} (save : Database → StateM σ Bool) (db : Database)

theorem serveAll_cons (r : HttpRequest) (rest : List HttpRequest) (s : σ) :
    ∃ saved t, serveAll save db (r :: rest) s =
      ((db.respond saved r :: (serveAll save (db.after r) rest t).1.1,
        (serveAll save (db.after r) rest t).1.2), (serveAll save (db.after r) rest t).2) := by
  obtain ⟨saved, t, hserve⟩ := serve_eq db r save s
  refine ⟨saved, t, ?_⟩
  simp only [serveAll, bind, StateT.bind, hserve]
  rfl

theorem database_serveAll (requests : List HttpRequest) (s : σ) :
    (serveAll save db requests s).1.2 = requests.foldl Database.after db := by
  induction requests generalizing db s with
  | nil => rfl
  | cons r rest ih =>
      obtain ⟨saved, t, hcons⟩ := serveAll_cons save db r rest s
      rw [hcons, List.foldl_cons]
      exact ih (db.after r) t

/-- What holds of databases along a run shows in all of its responses. -/
theorem responses_serveAll {P : Database → Prop} {Q : HttpResponse → Prop}
    (hafter : ∀ db r, P db → P (db.after r))
    (hrespond : ∀ db saved r, P db → Q (db.respond saved r)) (hstart : P db)
    (requests : List HttpRequest) (s : σ) :
    ∀ response ∈ (serveAll save db requests s).1.1, Q response := by
  induction requests generalizing db s with
  | nil => exact fun _ h => absurd h List.not_mem_nil
  | cons r rest ih =>
      obtain ⟨saved, t, hcons⟩ := serveAll_cons save db r rest s
      rw [hcons]
      refine List.forall_mem_cons.2 ⟨hrespond db saved r hstart, ?_⟩
      exact ih (db.after r) (hafter db r hstart) t

end

end EscapeRoom
