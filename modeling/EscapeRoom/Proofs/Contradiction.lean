import EscapeRoom.Proofs.Verdict
import EscapeRoom.Proofs.VerdictShape

/-!
# Verdicts that contradict themselves

A verdict of the rules is positive exactly when all seven passed.  A verdict from a server is put
together of two parts of its reply, which are read one by one: whether the manifest is accepted, and
the outcomes by name, of which a missing one counts as failed.  So it contradicts itself when the
reply does, and then the player reads that the manifest is accepted and the level finished, above a
checklist with a gap.  No server with these rules sends such a reply.

* `Verdict.IsCoherent`, `CheckReport.Contradicts` — verdicts, and reports, without and with a
  contradiction.
* `Remote.Conveys`, `Remote.conveys_iff` — the replies that are read as a grading.
* `Grading.isCoherent_verdict_iff` — when a grading gives a coherent verdict.
* `Remote.isCoherent_decideVerdict_iff`, `Remote.gap_decideVerdict_iff` — what is decided on a
  reply.
* `Remote.verdict_contradicts_iff` — replies, verdicts and reports.
-/

namespace EscapeRoom

/-- Whether a verdict is positive exactly when all its checks passed. -/
def Verdict.IsCoherent (v : Verdict) : Prop :=
  v.ok = true ↔ ∀ check ∈ v.checks, check.passed = true

instance (v : Verdict) : Decidable v.IsCoherent := inferInstanceAs (Decidable (_ ↔ _))

/-- Whether a report tells of an accepted manifest and a finished level, next to a rule that is not
satisfied. -/
def CheckReport.Contradicts (r : CheckReport) : Prop :=
  r.verdict.ok = true ∧ r.levelComplete = true ∧ ∃ item ∈ r.checklist, item.satisfied = false

instance (r : CheckReport) : Decidable r.Contradicts := inferInstanceAs (Decidable (_ ∧ _))

/-- The rules at hand do not contradict themselves. -/
theorem Verdict.isCoherent_checkManifest (text : String) : (checkManifest text).IsCoherent := by
  obtain ⟨passed, hreports⟩ := exists_reports_checkManifest text
  exact hreports.ok_iff_checks

/-! ### Gradings -/

namespace Grading

variable {g : Grading}

theorem checks_verdict :
    g.verdict.checks =
      Rule.all.map fun rule => ⟨rule.name, (g.checks.get? rule.name).getD false⟩ := rfl

theorem passed_verdict (rule : Rule) :
    g.verdict.passed rule.name = (g.checks.get? rule.name).getD false :=
  Verdict.passed_name_of_checks checks_verdict rule

theorem getD_eq_true_iff {outcome : Option Bool} :
    outcome.getD false = true ↔ outcome = some true := by
  cases outcome <;> simp

theorem forall_checks_iff :
    (∀ check ∈ g.verdict.checks, check.passed = true) ↔
      ∀ rule : Rule, g.checks.get? rule.name = some true := by
  rw [checks_verdict, List.forall_mem_map]
  simp only [getD_eq_true_iff]
  exact ⟨fun h rule => h rule rule.mem_all, fun h rule _ => h rule⟩

/-- What a grading says of the whole must be what it says of the rules. -/
theorem isCoherent_verdict_iff :
    g.verdict.IsCoherent ↔ (g.ok = true ↔ ∀ rule : Rule, g.checks.get? rule.name = some true) := by
  rw [Verdict.IsCoherent, forall_checks_iff]
  rfl

end Grading

/-! ### Reports -/

theorem CheckReport.contradicts_of {level : ManifestLevel} (h : level.IsTracked) (v : Verdict)
    (source : VerdictSource) :
    (CheckReport.of level v source).Contradicts ↔
      v.ok = true ∧ ∃ rule : Rule, v.passed rule.name = false := by
  have hitems : (∃ item ∈ (CheckReport.of level v source).checklist, item.satisfied = false) ↔
      ∃ rule : Rule, v.passed rule.name = false := by
    rw [checklist_of, EscapeRoom.checklist]
    constructor
    · rintro ⟨item, hitem, hgap⟩
      obtain ⟨rule, -, rfl⟩ := List.mem_map.1 hitem
      exact ⟨rule, hgap⟩
    · rintro ⟨rule, hgap⟩
      exact ⟨_, List.mem_map_of_mem rule.mem_all, hgap⟩
  have hok : (CheckReport.of level v source).verdict.ok = v.ok := rfl
  rw [Contradicts, hitems, hok, levelComplete_of level v source h, Bool.or_eq_true]
  exact ⟨fun ⟨hpassed, _, hgap⟩ => ⟨hpassed, hgap⟩,
    fun ⟨hpassed, hgap⟩ => ⟨hpassed, .inr hpassed, hgap⟩⟩

/-- Where the rules at hand accept, there is no gap. -/
theorem Verdict.passed_of_ok_checkManifest {text : String} (hok : (checkManifest text).ok = true)
    (rule : Rule) : (checkManifest text).passed rule.name = true := by
  obtain ⟨passed, hreports⟩ := exists_reports_checkManifest text
  rw [hreports.ok, List.all_eq_true] at hok
  rw [hreports.passed_name]
  exact hok rule rule.mem_all

/-! ### Replies -/

namespace Remote

/-- Whether a reply is read as a grading: it came, it is no error, and its body says so. -/
def Conveys (reply : Option HttpResponse) (g : Grading) : Prop :=
  ∃ r, reply = some r ∧ ¬ (400 ≤ r.status ∧ r.status < 600) ∧
    Grading.codec.decoder.runOctets r.body = .ok g

variable {base : String} {reply : Option HttpResponse} {g : Grading} {v : Verdict}

theorem conveys_iff (base : String) :
    Conveys reply g ↔
      readResponse Grading.codec "validate" .post (address base .validate) reply = .ok g := by
  constructor
  · rintro ⟨r, rfl, hstatus, hread⟩
    have hfine : (decide (400 ≤ r.status) && decide (r.status < 600)) = false := by
      rw [Bool.eq_false_iff, ne_eq, Bool.and_eq_true, decide_eq_true_eq, decide_eq_true_eq]
      exact hstatus
    simp only [readResponse, hfine, hread, Bool.false_eq_true, if_false]
  · intro h
    cases reply with
    | none => cases h
    | some r =>
        simp only [readResponse] at h
        split at h
        · cases h
        · rename_i hstatus
          rw [Bool.and_eq_true, decide_eq_true_eq, decide_eq_true_eq] at hstatus
          split at h
          · rename_i hread
            cases h
            exact ⟨r, rfl, hstatus, hread⟩
          · cases h

/-- A grading is conveyed whatever octets stand next to it, under a name that is none of its own. -/
theorem conveys_noted (g : Grading) {name : String} (hunknown : Grading.fields.knows name = false)
    {octets : List UInt8} (hplain : ∀ b ∈ octets, Json.IsPlain b)
    (headers : List (String × String)) :
    Conveys (some ⟨200, headers, Json.noted name octets (okResponse Grading.codec g).body⟩) g :=
  (conveys_iff "").2 (readResponse_noted Grading.lawful_fields g (List.cons_ne_nil _ _) hunknown
    hplain headers _ _ _)

theorem readVerdict_eq_ok_iff :
    readVerdict base reply = .ok v ↔ ∃ g, Conveys reply g ∧ v = g.verdict := by
  simp only [conveys_iff base, readVerdict]
  cases readResponse Grading.codec "validate" .post (address base .validate) reply with
  | error e => simp [bind, Except.bind]
  | ok g => simp [bind, Except.bind, pure, Except.pure, eq_comm]

/-- A reply is read in one way only. -/
theorem Conveys.unique {other : Grading} (h : Conveys reply g) (hother : Conveys reply other) :
    other = g := by
  have hread := ((conveys_iff "").1 h).symm.trans ((conveys_iff "").1 hother)
  exact (Except.ok.inj hread).symm

/-- The verdict that is decided on is the one that the reply conveys, or that of the rules at
hand. -/
theorem decideVerdict_cases (base manifest : String) (reply : Option HttpResponse) :
    (∃ g, Conveys reply g ∧
        decideVerdict manifest (readVerdict base reply) = (g.verdict, .remote)) ∨
      (∀ g, ¬ Conveys reply g) ∧
        decideVerdict manifest (readVerdict base reply) = (checkManifest manifest, .own) := by
  cases hread : readVerdict base reply with
  | ok v =>
      obtain ⟨g, hg, rfl⟩ := readVerdict_eq_ok_iff.1 hread
      exact .inl ⟨g, hg, rfl⟩
  | error e =>
      refine .inr ⟨fun g hg => ?_, rfl⟩
      rw [readVerdict_eq_ok_iff.2 ⟨g, hg, rfl⟩] at hread
      cases hread

theorem isCoherent_decideVerdict_iff (base manifest : String) (reply : Option HttpResponse) :
    (decideVerdict manifest (readVerdict base reply)).1.IsCoherent ↔
      ∀ g, Conveys reply g → g.verdict.IsCoherent := by
  rcases decideVerdict_cases base manifest reply with ⟨g, hg, hdecided⟩ | ⟨hnone, hdecided⟩
  · rw [hdecided]
    exact ⟨fun h other hother => hg.unique hother ▸ h, fun h => h g hg⟩
  · rw [hdecided]
    exact iff_of_true (Verdict.isCoherent_checkManifest manifest) fun g hg => absurd hg (hnone g)

/-- The rules at hand leave no gap where they accept, so a gap is one of the reply. -/
theorem gap_decideVerdict_iff (base manifest : String) (reply : Option HttpResponse) :
    ((decideVerdict manifest (readVerdict base reply)).1.ok = true ∧
        ∃ rule : Rule,
          (decideVerdict manifest (readVerdict base reply)).1.passed rule.name = false) ↔
      ∃ g, Conveys reply g ∧ g.ok = true ∧ ∃ rule : Rule, g.checks.get? rule.name ≠ some true := by
  rcases decideVerdict_cases base manifest reply with ⟨g, hg, hdecided⟩ | ⟨hnone, hdecided⟩
  · rw [hdecided]
    simp only [Grading.passed_verdict, ← Bool.not_eq_true, Grading.getD_eq_true_iff]
    constructor
    · exact fun h => ⟨g, hg, h⟩
    · rintro ⟨other, hother, h⟩
      exact hg.unique hother ▸ h
  · rw [hdecided]
    constructor
    · rintro ⟨hok, rule, hgap⟩
      rw [Verdict.passed_of_ok_checkManifest hok rule] at hgap
      cases hgap
    · rintro ⟨g, hg, -⟩
      exact absurd hg (hnone g)

/-- A server with these rules conveys the verdict of the rules. -/
theorem verdict_of_conveys_respond {db : Database} {saved : Bool} {player manifest : String}
    (h : Conveys (some (db.respond saved (validateRequest base player manifest))) g) :
    g.verdict = checkManifest manifest :=
  readVerdict_respond db base player manifest (readVerdict_eq_ok_iff.2 ⟨g, h, rfl⟩)

/-- **Where a verdict that contradicts itself comes from.**  A verdict is read in a reply when the
reply conveys a grading, and any grading can be conveyed, with any flag, errors and outcomes.  The
verdict is coherent exactly when the grading is: when it accepts the manifest exactly if it says of
each of the seven rules that it passed.  A server with these rules conveys no other gradings.  So
whatever the network does, the verdict of a check is coherent unless the reply to its submission
conveys a grading that is not, and its report tells of an accepted manifest and a finished level
next to a rule that is not satisfied exactly when the reply accepts the manifest without saying of
every rule that it passed. -/
theorem verdict_contradicts_iff {σ : Type} (transport : Transport (StateM σ))
    (base player manifest : String) (s : σ) :
    let report := (runCheck (some (store transport base)) player manifest s).1
    let asked := (transport (fetchRequest base player .manifest) s).2
    let reply := (transport (validateRequest base player manifest) asked).1
    (∀ response v, readVerdict base response = .ok v ↔ ∃ g, Conveys response g ∧ v = g.verdict) ∧
    (∀ g, Conveys (some (okResponse Grading.codec g)) g ∧
      (g.verdict.IsCoherent ↔
        (g.ok = true ↔ ∀ rule : Rule, g.checks.get? rule.name = some true))) ∧
    (∀ (db : Database) saved g,
      Conveys (some (db.respond saved (validateRequest base player manifest))) g →
      g.verdict.IsCoherent) ∧
    (report.verdict.IsCoherent ↔ ∀ g, Conveys reply g → g.verdict.IsCoherent) ∧
    (report.Contradicts ↔
      ∃ g, Conveys reply g ∧ g.ok = true ∧ ∃ rule : Rule, g.checks.get? rule.name ≠ some true) := by
  intro report asked reply
  have hreport : report = .of (.afterFetch ((store transport base).fetch player .manifest s).1)
      (decideVerdict manifest (readVerdict base reply)).1
      (decideVerdict manifest (readVerdict base reply)).2 :=
    congrArg Prod.fst (runCheckWith_eq (store transport base) player manifest s)
  refine ⟨fun _ _ => readVerdict_eq_ok_iff, ?_, ?_, ?_, ?_⟩
  · intro g
    exact ⟨(conveys_iff base).2 (readResponse_okResponse Grading.lawful_codec g _ _ _),
      Grading.isCoherent_verdict_iff⟩
  · intro db saved g h
    rw [verdict_of_conveys_respond h]
    exact Verdict.isCoherent_checkManifest manifest
  · rw [hreport]
    exact isCoherent_decideVerdict_iff base manifest reply
  · rw [hreport, CheckReport.contradicts_of (ManifestLevel.isTracked_afterFetch _)]
    exact gap_decideVerdict_iff base manifest reply

/-- A server refuses a text that is no manifest, and the report on it is coherent.  Another server
accepts a manifest without a word on its resources, next to an octet that is no text, and the report
contradicts itself. -/
theorem refusal_does_not_contradict :
    let base := Config.default.serverUrl
    let response := Database.empty.respond true (validateRequest base "ada" "none")
    let refusal := Grading.ofVerdict (checkManifest "none")
    let gap : Grading := ⟨true, [], .ofList
      ((Rule.all.filter (· ≠ .resources)).map fun rule => (rule.name, true))⟩
    let noted : HttpResponse :=
      ⟨200, [], Json.noted "note" [0xFF] (okResponse Grading.codec gap).body⟩
    let replying (reply : HttpResponse) : Transport (StateM Unit) := fun _ => return some reply
    let reporting (reply : HttpResponse) : CheckReport :=
      (runCheck (some (store (replying reply) base)) "ada" "none" ()).1
    Conveys (some response) refusal ∧ refusal.verdict.IsCoherent ∧
      ¬ (reporting response).Contradicts ∧
      Conveys (some noted) gap ∧ (reporting noted).Contradicts := by
  intro base response refusal gap noted replying reporting
  have hconveys : Conveys (some response) refusal := (conveys_iff base).2 (by decide +kernel)
  have hnoted : Conveys (some noted) gap := conveys_noted gap rfl (by decide +kernel) []
  obtain ⟨-, -, hserver, -, hrefused⟩ :=
    verdict_contradicts_iff (replying response) base "ada" "none" ()
  obtain ⟨-, -, -, -, haccepted⟩ :=
    verdict_contradicts_iff (replying noted) base "ada" "none" ()
  refine ⟨hconveys, hserver .empty true refusal hconveys, ?_, hnoted, ?_⟩
  · intro hcontradicts
    obtain ⟨other, hother, hok, -⟩ := hrefused.1 hcontradicts
    have hsame : other = refusal := hconveys.unique hother
    have hnot : refusal.ok = false := by decide +kernel
    rw [hsame, hnot] at hok
    cases hok
  · exact haccepted.2 ⟨gap, hnoted, rfl, .resources, by decide +kernel⟩

/-- A server whose rubric is older accepts a manifest and says nothing of its resources. -/
theorem older_rubric_contradicts :
    let text := "\x7b\"ok\":true,\"errors\":[],\"checks\":\x7b\"apiVersion\":true," ++
      "\"image\":true,\"kindDeployment\":true,\"metadataName\":true,\"probes\":true," ++
      "\"replicas\":true\x7d\x7d"
    let response : HttpResponse := ⟨200, [], Text.Utf8.encode text.toList⟩
    let transport : Transport (StateM Unit) := fun _ => return some response
    let base := Config.default.serverUrl
    let v : Verdict := ⟨true, Rule.all.map fun rule => ⟨rule.name, rule ≠ .resources⟩, []⟩
    let report := (runCheck (some (store transport base)) "ada" "kind: Deployment" ()).1
    readVerdict base (some response) = .ok v ∧ ¬ v.IsCoherent ∧
      report.verdict = v ∧ report.Contradicts := by
  decide +kernel

end Remote

end EscapeRoom
