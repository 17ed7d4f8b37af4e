import EscapeRoom.Proofs.Json.Octets
import EscapeRoom.Server.DataFile
import EscapeRoom.Server.Service
import EscapeRoom.Store.Remote

/-!
# Messages and the data file are read back

What the server writes into a response the client reads, and what it writes into the data file it
reads when it starts again.

* `Registration.lawful_codec`, `ProgressReport.lawful_codec`, `Grading.lawful_codec`,
  `TaskUpdate.lawful_codec`, `Submission.lawful_codec` and so on — the messages.
* `HttpRequest.message_noted`, `Remote.readResponse_noted` — messages with one more member of any
  octets.
* `Remote.readResponse_okResponse` — the message of a response.
* `Database.ofFileText?_fileText` — the data file.
-/

namespace EscapeRoom

open Json (Codec Fields)

/-! ### Codecs -/

theorem Level.lawful_codec : Level.codec.Lawful := by
  intro level ws text rest hws htext hrest
  have hread : Json.octet (ws ++ (text ++ rest)) = .ok (level.number, rest) :=
    Codec.lawful_octet level.number ws text rest hws htext hrest
  simp only [Level.codec, hread, bind, Except.bind, Level.ofNumber?_number]
  rfl

theorem TaskState.lawful_codec : TaskState.codec.Lawful :=
  Codec.lawful_bool.map.iso fun _ => rfl

theorem TaskSignal.lawful_codec : TaskSignal.codec.Lawful :=
  .record (.iso (.field_and Codec.lawful_string "task" (.field Codec.lawful_bool "completed") rfl)
    fun _ => rfl)

theorem RuleCheck.lawful_codec : RuleCheck.codec.Lawful :=
  .record (.iso (.field_and Codec.lawful_string "name" (.field Codec.lawful_bool "passed") rfl)
    fun _ => rfl)

theorem Verdict.lawful_codec : Verdict.codec.Lawful :=
  .record (.iso (.field_and Codec.lawful_bool "ok"
    (.field_and RuleCheck.lawful_codec.list "checks" (.field Codec.lawful_string.list "errors")
      rfl) rfl) fun _ => rfl)

theorem Health.lawful_codec : Health.codec.Lawful :=
  .record (.iso (.field Codec.lawful_string "status") fun _ => rfl)

theorem Welcome.lawful_codec : Welcome.codec.Lawful :=
  .record (.iso (.field Codec.lawful_string "message") fun _ => rfl)

theorem Registration.lawful_codec : Registration.codec.Lawful :=
  .record (.iso (.field_and Codec.lawful_bool "ok" (.field Codec.lawful_string "playerId") rfl)
    fun _ => rfl)

theorem ProgressQuery.lawful_codec : ProgressQuery.codec.Lawful :=
  .record (.iso (.field_and Codec.lawful_string "playerId" (.field Codec.lawful_octet "level") rfl)
    fun _ => rfl)

theorem ProgressReport.lawful_codec : ProgressReport.codec.Lawful :=
  .record (.iso (.field_and Codec.lawful_string "playerId"
    (.field_and Level.lawful_codec "level"
      (.field_and TaskState.lawful_codec "tasks"
        (.field_and Codec.lawful_bool "done"
          (.optionalField Codec.lawful_string (fun _ => Json.Value.noConfusion) "manifest")
          rfl) rfl) rfl) rfl) fun _ => rfl)

theorem Grading.lawful_fields : Grading.fields.Lawful :=
  .iso (.field_and Codec.lawful_bool "ok"
    (.field_and Codec.lawful_string.list "errors" (.field Codec.lawful_bool.map "checks") rfl) rfl)
    fun _ => rfl

theorem Grading.lawful_codec : Grading.codec.Lawful := .record lawful_fields

theorem Submission.lawful_fields : Submission.fields.Lawful :=
  .iso (.field_and Codec.lawful_string "playerId" (.field Codec.lawful_string "manifest") rfl)
    fun _ => rfl

theorem Submission.lawful_codec : Submission.codec.Lawful := .record lawful_fields

theorem TaskUpdate.lawful_fields : TaskUpdate.fields.Lawful :=
  .iso (.field_and Codec.lawful_string "playerId"
    (.field_and Codec.lawful_octet "level"
      (.field_and Codec.lawful_string "task" (.field Codec.lawful_bool "completed") rfl) rfl) rfl)
    fun _ => rfl

theorem TaskUpdate.lawful_codec : TaskUpdate.codec.Lawful := .record lawful_fields

/-- A submission is no update, since it names no level. -/
theorem TaskUpdate.run_submission (s : Submission) :
    TaskUpdate.codec.decoder.run (Submission.codec.encode s).compact = .error .unfit := by
  obtain ⟨player, hplayer, -⟩ := Fields.Lawful.field Codec.lawful_string "playerId" s.player
  refine Codec.run_unfit (.of_fills ((hplayer.and_left _).iso _ _)
    (.unknown rfl (Fields.isSkipped_string s.manifest) (.nil _))) ?_
  cases player <;> rfl

theorem LevelRecord.lawful_codec : LevelRecord.codec.Lawful :=
  .record (.iso (.field_and TaskState.lawful_codec "tasks"
    (.optionalField Codec.lawful_string (fun _ => Json.Value.noConfusion) "manifest") rfl)
    fun _ => rfl)

theorem Database.lawful_codec : Database.codec.Lawful :=
  .record (.iso (.field_and Codec.lawful_stringSet "players"
    (.field LevelRecord.lawful_codec.octetMap.map "progress") rfl) fun _ => rfl)

/-! ### Requests -/

/-- The request with one more member in front of its message, whose string is some octets. -/
def HttpRequest.noted (r : HttpRequest) (name : String) (octets : List UInt8) : HttpRequest :=
  { r with body := Json.noted name octets r.body }

/-- Octets that are no text do not matter under a name that the server does not know. -/
theorem HttpRequest.message_noted {σ α : Type} {f : Fields σ α} (hf : f.Lawful) {a : α}
    (hsome : f.members a ≠ []) {name : String} (hunknown : f.knows name = false)
    {octets : List UInt8} (hplain : ∀ b ∈ octets, Json.IsPlain b) {r : HttpRequest}
    (hbody : r.body = Text.Utf8.encode ((Codec.record f).encode a).compact)
    (hshort : (r.noted name octets).body.length ≤ bodyLimit) :
    (r.noted name octets).message (.record f) = r.message (.record f) := by
  have hread : (Codec.record f).decoder.runOctets r.body = .ok a := by
    rw [hbody, Json.Decoder.runOctets_encode, (Codec.Lawful.record hf).run_compact]
  have hnoted : (Codec.record f).decoder.runOctets (r.noted name octets).body = .ok a := by
    rw [noted, hbody]
    exact hf.runOctets_noted a hsome hunknown hplain
  have hlonger : r.body.length ≤ (r.noted name octets).body.length :=
    Json.length_le_noted name octets r.body
  have hheader : (r.noted name octets).header? "content-type" = r.header? "content-type" := rfl
  rw [message, message, hheader, hread, hnoted, if_neg (Nat.not_lt.2 hshort),
    if_neg (Nat.not_lt.2 (Nat.le_trans hlonger hshort))]

/-! ### Responses and the data file -/

/-- The client reads the message that the server wrote. -/
theorem Remote.readResponse_okResponse {α : Type} {codec : Codec α} (h : codec.Lawful) (a : α)
    (what : String) (method : HttpMethod) (url : String) :
    readResponse codec what method url (some (okResponse codec a)) = .ok a := by
  have hread : codec.decoder.runOctets (okResponse codec a).body = .ok a :=
    (codec.decoder.runOctets_encode _).trans (h.run_compact a)
  simp only [readResponse, hread]
  rfl

/-- Octets that are no text do not matter under a name that the client does not know. -/
theorem Remote.readResponse_noted {σ α : Type} {f : Fields σ α} (hf : f.Lawful) (a : α)
    (hsome : f.members a ≠ []) {name : String} (hunknown : f.knows name = false)
    {octets : List UInt8} (hplain : ∀ b ∈ octets, Json.IsPlain b) (headers : List (String × String))
    (what : String) (method : HttpMethod) (url : String) :
    readResponse (.record f) what method url
      (some ⟨200, headers, Json.noted name octets (okResponse (.record f) a).body⟩) = .ok a := by
  have hread := hf.runOctets_noted a hsome hunknown hplain
  simp only [readResponse, okResponse, hread]
  rfl

/-- **The server reads the database that it wrote.** -/
theorem Database.ofFileText?_fileText (db : Database) : ofFileText? db.fileText = some db := by
  have hnewline : Json.Blank ['\n'] := by
    intro c hc
    rw [List.mem_singleton.1 hc]
    rfl
  have hread := Database.lawful_codec.run_eq
    (Json.isText_prettyAt 0 (Database.codec.encode db)) hnewline
  have htext : db.fileText.toList = (Database.codec.encode db).prettyAt 0 ++ ['\n'] :=
    String.toList_ofList
  rw [ofFileText?, Codec.read, htext, hread]
  rfl

end EscapeRoom
