import EscapeRoom.Proofs.Message

/-!
# The texts of messages

Every message, and every value that can stand in one by itself, is read back from its text.  A text
from elsewhere may have its members in another order, blanks between them and members of other
names; once it has been read and written, it stays as it is.

* `MessageKind` — the messages and the values in them.
* `MessageKind.lawful_codec` — each kind is read back from any layout.
* `MessageKind.texts_are_faithful` — what this means for their texts.
-/

namespace EscapeRoom

open Json (Codec)

/-- The kinds of messages, and of values in messages. -/
inductive MessageKind
  | health
  | welcome
  | registration
  | progressQuery
  | progressReport
  | taskUpdate
  | submission
  | grading
  | tasks
  | signal
  | verdict
  deriving DecidableEq, Repr

namespace MessageKind

/-- The values of a kind. -/
def Message : MessageKind → Type
  | health => Health
  | welcome => Welcome
  | registration => Registration
  | progressQuery => ProgressQuery
  | progressReport => ProgressReport
  | taskUpdate => TaskUpdate
  | submission => Submission
  | grading => Grading
  | tasks => TaskState
  | signal => TaskSignal
  | verdict => Verdict

/-- How the values of a kind are written and read. -/
def codec : (kind : MessageKind) → Codec kind.Message
  | health => Health.codec
  | welcome => Welcome.codec
  | registration => Registration.codec
  | progressQuery => ProgressQuery.codec
  | progressReport => ProgressReport.codec
  | taskUpdate => TaskUpdate.codec
  | submission => Submission.codec
  | grading => Grading.codec
  | tasks => TaskState.codec
  | signal => TaskSignal.codec
  | verdict => Verdict.codec

theorem lawful_codec (kind : MessageKind) : kind.codec.Lawful := by
  cases kind with
  | health => exact Health.lawful_codec
  | welcome => exact Welcome.lawful_codec
  | registration => exact Registration.lawful_codec
  | progressQuery => exact ProgressQuery.lawful_codec
  | progressReport => exact ProgressReport.lawful_codec
  | taskUpdate => exact TaskUpdate.lawful_codec
  | submission => exact Submission.lawful_codec
  | grading => exact Grading.lawful_codec
  | tasks => exact TaskState.lawful_codec
  | signal => exact TaskSignal.lawful_codec
  | verdict => exact Verdict.lawful_codec

/-- **The texts of messages are faithful.**  Whatever strings and flags a message of any kind has,
it is read back from its text; so no two messages of a kind have one text, and reading and writing
again any text that is accepted changes nothing the second time. -/
theorem texts_are_faithful (kind : MessageKind) :
    (∀ message : kind.Message, kind.codec.read (kind.codec.write message) = .ok message) ∧
      Function.Injective kind.codec.write ∧
      ∀ text again, kind.codec.rewritten? text = some again →
        kind.codec.rewritten? again = some again := by
  have hlawful := kind.lawful_codec
  refine ⟨?_, ?_, ?_⟩
  · exact hlawful.read_write
  · exact hlawful.write_injective
  · intro text again hagain
    exact hlawful.rewritten?_eq_self hagain

/-- A progress report in another order, with an escape that is not needed, a task that is named
twice and a member that nobody knows. -/
theorem report_is_kept_once_rewritten :
    let text := "\x7b\"done\":false, \"tasks\":\x7b\"a\":true,\"a\":false\x7d, \"x\":[null],\n" ++
      "\"level\":2, \"playerId\":\"\\u0041\\/\"\x7d"
    let report : ProgressReport := ⟨"A/", .manifest, .ofList [("a", false)], false, none⟩
    let again := progressReport.codec.write report
    progressReport.codec.rewritten? text = some again ∧
      progressReport.codec.rewritten? again = some again := by
  intro text report again
  have hagain : progressReport.codec.rewritten? text = some again := by decide +kernel
  exact ⟨hagain, (texts_are_faithful progressReport).2.2 text again hagain⟩

end MessageKind

end EscapeRoom
