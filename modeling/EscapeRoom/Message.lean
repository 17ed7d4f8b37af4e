import EscapeRoom.Json.Codec
import EscapeRoom.Manifest.Rubric
import EscapeRoom.Task.State

/-!
# Messages between players and the progress server

Each message is a record with a codec; players and server use the same one.

* `Health`, `Welcome`, `Registration`, `ProgressQuery`, `ProgressReport`, `TaskUpdate`,
  `Submission`, `Grading` — the messages.
* `Grading.ofVerdict`, `Grading.verdict` — a verdict travels as a map from rule names; reading it
  back restores the order of the rubric.
-/

namespace EscapeRoom

open Json (Codec Fields)

/-- A level as its number. -/
def Level.codec : Codec Level where
  encode level := .number level.number.toNat
  decoder cs := do
    let (n, rest) ← Json.octet cs
    match ofNumber? n with
    | some level => return (level, rest)
    | none => throw (.unknownLevel n)

/-- The flags as an object. -/
def TaskState.codec : Codec TaskState := (Codec.map .bool).iso TaskState.mk TaskState.flags

def TaskSignal.codec : Codec TaskSignal :=
  .record (((Fields.field "task" .string).and (Fields.field "completed" .bool)).iso
    (fun p => ⟨p.1, p.2⟩) (fun s => (s.task, s.completed)))

/-- The outcome of one rule. -/
def RuleCheck.codec : Codec RuleCheck :=
  .record (((Fields.field "name" .string).and (Fields.field "passed" .bool)).iso
    (fun p => ⟨p.1, p.2⟩) (fun c => (c.name, c.passed)))

def Verdict.codec : Codec Verdict :=
  .record (((Fields.field "ok" .bool).and
      ((Fields.field "checks" (.list RuleCheck.codec)).and
        (Fields.field "errors" (.list .string)))).iso
    (fun p => ⟨p.1, p.2.1, p.2.2⟩) (fun v => (v.ok, v.checks, v.errors)))

/-- The answer to a health request. -/
structure Health where
  status : String
  deriving DecidableEq

/-- A health answer. -/
def Health.codec : Codec Health :=
  .record ((Fields.field "status" .string).iso Health.mk Health.status)

/-- The answer to a greeting. -/
structure Welcome where
  message : String
  deriving DecidableEq

/-- A greeting. -/
def Welcome.codec : Codec Welcome :=
  .record ((Fields.field "message" .string).iso Welcome.mk Welcome.message)

/-- The answer to a registration. -/
structure Registration where
  ok : Bool
  player : String
  deriving DecidableEq

/-- A registration answer. -/
def Registration.codec : Codec Registration :=
  .record (((Fields.field "ok" .bool).and (Fields.field "playerId" .string)).iso
    (fun p => ⟨p.1, p.2⟩) (fun r => (r.ok, r.player)))

/-- A question for the progress of a player in a level. -/
structure ProgressQuery where
  player : String
  level : UInt8
  deriving DecidableEq

/-- A question for progress. -/
def ProgressQuery.codec : Codec ProgressQuery :=
  .record (((Fields.field "playerId" .string).and (Fields.field "level" .octet)).iso
    (fun p => ⟨p.1, p.2⟩) (fun q => (q.player, q.level)))

/-- The answer to a question for progress and to an update. -/
structure ProgressReport where
  player : String
  level : Level
  progress : Progress
  deriving DecidableEq

/-- A progress report; a manifest that is missing is left out. -/
def ProgressReport.codec : Codec ProgressReport :=
  .record (((Fields.field "playerId" .string).and
      ((Fields.field "level" Level.codec).and
        ((Fields.field "tasks" TaskState.codec).and
          ((Fields.field "done" .bool).and
            (Fields.optionalField "manifest" .string))))).iso
    (fun p => ⟨p.1, p.2.1, p.2.2.1, p.2.2.2.1, p.2.2.2.2⟩)
    (fun r => (r.player, r.level, r.progress.tasks, r.progress.done, r.progress.manifest)))

/-- A request to raise a flag. -/
structure TaskUpdate where
  player : String
  level : UInt8
  task : String
  completed : Bool
  deriving DecidableEq

def TaskUpdate.fields :
    Fields (Option String × Option UInt8 × Option String × Option Bool) TaskUpdate :=
  ((Fields.field "playerId" .string).and
      ((Fields.field "level" .octet).and
        ((Fields.field "task" .string).and (Fields.field "completed" .bool)))).iso
    (fun p => ⟨p.1, p.2.1, p.2.2.1, p.2.2.2⟩)
    (fun u => (u.player, u.level, u.task, u.completed))

def TaskUpdate.codec : Codec TaskUpdate := .record fields

/-- A request to grade a manifest. -/
structure Submission where
  player : String
  manifest : String
  deriving DecidableEq

def Submission.fields : Fields (Option String × Option String) Submission :=
  ((Fields.field "playerId" .string).and (Fields.field "manifest" .string)).iso
    (fun p => ⟨p.1, p.2⟩) (fun s => (s.player, s.manifest))

def Submission.codec : Codec Submission := .record fields

/-- The answer to a submission. -/
structure Grading where
  ok : Bool
  errors : List String
  checks : OrderedMap String Bool
  deriving DecidableEq

namespace Grading

def fields :
    Fields (Option Bool × Option (List String) × Option (OrderedMap String Bool)) Grading :=
  ((Fields.field "ok" .bool).and
      ((Fields.field "errors" (.list .string)).and (Fields.field "checks" (.map .bool)))).iso
    (fun p => ⟨p.1, p.2.1, p.2.2⟩) (fun g => (g.ok, g.errors, g.checks))

def codec : Codec Grading := .record fields

/-- The answer that carries a verdict. -/
def ofVerdict (v : Verdict) : Grading :=
  ⟨v.ok, v.errors, .ofList (v.checks.map fun check => (check.name, check.passed))⟩

/-- The verdict that an answer carries; a rule without an outcome counts as failed. -/
def verdict (g : Grading) : Verdict where
  ok := g.ok
  checks := Rule.all.map fun rule => ⟨rule.name, (g.checks.get? rule.name).getD false⟩
  errors := g.errors

end Grading

end EscapeRoom
