import Mathlib.Data.Rat.Defs
import Mathlib.Tactic.Common

/-!
# Judging a call

`judge_call` of `judge/run.py` with the disposition of `judge/disposition.py`. What the two models
say is a parameter; a call of an agent that requires parameters is not judged without them.
-/

namespace Pulse.Judge

structure Line where
  role : String
  text : String
  deriving DecidableEq

/-- What `resolve` gives: lines that are derived from the turns, or an uploaded text. -/
structure Transcript where
  lines : List Line := []
  text : Option String := none
  deriving DecidableEq

/-- The columns of a call that are read here, with the transcript of its turns. -/
structure Call where
  id : String
  externalCallId : String
  agentId : Option String
  transcript : Transcript := {}
  hangupBy : Option String := none
  durationS : Option ℚ := none
  status : String := "awaiting_media"
  analysed : Bool := false
  deriving DecidableEq

/-! ### Disposition -/

/-- `_caller_spoke` -/
def callerSpoke (t : Transcript) : Bool :=
  t.lines.any (fun l => l.role = "caller" ∧ l.text ≠ "") || t.text.getD "" ≠ ""

/-- `programmatic_disposition` -/
def programmaticDisposition (c : Call) : String :=
  let silent := c.durationS.getD 0 = 0
  if callerSpoke c.transcript then "connected"
  else if c.hangupBy = some "remote" ∧ silent ∨ c.status = "failed" then "no_answer"
  else if silent then "no_answer" else "unknown"

/-- `is_connected` -/
def isConnected (disposition : String) : Bool := disposition = "connected"

/-- Is the call connected? -/
def Call.connected (c : Call) : Bool := isConnected (programmaticDisposition c)

/-! ### The judgment -/

/-- The columns of the judge, by those that are read again. -/
structure JudgeFields (J : Type) where
  objectiveAchieved : Option String
  guardrailViolation : Option Bool
  others : J
  deriving DecidableEq

/-- A row of `Judgment`, with the columns of the judge and those of the failure analysis. -/
structure Judgment (J F : Type) where
  disposition : Option String := none
  status : String := "skipped"
  model : Option String := none
  error : Option String := none
  judge : Option (JudgeFields J) := none
  failure : Option F := none
  deriving DecidableEq

/-- What `_judge` returns. -/
inductive JudgeResult (J : Type)
  /-- The role has no model. -/
  | unconfigured
  | ok (model : String) (fields : JudgeFields J)
  | failed (model error : String)

/-- The models, by what they are shown of the call and its parameters. -/
structure Models (P J F : Type) where
  judge : Call → Option P → JudgeResult J
  /-- `_failure`, with `is_failure` set -/
  failure : Call → Option P → Option F
  /-- `_FAILURE_DEFAULT` -/
  failureDefault : F

/-- `_judge_flags_failure`, of fields that are there. -/
def judgeFlagsFailure {J : Type} (fields : JudgeFields J) : Bool :=
  fields.guardrailViolation = some true ||
    ["not_achieved", "partial"].any (fields.objectiveAchieved = some ·)

variable {P J F : Type}

/-- `_apply_judge` and the failure analysis after it. -/
def Models.apply (m : Models P J F) (c : Call) (params : Option P) (j : Judgment J F) :
    Judgment J F :=
  match m.judge c params with
  | .unconfigured =>
    { j with model := none, status := "skipped", error := none, judge := none,
             failure := some m.failureDefault }
  | .ok model fields =>
    { j with
      model := some model
      status := "ok"
      error := none
      judge := some fields
      failure := some (if judgeFlagsFailure fields then (m.failure c params).getD m.failureDefault
        else m.failureDefault) }
  | .failed model error =>
    { j with model := some model, status := "failed", error := some error, judge := none,
             failure := some m.failureDefault }

/-- `judge_call`, on the row that is there and the parameters that `resolve_params` finds. -/
def judgeCall (m : Models P J F) (paramsRequired : Bool) (params : Option P) (c : Call)
    (row : Option (Judgment J F)) : Judgment J F :=
  let disposition := programmaticDisposition c
  let j := { row.getD {} with disposition := some disposition }
  if !isConnected disposition then
    { j with judge := none, failure := none, status := "skipped", model := none }
  else if paramsRequired ∧ params.isNone then
    { j with judge := none, failure := none, status := "skipped", model := none,
             error := some "no_params" }
  else m.apply c params j

/-- What the gate leaves of a call without parameters. -/
def Judgment.Gated (j : Judgment J F) : Prop := j.status = "skipped" ∧ j.error = some "no_params"

/-- The row of a connected call that was judged with the parameters. -/
def Models.judgedWith (m : Models P J F) (c : Call) (params : P) : Judgment J F :=
  m.apply c (some params) { disposition := some "connected" }

variable {m : Models P J F} {c : Call}

lemma disposition_of_connected (h : c.connected = true) :
    programmaticDisposition c = "connected" := by
  simpa [Call.connected, isConnected] using h

/-- With its parameters a connected call is judged, whatever was there before. -/
lemma judgeCall_of_params (h : c.connected = true) (required : Bool) (params : P)
    (row : Option (Judgment J F)) :
    judgeCall m required (some params) c row = m.judgedWith c params := by
  have hdisposition := disposition_of_connected h
  simp only [judgeCall, hdisposition, isConnected, decide_true, Bool.not_true, Bool.false_eq_true,
    if_false, Option.isNone_some, and_false, Models.judgedWith, Models.apply]

lemma not_gated_judgedWith (m : Models P J F) (c : Call) (params : P) :
    ¬(m.judgedWith c params).Gated := by
  unfold Models.judgedWith Models.apply Judgment.Gated
  cases m.judge c (some params) <;> simp

end Pulse.Judge
