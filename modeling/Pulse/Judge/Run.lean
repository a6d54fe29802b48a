import Pulse.Judge.FailureSchema
import Pulse.Judge.Gate

/-!
# The columns of a judgment

`judge_call` of `judge/run.py`, column by column. A row is what its columns hold, and every way
through `judge_call` is one list of writes to it, so what a run leaves of the row before it is what
its list does not name.
-/

namespace Pulse.Judge.Run

open Lib (Json)
open Db (Casing)

variable {F : Type}

/-! ### Rows -/

/-- What the columns of a `Judgment` hold. -/
abbrev Row (F : Type) := String → Json F

namespace Row

/-- `Judgment(call_id=call.id)` -/
def new : Row F := fun _ => .null

/-- `for f, v in fields.items(): setattr(j, f, v)` -/
def setAll (j : Row F) (fields : List (String × Json F)) : Row F :=
  fields.foldl (fun j e => Function.update j e.1 e.2) j

def set (j : Row F) (column : String) (v : Json F) : Row F := j.setAll [(column, v)]

/-- `_clear` -/
def clear (j : Row F) (fields : List String) : Row F := j.setAll (fields.map (·, .null))

lemma setAll_setAll (j : Row F) (ws ws' : List (String × Json F)) :
    (j.setAll ws).setAll ws' = j.setAll (ws ++ ws') := by
  rw [setAll, setAll, setAll, List.foldl_append]

lemma setAll_of_not_mem {j : Row F} {ws : List (String × Json F)} {name : String}
    (h : name ∉ ws.map Prod.fst) : j.setAll ws name = j name := by
  induction ws generalizing j with
  | nil => rfl
  | cons e ws ih =>
    simp only [List.map_cons, List.mem_cons, not_or] at h
    rw [setAll, List.foldl_cons]
    exact (ih h.2).trans (Function.update_of_ne h.1 _ _)

/-- A column that is written does not depend on the row before. -/
lemma setAll_congr {ws : List (String × Json F)} {name : String} (h : name ∈ ws.map Prod.fst)
    (j j' : Row F) : j.setAll ws name = j'.setAll ws name := by
  induction ws generalizing j j' with
  | nil => simp at h
  | cons e ws ih =>
    rw [setAll, setAll, List.foldl_cons, List.foldl_cons]
    by_cases hws : name ∈ ws.map Prod.fst
    · exact ih hws _ _
    · have hname : name = e.1 := by
        simpa [hws] using h
      change setAll _ ws name = setAll _ ws name
      rw [setAll_of_not_mem hws, setAll_of_not_mem hws, hname, Function.update_self,
        Function.update_self]

lemma setAll_of_mem {ws : List (String × Json F)} (hws : (ws.map Prod.fst).Nodup)
    {e : String × Json F} (he : e ∈ ws) (j : Row F) : j.setAll ws e.1 = e.2 := by
  induction ws generalizing j with
  | nil => simp at he
  | cons e' ws ih =>
    rw [List.map_cons, List.nodup_cons] at hws
    rw [setAll, List.foldl_cons]
    rcases List.mem_cons.1 he with rfl | he
    · exact (setAll_of_not_mem hws.1).trans (Function.update_self _ _ _)
    · exact ih hws.2 he _

end Row

/-- `_JUDGE_FIELDS` -/
def judgeFields : List String :=
  ["sentiment", "objective_achieved", "answered_by", "primary_language", "secondary_languages",
    "script_adherence", "escalation_requested", "callback_requested", "callback_time",
    "guardrail_violation", "guardrail_violation_points", "summary"]

/-- `_FAILURE_FIELDS` -/
def failureFields : List String :=
  ["is_failure", "root_cause", "model_fault", "model_fault_detail", "hallucination",
    "hallucination_detail", "suggested_fix", "llm_corrections"]

/-- The columns of a judgment that say something about the call. -/
def judgedColumns : List String :=
  ["disposition", "status", "model", "error"] ++ judgeFields ++ failureFields

/-! ### The two models -/

inductive Objective
  | achieved | partly | notAchieved
  deriving DecidableEq

def Objective.value : Objective → String
  | .achieved => "achieved"
  | .partly => "partial"
  | .notAchieved => "not_achieved"

/-- The texts of the other enumerations are those of the schema already. -/
structure JudgeOutput where
  sentiment : String
  objectiveAchieved : Objective
  answeredBy : String
  primaryLanguage : String
  secondaryLanguages : List String := []
  scriptAdherence : String
  escalationRequested : Bool := false
  callbackRequested : Bool := false
  callbackTime : Option String := none
  guardrailViolation : Bool := false
  guardrailViolationPoints : List String := []
  summary : Option String := none

/-- `{f: getattr(out, f) for f in _JUDGE_FIELDS}` -/
def JudgeOutput.fields (out : JudgeOutput) : List (String × Json F) :=
  [("sentiment", .str out.sentiment), ("objective_achieved", .str out.objectiveAchieved.value),
    ("answered_by", .str out.answeredBy), ("primary_language", .str out.primaryLanguage),
    ("secondary_languages", .arr (out.secondaryLanguages.map .str)),
    ("script_adherence", .str out.scriptAdherence),
    ("escalation_requested", .bool out.escalationRequested),
    ("callback_requested", .bool out.callbackRequested),
    ("callback_time", ofText out.callbackTime),
    ("guardrail_violation", .bool out.guardrailViolation),
    ("guardrail_violation_points", .arr (out.guardrailViolationPoints.map .str)),
    ("summary", ofText out.summary)]

/-- The dictionary of a `FailureAnalysis`, by `_FAILURE_FIELDS`. -/
def failureDump (out : FailureAnalysis F) : List (String × Json F) :=
  [("is_failure", .bool out.isFailure), ("root_cause", ofText out.rootCause),
    ("model_fault", .str out.modelFault.value), ("model_fault_detail", ofText out.modelFaultDetail),
    ("hallucination", .bool out.hallucination),
    ("hallucination_detail", ofText out.hallucinationDetail),
    ("suggested_fix", ofText out.suggestedFix),
    ("llm_corrections", .arr (out.llmCorrections.map LLMCorrection.modelDump))]

/-- `_FAILURE_DEFAULT` -/
def failureDefault : List (String × Json F) :=
  [("is_failure", .bool false), ("root_cause", .null), ("model_fault", .str "none"),
    ("model_fault_detail", .null), ("hallucination", .bool false), ("hallucination_detail", .null),
    ("suggested_fix", .null), ("llm_corrections", .arr [])]

/-- The default is what an empty answer gives. -/
lemma failureDefault_eq : failureDefault (F := F) = failureDump {} := rfl

/-- What the models are shown. -/
structure Ctx (F : Type) where
  script : Option String
  guardrails : Option String
  transcript : Transcript
  callId : String
  params : Option (List (String × Json F))

/-- The two roles. A role has no model, or its model answers or fails; the answer is valid for its
schema. -/
structure Models (F : Type) where
  postCallAnalysis : Ctx F → Option (String × Except String JudgeOutput)
  failureAnalysis : Ctx F → Option (Except String (Response F))

structure JudgeResult where
  status : String
  model : Option String
  fields : Option JudgeOutput
  error : Option String

/-- `_judge` -/
def judge (m : Models F) (ctx : Ctx F) : JudgeResult :=
  match m.postCallAnalysis ctx with
  | none => { status := "skipped", model := none, fields := none, error := none }
  | some (model, .ok out) => { status := "ok", model := some model, fields := some out, error := none }
  | some (model, .error e) =>
    { status := "failed", model := some model, fields := none, error := some e }

/-- `_judge_flags_failure` -/
def judgeFlagsFailure (res : JudgeResult) : Bool :=
  match res.fields with
  | none => false
  | some out => out.guardrailViolation || out.objectiveAchieved ∈ [.notAchieved, .partly]

/-- `_failure` -/
def failure (py : Casing) (m : Models F) (ctx : Ctx F) : Option (List (String × Json F)) :=
  match m.failureAnalysis ctx with
  | some (.ok response) => some (failureDump (response.validate py))
  | _ => none

/-! ### The judgment -/

/-- What `judge_call` reads of the store. -/
structure Inputs (F : Type) where
  call : Call
  paramsRequired : Bool
  params : Option (List (String × Json F))
  script : Option String
  guardrails : Option String

namespace Inputs

variable (i : Inputs F)

def disposition : String := programmaticDisposition i.call

def connected : Bool := isConnected i.disposition

/-- The gate of the parameters is shut. -/
def gated : Bool := i.paramsRequired && i.params.isNone

def ctx : Ctx F where
  script := i.script
  guardrails := i.guardrails
  transcript := i.call.transcript
  callId := i.call.externalCallId
  params := i.params

end Inputs

/-- `_apply_judge` -/
def applyJudge (j : Row F) (res : JudgeResult) : Row F :=
  let j := ((j.set "model" (ofText res.model)).set "status" (.str res.status)).set "error"
    (ofText res.error)
  match res.fields with
  | some out => j.setAll out.fields
  | none => j.clear judgeFields

/-- `_apply_failure` -/
def applyFailure (j : Row F) (fields : List (String × Json F)) : Row F :=
  if fields.isEmpty then j.clear failureFields else j.setAll fields

/-- `d[key] = v` of a dictionary that has the key. -/
def setItem (d : List (String × Json F)) (key : String) (v : Json F) : List (String × Json F) :=
  d.map fun e => if e.1 = key then (key, v) else e

/-- `judge_call`, on the row that is there. -/
def judgeCall (py : Casing) (m : Models F) (i : Inputs F) (row : Option (Row F)) : Row F :=
  let j := (row.getD .new).set "disposition" (.str i.disposition)
  if !i.connected then
    ((j.clear (judgeFields ++ failureFields)).set "status" (.str "skipped")).set "model" .null
  else if i.gated then
    (((j.clear (judgeFields ++ failureFields)).set "status" (.str "skipped")).set "model" .null).set
      "error" (.str "no_params")
  else
    let res := judge m i.ctx
    let j := applyJudge j res
    if judgeFlagsFailure res then
      match failure py m i.ctx with
      | some fields => applyFailure j (setItem fields "is_failure" (.bool true))
      | none => applyFailure j failureDefault
    else applyFailure j failureDefault

/-! ### What a run writes -/

/-- What the failure analysis writes, after the judge. -/
def failureWrites (py : Casing) (m : Models F) (ctx : Ctx F) : List (String × Json F) :=
  if judgeFlagsFailure (judge m ctx) then
    match failure py m ctx with
    | some fields => setItem fields "is_failure" (.bool true)
    | none => failureDefault
  else failureDefault

/-- What the judge writes. -/
def judgeWrites (res : JudgeResult) : List (String × Json F) :=
  [("model", ofText res.model), ("status", .str res.status), ("error", ofText res.error)] ++
    match res.fields with
    | some out => out.fields
    | none => judgeFields.map (·, .null)

/-- All that a run writes, in its order. -/
def writes (py : Casing) (m : Models F) (i : Inputs F) : List (String × Json F) :=
  [("disposition", .str i.disposition)] ++
    if !i.connected then
      (judgeFields ++ failureFields).map (·, .null) ++ [("status", .str "skipped"), ("model", .null)]
    else if i.gated then
      (judgeFields ++ failureFields).map (·, .null) ++
        [("status", .str "skipped"), ("model", .null), ("error", .str "no_params")]
    else judgeWrites (judge m i.ctx) ++ failureWrites py m i.ctx

lemma setItem_failureDump (a : FailureAnalysis F) :
    setItem (failureDump a) "is_failure" (.bool true) = failureDump { a with isFailure := true } :=
  rfl

/-- The columns of the failure analysis are written, each of them once. -/
lemma failureWrites_keys (py : Casing) (m : Models F) (ctx : Ctx F) :
    (failureWrites py m ctx).map Prod.fst = failureFields := by
  unfold failureWrites failure
  split
  · split <;> rename_i h
    · split at h
      · rw [← Option.some.inj h, setItem_failureDump]
        rfl
      · simp at h
    · rfl
  · rfl

lemma judgeWrites_keys (res : JudgeResult) :
    (judgeWrites (F := F) res).map Prod.fst = ["model", "status", "error"] ++ judgeFields := by
  unfold judgeWrites
  cases res.fields with
  | none => rfl
  | some out => rfl

lemma applyFailure_eq {j : Row F} {fields : List (String × Json F)}
    (h : fields.map Prod.fst = failureFields) : applyFailure j fields = j.setAll fields := by
  cases fields with
  | nil => simp [failureFields] at h
  | cons e fields => rfl

lemma applyJudge_eq (j : Row F) (res : JudgeResult) :
    applyJudge j res = j.setAll (judgeWrites res) := by
  unfold applyJudge judgeWrites
  cases res.fields with
  | none => simp only [Row.set, Row.clear, Row.setAll_setAll, List.cons_append, List.nil_append]
  | some out => simp only [Row.set, Row.setAll_setAll, List.cons_append, List.nil_append]

/-- A run is one list of writes, whatever the row was before. -/
lemma judgeCall_eq (py : Casing) (m : Models F) (i : Inputs F) (row : Option (Row F)) :
    judgeCall py m i row = (row.getD .new).setAll (writes py m i) := by
  have hfailure : ∀ j : Row F, (if judgeFlagsFailure (judge m i.ctx) then
      match failure py m i.ctx with
      | some fields => applyFailure j (setItem fields "is_failure" (.bool true))
      | none => applyFailure j failureDefault
    else applyFailure j failureDefault) = j.setAll (failureWrites py m i.ctx) := by
    intro j
    rw [← applyFailure_eq (failureWrites_keys py m i.ctx)]
    unfold failureWrites
    split
    · cases failure py m i.ctx <;> rfl
    · rfl
  unfold judgeCall writes
  split
  · simp only [Row.set, Row.clear, Row.setAll_setAll, List.append_assoc, List.cons_append,
      List.nil_append]
  · split
    · simp only [Row.set, Row.clear, Row.setAll_setAll, List.append_assoc, List.cons_append,
        List.nil_append]
    · simp only [hfailure, applyJudge_eq, Row.set, Row.setAll_setAll, List.append_assoc]

/-- The columns that a run writes. -/
lemma writes_keys (py : Casing) (m : Models F) (i : Inputs F) :
    (writes py m i).map Prod.fst = ["disposition"] ++
      if !i.connected then judgeFields ++ failureFields ++ ["status", "model"]
      else if i.gated then judgeFields ++ failureFields ++ ["status", "model", "error"]
      else ["model", "status", "error"] ++ judgeFields ++ failureFields := by
  unfold writes
  split
  · rfl
  · split
    · rfl
    · rw [List.map_append, List.map_append, judgeWrites_keys, failureWrites_keys]
      rfl

/-- A column that a run does not write is the error of a call that is not connected. -/
lemma mem_keys_iff (py : Casing) (m : Models F) (i : Inputs F) {name : String}
    (hname : name ∈ judgedColumns) :
    name ∈ (writes py m i).map Prod.fst ↔ i.connected = true ∨ name ≠ "error" := by
  rw [writes_keys]
  revert name
  cases i.connected with
  | true => cases i.gated <;> decide
  | false =>
    simp only [Bool.not_false, if_true]
    decide

/-- A second run leaves nothing of the first judgment exactly if the call is connected, or there
was no error in the row. -/
theorem rejudge_iff (py : Casing) (m : Models F) (i : Inputs F) (old : Row F) :
    (∀ name ∈ judgedColumns, judgeCall py m i (some old) name = judgeCall py m i none name) ↔
      i.connected = true ∨ old "error" = .null := by
  simp only [judgeCall_eq, Option.getD_some, Option.getD_none]
  constructor
  · intro h
    by_cases hconnected : i.connected = true
    · exact .inl hconnected
    · right
      have herror : "error" ∉ (writes py m i).map Prod.fst := by
        rw [mem_keys_iff py m i (by decide)]
        simpa using hconnected
      have heq := h "error" (by decide)
      rwa [Row.setAll_of_not_mem herror, Row.setAll_of_not_mem herror] at heq
  · intro h name hname
    by_cases hkey : name ∈ (writes py m i).map Prod.fst
    · exact Row.setAll_congr hkey _ _
    · rw [Row.setAll_of_not_mem hkey, Row.setAll_of_not_mem hkey]
      rw [mem_keys_iff py m i hname, not_or, not_not] at hkey
      rw [hkey.2]
      exact h.resolve_left hkey.1

/-- A call that is judged without its parameters, and that has lost its lines when it is judged
again. -/
def silentInputs : Inputs Nat where
  call := { id := "c1", externalCallId := "x1", agentId := some "a1" }
  paramsRequired := true
  params := none
  script := none
  guardrails := none

def noModels : Models Nat where
  postCallAnalysis _ := none
  failureAnalysis _ := none

/-- The reason of the last judgment stands beside the disposition of this one. -/
theorem stale_error_kept :
    ¬∀ name ∈ judgedColumns,
      judgeCall Db.asciiCasing noModels silentInputs
          (some fun name => if name = "error" then .str "no_params" else .null) name =
        judgeCall Db.asciiCasing noModels silentInputs none name := by
  intro h
  have heq := h "error" (by decide)
  have hleft : judgeCall Db.asciiCasing noModels silentInputs
      (some fun name => if name = "error" then .str "no_params" else .null) "error" =
      .str "no_params" := rfl
  have hright : judgeCall Db.asciiCasing noModels silentInputs none "error" = .null := rfl
  rw [hleft, hright] at heq
  cases heq

/-! ### The root cause -/

/-- The columns of the failure analysis are those of an answer. -/
def Holds (row : Row F) (a : FailureAnalysis F) : Prop := ∀ e ∈ failureDump a, row e.1 = e.2

lemma failureDump_keys (a : FailureAnalysis F) : (failureDump a).map Prod.fst = failureFields := rfl

/-- What is stored for a call that the judge flags is the cleaned answer, as a failure. -/
lemma judgeCall_failure (py : Casing) {m : Models F} {i : Inputs F} {response : Response F}
    (hconnected : i.connected = true) (hgated : i.gated = false)
    (hflags : judgeFlagsFailure (judge m i.ctx) = true)
    (hresponse : m.failureAnalysis i.ctx = some (.ok response)) (row : Option (Row F)) :
    Holds (judgeCall py m i row) { response.validate py with isFailure := true } := by
  have hwrites : failureWrites py m i.ctx =
      failureDump { response.validate py with isFailure := true } := by
    unfold failureWrites failure
    rw [if_pos hflags, hresponse]
    exact setItem_failureDump _
  intro e he
  rw [judgeCall_eq, writes, hconnected, hgated]
  simp only [Bool.not_true, Bool.false_eq_true, if_false]
  rw [hwrites, ← List.append_assoc, ← Row.setAll_setAll]
  refine Row.setAll_of_mem ?_ he _
  rw [failureDump_keys]
  decide

lemma ofText_injective : Function.Injective (ofText (F := F)) := by
  intro s s' h
  cases s <;> cases s' <;> simp_all [ofText]

lemma value_injective : Function.Injective ModelFault.value := by
  intro a b
  cases a <;> cases b <;> decide

/-- Two answers that the same row holds agree in what the first rule blanks. -/
lemma Holds.agree {row : Row F} {a b : FailureAnalysis F} (ha : Holds row a) (hb : Holds row b) :
    a.rootCause = b.rootCause ∧ a.modelFault = b.modelFault ∧ a.hallucination = b.hallucination ∧
      a.suggestedFix = b.suggestedFix := by
  simp only [Holds, failureDump, List.forall_mem_cons] at ha hb
  obtain ⟨-, hroot, hfault, -, hhallucination, -, hfix, -⟩ := ha
  obtain ⟨-, hroot', hfault', -, hhallucination', -, hfix', -⟩ := hb
  refine ⟨ofText_injective (hroot.symm.trans hroot'), value_injective ?_, ?_,
    ofText_injective (hfix.symm.trans hfix')⟩
  · simpa using hfault.symm.trans hfault'
  · simpa using hhallucination.symm.trans hhallucination'

/-- A call that the judge flags keeps its root cause exactly if the answer says that the call
failed, or says nothing. -/
theorem failure_kept_iff (py : Casing) (m : Models F) (i : Inputs F) (row : Option (Row F))
    (response : Response F) (hconnected : i.connected = true) (hgated : i.gated = false)
    (hflags : judgeFlagsFailure (judge m i.ctx) = true)
    (hresponse : m.failureAnalysis i.ctx = some (.ok response)) :
    Holds (judgeCall py m i row) { (response.given py).dropDetails with isFailure := true } ↔
      response.isFailure = some true ∨ (response.given py).Blank := by
  -- The other rules read and leave what the first rule blanks.
  have hstored := judgeCall_failure py hconnected hgated hflags hresponse row
  have hgiven : (response.given py).isFailure = true ↔ response.isFailure = some true := by
    cases h : response.isFailure <;> simp [Response.given, h]
  rw [← hgiven]
  constructor
  · intro h
    have hagree := hstored.agree h
    exact FailureAnalysis.dropRootCause_kept_iff.1 hagree
  · intro h
    rwa [Response.validate, FailureAnalysis.cleanConditionals,
      FailureAnalysis.dropDetails_dropRootCause h] at hstored

/-- A call that has not achieved its objective, with what a model says about it. -/
def talkedInputs : Inputs Nat where
  call := { id := "c1", externalCallId := "x1", agentId := none,
            transcript := { lines := [{ role := "caller", text := "hello" }] } }
  paramsRequired := false
  params := none
  script := none
  guardrails := none

def flagged : JudgeOutput where
  sentiment := "neutral"
  objectiveAchieved := .notAchieved
  answeredBy := "human"
  primaryLanguage := "en"
  scriptAdherence := "followed"

def analysing (response : Response Nat) : Models Nat where
  postCallAnalysis _ := some ("judge-model", .ok flagged)
  failureAnalysis _ := some (.ok response)

theorem failure_kept_mishearing :
    Holds (judgeCall Db.asciiCasing
        (analysing { isFailure := some true, rootCause := some "misheard the date",
                     modelFault := some " ASR " }) talkedInputs none)
      { (Response.given (F := Nat) Db.asciiCasing
          { isFailure := some true, rootCause := some "misheard the date",
            modelFault := some " ASR " }).dropDetails with isFailure := true } :=
  (failure_kept_iff _ _ _ none _ (by decide) (by decide) (by decide) rfl).2 (.inl rfl)

/-- The answer leaves the flag out, and the stored judgment has no root cause. -/
theorem rootCause_blanked :
    talkedInputs.connected = true ∧ talkedInputs.gated = false ∧
      judgeFlagsFailure (judge (analysing { rootCause := some "misheard the date" })
        talkedInputs.ctx) = true ∧
      ¬Holds (judgeCall Db.asciiCasing (analysing { rootCause := some "misheard the date" })
          talkedInputs none)
        { (Response.given (F := Nat) Db.asciiCasing
            { rootCause := some "misheard the date" }).dropDetails with isFailure := true } := by
  refine ⟨by decide, by decide, by decide, fun h => ?_⟩
  have hroot := h ("root_cause", .str "misheard the date") (.tail _ (.head _))
  have hstored : judgeCall Db.asciiCasing (analysing { rootCause := some "misheard the date" })
      talkedInputs none "root_cause" = .null := rfl
  rw [hstored] at hroot
  cases hroot

end Pulse.Judge.Run
