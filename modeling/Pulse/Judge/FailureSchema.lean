import Pulse.Chat.Sql
import Pulse.Db.Session
import Pulse.Lib.Json

/-!
# The answer of the failure analysis

`judge/failure_schema.py`: what the second model answers, and what its validators make of it. The
validator that runs last blanks the root cause of an answer that does not call the call a failure.
-/

namespace Pulse.Judge

open Lib (Json)
open Db (Casing)
open Chat (strip)

variable {F : Type}

inductive ModelFault
  | none | asr | llm | tts | other
  deriving DecidableEq

namespace ModelFault

def all : List ModelFault := [.none, .asr, .llm, .tts, .other]

def value : ModelFault → String
  | .none => "none"
  | .asr => "asr"
  | .llm => "llm"
  | .tts => "tts"
  | .other => "other"

end ModelFault

inductive LLMFaultKind
  | response | emotion | toolCall | interpret
  deriving DecidableEq

def LLMFaultKind.value : LLMFaultKind → String
  | .response => "response"
  | .emotion => "emotion"
  | .toolCall => "tool_call"
  | .interpret => "interpret"

structure LLMCorrection (F : Type) where
  turnId : String
  kind : LLMFaultKind
  observed : String
  corrected : String
  correctedTool : Option String := none
  correctedArgs : Option (List (String × Json F)) := none
  rationale : Option String := none

/-- A string or `None` as a value of JSON. -/
def ofText (s : Option String) : Json F := (s.map .str).getD .null

/-- `model_dump(mode="json")` -/
def LLMCorrection.modelDump (c : LLMCorrection F) : Json F :=
  .obj [("turn_id", .str c.turnId), ("kind", .str c.kind.value), ("observed", .str c.observed),
    ("corrected", .str c.corrected), ("corrected_tool", ofText c.correctedTool),
    ("corrected_args", (c.correctedArgs.map .obj).getD .null), ("rationale", ofText c.rationale)]

structure FailureAnalysis (F : Type) where
  isFailure : Bool := false
  rootCause : Option String := none
  modelFault : ModelFault := .none
  modelFaultDetail : Option String := none
  hallucination : Bool := false
  hallucinationDetail : Option String := none
  suggestedFix : Option String := none
  llmCorrections : List (LLMCorrection F) := []

/-- A response of the model that is valid for the schema. A field that is absent is `none`, and
`model_fault` is any text. -/
structure Response (F : Type) where
  isFailure : Option Bool := none
  rootCause : Option String := none
  modelFault : Option String := none
  modelFaultDetail : Option String := none
  hallucination : Option Bool := none
  hallucinationDetail : Option String := none
  suggestedFix : Option String := none
  llmCorrections : Option (List (LLMCorrection F)) := none

/-- `_coerce_fault`, of a field that is there. -/
def coerceFault (py : Casing) (v : String) : ModelFault :=
  let low := py.lower (strip v)
  (ModelFault.all.find? (·.value = low)).getD .other

/-- The fields of a response, with the defaults of the schema. -/
def Response.given (py : Casing) (r : Response F) : FailureAnalysis F where
  isFailure := r.isFailure.getD false
  rootCause := r.rootCause
  modelFault := (r.modelFault.map (coerceFault py)).getD .none
  modelFaultDetail := r.modelFaultDetail
  hallucination := r.hallucination.getD false
  hallucinationDetail := r.hallucinationDetail
  suggestedFix := r.suggestedFix
  llmCorrections := r.llmCorrections.getD []

namespace FailureAnalysis

variable (a : FailureAnalysis F)

/-- The first rule of `_clean_conditionals`. -/
def dropRootCause : FailureAnalysis F :=
  if a.isFailure then a else
    { a with
      rootCause := none
      modelFaultDetail := none
      hallucinationDetail := none
      suggestedFix := none
      modelFault := .none
      hallucination := false }

/-- The other rules of `_clean_conditionals`. -/
def dropDetails : FailureAnalysis F :=
  { a with
    modelFaultDetail := if a.modelFault = .none then none else a.modelFaultDetail
    hallucinationDetail := if a.hallucination then a.hallucinationDetail else none
    llmCorrections := if a.modelFault ≠ .llm then [] else a.llmCorrections }

/-- `_clean_conditionals` -/
def cleanConditionals : FailureAnalysis F := a.dropRootCause.dropDetails

/-- There is nothing that the first rule takes away and the others leave. -/
def Blank : Prop :=
  a.rootCause = none ∧ a.modelFault = .none ∧ a.hallucination = false ∧ a.suggestedFix = none

variable {a}

/-- An answer keeps its fields if it says that the call failed, or if it says nothing. -/
lemma dropRootCause_kept_iff :
    (a.dropRootCause.rootCause = a.rootCause ∧ a.dropRootCause.modelFault = a.modelFault ∧
      a.dropRootCause.hallucination = a.hallucination ∧
      a.dropRootCause.suggestedFix = a.suggestedFix) ↔ a.isFailure = true ∨ a.Blank := by
  unfold dropRootCause Blank
  cases h : a.isFailure with
  | true => simp
  | false =>
    simp only [Bool.false_eq_true, if_false, false_or]
    constructor
    · rintro ⟨hroot, hfault, hhallucination, hfix⟩
      exact ⟨hroot.symm, hfault.symm, hhallucination.symm, hfix.symm⟩
    · rintro ⟨hroot, hfault, hhallucination, hfix⟩
      exact ⟨hroot.symm, hfault.symm, hhallucination.symm, hfix.symm⟩

/-- The details go by the same rules if the fields are kept. -/
lemma dropDetails_dropRootCause (h : a.isFailure = true ∨ a.Blank) :
    a.dropRootCause.dropDetails = a.dropDetails := by
  unfold dropRootCause
  cases hfailure : a.isFailure with
  | true => rw [if_pos rfl]
  | false =>
    obtain ⟨hroot, hfault, hhallucination, hfix⟩ := h.resolve_left (by simp [hfailure])
    simp [dropDetails, hfailure, hroot, hfault, hhallucination, hfix]

end FailureAnalysis

/-- `FailureAnalysis.model_validate` -/
def Response.validate (py : Casing) (r : Response F) : FailureAnalysis F :=
  (r.given py).cleanConditionals

end Pulse.Judge
