import Pulse.Chat.Sql
import Pulse.Lib.Json
import Mathlib.Data.List.Infix
import Mathlib.Data.List.TakeWhile

/-!
# The training export

`api/export.py`: a row for each correction of a call, with the conversation up to the message that
the correction replaces. The message is found by its text, and the first sixty characters of one
text inside another are enough.
-/

namespace Pulse.Api.Export

open Chat (strip contains)
open Lib (Json)

variable {F : Type}

/-! ### Messages -/

inductive Role
  | system | user | assistant
  deriving DecidableEq

structure ToolCall where
  name : String
  arguments : String
  deriving DecidableEq

structure Message where
  role : Role
  content : Option String
  toolCalls : List ToolCall := []
  deriving DecidableEq

/-- The two sides of a `Turn`. -/
structure Turn where
  callerTranscript : Option String := none
  llmSpoken : Option String := none

/-- An entry of `llm_corrections`, by the keys that are read. -/
structure Correction (F : Type) where
  turnId : Option String := none
  kind : Option String := none
  observed : Option String := none
  corrected : Option String := none
  correctedTool : Option String := none
  correctedArgs : Option (Json F) := none

/-- A text that is there and not empty. -/
def truthy (s : Option String) : Option String := s.filter (· ≠ "")

/-- `_corrected_message`; `dumps` is `json.dumps`. -/
def correctedMessage (dumps : Json F → String) (c : Correction F) : Message :=
  match truthy c.correctedTool with
  | some tool =>
    { role := .assistant, content := none,
      toolCalls := [{ name := tool, arguments := dumps (c.correctedArgs.getD (.obj [])) }] }
  | none => { role := .assistant, content := some (c.corrected.getD "") }

/-- `_conversation` -/
def conversation (turns : List Turn) : List Message :=
  turns.flatMap fun t =>
    ((truthy t.callerTranscript).map fun s => { role := .user, content := some s }).toList ++
      ((truthy t.llmSpoken).map fun s => { role := .assistant, content := some s }).toList

/-- `s[:60]` -/
def first60 (s : String) : String := String.ofList (s.toList.take 60)

/-- The test of `_fault_pos` on two texts. -/
def resembles (obs content : String) : Bool :=
  contains (first60 obs) content || contains (first60 content) obs

/-- The test of `_fault_pos` on a message. -/
def isFault (obs : String) (m : Message) : Bool :=
  m.role = .assistant && resembles obs (m.content.getD "")

/-- What `_fault_pos` looks for. -/
def observedText (observed : Option String) : String := strip (observed.getD "")

/-- `_fault_pos` -/
def faultPos (convo : List Message) (observed : Option String) : Nat :=
  let obs := observedText observed
  if obs = "" then convo.length else convo.findIdx (isFault obs)

def systemMessage (script : Option String) : Message where
  role := .system
  content := some (script.getD "")

/-- `_context` -/
def context (script : Option String) (convo : List Message) (pos : Nat) : List Message :=
  systemMessage script :: convo.take pos

/-! ### Rows -/

structure Meta where
  callId : String
  agentId : Option String
  turnId : Option String
  kind : Option String
  faultDim : String := "llm"
  recoverable : Bool
  outcome : String
  gtSource : String := "judge_unverified"
  deriving DecidableEq

inductive Format
  | sft | dpo
  deriving DecidableEq

inductive Dialect
  | trl | openai
  deriving DecidableEq

inductive Body
  | messages (ms : List Message)
  /-- `prompt`, `chosen`, `rejected`, or the keys of the other dialect. -/
  | preference (dialect : Dialect) (ctx chosen rejected : List Message)
  deriving DecidableEq

structure Row where
  body : Body
  meta? : Option Meta
  deriving DecidableEq

/-- What the replies of a row answer. -/
def Body.prompt : Body → List Message
  | .messages ms => ms.dropLast
  | .preference _ ctx _ _ => ctx

/-- `_sft_row` -/
def sftRow (dumps : Json F → String) (ctx : List Message) (c : Correction F) (m : Option Meta) :
    Row where
  body := .messages (ctx ++ [correctedMessage dumps c])
  meta? := m

/-- `_dpo_row` -/
def dpoRow (dumps : Json F → String) (ctx : List Message) (c : Correction F) (observed : String)
    (dialect : Dialect) (m : Option Meta) : Row where
  body := .preference dialect ctx [correctedMessage dumps c]
    [{ role := .assistant, content := some observed }]
  meta? := m

/-- A call with its judgment, as `_rows` reads them. -/
structure JudgedCall (F : Type) where
  externalCallId : String
  agentId : Option String
  script : Option String
  turns : List Turn
  objectiveAchieved : Option String
  llmCorrections : List (Correction F)

/-- `_outcome` -/
def outcome (objectiveAchieved : Option String) : String :=
  if objectiveAchieved = some "yes" then "achieved"
  else if objectiveAchieved = some "no" then "failed"
  else "uncertain"

/-- What the export is asked for. -/
structure Request where
  format : Format := .sft
  dialect : Dialect := .trl
  withMeta : Bool := false

def metaOf (call : JudgedCall F) (c : Correction F) : Meta where
  callId := call.externalCallId
  agentId := call.agentId
  turnId := c.turnId
  kind := c.kind
  recoverable := call.objectiveAchieved ≠ some "yes"
  outcome := outcome call.objectiveAchieved

/-- The row of one correction. -/
def correctionRow (dumps : Json F → String) (r : Request) (call : JudgedCall F)
    (c : Correction F) : Row :=
  let convo := conversation call.turns
  let ctx := context call.script convo (faultPos convo c.observed)
  let m := if r.withMeta then some (metaOf call c) else none
  match r.format with
  | .sft => sftRow dumps ctx c m
  | .dpo => dpoRow dumps ctx c (c.observed.getD "") r.dialect m

/-- There is something to train toward. -/
def Correction.trainable (c : Correction F) : Bool :=
  (truthy c.corrected).isSome || (truthy c.correctedTool).isSome

/-- The rows of one call. -/
def rows (dumps : Json F → String) (r : Request) (call : JudgedCall F) : List Row :=
  (call.llmCorrections.filter Correction.trainable).map (correctionRow dumps r call)

/-! ### The cut -/

/-- The agent says the observed text. -/
def Spoken (obs : String) (m : Message) : Prop := m.role = .assistant ∧ m.content = some obs

instance (obs : String) (m : Message) : Decidable (Spoken obs m) :=
  inferInstanceAs (Decidable (_ ∧ _))

lemma prompt_correctionRow (dumps : Json F → String) (r : Request) (call : JudgedCall F)
    (c : Correction F) :
    (correctionRow dumps r call c).body.prompt =
      context call.script (conversation call.turns)
        (faultPos (conversation call.turns) c.observed) := by
  unfold correctionRow
  cases r.format with
  | sft => exact List.dropLast_concat
  | dpo => rfl

lemma contains_first60 (s : String) : contains (first60 s) s = true := by
  rw [contains, List.any_eq_true]
  refine ⟨s.toList, (List.mem_tails _ _).2 List.suffix_rfl, ?_⟩
  rw [first60, String.toList_ofList, List.isPrefixOf_iff_prefix]
  exact List.take_prefix _ _

/-- A message that is the observed text resembles it. -/
lemma isFault_of_spoken {obs : String} {m : Message} (h : Spoken obs m) : isFault obs m = true := by
  rw [isFault, h.1, h.2, Option.getD_some, resembles, contains_first60]
  simp

/-- The first element with a property is where two parts meet. -/
lemma take_findIdx_eq_iff {α : Type} {p : α → Bool} (as bs : List α) {a : α} (ha : p a = true) :
    (as ++ a :: bs).take ((as ++ a :: bs).findIdx p) = as ↔ ∀ b ∈ as, p b = false := by
  constructor
  · intro h b hb
    rw [← h] at hb
    obtain ⟨i, hi, rfl⟩ := List.getElem_of_mem hb
    rw [List.length_take] at hi
    rw [List.getElem_take]
    exact List.not_of_lt_findIdx (by omega)
  · intro h
    rw [List.findIdx_append, List.findIdx_eq_length_of_false h, if_neg (Nat.lt_irrefl _),
      List.findIdx_cons, ha]
    simp

/-- What stands before the first message that is the observed text. -/
def beforeSpoken (obs : String) (convo : List Message) : List Message :=
  convo.takeWhile fun m => ¬Spoken obs m

lemma exists_split_of_spoken {obs : String} {convo : List Message} (h : ∃ m ∈ convo, Spoken obs m) :
    ∃ m after, convo = beforeSpoken obs convo ++ m :: after ∧ Spoken obs m := by
  have hsplit := List.takeWhile_append_dropWhile (p := fun m => decide ¬Spoken obs m) (l := convo)
  cases hrest : convo.dropWhile fun m => decide ¬Spoken obs m with
  | nil =>
    obtain ⟨m, hm, hspoken⟩ := h
    have hall := List.dropWhile_eq_nil_iff.1 hrest m hm
    simp [hspoken] at hall
  | cons m after =>
    refine ⟨m, after, ?_, ?_⟩
    · rw [hrest] at hsplit
      exact hsplit.symm
    · have hhead := List.head?_dropWhile_not (fun m => decide ¬Spoken obs m) convo
      rw [hrest] at hhead
      simpa using hhead

/-- Both replies of a row answer what stands before the first message that is the observed text,
exactly if nothing that the agent said earlier resembles it. -/
theorem prompt_cut_iff (dumps : Json F → String) (r : Request) (call : JudgedCall F)
    (c : Correction F) (hobserved : observedText c.observed ≠ "")
    (hspoken : ∃ m ∈ conversation call.turns, Spoken (observedText c.observed) m) :
    (correctionRow dumps r call c).body.prompt =
        systemMessage call.script ::
          beforeSpoken (observedText c.observed) (conversation call.turns) ↔
      ∀ m ∈ beforeSpoken (observedText c.observed) (conversation call.turns),
        m.role = .assistant →
          resembles (observedText c.observed) (m.content.getD "") = false := by
  obtain ⟨m, after, hconvo, hm⟩ := exists_split_of_spoken hspoken
  rw [prompt_correctionRow, context, faultPos, if_neg hobserved, List.cons.injEq]
  have hcut := take_findIdx_eq_iff (beforeSpoken (observedText c.observed)
    (conversation call.turns)) after (isFault_of_spoken hm)
  rw [← hconvo] at hcut
  rw [and_iff_right rfl, hcut]
  simp [isFault]

/-- A correction of what the agent says last. -/
def correctedCall (turns : List Turn) : JudgedCall Nat where
  externalCallId := "c1"
  agentId := none
  script := some "Book a room."
  turns := turns
  objectiveAchieved := some "partial"
  llmCorrections := []

def askedTwice : Correction Nat where
  observed := some "Okay. Which city?"
  corrected := some "Okay. You said Rome."

theorem prompt_cut_greeting :
    (correctionRow (fun _ => "") { format := .dpo }
        (correctedCall [{ llmSpoken := some "Good morning." },
          { callerTranscript := some "Rome, please.", llmSpoken := some "Okay. Which city?" }])
        askedTwice).body.prompt =
      [systemMessage (some "Book a room."),
        { role := .assistant, content := some "Good morning." },
        { role := .user, content := some "Rome, please." }] :=
  (prompt_cut_iff _ _ _ askedTwice (by decide +kernel) (by decide +kernel)).2 (by decide +kernel)

/-- The agent acknowledges something first. -/
def acknowledgedCall : JudgedCall Nat :=
  correctedCall [{ llmSpoken := some "Okay." },
    { callerTranscript := some "Rome, please.", llmSpoken := some "Okay. Which city?" }]

/-- The row stops at the acknowledgement. -/
theorem prompt_cut_at_acknowledgement :
    (∃ m ∈ conversation acknowledgedCall.turns, Spoken "Okay. Which city?" m) ∧
      observedText askedTwice.observed = "Okay. Which city?" ∧
      (correctionRow (fun _ => "") { format := .dpo } acknowledgedCall askedTwice).body.prompt ≠
        systemMessage acknowledgedCall.script ::
          beforeSpoken "Okay. Which city?" (conversation acknowledgedCall.turns) := by
  decide +kernel

end Pulse.Api.Export
