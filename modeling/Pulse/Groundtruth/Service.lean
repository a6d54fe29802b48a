import Pulse.Groundtruth.Text

/-!
# Transcript checks

`_transcript` of `groundtruth/service.py` compares the transcript of each side with what speech
recognition hears on its channel. The words that are compared are those of the letters a to z and of
digits: texts that differ in other letters only are taken for the same.
-/

namespace Pulse.Groundtruth

open Pulse.Core
open Lib (PyFloat Edits distance)

inductive Verdict
  | agree
  | material
  | unverifiable
  deriving DecidableEq

inductive Dimension
  | voiceToVoice
  | endpointing
  | interruption
  | truncation
  | transcript
  | deadAir
  deriving DecidableEq

/-- A reconciled field, of those that `_transcript` makes. -/
structure Discrepancy where
  dimension : Dimension
  field : String
  reported : Option String := none
  measured : Option String := none
  delta : Option ℚ := none
  band : Option PyFloat := none
  verdict : Verdict := .unverifiable
  note : Option String := none

/-- The tolerance of `_transcript`. -/
structure TolerancePolicy where
  transcriptWerBand : PyFloat := .fin (1 / 5)

/-- A side of a call: its field, its transcript and its recording. -/
structure Channel where
  field : String
  ref : String
  wav : Option (List UInt8)

section

variable [Text]

/-- The check of a transcript against the text that is heard. -/
def werCheck (policy : TolerancePolicy) (field ref text : String) : Discrepancy :=
  let w := Lib.roundTo 3 (wer ref text)
  let beyond := decide (policy.transcriptWerBand < .fin w)
  { dimension := .transcript
    field := field
    reported := some (ref.take 120).toString
    measured := some (text.take 120).toString
    delta := some w
    band := some policy.transcriptWerBand
    verdict := if beyond then .material else .agree
    note := if beyond then some "producer transcript diverges from the audio" else none }

def sttUnavailable (field : String) : Discrepancy where
  dimension := .transcript
  field := field
  note := some "STT unavailable"

/-- What `_transcript` adds for a side. -/
def checkChannel (transcribe : List UInt8 → Option String) (policy : TolerancePolicy) (c : Channel) :
    Option Discrepancy :=
  let wav := c.wav.getD []
  if c.ref = "" ∨ wav = [] then none
  else some ((transcribe wav).elim (sttUnavailable c.field) (werCheck policy c.field c.ref))

/-- `a or b`, of texts. -/
def textOr (a b : Option String) : Option String :=
  if a.getD "" = "" then b else a

def channels (turns : List (Turn Measured)) (callerWav agentWav : Option (List UInt8)) :
    List Channel :=
  let callerRef := " ".intercalate ((turns.filterMap (·.measured.transcript)).filter (· ≠ ""))
  let agentRef := " ".intercalate (turns.map fun t =>
    (textOr t.measured.llmSpoken t.measured.llmRaw).getD "")
  [⟨"caller_wer", callerRef, callerWav⟩,
    ⟨"agent_wer", String.ofList (strip (F := PyFloat) agentRef.toList), agentWav⟩]

/-- `_transcript`, after the text that speech recognition hears in a recording, if it answers. -/
def transcript {STTConfig : Type} (transcribe : STTConfig → List UInt8 → Option String)
    (turns : List (Turn Measured)) (callerWav agentWav : Option (List UInt8))
    (stt : Option STTConfig) (policy : TolerancePolicy) : Option (List Discrepancy) :=
  stt.bind fun stt =>
    let out := (channels turns callerWav agentWav).filterMap (checkChannel (transcribe stt) policy)
    if out.isEmpty then none else some out

/-- Each check compares the transcript of a side with the text that is heard on its channel. -/
lemma mem_transcript {STTConfig : Type} {transcribe : STTConfig → List UInt8 → Option String}
    {turns : List (Turn Measured)} {callerWav agentWav : Option (List UInt8)}
    {stt : Option STTConfig} {policy : TolerancePolicy} {out : List Discrepancy}
    (h : transcript transcribe turns callerWav agentWav stt policy = some out) {d : Discrepancy}
    (hd : d ∈ out) : d.verdict = .unverifiable ∨ ∃ c ∈ channels turns callerWav agentWav,
      ∃ text, d = werCheck policy c.field c.ref text := by
  obtain ⟨stt, -, hout⟩ := Option.bind_eq_some_iff.1 h
  obtain ⟨-, hout⟩ := Option.ite_none_left_eq_some.1 hout
  obtain rfl := Option.some.inj hout
  obtain ⟨c, hc, hcheck⟩ := List.mem_filterMap.1 hd
  obtain ⟨-, hcheck⟩ := Option.ite_none_left_eq_some.1 hcheck
  obtain rfl := Option.some.inj hcheck
  cases transcribe stt (c.wav.getD []) with
  | none => exact .inl rfl
  | some text => exact .inr ⟨c, hc, text, rfl⟩

/-! ### Which words agree -/

variable (isWord : Char → Bool) (policy : TolerancePolicy)

/-- The texts have the same words up to case and punctuation, where the characters with `isWord` are
those of words and all others are punctuation. -/
def SameWords (ref text : String) : Prop :=
  findRuns isWord (Text.lower ref) = findRuns isWord (Text.lower text)

/-- Texts without errors have the same words, and so have those of a check that agrees at zero. -/
structure Sound (field ref text : String) : Prop where
  wer : wer ref text = 0 → SameWords isWord ref text
  check : (werCheck policy field ref text).verdict = .agree →
    (werCheck policy field ref text).delta = some 0 → SameWords isWord ref text

/-- The check does not agree at zero: its band is negative, or the reference has no word of letters a
to z and of digits, or more than one in 2000 of its words has to be edited. -/
def Apart (ref text : String) : Prop :=
  policy.transcriptWerBand < .fin 0 ∨ normalize ref = [] ∨
    (normalize ref).length < 2000 * distance (normalize ref) (normalize text)

variable {isWord policy}

lemma wer_eq_zero_iff {ref text : String} : wer ref text = 0 ↔ normalize ref = normalize text := by
  by_cases href : normalize ref = []
  · rw [wer, href]
    by_cases htext : normalize text = []
    · simp [htext]
    · simp [htext, Ne.symm htext]
  · have hpos : ((normalize ref).length : ℚ) ≠ 0 := by
      rwa [Nat.cast_ne_zero, ne_eq, List.length_eq_zero_iff]
    rw [wer_eq href, div_eq_zero_iff, or_iff_left hpos, Nat.cast_eq_zero, Lib.distance_eq_zero_iff]

lemma wer_nonneg (ref text : String) : 0 ≤ wer ref text := by
  by_cases href : normalize ref = []
  · rw [wer, href, if_pos List.isEmpty_nil]
    split <;> norm_num
  · rw [wer_eq href]
    positivity

lemma round_wer_eq_zero_iff {ref text : String} (hne : normalize ref ≠ normalize text) :
    Lib.roundTo 3 (wer ref text) = 0 ↔ normalize ref ≠ [] ∧
      2000 * distance (normalize ref) (normalize text) ≤ (normalize ref).length := by
  have hnonneg : 0 ≤ Lib.roundTo 3 (wer ref text) := by
    rw [Lib.roundTo_nonneg_iff]
    have := wer_nonneg ref text
    norm_num
    linarith
  rw [← hnonneg.ge_iff_eq', Lib.roundTo_nonpos_iff]
  by_cases href : normalize ref = []
  · have htext : normalize text ≠ [] := fun htext => hne (href.trans htext.symm)
    have hwer : wer ref text = 1 := by
      rw [wer, href, if_pos List.isEmpty_nil, if_neg (by simpa using htext)]
    rw [hwer]
    exact iff_of_false (by norm_num) fun h => h.1 href
  · have hpos : (0 : ℚ) < (normalize ref).length := by
      exact_mod_cast List.length_pos_iff.2 href
    rw [wer_eq href, div_le_iff₀ hpos, and_iff_right href, ← Nat.cast_le (α := ℚ)]
    push_cast
    constructor <;> intro h <;> linarith

end

/-- The letters of words in Latin and Cyrillic script. -/
def isLetter (c : Char) : Bool :=
  isWordChar c || ('а' ≤ c && c ≤ 'я')

end Pulse.Groundtruth
