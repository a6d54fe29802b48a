import Pulse.Core.AudioClock
import Pulse.Core.TurnIndex
import Pulse.Lib.Windows

/-!
# The exchanges of a call without turn spans

`_turns_from_events` of `core/calculator.py` cuts the events of a trace in exchanges: an exchange
ends where the caller speaks after the agent has answered. The derived turns are the exchanges that
have a final transcript, words of the agent or its first audio, and what a turn measures is read off
the events of its exchange.
-/

namespace Pulse.Core

/-! ### Joined texts -/

/-- Texts with a space between them, if there are any. -/
def joined (texts : List String) : Option String :=
  if texts.isEmpty then none else some (" ".intercalate texts)

lemma joined_of_ne_nil {texts : List String} (h : texts ≠ []) :
    joined texts = some (" ".intercalate texts) := by
  simp [joined, h]

lemma joined_concat (texts : List String) (text : String) :
    joined (texts ++ [text]) = some ((joined texts).elim text fun old => old ++ " " ++ text) := by
  rw [joined_of_ne_nil (by simp)]
  by_cases h : texts = []
  · simp [h, joined]
  · rw [joined_of_ne_nil h, String.intercalate_append_of_ne_nil h (by simp)]
    simp

lemma ne_empty_of_joined {texts : List String} (h : ∀ t ∈ texts, t ≠ "") {s : String}
    (hs : joined texts = some s) : s ≠ "" := by
  rcases texts.eq_nil_or_concat with rfl | ⟨texts, text, rfl⟩
  · cases hs
  · have htext : text ≠ "" := h text (by simp)
    rw [List.concat_eq_append, joined_concat] at hs
    cases hold : joined texts with
    | none => simpa [hold, ← Option.some.inj hs] using htext
    | some old => simp [← Option.some.inj hs, hold, htext]

/-- Joined blocks are joined to what all of their texts are joined to. -/
theorem intercalate_joined (blocks : List (List String)) :
    " ".intercalate (blocks.filterMap joined) = " ".intercalate blocks.flatten := by
  induction blocks with
  | nil => rfl
  | cons block blocks ih =>
    by_cases hblock : block = []
    · simpa [hblock, joined] using ih
    · rw [List.filterMap_cons_some (joined_of_ne_nil hblock), List.flatten_cons]
      by_cases hrest : blocks.flatten = []
      · have hnone : blocks.filterMap joined = [] := by
          rw [List.filterMap_eq_nil_iff]
          intro b hb
          simp [joined, List.flatten_eq_nil_iff.1 hrest b hb]
        simp [hnone, hrest]
      · have hsome : blocks.filterMap joined ≠ [] := by
          intro hnone
          rw [List.filterMap_eq_nil_iff] at hnone
          refine hrest (List.flatten_eq_nil_iff.2 fun b hb => ?_)
          by_contra hb'
          simpa [joined_of_ne_nil hb'] using hnone b hb
        rw [String.intercalate_cons_of_ne_nil hsome, ih,
          String.intercalate_append_of_ne_nil hblock hrest]

section

variable {F H M R : Type} [Builtins F]

/-! ### Exchanges -/

/-- `_EV_AGENT_SIDE` -/
def evAgentSide : List String :=
  ["llm.first_token", "llm.raw", "llm.spoken", "tts.first_audio"]

def SpanEvent.isFinal (e : SpanEvent F) : Bool :=
  e.name = "stt.final"

def SpanEvent.agentSide (e : SpanEvent F) : Bool :=
  evAgentSide.contains e.name

/-- The caller speaks after the agent has answered. -/
def answered (w : List (F × SpanEvent F)) (e : F × SpanEvent F) : Bool :=
  e.2.isFinal && w.any (·.2.agentSide)

def exchanges (spans : List (Span F)) : List (List (F × SpanEvent F)) :=
  Lib.windows answered (Calculator.sortedEvents spans)

/-- What the loop collects of an exchange. -/
def group (w : List (F × SpanEvent F)) : Group F :=
  w.foldl (fun g e => g.add e.1 e.2) {}

instance : DecidablePred (Group.kept (F := F)) := fun _ => inferInstanceAs (Decidable (_ ∨ _ ∨ _))

/-- The exchanges that a turn is made of. -/
def keptExchanges (spans : List (Span F)) : List (List (F × SpanEvent F)) :=
  (exchanges spans).filter fun w => (group w).kept

lemma group_concat (w : List (F × SpanEvent F)) (e : F × SpanEvent F) :
    group (w ++ [e]) = (group w).add e.1 e.2 := by
  simp [group]

lemma Group.add_agentSeen (g : Group F) (t : F) (e : SpanEvent F) :
    (g.add t e).agentSeen = (g.agentSeen || e.agentSide) := by
  have hside : e.agentSide =
      decide (e.name ∈ ["llm.first_token", "llm.raw", "llm.spoken", "tts.first_audio"]) := by
    simp [SpanEvent.agentSide, evAgentSide]
  rw [hside]
  unfold Group.add
  split <;> split <;> simp_all

lemma group_agentSeen (w : List (F × SpanEvent F)) :
    (group w).agentSeen = w.any (·.2.agentSide) := by
  induction w using List.reverseRecOn with
  | nil => rfl
  | append_singleton w e ih => rw [group_concat, Group.add_agentSeen, ih]; simp

namespace Calculator

variable {c : Calculator F H M R}

omit [Builtins F] in
lemma measured_foldl_close (turns : List (Turn M)) (gs : List (Group F)) :
    (gs.foldl c.close turns).map Turn.measured =
      turns.map Turn.measured ++ (gs.filter fun g => g.kept).map c.eventTurn := by
  induction gs generalizing turns with
  | nil => simp
  | cons g gs ih =>
    rw [List.foldl_cons, ih]
    by_cases hkept : g.kept
    · rw [close_of_kept hkept]
      simp [hkept]
    · have hnone : g.sttFinal.isNone ∧ g.llmSpoken.isNone ∧ g.ttsFirst.isNone := by
        simpa [Group.kept] using hkept
      rw [close, if_pos hnone]
      simp [hkept]

/-- The derived turns are the exchanges that are kept. -/
theorem measured_turnsFromEvents (trace : Trace F H) :
    (c.turnsFromEvents trace).map Turn.measured =
      (keptExchanges trace.spans).map fun w => c.eventTurn (group w) := by
  have hcut : ∀ (w : List (F × SpanEvent F)) (e : F × SpanEvent F),
      answered w e = decide (e.2.name = "stt.final" ∧ (group w).agentSeen) := by
    intro w e
    simp [answered, SpanEvent.isFinal, group_agentSeen]
  obtain ⟨turns, last, hfold, hclose⟩ := Lib.foldl_windows c.eventStep
    (fun g e => decide (e.2.name = "stt.final" ∧ g.agentSeen)) c.close
    (fun _ _ => rfl) (fun turns g e => by simp [eventStep]) hcut (sortedEvents trace.spans) []
  have hturns : c.turnsFromEvents trace = ((exchanges trace.spans).map group).foldl c.close [] := by
    rw [turnsFromEvents_eq, hfold]
    cases last with
    | none => exact hclose
    | some g => exact hclose
  rw [hturns, measured_foldl_close, List.filter_map, List.map_map]
  rfl

/-- Without a turn span the turns of an analysis are derived from the events. -/
theorem analyze_derived {trace : Trace F H} (hno : ∀ s ∈ trace.spans, s.stage ≠ .turn)
    {audio : Option (AudioAnalysis F)} {t0OffsetS : Option F} {a : Analysis M R}
    (h : c.analyze trace audio t0OffsetS = .ok a) : a.turns = c.turnsFromEvents trace := by
  have hnone : trace.spans.filter (·.stage = .turn) = [] := by
    apply List.filter_eq_nil_iff.2
    intro s hs
    simpa using hno s hs
  have hspans : turnSpans trace.spans = .ok [] := by
    simp only [turnSpans, hnone]
    rfl
  obtain ⟨ts, hts, h⟩ := Lib.bind_eq_ok.1 h
  rw [hspans] at hts
  cases hts
  obtain ⟨turns, hturns, h⟩ := Lib.bind_eq_ok.1 h
  cases hturns
  obtain ⟨report, -, h⟩ := Lib.bind_eq_ok.1 h
  cases h
  rfl

end Calculator

/-! ### What a turn has of its exchange -/

lemma group_sttFinal (w : List (F × SpanEvent F)) :
    (group w).sttFinal = (w.find? (·.2.name = "stt.final")).map Prod.fst := by
  induction w using List.reverseRecOn with
  | nil => rfl
  | append_singleton w e ih =>
    rw [group_concat, Group.add_sttFinal, ih, List.find?_append]
    by_cases hname : e.2.name = "stt.final" <;> simp [hname]

lemma group_ttsFirst (w : List (F × SpanEvent F)) :
    (group w).ttsFirst = (w.find? (·.2.name = "tts.first_audio")).map Prod.fst := by
  induction w using List.reverseRecOn with
  | nil => rfl
  | append_singleton w e ih =>
    rw [group_concat, Group.add_ttsFirst, ih, List.find?_append]
    by_cases hname : e.2.name = "tts.first_audio" <;> simp [hname]

/-- The text of an event that has the name. -/
def textOf (name : String) (e : F × SpanEvent F) : Option String :=
  if e.2.name = name then e.2.text else none

lemma textOf_ne_empty {name : String} {e : F × SpanEvent F} {s : String}
    (h : textOf name e = some s) : s ≠ "" := by
  rintro rfl
  unfold textOf at h
  split at h
  · obtain ⟨content, -, hcontent⟩ := List.exists_of_findSome?_eq_some h
    split at hcontent
    · split at hcontent
      · cases hcontent
      · next s hblank =>
        cases hcontent
        exact hblank rfl
    · cases hcontent
  · cases h

lemma Group.add_transcript (g : Group F) (t : F) (e : SpanEvent F) : (g.add t e).transcript =
    (textOf "stt.final" (t, e)).elim g.transcript fun text =>
      some (g.transcript.elim text fun old => old ++ (if old = "" then "" else " ") ++ text) := by
  unfold Group.add textOf
  by_cases hname : e.name = "stt.final"
  · cases e.text <;> cases g.transcript <;> simp [hname]
  · split <;> split <;> simp_all

/-- The transcript of an exchange is all that its final transcripts say. -/
theorem group_transcript (w : List (F × SpanEvent F)) :
    (group w).transcript = joined (w.filterMap (textOf "stt.final")) := by
  have htexts : ∀ t ∈ w.filterMap (textOf "stt.final"), t ≠ "" := by
    intro t ht
    obtain ⟨e, -, htext⟩ := List.mem_filterMap.1 ht
    exact textOf_ne_empty htext
  induction w using List.reverseRecOn with
  | nil => rfl
  | append_singleton w e ih =>
    rw [List.filterMap_append, List.forall_mem_append] at htexts
    rw [group_concat, Group.add_transcript, ih htexts.1, List.filterMap_append]
    cases htext : textOf "stt.final" e with
    | none => simp [htext]
    | some text =>
      rw [List.filterMap_cons_some htext, List.filterMap_nil, joined_concat]
      cases hold : joined (w.filterMap (textOf "stt.final")) with
      | none => rfl
      | some old => simp [ne_empty_of_joined htexts.1 hold]

lemma group_llmSpoken (w : List (F × SpanEvent F)) :
    (group w).llmSpoken = (w.filterMap (textOf "llm.spoken")).head? := by
  induction w using List.reverseRecOn with
  | nil => rfl
  | append_singleton w e ih =>
    rw [group_concat, Group.add_llmSpoken, ih, List.filterMap_append, List.head?_append]
    by_cases hname : e.2.name = "llm.spoken"
    · cases htext : e.2.text <;> simp [textOf, hname, htext]
    · simp [textOf, hname]

end

end Pulse.Core
