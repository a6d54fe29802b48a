import Pulse.Core.Exchanges
import Pulse.Core.MetricBounds
import Mathlib.Algebra.Order.BigOperators.Group.List

/-!
# The words of derived turns

Each final transcript of the caller is in the transcript of one derived turn, and within a turn it
comes before anything that the agent does. Of the agent's words a turn keeps those of one event
alone: all of them are in the turns exactly when the caller speaks between any two utterances of the
agent.
-/

namespace Pulse.Core

open Lib (PyFloat)
open Calculator (sortedEvents)

section

variable [Text] {spans : List (Span PyFloat)}

lemma exchanges_flatten : (exchanges spans).flatten = sortedEvents spans :=
  Lib.windows_flatten _ _

/-- Within an exchange the caller's words come before what the agent does. -/
lemma pairwise_exchange {w : List (PyFloat × SpanEvent PyFloat)} (h : w ∈ exchanges spans) :
    w.Pairwise fun e e' => e'.2.isFinal → e.2.agentSide = false := by
  refine Lib.pairwise_of_mem_windows (fun w e hcut b hb hfinal => ?_) h
  have hnone : ∀ e ∈ w, e.2.agentSide = false := by
    simpa only [answered, hfinal, Bool.true_and, List.any_eq_false, Bool.not_eq_true] using hcut
  exact hnone b hb

lemma filterMap_exchange_eq_nil {w : List (PyFloat × SpanEvent PyFloat)} {name : String}
    (h : ∀ e ∈ w, e.2.name ≠ name) : w.filterMap (textOf name) = [] := by
  rw [List.filterMap_eq_nil_iff]
  intro e he
  rw [textOf, if_neg (h e he)]

/-- Nothing of the exchanges that no turn is made of is lost by leaving them out. -/
lemma flatMap_keptExchanges {β : Type} {f : PyFloat × SpanEvent PyFloat → Option β}
    (hf : ∀ w, ¬(group w).kept → w.filterMap f = []) :
    (keptExchanges spans).flatMap (·.filterMap f) = (sortedEvents spans).filterMap f := by
  have hwindows (ws : List (List (PyFloat × SpanEvent PyFloat))) :
      (ws.filter fun w => (group w).kept).flatMap (·.filterMap f) = ws.flatten.filterMap f := by
    induction ws with
    | nil => rfl
    | cons w ws ih =>
      rw [List.flatten_cons, List.filterMap_append, ← ih]
      by_cases hkept : (group w).kept
      · simp [hkept]
      · simp [hkept, hf w hkept]
  rw [← exchanges_flatten]
  exact hwindows _

lemma not_final_of_not_kept {w : List (PyFloat × SpanEvent PyFloat)} (h : ¬(group w).kept) :
    ∀ e ∈ w, e.2.name ≠ "stt.final" := by
  have hnone : (group w).sttFinal = none := by
    simp only [Group.kept, not_or, Option.not_isSome_iff_eq_none] at h
    exact h.1
  rw [group_sttFinal, Option.map_eq_none_iff, List.find?_eq_none] at hnone
  simpa using hnone

/-! ### The caller's words -/

/-- A turn and the events that it is made of: its transcript and its anchors are theirs, and all that
the caller says comes before what the agent does. -/
structure MadeOf (w : List (PyFloat × SpanEvent PyFloat)) (turn : Turn Measured) : Prop where
  transcript : turn.measured.transcript = joined (w.filterMap (textOf "stt.final"))
  sttFinalAt : turn.measured.sttFinalAt = (w.find? (·.2.name = "stt.final")).map Prod.fst
  ttsFirstAudioAt :
    turn.measured.ttsFirstAudioAt = (w.find? (·.2.name = "tts.first_audio")).map Prod.fst
  responseLatencyMs :
    turn.measured.responseLatencyMs = ms turn.measured.sttFinalAt turn.measured.ttsFirstAudioAt
  inOrder : w.Pairwise fun e e' => e'.2.isFinal → e.2.agentSide = false

/-- The events in their order, shared out among turns so that each final transcript is in one of
them. -/
structure SharedOut (events : List (PyFloat × SpanEvent PyFloat))
    (ws : List (List (PyFloat × SpanEvent PyFloat))) : Prop where
  sublist : ws.flatten.Sublist events
  finals : ws.flatten.filter (·.2.isFinal) = events.filter (·.2.isFinal)

lemma sharedOut_keptExchanges : SharedOut (sortedEvents spans) (keptExchanges spans) where
  sublist := by
    rw [← exchanges_flatten]
    exact List.filter_sublist.flatten
  finals := by
    have hnone : ∀ w : List (PyFloat × SpanEvent PyFloat), ¬(group w).kept →
        w.filterMap (Option.guard (·.2.isFinal)) = [] := by
      intro w hw
      rw [List.filterMap_eq_filter, List.filter_eq_nil_iff]
      intro e he
      simpa [SpanEvent.isFinal] using not_final_of_not_kept hw e he
    rw [← List.filterMap_eq_filter, ← flatMap_keptExchanges hnone, List.filterMap_flatten]
    rfl

variable {cfg : MetricConfig} {audioEnabled : Bool} {trace : Trace PyFloat CallHeader}

lemma mem_keptExchanges {w : List (PyFloat × SpanEvent PyFloat)} (h : w ∈ keptExchanges spans) :
    w ∈ exchanges spans :=
  List.mem_of_mem_filter h

lemma madeOf_of_measured {w : List (PyFloat × SpanEvent PyFloat)} (hw : w ∈ keptExchanges spans)
    {turn : Turn Measured} (h : eventTurn (group w) = turn.measured) : MadeOf w turn where
  transcript := by rw [← h, eventTurn, group_transcript]
  sttFinalAt := by rw [← h, eventTurn, group_sttFinal]
  ttsFirstAudioAt := by rw [← h, eventTurn, group_ttsFirst]
  responseLatencyMs := by rw [← h]; rfl
  inOrder := pairwise_exchange (mem_keptExchanges hw)

lemma madeOf_turnsFromEvents : List.Forall₂ MadeOf (keptExchanges trace.spans)
    ((canonical cfg audioEnabled).turnsFromEvents trace) := by
  have hmeasured : List.Forall₂ (fun w (turn : Turn Measured) => eventTurn (group w) = turn.measured)
      (keptExchanges trace.spans) ((canonical cfg audioEnabled).turnsFromEvents trace) := by
    rw [← List.forall₂_map_left_iff (R := fun m (turn : Turn Measured) => m = turn.measured),
      ← List.forall₂_map_right_iff (R := Eq), List.forall₂_eq_eq_eq]
    exact ((canonical cfg audioEnabled).measured_turnsFromEvents trace).symm
  have hkept := (List.forall₂_and_left _ _).2 ⟨fun _ hw => hw, hmeasured⟩
  exact hkept.imp fun w turn h => madeOf_of_measured h.1 h.2

lemma exists_exchange {turn : Turn Measured}
    (h : turn ∈ (canonical cfg audioEnabled).turnsFromEvents trace) :
    ∃ w ∈ keptExchanges trace.spans, MadeOf w turn := by
  have hin := List.mem_map_of_mem (f := Turn.measured) h
  rw [Calculator.measured_turnsFromEvents] at hin
  obtain ⟨w, hw, hmeasured⟩ := List.mem_map.1 hin
  exact ⟨w, hw, madeOf_of_measured hw hmeasured⟩

/-- All of the caller's words are in the transcripts. -/
lemma intercalate_transcripts :
    " ".intercalate (((canonical cfg audioEnabled).turnsFromEvents trace).filterMap
      (·.measured.transcript)) =
      " ".intercalate ((sortedEvents trace.spans).filterMap (textOf "stt.final")) := by
  have hmeasured := (canonical cfg audioEnabled).measured_turnsFromEvents trace
  have htranscripts : ((canonical cfg audioEnabled).turnsFromEvents trace).filterMap
      (·.measured.transcript) = ((keptExchanges trace.spans).map
        (·.filterMap (textOf "stt.final"))).filterMap joined := by
    calc ((canonical cfg audioEnabled).turnsFromEvents trace).filterMap (·.measured.transcript)
      _ = (((canonical cfg audioEnabled).turnsFromEvents trace).map Turn.measured).filterMap
          Measured.transcript := by rw [List.filterMap_map]; rfl
      _ = (keptExchanges trace.spans).filterMap fun w => (group w).transcript := by
        rw [hmeasured, List.filterMap_map]
        rfl
      _ = _ := by
        rw [List.filterMap_map]
        exact List.filterMap_congr fun w _ => group_transcript w
  rw [htranscripts, intercalate_joined]
  congr 1
  exact flatMap_keptExchanges fun w hw => filterMap_exchange_eq_nil (not_final_of_not_kept hw)

/-- What a turn measures from its caller's last word to the agent's first. -/
def TimedResponse (turn : Turn Measured) : Prop :=
  ∃ l, turn.measured.responseLatencyMs = some l ∧ .fin 0 ≤ l

omit [Text] in
/-- From one time to a later one there is a duration, unless both are the same infinity. -/
lemma isSome_ms_of_le {a b : PyFloat} (hle : a ≤ b) (h : a = b → a.Rational) :
    (ms (some a) (some b)).isSome := by
  have hle' : a.le b = true := hle
  have hd : .fin 0 ≤ (b - a).scale 1000 := by
    cases a with
    | fin p =>
      cases b with
      | fin q =>
        rw [PyFloat.fin_le_fin_iff] at hle
        rw [PyFloat.fin_sub_fin, PyFloat.scale, PyFloat.fin_le_fin_iff]
        linarith
      | inf => rfl
      | negInf | nan => cases hle'
    | inf =>
      cases b with
      | inf =>
        obtain ⟨q, hq⟩ := h rfl
        cases hq
      | fin | negInf | nan => cases hle'
    | negInf =>
      cases b with
      | negInf =>
        obtain ⟨q, hq⟩ := h rfl
        cases hq
      | fin | inf => rfl
      | nan => cases hle'
    | nan => cases b <;> cases hle'
  have hms : ms (some a) (some b) =
      if .fin 0 ≤ (b - a).scale 1000 then some (((b - a).scale 1000).round 1) else none := rfl
  rw [hms, if_pos hd]
  rfl

omit [Text] in
lemma le_of_lt_eq_false {a b : PyFloat} (ha : a ≠ .nan) (hb : b ≠ .nan) (h : b.lt a = false) :
    a ≤ b := by
  change (a.lt b || (a = b && a ≠ .nan)) = true
  rcases PyFloat.decides_lt (iff_of_false ha hb) with heq | hlt | hlt
  · simp [heq, hb]
  · simp [hlt]
  · simp [hlt] at h

/-- Events whose times are numbers come in the order of these. -/
lemma sortedEvents_pairwise (h : ∀ e ∈ timedEvents spans, e.1 ≠ .nan) :
    (sortedEvents spans).Pairwise fun e e' => e.1 ≤ e'.1 := by
  have hmap : (sortedEvents spans).map Prod.fst =
      Lib.sorted PyFloat.lt ((timedEvents spans).map Prod.fst) :=
    Lib.map_sorted (fun _ _ => rfl) _
  have htimes : ∀ t ∈ (timedEvents spans).map Prod.fst, t ≠ .nan := by
    intro t ht
    obtain ⟨e, he, rfl⟩ := List.mem_map.1 ht
    exact h e he
  have hsorted := Lib.sorted_pairwise_of_decides PyFloat.strictOrder_lt
    fun a ha b hb => PyFloat.decides_lt (iff_of_false (htimes a ha) (htimes b hb))
  rw [← hmap, List.pairwise_map] at hsorted
  refine hsorted.imp_of_mem fun he he' hlt => ?_
  exact le_of_lt_eq_false (h _ (Lib.mem_sorted.1 he)) (h _ (Lib.mem_sorted.1 he')) hlt

/-- The caller's last word is not after the agent's first. -/
lemma MadeOf.le {w : List (PyFloat × SpanEvent PyFloat)} {turn : Turn Measured} (h : MadeOf w turn)
    (hw : w.Pairwise fun e e' => e.1 ≤ e'.1) {a b : PyFloat}
    (ha : turn.measured.sttFinalAt = some a) (hb : turn.measured.ttsFirstAudioAt = some b) :
    a ≤ b := by
  rw [h.sttFinalAt, Option.map_eq_some_iff] at ha
  rw [h.ttsFirstAudioAt, Option.map_eq_some_iff] at hb
  obtain ⟨e, he, rfl⟩ := ha
  obtain ⟨e', he', rfl⟩ := hb
  have hfinal : e.2.name = "stt.final" := by simpa using List.find?_some he
  have haudio : e'.2.name = "tts.first_audio" := by simpa using List.find?_some he'
  have hordered := List.Pairwise.forall_of_forall_of_flip
    (R := fun e e' => e.2.name = "stt.final" → e'.2.name = "tts.first_audio" → e.1 ≤ e'.1)
    (fun e _ hfinal haudio => by simp [hfinal] at haudio)
    (hw.imp fun hle _ _ => hle)
    (h.inOrder.imp fun {e e'} hside hfinal haudio => by
      have hagent : e.2.agentSide = true := by simp [SpanEvent.agentSide, haudio, evAgentSide]
      simp [hside (by simp [SpanEvent.isFinal, hfinal])] at hagent)
  exact hordered (List.mem_of_find?_eq_some he) (List.mem_of_find?_eq_some he') hfinal haudio

/-- Derived turns have all of the caller's words, in order and each once, and they are numbered. The
response of the agent is timed when both of its ends have a time that is a number and they are not
the same infinity. -/
theorem turnsFromEvents_conserves (cfg : MetricConfig) (audioEnabled : Bool)
    (trace : Trace PyFloat CallHeader) :
    let turns := (canonical cfg audioEnabled).turnsFromEvents trace
    " ".intercalate (turns.filterMap (·.measured.transcript)) =
        " ".intercalate ((sortedEvents trace.spans).filterMap (textOf "stt.final")) ∧
      (∃ ws, SharedOut (sortedEvents trace.spans) ws ∧ List.Forall₂ MadeOf ws turns) ∧
      turns.map Turn.turnIndex = (List.range turns.length).map (fun n : Nat => (n : Int)) ∧
      (turns.map Turn.turnId).Nodup ∧
      ((∀ e ∈ timedEvents trace.spans, e.1 ≠ .nan) → ∀ turn ∈ turns, ∀ a b,
        turn.measured.sttFinalAt = some a → turn.measured.ttsFirstAudioAt = some b →
          (a = b → a.Rational) → TimedResponse turn) := by
  intro turns
  have hmade : List.Forall₂ MadeOf (keptExchanges trace.spans) turns := madeOf_turnsFromEvents
  have hnumbered : Calculator.Numbered turns := Calculator.numbered_turnsFromEvents trace
  refine ⟨intercalate_transcripts, ⟨_, sharedOut_keptExchanges, hmade⟩, hnumbered.1,
    hnumbered.distinct.1, ?_⟩
  intro hnumbers turn hturn a b ha hb hfinite
  obtain ⟨w, hw, hwturn⟩ := exists_exchange hturn
  have hsorted : w.Pairwise fun e e' => e.1 ≤ e'.1 :=
    (sortedEvents_pairwise hnumbers).sublist
      (Lib.infix_of_mem_windows (mem_keptExchanges hw)).sublist
  have hsome := isSome_ms_of_le (hwturn.le hsorted ha hb) hfinite
  obtain ⟨l, hl⟩ := Option.isSome_iff_exists.1 hsome
  refine ⟨l, ?_, ms_nonneg l hl⟩
  rw [hwturn.responseLatencyMs, ha, hb, hl]

end

/-- A call in which the caller's words end when the agent's audio begins. -/
def momentTrace (t : PyFloat) : Trace PyFloat CallHeader where
  header := { callId := "c1", source := "pipecat", environment := "prod" }
  spans := [{
    spanId := "s1"
    name := "call"
    stage := .call
    events := [
      { name := "stt.final", t := some t, content := [("transcript", .str "hello")] },
      { name := "tts.first_audio", t := some t }] }]

/-- The response is timed in each turn that has both of its ends. -/
def ResponsesTimed (turns : List (Turn Measured)) : Prop :=
  ∀ turn ∈ turns, turn.measured.sttFinalAt.isSome → turn.measured.ttsFirstAudioAt.isSome →
    TimedResponse turn

lemma not_responsesTimed {turns : List (Turn Measured)} {a b : PyFloat}
    (h : turns.map (fun turn => (turn.measured.sttFinalAt, turn.measured.ttsFirstAudioAt,
      turn.measured.responseLatencyMs)) = [(some a, some b, none)]) : ¬ResponsesTimed turns := by
  intro htimed
  obtain ⟨turn, hturn, htimes⟩ := List.mem_map.1 (h ▸ List.mem_singleton_self (some a, some b, none))
  simp only [Prod.mk.injEq] at htimes
  obtain ⟨l, hl, -⟩ := htimed turn hturn (by simp [htimes.1]) (by simp [htimes.2.1])
  rw [htimes.2.2] at hl
  cases hl

/-- At an infinite time, and at one that is not a number, a response has both ends and no
duration. -/
theorem momentTrace_untimed :
    ¬ResponsesTimed ((canonical {} false).turnsFromEvents (momentTrace .inf)) ∧
      ¬ResponsesTimed ((canonical {} false).turnsFromEvents (momentTrace .nan)) := by
  constructor
  · exact not_responsesTimed (a := .inf) (b := .inf) (by decide +kernel)
  · exact not_responsesTimed (a := .nan) (b := .nan) (by decide +kernel)

section

variable [Text] {spans : List (Span PyFloat)}

/-! ### The agent's words -/

/-- Blocks of texts, with each text in one block and all in their order: a turn has for the agent's
words those of its block. -/
def SpokenInOrder (turns : List (Turn Measured)) (texts : List String) : Prop :=
  ∃ blocks : List (List String), blocks.flatten = texts ∧
    turns.map (·.measured.llmSpoken) = blocks.map joined

/-- Between two utterances of the agent is a final transcript of the caller. -/
def CallerBetween (events : List (PyFloat × SpanEvent PyFloat)) : Prop :=
  ∀ e l e', (e :: (l ++ [e'])) <:+: events → (textOf "llm.spoken" e).isSome →
    (textOf "llm.spoken" e').isSome → ∃ f ∈ l, f.2.isFinal

/-- What an exchange has of the agent's words. -/
def spoken (w : List (PyFloat × SpanEvent PyFloat)) : List String :=
  w.filterMap (textOf "llm.spoken")

lemma spoken_eq_nil_of_not_kept {w : List (PyFloat × SpanEvent PyFloat)} (h : ¬(group w).kept) :
    spoken w = [] := by
  have hnone : (group w).llmSpoken = none := by
    simp only [Group.kept, not_or, Option.not_isSome_iff_eq_none] at h
    exact h.2.1
  rwa [group_llmSpoken, List.head?_eq_none_iff] at hnone

lemma name_eq_of_textOf {name : String} {e : PyFloat × SpanEvent PyFloat}
    (h : (textOf name e).isSome) : e.2.name = name := by
  by_contra hne
  simp [textOf, hne] at h

/-- Two utterances without the caller between them are in one exchange. -/
lemma exists_exchange_of_not_between {e e' : PyFloat × SpanEvent PyFloat}
    {l : List (PyFloat × SpanEvent PyFloat)} (hin : (e :: (l ++ [e'])) <:+: sortedEvents spans)
    (h : (textOf "llm.spoken" e).isSome) (h' : (textOf "llm.spoken" e').isSome)
    (hl : ∀ f ∈ l, f.2.isFinal = false) : ∃ w ∈ keptExchanges spans, 1 < (spoken w).length := by
  have hfinal : e'.2.isFinal = false := by
    simp [SpanEvent.isFinal, name_eq_of_textOf h']
  have huncut : ∀ f ∈ l ++ [e'], ∀ w, answered w f = false := by
    intro f hf w
    rcases List.mem_append.1 hf with hf | hf
    · simp [answered, hl f hf]
    · obtain rfl := List.mem_singleton.1 hf
      simp [answered, hfinal]
  obtain ⟨w, hw, hwin⟩ := Lib.exists_infix_windows huncut hin
  have hlength : 1 < (spoken w).length := by
    have hle := (hwin.sublist.filterMap (textOf "llm.spoken")).length_le
    obtain ⟨s, hs⟩ := Option.isSome_iff_exists.1 h
    obtain ⟨s', hs'⟩ := Option.isSome_iff_exists.1 h'
    rw [List.filterMap_cons_some hs, List.filterMap_append, List.filterMap_cons_some hs'] at hle
    simp only [List.length_cons, List.length_append] at hle
    unfold spoken
    omega
  refine ⟨w, List.mem_filter.2 ⟨hw, ?_⟩, hlength⟩
  rw [decide_eq_true_eq]
  by_contra hnot
  simp [spoken_eq_nil_of_not_kept hnot] at hlength

/-- An exchange with two utterances has no final transcript between them. -/
lemma length_spoken_le (h : CallerBetween (sortedEvents spans))
    {w : List (PyFloat × SpanEvent PyFloat)} (hw : w ∈ exchanges spans) :
    (spoken w).length ≤ 1 := by
  by_contra hlength
  rcases htexts : spoken w with _ | ⟨s, _ | ⟨s', texts⟩⟩
  · simp [htexts] at hlength
  · simp [htexts] at hlength
  · obtain ⟨before, e, rest, rfl, -, hs, hrest⟩ := List.filterMap_eq_cons_iff.1 htexts
    obtain ⟨l, e', after, rfl, -, hs', -⟩ := List.filterMap_eq_cons_iff.1 hrest
    have hin : (e :: (l ++ [e'])) <:+: before ++ e :: (l ++ e' :: after) :=
      ⟨before, after, by simp⟩
    obtain ⟨f, hf, hfinal⟩ := h e l e' (hin.trans (Lib.infix_of_mem_windows hw))
      (Option.isSome_of_eq_some hs) (Option.isSome_of_eq_some hs')
    have hordered := (pairwise_exchange hw).sublist hin.sublist
    have hside := (List.pairwise_cons.1 hordered).1 f (List.mem_append_left _ hf) hfinal
    simp [SpanEvent.agentSide, name_eq_of_textOf (Option.isSome_of_eq_some hs), evAgentSide] at hside

lemma length_spoken_le_iff :
    (∀ w ∈ keptExchanges spans, (spoken w).length ≤ 1) ↔ CallerBetween (sortedEvents spans) := by
  constructor
  · intro h e l e' hin hspoken hspoken'
    by_contra hnone
    push Not at hnone
    obtain ⟨w, hw, hlength⟩ := exists_exchange_of_not_between hin hspoken hspoken'
      fun f hf => by simpa using hnone f hf
    exact absurd (h w hw) hlength.not_ge
  · exact fun h w hw => length_spoken_le h (mem_keptExchanges hw)

/-- The number of characters of a text, if there is one. -/
def letters (s : Option String) : Nat :=
  s.elim 0 String.length

omit [Text] in
lemma sum_length_le_joined (block : List String) :
    (block.map String.length).sum ≤ letters (joined block) := by
  induction block using List.reverseRecOn with
  | nil => simp
  | append_singleton block text ih =>
    rw [joined_concat]
    cases hold : joined block with
    | none =>
      rw [hold] at ih
      simp only [letters, Option.elim_none, Nat.le_zero] at ih
      simp [letters, ih]
    | some old =>
      rw [hold] at ih
      simp only [letters, Option.elim_some] at ih
      simp [letters, String.length_append]
      omega

omit [Text] in
lemma letters_head_le (texts : List String) :
    letters texts.head? ≤ (texts.map String.length).sum := by
  cases texts <;> simp [letters]

/-- The first of several utterances of an exchange is not all of them. -/
lemma letters_head_lt {w : List (PyFloat × SpanEvent PyFloat)} (h : 1 < (spoken w).length) :
    letters (spoken w).head? < ((spoken w).map String.length).sum := by
  rcases htexts : spoken w with _ | ⟨s, _ | ⟨s', texts⟩⟩
  · simp [htexts] at h
  · simp [htexts] at h
  · have hin : s' ∈ spoken w := by simp [htexts]
    obtain ⟨e, -, hs'⟩ := List.mem_filterMap.1 hin
    have hpos : s'.length ≠ 0 := by simpa using textOf_ne_empty hs'
    simp [letters]
    omega

variable {cfg : MetricConfig} {audioEnabled : Bool} {trace : Trace PyFloat CallHeader}

lemma llmSpoken_turnsFromEvents :
    ((canonical cfg audioEnabled).turnsFromEvents trace).map (·.measured.llmSpoken) =
      (keptExchanges trace.spans).map fun w => (spoken w).head? := by
  have hmeasured := congrArg (List.map Measured.llmSpoken)
    ((canonical cfg audioEnabled).measured_turnsFromEvents trace)
  rw [List.map_map, List.map_map] at hmeasured
  refine hmeasured.trans (List.map_congr_left fun w _ => ?_)
  exact group_llmSpoken w

/-- The words of the agent are all in the derived turns, in order and each once, exactly when the
caller speaks between any two utterances of the agent. -/
theorem spokenInOrder_iff (cfg : MetricConfig) (audioEnabled : Bool)
    (trace : Trace PyFloat CallHeader) :
    SpokenInOrder ((canonical cfg audioEnabled).turnsFromEvents trace)
        ((sortedEvents trace.spans).filterMap (textOf "llm.spoken")) ↔
      CallerBetween (sortedEvents trace.spans) := by
  have hkept : ((keptExchanges trace.spans).map spoken).flatten =
      (sortedEvents trace.spans).filterMap (textOf "llm.spoken") :=
    flatMap_keptExchanges fun w hw => spoken_eq_nil_of_not_kept hw
  rw [← length_spoken_le_iff, SpokenInOrder, llmSpoken_turnsFromEvents, ← hkept]
  constructor
  · rintro ⟨blocks, hflatten, hblocks⟩
    by_contra hmore
    push Not at hmore
    obtain ⟨w, hw, hlength⟩ := hmore
    -- the turns have fewer letters than the texts of the blocks
    have hfew : ((keptExchanges trace.spans).map fun w => letters (spoken w).head?).sum <
        ((keptExchanges trace.spans).map fun w => ((spoken w).map String.length).sum).sum :=
      List.sum_lt_sum _ _ (fun w _ => letters_head_le (spoken w)) ⟨w, hw, letters_head_lt hlength⟩
    have hmany : (blocks.map fun b => (b.map String.length).sum).sum ≤
        (blocks.map fun b => letters (joined b)).sum :=
      List.sum_le_sum fun b _ => sum_length_le_joined b
    have hletters : (blocks.map fun b => letters (joined b)).sum =
        ((keptExchanges trace.spans).map fun w => letters (spoken w).head?).sum := by
      have hmap := congrArg (fun ts => (ts.map letters).sum) hblocks
      simpa only [List.map_map, Function.comp_def] using hmap.symm
    have htexts : (blocks.map fun b => (b.map String.length).sum).sum =
        ((keptExchanges trace.spans).map fun w => ((spoken w).map String.length).sum).sum := by
      have hsum := congrArg (fun ts => (ts.map String.length).sum) hflatten
      simpa only [List.map_flatten, List.sum_flatten, List.map_map, Function.comp_def] using hsum
    omega
  · intro h
    refine ⟨(keptExchanges trace.spans).map spoken, rfl, ?_⟩
    rw [List.map_map]
    refine List.map_congr_left fun w hw => ?_
    rcases htexts : spoken w with _ | ⟨s, _ | ⟨s', texts⟩⟩
    · simp [htexts, joined]
    · simp [htexts, joined]
    · have hle := h w hw
      simp [htexts] at hle

end

/-- A call in which the agent speaks twice before the caller does. -/
def greetingTrace : Trace PyFloat CallHeader where
  header := { callId := "c1", source := "pipecat", environment := "prod" }
  spans := [{
    spanId := "s1"
    name := "call"
    stage := .call
    events := [
      { name := "llm.spoken", t := some (.fin 1), content := [("detail", .str "Hello.")] },
      { name := "llm.spoken", t := some (.fin 2), content := [("detail", .str "Who is it?")] }] }]

/-- The second utterance is in no turn. -/
theorem greetingTrace_loses_words :
    ¬SpokenInOrder ((canonical {} false).turnsFromEvents greetingTrace)
      ((sortedEvents greetingTrace.spans).filterMap (textOf "llm.spoken")) := by
  have hturns : ((canonical {} false).turnsFromEvents greetingTrace).map (·.measured.llmSpoken) =
      [some "Hello."] := by decide +kernel
  have htexts : (sortedEvents greetingTrace.spans).filterMap (textOf "llm.spoken") =
      ["Hello.", "Who is it?"] := by decide +kernel
  rintro ⟨blocks, hflatten, hblocks⟩
  rw [hturns] at hblocks
  rw [htexts] at hflatten
  obtain ⟨block, rfl⟩ : ∃ block, blocks = [block] := by
    rw [← List.length_eq_one_iff]
    simpa using (congrArg List.length hblocks).symm
  rw [List.flatten_singleton] at hflatten
  rw [hflatten] at hblocks
  exact absurd hblocks (by decide +kernel)

end Pulse.Core
