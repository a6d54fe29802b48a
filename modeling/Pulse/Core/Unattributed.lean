import Pulse.Core.MetricBounds
import Pulse.Lib.Measure

/-!
# The unexplained time of a turn

The unattributed time that `build_turn` gives is the length of the window from the caller's stop to
the agent's start less the measure of what the turn's spans and the endpointing hold cover of it.
The spans may be open, reversed, overlapping or outside of the window.
-/

namespace Pulse.Core

open Lib (PyFloat roundTo realIntervals)
open Lib.PyFloat (finIntervals)
open MeasureTheory

/-- The points of the audio clock that intervals cover. -/
def onAudioClock (ivs : List (Lib.Interval PyFloat)) : Set ℝ :=
  {x | ∃ a b : ℚ, (.fin a, .fin b) ∈ ivs ∧ (a : ℝ) ≤ x ∧ x < b}

lemma onAudioClock_finIntervals (ivs : List (Lib.Interval ℚ)) :
    onAudioClock (finIntervals ivs) = Lib.covered (realIntervals ivs) := by
  ext x
  constructor
  · rintro ⟨a, b, hmem, hx⟩
    obtain ⟨i, hi, heq⟩ := List.mem_map.1 hmem
    obtain ⟨ha, hb⟩ := Prod.ext_iff.1 heq
    obtain rfl : i.1 = a := PyFloat.fin.inj ha
    obtain rfl : i.2 = b := PyFloat.fin.inj hb
    exact ⟨_, List.mem_map_of_mem hi, hx⟩
  · rintro ⟨j, hj, hx⟩
    obtain ⟨i, hi, rfl⟩ := List.mem_map.1 hj
    exact ⟨i.1, i.2, List.mem_map_of_mem hi, hx⟩

/-- What a turn's unattributed time is, by the ends of its window and the intervals that explain it. -/
structure MeasuresUnexplained (callerStop agentOut : Option PyFloat)
    (ivs : List (Lib.Interval PyFloat)) (m : Measured) : Prop where
  null_iff : m.unattributedMs = none ↔ callerStop = none ∨ agentOut = none ∨
    ∃ lo hi, callerStop = some lo ∧ agentOut = some hi ∧ hi ≤ lo
  exact : ∀ lo hi : ℚ, callerStop = some (.fin lo) → agentOut = some (.fin hi) → lo < hi →
    ∃ length : ℚ, 0 ≤ length ∧
      volume (Set.Ico (lo : ℝ) hi ∩ onAudioClock ivs) = ENNReal.ofReal length ∧
      m.unattributedMs = some (.fin (roundTo 1 ((hi - lo - length) * 1000)))
  bounded : ∀ x ∈ m.unattributedMs, .fin 0 ≤ x ∧ ∃ y ∈ m.responseLatencyMs, x ≤ y

/-! ### The window -/

/-- Within a window of rationals the spans leave a rational time. -/
lemma uncovered_fin {lo hi : ℚ} (h : lo < hi) {speechEnd sttStart : Option PyFloat}
    {spans : List (Span PyFloat)} {offset : PyFloat} {ivs : List (Lib.Interval ℚ)}
    (hivs : explained speechEnd sttStart spans offset = finIntervals ivs) :
    uncovered (some (.fin lo)) (some (.fin hi)) speechEnd sttStart spans offset =
      some (.fin (roundTo 1
        ((hi - lo - Lib.total (Lib.merge (ivs.filterMap (Lib.clip lo hi)))) * 1000))) := by
  have hle : 0 ≤ hi - lo - Lib.total (Lib.merge (ivs.filterMap (Lib.clip lo hi))) :=
    sub_nonneg.2 (Lib.total_window_le h.le ivs)
  have hmerged : Lib.merge ((finIntervals ivs).filterMap (Lib.clip (.fin lo) (.fin hi))) =
      finIntervals (Lib.merge (ivs.filterMap (Lib.clip lo hi))) := by
    rw [PyFloat.embeds_fin.clip, PyFloat.embeds_fin.merge]
  have hwindow : ¬PyFloat.fin hi ≤ .fin lo := fun hle => h.not_ge (PyFloat.fin_le_fin_iff.1 hle)
  rw [uncovered_some, if_neg hwindow, hivs, hmerged, PyFloat.total_finIntervals,
    PyFloat.fin_sub_fin, PyFloat.fin_sub_fin, PyFloat.embeds_fin.maxOf, Lib.maxOf_eq_max,
    max_eq_right hle]
  rfl

/-- The time between two ends in order, in milliseconds. -/
lemma ms_fin {lo hi : ℚ} (h : lo ≤ hi) :
    ms (some (.fin lo)) (some (.fin hi)) = some (.fin (roundTo 1 ((hi - lo) * 1000))) := by
  have hpos : .fin 0 ≤ PyFloat.fin ((hi - lo) * 1000) :=
    PyFloat.fin_le_fin_iff.2 (mul_nonneg (sub_nonneg.2 h) (by norm_num))
  have hms : ms (some (.fin lo)) (some (.fin hi)) =
      if .fin 0 ≤ ((PyFloat.fin hi - .fin lo).scale 1000) then
        some (((PyFloat.fin hi - .fin lo).scale 1000).round 1) else none := rfl
  rw [hms, PyFloat.fin_sub_fin]
  exact if_pos hpos

/-- An empty window has no unexplained time. -/
lemma measuresUnexplained_of_empty {callerStop agentOut : Option PyFloat}
    {ivs : List (Lib.Interval PyFloat)} {m : Measured} (hnone : m.unattributedMs = none)
    (hempty : callerStop = none ∨ agentOut = none ∨
      ∃ lo hi, callerStop = some lo ∧ agentOut = some hi ∧ hi ≤ lo) :
    MeasuresUnexplained callerStop agentOut ivs m where
  null_iff := iff_of_true hnone hempty
  exact lo hi hlo hhi hlt := by
    subst hlo hhi
    rcases hempty with h | h | ⟨_, _, h, h', hle⟩
    · cases h
    · cases h
    · cases h
      cases h'
      exact absurd (PyFloat.fin_le_fin_iff.1 hle) hlt.not_ge
  bounded x hx := by
    rw [hnone] at hx
    cases hx

lemma measuresUnexplained {callerStop agentOut speechEnd sttStart : Option PyFloat}
    {spans : List (Span PyFloat)} {offset : PyFloat} {m : Measured}
    (hunattributed : m.unattributedMs =
      uncovered callerStop agentOut speechEnd sttStart spans offset)
    (hresponse : m.responseLatencyMs = ms callerStop agentOut)
    (hstop : ∀ x ∈ callerStop, x.Rational) (hout : ∀ x ∈ agentOut, x.Rational)
    (hivs : ∀ i ∈ explained speechEnd sttStart spans offset, i.1.Rational ∧ i.2.Rational) :
    MeasuresUnexplained callerStop agentOut (explained speechEnd sttStart spans offset) m := by
  obtain ⟨ivs, hivs⟩ := PyFloat.exists_finIntervals hivs
  cases callerStop with
  | none => exact measuresUnexplained_of_empty hunattributed (.inl rfl)
  | some lo =>
    cases agentOut with
    | none => exact measuresUnexplained_of_empty hunattributed (.inr (.inl rfl))
    | some hi =>
      obtain ⟨lo, rfl⟩ := hstop lo rfl
      obtain ⟨hi, rfl⟩ := hout hi rfl
      rcases le_or_gt hi lo with hle | hlt
      · have hempty : PyFloat.fin hi ≤ .fin lo := PyFloat.fin_le_fin_iff.2 hle
        rw [uncovered_some, if_pos hempty] at hunattributed
        exact measuresUnexplained_of_empty hunattributed (.inr (.inr ⟨_, _, rfl, rfl, hempty⟩))
      · have hnonneg : ∀ x ∈ m.unattributedMs, .fin 0 ≤ x := fun x hx =>
          uncovered_nonneg x (hunattributed ▸ hx)
        rw [uncovered_fin hlt hivs] at hunattributed
        rw [ms_fin hlt.le] at hresponse
        have hlength : 0 ≤ Lib.total (Lib.merge (ivs.filterMap (Lib.clip lo hi))) := by
          refine Lib.total_nonneg (Lib.merge_all (fun i e hi he => hi.trans he) fun i hi => ?_)
          obtain ⟨j, -, hclip⟩ := List.mem_filterMap.1 hi
          obtain ⟨hlt, rfl⟩ := Lib.clip_eq_some.1 hclip
          exact hlt.le
        refine ⟨?_, ?_, ?_⟩
        · simp [hunattributed, hlt]
        · intro lo' hi' hlo' hhi' _
          obtain rfl : lo = lo' := PyFloat.fin.inj (Option.some.inj hlo')
          obtain rfl : hi = hi' := PyFloat.fin.inj (Option.some.inj hhi')
          refine ⟨_, hlength, ?_, hunattributed⟩
          rw [hivs, onAudioClock_finIntervals, Lib.volume_rational]
        · intro x hx
          refine ⟨hnonneg x hx, _, hresponse, ?_⟩
          rw [hunattributed] at hx
          cases hx
          exact PyFloat.fin_le_fin_iff.2 (Lib.roundTo_mono 1 (by linarith))

/-! ### The turns that are built -/

section

variable [Text] {spans : List (Span PyFloat)} {o : ℚ}

lemma window_rational (h : RationalSpans spans) {s : Span PyFloat} (hs : s ∈ spans)
    {i : Lib.Interval PyFloat} (hi : window s (.fin o) = some i) : i.1.Rational ∧ i.2.Rational := by
  obtain ⟨a, ha, hi⟩ := Option.bind_eq_some_iff.1 hi
  obtain ⟨b, hb, hi⟩ := Option.bind_eq_some_iff.1 hi
  cases hi
  exact ⟨toAudio_rational (h.starts s hs) a ha, toAudio_rational (h.ends s hs) b hb⟩

omit [Text] in
lemma firstAudio_rational {ttsFirstAudio ttsStart ttsTtfb : Option PyFloat}
    (hfirst : ∀ x ∈ ttsFirstAudio, x.Rational) (hstart : ∀ x ∈ ttsStart, x.Rational)
    (httfb : ∀ x ∈ ttsTtfb, x.Rational) :
    ∀ x ∈ firstAudio ttsFirstAudio ttsStart ttsTtfb, x.Rational := by
  intro x hx
  cases ttsFirstAudio with
  | some t => exact hfirst x hx
  | none =>
    cases ttsStart with
    | none => cases ttsTtfb <;> cases hx
    | some start =>
      cases ttsTtfb with
      | none => exact hstart x hx
      | some ttfb =>
        obtain ⟨p, rfl⟩ := hstart start rfl
        obtain ⟨q, rfl⟩ := httfb ttfb rfl
        cases hx
        exact ⟨_, rfl⟩

lemma childEnd_rational (h : RationalSpans spans) (tid : String) (stage : Stage) :
    ∀ x ∈ (children spans tid stage).head?.bind Span.tEnd, x.Rational := by
  intro x hx
  obtain ⟨s, hs, hx⟩ := Option.bind_eq_some_iff.1 hx
  exact h.ends s (List.mem_of_mem_filter (List.mem_of_head? hs)) x hx

lemma childStart_rational (h : RationalSpans spans) (tid : String) (stage : Stage) :
    ∀ x ∈ (children spans tid stage).head?.bind Span.tStart, x.Rational := by
  intro x hx
  obtain ⟨s, hs, hx⟩ := Option.bind_eq_some_iff.1 hx
  exact h.starts s (List.mem_of_mem_filter (List.mem_of_head? hs)) x hx

lemma endOfSpeech_rational (h : RationalSpans spans) (tid : String) :
    ∀ x ∈ endOfSpeech (children spans tid .speech) (.fin o), x.Rational := by
  refine toAudio_rational fun x hx => ?_
  obtain ⟨s, hs, hx⟩ := List.mem_filterMap.1 (PyFloat.mem_of_maximum hx)
  exact h.ends s (List.mem_of_mem_filter hs) x hx

variable {ts : Span PyFloat} {utterances : List (Utterance PyFloat)} {m : Measured}

lemma callerStop_rational (h : RationalSpans spans) (ts : Span PyFloat)
    (utterances : List (Utterance PyFloat)) :
    ∀ x ∈ (anchors ts ts.exchange spans utterances (.fin o)).callerStop, x.Rational := by
  intro x hx
  rcases Option.or_eq_some_iff.1 hx with hx | ⟨-, hx⟩
  · exact endOfSpeech_rational h _ x hx
  · exact toAudio_rational (childEnd_rational h _ _) x hx

lemma agentOut_rational (h : RationalSpans spans) (hreads : Reads ts spans utterances (.fin o) m) :
    ∀ x ∈ (anchors ts ts.exchange spans utterances (.fin o)).agentOut m.ttsTtfbMs, x.Rational := by
  refine firstAudio_rational (toAudio_rational (firstEventT_rational h _ _))
    (toAudio_rational (minimum_rational fun x hx => ?_)) ?_
  · obtain ⟨s, hs, hx⟩ := List.mem_filterMap.1 hx
    exact h.starts s (List.mem_of_mem_filter hs) x hx
  · have hms : m.ttsTtfbMs = (ttsTtfb spans (.fin o) ts).ms := by
      rw [hreads.ttsTtfb, secToMs_reported hreads.ttfb]
      rfl
    rw [hms]
    exact Latency.rational_ms (ttsTtfb_exact h ts)

lemma explained_rational (h : RationalSpans spans) (tid : String) {covering : List (Span PyFloat)}
    (hcovering : ∀ s ∈ covering, s ∈ spans) :
    ∀ i ∈ explained (endOfSpeech (children spans tid .speech) (.fin o))
      (toAudio ((children spans tid .stt).head?.bind Span.tStart) (.fin o)) covering (.fin o),
      i.1.Rational ∧ i.2.Rational := by
  intro i hi
  rcases List.mem_append.1 hi with hi | hi
  · obtain ⟨a, b, ha, hb, rfl⟩ := Option.map₂_eq_some_iff.1 (Option.mem_toList.1 hi)
    exact ⟨endOfSpeech_rational h _ a ha, toAudio_rational (childStart_rational h _ _) b hb⟩
  · obtain ⟨s, hs, hi⟩ := List.mem_filterMap.1 hi
    exact window_rational h (hcovering s hs) hi

variable {cfg : MetricConfig} {audioEnabled : Bool} {position : Nat} {turn : Turn Measured}

/-- A turn's unattributed time is the part of its window that neither its spans nor the endpointing
hold covers, and it is at most the response latency. -/
theorem buildTurn_unattributed (hspans : RationalSpans spans)
    (h : (canonical cfg audioEnabled).buildTurn ts spans utterances (.fin o) position = .ok turn) :
    MeasuresUnexplained (anchors ts ts.exchange spans utterances (.fin o)).callerStop
      ((anchors ts ts.exchange spans utterances (.fin o)).agentOut turn.measured.ttsTtfbMs)
      (explained (anchors ts ts.exchange spans utterances (.fin o)).speechEnd
        (anchors ts ts.exchange spans utterances (.fin o)).sttStart
        (children spans ts.exchange .stt ++ children spans ts.exchange .llm ++
          children spans ts.exchange .tts) (.fin o))
      turn.measured := by
  have hreads := (buildTurn_ok h).2
  refine measuresUnexplained hreads.unattributed hreads.responseLatency
    (callerStop_rational hspans ts utterances) (agentOut_rational hspans hreads)
    (explained_rational hspans ts.exchange fun s hs => ?_)
  simp only [List.mem_append] at hs
  rcases hs with (hs | hs) | hs <;> exact List.mem_of_mem_filter hs

end

/-! ### An exchange of one turn -/

/-- The caller speaks up to 1, is transcribed from 1.2 to 1.5 and is answered at 3; the model
generates from 1.4 to 2 and a second generation is reversed. -/
def answeredSpans : List (Span PyFloat) :=
  let span (id : String) (stage : Stage) (tStart tEnd : ℚ) : Span PyFloat :=
    { spanId := id, name := id, stage := stage, tStart := some (.fin tStart),
      tEnd := some (.fin tEnd), turnId := some "t1" }
  [span "turn" .turn 0 4, span "speech" .speech 0 1, span "stt" .stt (6 / 5) (3 / 2),
    span "llm" .llm (7 / 5) 2, span "llm2" .llm 3 2, span "tts" .tts 3 4]

lemma rationalSpans_answeredSpans : RationalSpans answeredSpans := by
  constructor <;> simp [answeredSpans]

/-- Between 1 and 3 nothing explains the second one. -/
theorem buildTurn_unattributed_answered : ∃ ts ∈ answeredSpans, ∃ turn : Turn Measured,
    (canonical {} false).buildTurn ts answeredSpans [] (.fin 0) 0 = .ok turn ∧
      turn.measured.unattributedMs = some (.fin 1000) ∧
      ∀ x ∈ turn.measured.unattributedMs, .fin 0 ≤ x ∧ ∃ y ∈ turn.measured.responseLatencyMs, x ≤ y := by
  have hturn : ((canonical {} false).buildTurn (answeredSpans.head (by simp [answeredSpans]))
      answeredSpans [] (.fin 0) 0).map (fun turn => turn.measured.unattributedMs) =
      .ok (some (.fin 1000)) := by decide +kernel
  obtain ⟨turn, hturn, hms⟩ := Lib.map_eq_ok.1 hturn
  exact ⟨_, List.head_mem _, turn, hturn, hms,
    (buildTurn_unattributed rationalSpans_answeredSpans hturn).bounded⟩

end Pulse.Core
