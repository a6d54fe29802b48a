import Pulse.Core.Metrics

/-!
# Metric definitions

The bounds that `core/config.py` gives the metrics, and when the metrics of the audio are within
them.
-/

namespace Pulse.Core

open Lib (Apart PyFloat)
open Lib.PyFloat (finIntervals)

/-- The fields of `MetricDef` that bound a value. -/
structure MetricDef where
  name : String
  minValue : Option ℚ := none
  maxValue : Option ℚ := none

/-- `METRIC_DEFS` -/
def metricDefs : List MetricDef := [
  ⟨"capture_coverage", some 0, some 1⟩,
  ⟨"response_latency_ms", some 0, none⟩,
  ⟨"barge_in", some 0, none⟩,
  ⟨"dead_air_s", some 0, none⟩,
  ⟨"talk_ratio", some 0, some 1⟩,
  ⟨"overlap_ratio", some 0, some 1⟩,
  ⟨"turn_count", some 0, none⟩,
  ⟨"peak_dbfs", none, some 0⟩,
  ⟨"rms_dbfs", none, some 0⟩,
  ⟨"clipping_ratio", some 0, some 1⟩,
  ⟨"llm_ttft_ms", some 0, none⟩,
  ⟨"assembly_ms", some 0, none⟩,
  ⟨"tts_ttfb_ms", some 0, none⟩,
  ⟨"tokens_per_turn", some 0, none⟩,
  ⟨"truncation_rate", some 0, some 1⟩,
  ⟨"chars_per_sec", some 0, none⟩,
  ⟨"cut_reason", none, none⟩,
  ⟨"unattributed_ms", some 0, none⟩,
  ⟨"talk_ratio_caller", some 0, some 1⟩,
  ⟨"talk_ratio_agent", some 0, some 1⟩,
  ⟨"turn_count_caller", some 0, none⟩,
  ⟨"turn_count_agent", some 0, none⟩,
  ⟨"llm_ttft_reported_ms", some 0, none⟩,
  ⟨"tts_ttfb_reported_ms", some 0, none⟩]

/-- `METRIC_DEFS_BY_NAME.get(name)` -/
def metricDef (name : String) : Option MetricDef :=
  metricDefs.find? (·.name = name)

/-- The number is within the bounds that the definition gives. -/
def MetricDef.Admits (d : MetricDef) (x : PyFloat) : Prop :=
  (∀ lo ∈ d.minValue, .fin lo ≤ x) ∧ ∀ hi ∈ d.maxValue, x ≤ .fin hi

/-- The metric has a value, within its definition, or a reason for having none. -/
structure MetricValue.WellFormed (m : MetricValue) : Prop where
  unavailable : m.available = false → m.value = none ∧ m.reason.isSome
  available : m.available = true → m.value.isSome
  bounds : ∀ d ∈ metricDef m.name, ∀ x, m.value = some (.num x) → d.Admits x

section

variable {name reason : String} {ok : Bool} {samples : Option (List PyFloat)} {d : MetricDef}

lemma wellFormed_mv {value : Option MetricNumber} : (mv name ok value reason samples).WellFormed ↔
    (ok = true → value.isSome ∧ ∀ d ∈ metricDef name, ∀ x, value = some (.num x) → d.Admits x) := by
  cases ok with
  | false =>
    refine iff_of_true ⟨fun _ => ⟨rfl, rfl⟩, fun h => Bool.noConfusion h, fun d _ x h => ?_⟩
      fun h => Bool.noConfusion h
    cases h
  | true =>
    constructor
    · exact fun h _ => ⟨h.available rfl, h.bounds⟩
    · exact fun h => ⟨fun h => Bool.noConfusion h, fun _ => (h rfl).1, (h rfl).2⟩

lemma wellFormed_none : (mv name ok none reason samples).WellFormed ↔ ok = false := by
  rw [wellFormed_mv]
  simp

lemma wellFormed_some (hd : metricDef name = some d) {x : PyFloat} :
    (mv name ok (some (.num x)) reason samples).WellFormed ↔ (ok = true → d.Admits x) := by
  rw [wellFormed_mv, hd]
  simp

lemma admits_nonneg {x : PyFloat} : (⟨name, some 0, none⟩ : MetricDef).Admits x ↔ .fin 0 ≤ x := by
  simp [MetricDef.Admits]

lemma admits_ratio {q : ℚ} : (⟨name, some 0, some 1⟩ : MetricDef).Admits ((PyFloat.fin q).round 4) ↔
    -1 / 20000 ≤ q ∧ q ≤ 20001 / 20000 := by
  have hlow := Lib.roundTo_nonneg_iff (n := 4) (q := q)
  have hhigh := Lib.roundTo_le_one_iff (n := 4) (by decide) (q := q)
  norm_num at hlow hhigh
  simp [MetricDef.Admits, PyFloat.round, hlow, hhigh, neg_div]

end

/-! ### Audio -/

/-- Every number of the audio is a rational, and every utterance takes some time. -/
structure RationalAudio (audio : AudioAnalysis PyFloat) : Prop where
  utterances : ∀ u ∈ audio.utterances, u.tStart.Rational ∧ u.tEnd.Rational ∧ u.tStart < u.tEnd
  coverage : ∀ c ∈ audio.coverage, c.2.Rational

/-- What keeps the metrics of the audio within their definitions. -/
structure AudioWithin (audio : AudioAnalysis PyFloat) (agentIv : List (Lib.Interval PyFloat)) : Prop where
  coverage : audio.coverage ≠ [] → (∀ c ∈ audio.coverage, .fin (-1 / 20000) ≤ c.2) ∧
    ∃ c ∈ audio.coverage, c.2 ≤ .fin (20001 / 20000)
  /-- The caller does not speak for longer than the call lasts. -/
  caller : .fin 0 < duration audio agentIv →
    Lib.total (uttsToIntervals (callerUtterances audio)) ≤ (duration audio agentIv).scale (20001 / 20000)
  /-- The call lasts some time if the agent speaks, and the agent speaks for no longer. -/
  agent : agentIv ≠ [] → .fin 0 < duration audio agentIv ∧
    .fin 0 ≤ Lib.total agentIv + (duration audio agentIv).scale (1 / 20000) ∧
    Lib.total agentIv ≤ (duration audio agentIv).scale (20001 / 20000)

section

variable {audio : AudioAnalysis PyFloat} {agentIv : List (Lib.Interval PyFloat)}

/-- Merged intervals of rationals are apart. -/
lemma exists_merge_eq {ivs : List (Lib.Interval PyFloat)} (h : ∀ i ∈ ivs, i.1.Rational ∧ i.2.Rational) :
    ∃ ks, Apart ks ∧ Lib.merge ivs = finIntervals ks := by
  obtain ⟨ks, rfl⟩ := PyFloat.exists_finIntervals h
  exact ⟨Lib.merge ks, Lib.merge_apart ks, PyFloat.embeds_fin.merge ks⟩

/-- The intervals of utterances are not reversed. -/
lemma exists_uttsToIntervals_eq {utts : List (Utterance PyFloat)}
    (h : ∀ u ∈ utts, u.tStart.Rational ∧ u.tEnd.Rational ∧ u.tStart < u.tEnd) :
    ∃ ks : List (Lib.Interval ℚ), (∀ i ∈ ks, i.1 < i.2) ∧ Apart ks ∧
      uttsToIntervals utts = finIntervals ks := by
  have hrational : ∀ i ∈ utts.map fun u => (u.tStart, u.tEnd), i.1.Rational ∧ i.2.Rational := by
    intro i hi
    obtain ⟨u, hu, rfl⟩ := List.mem_map.1 hi
    exact ⟨(h u hu).1, (h u hu).2.1⟩
  obtain ⟨ks, hks⟩ := PyFloat.exists_finIntervals hrational
  have hlt : ∀ i ∈ ks, i.1 < i.2 := by
    intro i hi
    have hmem : Prod.map PyFloat.fin PyFloat.fin i ∈ utts.map fun u => (u.tStart, u.tEnd) := by
      rw [hks]
      exact List.mem_map_of_mem hi
    obtain ⟨u, hu, heq⟩ := List.mem_map.1 hmem
    have hstart : u.tStart = .fin i.1 := congrArg Prod.fst heq
    have hend : u.tEnd = .fin i.2 := congrArg Prod.snd heq
    have hlt := (h u hu).2.2
    rw [hstart, hend] at hlt
    exact PyFloat.fin_lt_fin_iff.1 hlt
  refine ⟨Lib.merge ks, Lib.merge_all (fun i e hi he => hi.trans_le he) hlt, Lib.merge_apart ks, ?_⟩
  rw [uttsToIntervals, hks]
  exact PyFloat.embeds_fin.merge ks

lemma wellFormed_captureCoverage (h : ∀ c ∈ audio.coverage, c.2.Rational) :
    (mv "capture_coverage" (!(audio.coverage.map Prod.snd).isEmpty)
      ((PyFloat.minimum (audio.coverage.map Prod.snd)).map fun x => .num (x.round 4)) "no audio"
      (some ((audio.coverage.map Prod.snd).map (PyFloat.round 4)))).WellFormed ↔
      (audio.coverage ≠ [] → (∀ c ∈ audio.coverage, .fin (-1 / 20000) ≤ c.2) ∧
        ∃ c ∈ audio.coverage, c.2 ≤ .fin (20001 / 20000)) := by
  have hrational : ∀ x ∈ audio.coverage.map Prod.snd, x.Rational := List.forall_mem_map.2 h
  obtain ⟨qs, hqs⟩ := PyFloat.exists_map_fin hrational
  have hall (p : PyFloat → Prop) : (∀ c ∈ audio.coverage, p c.2) ↔ ∀ q ∈ qs, p (.fin q) := by
    rw [← List.forall_mem_map (f := Prod.snd), hqs, List.forall_mem_map]
  have hany (p : PyFloat → Prop) : (∃ c ∈ audio.coverage, p c.2) ↔ ∃ q ∈ qs, p (.fin q) := by
    rw [← not_iff_not]
    push Not
    exact hall (¬p ·)
  have hnil : audio.coverage ≠ [] ↔ qs ≠ [] := by
    rw [Ne, ← List.map_eq_nil_iff (f := Prod.snd), hqs, List.map_eq_nil_iff]
  rw [hall (.fin (-1 / 20000) ≤ ·), hany (· ≤ .fin (20001 / 20000)), hnil, hqs]
  by_cases hempty : qs = []
  · subst hempty
    simp [wellFormed_mv]
  · obtain ⟨m, hm, hle, hmin⟩ := PyFloat.exists_minimum hempty
    have hdef : metricDef "capture_coverage" = some ⟨"capture_coverage", some 0, some 1⟩ := rfl
    rw [hmin, Option.map_some, wellFormed_some hdef, admits_ratio]
    simp only [PyFloat.fin_le_fin_iff]
    constructor
    · intro h _
      have h := h (by simpa using hempty)
      exact ⟨fun q hq => h.1.trans (hle q hq), m, hm, h.2⟩
    · rintro h -
      obtain ⟨hlow, q, hq, hhigh⟩ := h hempty
      exact ⟨hlow m hm, (hle q hq).trans hhigh⟩

lemma wellFormed_deadAir {caller : List (Utterance PyFloat)} {js : List (Lib.Interval ℚ)} {D : ℚ}
    {minGap : PyFloat} {ok : Bool} {reason : String}
    (hcaller : ∀ u ∈ caller, u.tStart.Rational ∧ u.tEnd.Rational ∧ u.tStart < u.tEnd) :
    (mv "dead_air_s" ok (some (.num (deadAirS caller (finIntervals js) (.fin D) minGap)))
      reason).WellFormed := by
  have hnonneg : .fin 0 ≤ deadAirS caller (finIntervals js) (.fin D) minGap := by
    obtain ⟨ks, -, -, hks⟩ := exists_uttsToIntervals_eq hcaller
    unfold deadAirS
    split
    · exact PyFloat.fin_le_fin_iff.2 le_rfl
    · dsimp only
      rw [hks, ← List.map_append, PyFloat.embeds_fin.merge, Lib.complement, PyFloat.embeds_fin.merge,
        PyFloat.embeds_fin.gapsFrom, List.filter_map, PyFloat.total_finIntervals]
      have hhalf : -(1 / 2) / 10 ^ 4 ≤ (0 : ℚ) := by norm_num
      refine PyFloat.fin_le_fin_iff.2 (Lib.roundTo_nonneg_iff.2 (hhalf.trans ?_))
      refine Lib.total_nonneg fun i hi => ?_
      exact (Lib.gapsFrom_all D 0 _ i (List.mem_of_mem_filter hi)).le
  have hdef : metricDef "dead_air_s" = some ⟨"dead_air_s", some 0, none⟩ := rfl
  exact (wellFormed_some hdef).2 fun _ => admits_nonneg.2 hnonneg

lemma admits_fraction {name : String} {t D : ℚ} (hD : 0 < D) :
    (⟨name, some 0, some 1⟩ : MetricDef).Admits (((PyFloat.fin t).div (.fin D)).round 4) ↔
      0 ≤ t + D * (1 / 20000) ∧ t ≤ D * (20001 / 20000) := by
  have hdiv : (PyFloat.fin t).div (.fin D) = .fin (t / D) := rfl
  rw [hdiv, admits_ratio, le_div_iff₀ hD, div_le_iff₀ hD]
  constructor
  · rintro ⟨hlow, hhigh⟩
    exact ⟨by linarith, by linarith⟩
  · rintro ⟨hlow, hhigh⟩
    exact ⟨by linarith, by linarith⟩

lemma talkRatio_eq {caller : List (Utterance PyFloat)} {ks js : List (Lib.Interval ℚ)} {D : ℚ}
    (hD : 0 < D) (hks : uttsToIntervals caller = finIntervals ks) :
    talkRatio caller (finIntervals js) (.fin D) =
      some (((PyFloat.fin (Lib.total ks)).div (.fin D)).round 4,
        ((PyFloat.fin (Lib.total js)).div (.fin D)).round 4,
        ((PyFloat.fin (Lib.total (Lib.intersect ks js))).div (.fin D)).round 4) := by
  have hnot : ¬PyFloat.fin D ≤ .fin 0 := by simpa using hD
  have hboth : Lib.intersect (finIntervals ks) (finIntervals js) =
      finIntervals (Lib.intersect ks js) := PyFloat.embeds_fin.intersect ks js
  simp only [talkRatio, if_neg hnot, hks, hboth, PyFloat.total_finIntervals]

/-- The overlap is within its definition when the caller's share is. -/
lemma wellFormed_talkRatio {caller : List (Utterance PyFloat)} {ks js : List (Lib.Interval ℚ)} {D : ℚ}
    {ok : Bool} (hlt : ∀ i ∈ ks, i.1 < i.2) (hks : uttsToIntervals caller = finIntervals ks)
    (hjs : Apart js) :
    ((mv "talk_ratio_caller" (talkRatio caller (finIntervals js) (.fin D)).isSome
        ((talkRatio caller (finIntervals js) (.fin D)).map fun r => .num r.1) "no audio").WellFormed ∧
      (mv "talk_ratio_agent" ok
        ((talkRatio caller (finIntervals js) (.fin D)).map fun r => .num r.2.1)
        "no agent spans").WellFormed ∧
      (mv "overlap_ratio" ok
        ((talkRatio caller (finIntervals js) (.fin D)).map fun r => .num r.2.2)
        "no agent spans").WellFormed) ↔
      (0 < D → Lib.total ks ≤ D * (20001 / 20000)) ∧
        (ok = true → 0 < D ∧ 0 ≤ Lib.total js + D * (1 / 20000) ∧
          Lib.total js ≤ D * (20001 / 20000)) := by
  by_cases hD : 0 < D
  · have hcaller : metricDef "talk_ratio_caller" = some ⟨"talk_ratio_caller", some 0, some 1⟩ := rfl
    have hagent : metricDef "talk_ratio_agent" = some ⟨"talk_ratio_agent", some 0, some 1⟩ := rfl
    have hoverlap : metricDef "overlap_ratio" = some ⟨"overlap_ratio", some 0, some 1⟩ := rfl
    have hnonneg : 0 ≤ Lib.total ks := Lib.total_nonneg fun i hi => (hlt i hi).le
    have hboth : 0 ≤ Lib.total (Lib.intersect ks js) :=
      Lib.total_nonneg fun i hi => (Lib.intersect_all ks js i hi).le
    have hwithin : Lib.total (Lib.intersect ks js) ≤ Lib.total ks :=
      Lib.total_intersect_le (fun i hi => (hlt i hi).le) hjs
    simp only [talkRatio_eq hD hks, Option.map_some, wellFormed_some hcaller, wellFormed_some hagent,
      wellFormed_some hoverlap, admits_fraction hD, Option.isSome_some, forall_const, hD, true_and]
    constructor
    · rintro ⟨⟨-, hhigh⟩, hagent, -⟩
      exact ⟨hhigh, hagent⟩
    · rintro ⟨hhigh, hagent⟩
      exact ⟨⟨by linarith, hhigh⟩, hagent, fun _ => ⟨by linarith, by linarith⟩⟩
  · have hnone : talkRatio caller (finIntervals js) (.fin D) = none := by
      rw [talkRatio, if_pos (PyFloat.fin_le_fin_iff.2 (not_lt.1 hD))]
    simp [hnone, wellFormed_none, hD]

/-- The metrics of the audio are well formed exactly when the audio is within the definitions. -/
theorem wellFormed_audioMetrics (haudio : RationalAudio audio)
    (hagent : ∃ js, Apart js ∧ agentIv = finIntervals js) (cfg : MetricConfig) :
    (∀ m ∈ audioMetrics audio agentIv cfg, m.WellFormed) ↔ AudioWithin audio agentIv := by
  obtain ⟨js, hjs, rfl⟩ := hagent
  have hcaller : ∀ u ∈ callerUtterances audio,
      u.tStart.Rational ∧ u.tEnd.Rational ∧ u.tStart < u.tEnd :=
    fun u hu => haudio.utterances u (List.mem_of_mem_filter hu)
  obtain ⟨ks, hlt, -, hks⟩ := exists_uttsToIntervals_eq hcaller
  obtain ⟨D, hD⟩ : (duration audio (finIntervals js)).Rational := by
    unfold duration
    cases hmax : PyFloat.maximum
        (audio.utterances.map Utterance.tEnd ++ (finIntervals js).map Prod.snd) with
    | none => exact ⟨0, rfl⟩
    | some x =>
      rcases List.mem_append.1 (PyFloat.mem_of_maximum hmax) with h | h
      · obtain ⟨u, hu, rfl⟩ := List.mem_map.1 h
        exact (haudio.utterances u hu).2.1
      · obtain ⟨i, hi, rfl⟩ := List.mem_map.1 h
        obtain ⟨j, -, rfl⟩ := List.mem_map.1 hi
        exact ⟨j.2, rfl⟩
  have hcount (n : Nat) : .fin 0 ≤ PyFloat.fin n := PyFloat.fin_le_fin_iff.2 n.cast_nonneg
  have hbarge : metricDef "barge_in" = some ⟨"barge_in", some 0, none⟩ := rfl
  have hturnsCaller : metricDef "turn_count_caller" = some ⟨"turn_count_caller", some 0, none⟩ := rfl
  have hturnsAgent : metricDef "turn_count_agent" = some ⟨"turn_count_agent", some 0, none⟩ := rfl
  simp only [audioMetrics, hD, List.forall_mem_cons, and_true,
    wellFormed_captureCoverage haudio.coverage, wellFormed_deadAir hcaller, wellFormed_some hbarge,
    wellFormed_some hturnsCaller, wellFormed_some hturnsAgent, admits_nonneg, hcount, true_and,
    implies_true, List.not_mem_nil, IsEmpty.forall_iff]
  have hempty : (!(finIntervals js).isEmpty) = true ↔ finIntervals js ≠ [] := by simp
  have hscale (c : ℚ) : (PyFloat.fin D).scale c = .fin (D * c) := rfl
  rw [wellFormed_talkRatio hlt hks hjs, hempty]
  constructor
  · rintro ⟨hcoverage, hcaller, hagent⟩
    constructor
    · exact hcoverage
    · simpa [hD, hks, hscale, PyFloat.total_finIntervals] using hcaller
    · simpa [hD, hscale, PyFloat.total_finIntervals] using hagent
  · rintro ⟨hcoverage, hcaller, hagent⟩
    refine ⟨hcoverage, ?_, ?_⟩
    · simpa [hD, hks, hscale, PyFloat.total_finIntervals] using hcaller
    · simpa [hD, hscale, PyFloat.total_finIntervals] using hagent

end

end Pulse.Core
