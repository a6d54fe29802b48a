import Pulse.Core.MetricDefs
import Pulse.Core.Analysable

/-!
# Metrics within their definitions

The metrics of an analysis are well formed exactly when the producer reports few negative
latencies, its counts agree with each other, and the windows of the agent fit into the call.
-/

namespace Pulse.Core

open Lib (PyFloat)
open Lib.PyFloat (finIntervals)

/-! ### Rational times -/

/-- Every time of the spans is a rational, and so is every number that an attribute is read as. -/
structure RationalSpans [Text] (spans : List (Span PyFloat)) : Prop where
  starts : ∀ s ∈ spans, ∀ t ∈ s.tStart, t.Rational
  ends : ∀ s ∈ spans, ∀ t ∈ s.tEnd, t.Rational
  events : ∀ s ∈ spans, ∀ e ∈ s.events, ∀ t ∈ e.t, t.Rational
  attrs : ∀ s ∈ spans, ∀ kv ∈ s.attrs, ∀ x, floatOrNone kv.2 = .ok (some x) → x.Rational

lemma round_rational {x : PyFloat} (h : x.Rational) (n : Nat) : (x.round n).Rational := by
  obtain ⟨q, rfl⟩ := h
  exact ⟨_, rfl⟩

lemma toAudio_rational {t : Option PyFloat} {o : ℚ} (h : ∀ x ∈ t, x.Rational) :
    ∀ x ∈ toAudio t (.fin o), x.Rational := by
  intro x hx
  obtain ⟨y, hy, rfl⟩ := Option.map_eq_some_iff.1 hx
  obtain ⟨q, rfl⟩ := h y hy
  rw [PyFloat.fin_sub_fin]
  exact round_rational ⟨_, rfl⟩ 4

lemma ms_rational {a b : Option PyFloat} (ha : ∀ x ∈ a, x.Rational) (hb : ∀ x ∈ b, x.Rational) :
    ∀ x ∈ ms a b, x.Rational := by
  intro x hx
  obtain ⟨y, hy, hx⟩ := Option.bind_eq_some_iff.1 hx
  obtain ⟨z, hz, hx⟩ := Option.bind_eq_some_iff.1 hx
  obtain ⟨p, rfl⟩ := hb y hy
  obtain ⟨q, rfl⟩ := ha z hz
  dsimp only at hx
  split at hx
  · cases hx
    rw [PyFloat.fin_sub_fin]
    exact round_rational ⟨_, rfl⟩ 1
  · cases hx

lemma minimum_rational {xs : List PyFloat} (h : ∀ x ∈ xs, x.Rational) :
    ∀ x ∈ PyFloat.minimum xs, x.Rational :=
  fun x hx => h x (PyFloat.mem_of_minimum hx)

lemma firstEventT_rational [Text] {spans : List (Span PyFloat)} (h : RationalSpans spans)
    (name tid : String) : ∀ x ∈ firstEventT spans name tid, x.Rational := by
  refine minimum_rational fun x hx => ?_
  obtain ⟨s, hs, hx⟩ := List.mem_flatMap.1 hx
  obtain ⟨e, he, hx⟩ := List.mem_filterMap.1 hx
  split at hx
  · exact h.events s hs e he x hx
  · cases hx

lemma agentIntervals_rational [Text] {spans : List (Span PyFloat)} (h : RationalSpans spans) (o : ℚ) :
    ∃ js, Lib.Apart js ∧ agentIntervals spans (.fin o) = finIntervals js := by
  refine exists_merge_eq fun i hi => ?_
  obtain ⟨s, hs, hi⟩ := List.mem_filterMap.1 hi
  have hs := List.mem_of_mem_filter hs
  obtain ⟨a, ha, hi⟩ := Option.bind_eq_some_iff.1 hi
  obtain ⟨b, hb, hi⟩ := Option.bind_eq_some_iff.1 hi
  cases hi
  exact ⟨toAudio_rational (h.starts s hs) a ha, toAudio_rational (h.ends s hs) b hb⟩

/-! ### Numbers that are not negative -/

lemma scale_nonneg {x : PyFloat} {c : ℚ} (hc : 0 ≤ c) (h : .fin 0 ≤ x) : .fin 0 ≤ x.scale c := by
  cases x with
  | fin q => exact PyFloat.fin_le_fin_iff.2 (mul_nonneg (PyFloat.fin_le_fin_iff.1 h) hc)
  | inf | negInf | nan => exact h

lemma round_nonneg {x : PyFloat} (n : Nat) (h : .fin 0 ≤ x) : .fin 0 ≤ x.round n := by
  cases x with
  | fin q =>
    have hhalf : -(1 / 2) / 10 ^ n ≤ (0 : ℚ) := div_nonpos_of_nonpos_of_nonneg (by norm_num) (by positivity)
    exact PyFloat.fin_le_fin_iff.2 (Lib.roundTo_nonneg_iff.2 (hhalf.trans (PyFloat.fin_le_fin_iff.1 h)))
  | inf | negInf | nan => exact h

/-- A time between two others is not negative. -/
lemma ms_nonneg {a b : Option PyFloat} : ∀ x ∈ ms a b, .fin 0 ≤ x := by
  intro x hx
  obtain ⟨y, -, hx⟩ := Option.bind_eq_some_iff.1 hx
  obtain ⟨z, -, hx⟩ := Option.bind_eq_some_iff.1 hx
  dsimp only at hx
  split at hx
  · next h =>
    cases hx
    exact round_nonneg 1 h
  · cases hx

lemma uncovered_nonneg {callerStop agentOut speechEnd sttStart : Option PyFloat}
    {spans : List (Span PyFloat)} {offset : PyFloat} :
    ∀ x ∈ uncovered callerStop agentOut speechEnd sttStart spans offset, .fin 0 ≤ x := by
  intro x hx
  obtain ⟨lo, -, hx⟩ := Option.bind_eq_some_iff.1 hx
  obtain ⟨hi, -, hx⟩ := Option.bind_eq_some_iff.1 hx
  split at hx
  · cases hx
  · cases hx
    refine round_nonneg 1 (scale_nonneg (by norm_num) ?_)
    have hmax (y : PyFloat) : .fin 0 ≤ Lib.maxOf (.fin 0) y := by
      unfold Lib.maxOf
      split
      · next h =>
        have h : (PyFloat.fin 0).lt y = true := h
        change ((PyFloat.fin 0).lt y || _) = true
        rw [h, Bool.true_or]
      · exact PyFloat.fin_le_fin_iff.2 le_rfl
    exact hmax _

/-! ### Percentiles -/

lemma rank_lt {pct : ℚ} {n : Nat} (hn : 0 < n) : rank pct n < n := by
  unfold rank
  generalize Lib.roundEven _ = r
  omega

lemma percentile_of_ne_nil {xs : List PyFloat} (h : xs ≠ []) (pct : ℚ) :
    ∃ x ∈ xs, percentile xs pct = some x := by
  have hlength : (Lib.sorted PyFloat.lt xs).length = xs.length :=
    (Lib.sorted_perm PyFloat.lt xs).length_eq
  have hrank : rank pct xs.length < (Lib.sorted PyFloat.lt xs).length := by
    rw [hlength]
    exact rank_lt (List.length_pos_of_ne_nil h)
  exact ⟨_, Lib.mem_sorted.1 (List.getElem_mem hrank), List.getElem?_eq_getElem hrank⟩

/-- A latency of a turn, as the clock measures it in milliseconds and as the producer reports it in
seconds. -/
structure Latency where
  clocked : Option PyFloat
  reported : Option PyFloat

namespace Latency

/-- The clock's latency, else the reported one. -/
def ms (l : Latency) : Option PyFloat :=
  l.clocked.or (l.reported.map fun x => (x.scale 1000).round 1)

def present (l : Latency) : Bool :=
  l.clocked.isSome || l.reported.isSome

/-- The clock gives no latency and the producer reports one that rounds to less than nothing. -/
def negative (l : Latency) : Bool :=
  l.clocked.isNone && l.reported.any fun x => decide (x < .fin (-1 / 20000))

structure Exact (l : Latency) : Prop where
  clocked : ∀ x ∈ l.clocked, x.Rational ∧ .fin 0 ≤ x
  reported : ∀ x ∈ l.reported, x.Rational

lemma isSome_ms (l : Latency) : l.ms.isSome = l.present := by
  simp [ms, present]

lemma rational_ms {l : Latency} (h : l.Exact) : ∀ x ∈ l.ms, x.Rational := by
  intro x hx
  rcases Option.or_eq_some_iff.1 hx with hx | ⟨-, hx⟩
  · exact (h.clocked x hx).1
  · obtain ⟨y, hy, rfl⟩ := Option.map_eq_some_iff.1 hx
    obtain ⟨q, rfl⟩ := h.reported y hy
    exact ⟨_, rfl⟩

/-- Rounded to tenths, a number is below a half of one exactly when it was before. -/
lemma roundTo_lt_iff {q : ℚ} : Lib.roundTo 1 (q * 1000) < -1 / 20 ↔ q < -1 / 20000 := by
  have hround : -1 / 20 ≤ Lib.roundTo 1 (q * 1000) ↔ 0 ≤ Lib.roundTo 1 (q * 1000) := by
    constructor
    · intro h
      unfold Lib.roundTo at h ⊢
      rw [pow_one, le_div_iff₀ (by norm_num)] at h
      rw [pow_one]
      have hlt : (-1 : ℚ) < Lib.roundEven (q * 1000 * 10) := lt_of_lt_of_le (by norm_num) h
      have hlt : -1 < Lib.roundEven (q * 1000 * 10) := by exact_mod_cast hlt
      have hle : 0 ≤ Lib.roundEven (q * 1000 * 10) := by omega
      exact div_nonneg (by exact_mod_cast hle) (by norm_num)
    · exact fun h => le_trans (by norm_num) h
  have hhalf := Lib.roundTo_nonneg_iff (n := 1) (q := q * 1000)
  rw [← not_le, ← not_le, hround, hhalf, not_iff_not]
  constructor
  · intro h
    linarith
  · intro h
    linarith

lemma any_ms {l : Latency} (h : l.Exact) :
    (l.ms.map fun x => decide (x < .fin (-1 / 20))).getD false = l.negative := by
  obtain ⟨clocked, reported⟩ := l
  cases clocked with
  | some x =>
    obtain ⟨⟨q, rfl⟩, hq⟩ := h.clocked x rfl
    have hle : (0 : ℚ) ≤ q := PyFloat.fin_le_fin_iff.1 hq
    have hnot : ¬q < -1 / 20 := by linarith
    simp [ms, negative, hnot]
  | none =>
    cases reported with
    | none => rfl
    | some x =>
      obtain ⟨q, rfl⟩ := h.reported x rfl
      simp [ms, negative, PyFloat.scale, PyFloat.round, roundTo_lt_iff]

end Latency

/-- There are fewer negative latencies than the ninetieth percentile leaves below it. -/
def FewNegative (ls : List Latency) : Prop :=
  ls.countP Latency.negative ≤ rank 90 (ls.countP Latency.present)

section

variable {turns : List Measured} {name : String} {field : Measured → Option PyFloat}

lemma wellFormed_percentile (hd : metricDef name = some ⟨name, some 0, none⟩)
    (h : ∀ t ∈ turns, ∀ x ∈ field t, .fin 0 ≤ x) : (percentileMetric turns name field).WellFormed := by
  by_cases hempty : turns.filterMap field = []
  · simp [percentileMetric, hempty, wellFormed_mv]
  · obtain ⟨x, hx, hpercentile⟩ := percentile_of_ne_nil hempty 90
    obtain ⟨t, ht, hx⟩ := List.mem_filterMap.1 hx
    rw [percentileMetric, hpercentile, Option.map_some, wellFormed_some hd, admits_nonneg]
    exact fun _ => round_nonneg 1 (h t ht x hx)

lemma wellFormed_percentile_iff (hd : metricDef name = some ⟨name, some 0, none⟩) {ls : List Latency}
    (hs : turns.filterMap field = ls.filterMap Latency.ms) (h : ∀ l ∈ ls, l.Exact) :
    (percentileMetric turns name field).WellFormed ↔ FewNegative ls := by
  have hrational : ∀ x ∈ ls.filterMap Latency.ms, x.Rational := by
    intro x hx
    obtain ⟨l, hl, hx⟩ := List.mem_filterMap.1 hx
    exact Latency.rational_ms (h l hl) x hx
  obtain ⟨qs, hqs⟩ := PyFloat.exists_map_fin hrational
  have hlength : qs.length = ls.countP Latency.present := by
    have hmap : (ls.filterMap Latency.ms).length = qs.length := by rw [hqs, List.length_map]
    rw [← hmap, List.length_filterMap_eq_countP]
    simp only [Latency.isSome_ms]
  have hcount : qs.countP (fun q => decide (q < -1 / 20)) = ls.countP Latency.negative := by
    have hmap : (ls.filterMap Latency.ms).countP (fun x => decide (x < .fin (-1 / 20))) =
        qs.countP fun q => decide (q < -1 / 20) := by
      rw [hqs, List.countP_map]
      apply List.countP_congr
      intro q _
      simp
    rw [← hmap, List.countP_filterMap]
    apply List.countP_congr
    intro l hl
    rw [Latency.any_ms (h l hl)]
  rw [percentileMetric, hs, hqs]
  by_cases hempty : qs = []
  · subst hempty
    rw [FewNegative, ← hcount]
    simp [wellFormed_mv]
  · have hrank : rank 90 qs.length < (Lib.sorted (fun a b => decide (a < b)) qs).length := by
      rw [(Lib.sorted_perm _ qs).length_eq]
      exact rank_lt (List.length_pos_of_ne_nil hempty)
    have hpercentile : percentile (qs.map .fin) 90 =
        some (.fin (Lib.sorted (fun a b => decide (a < b)) qs)[rank 90 qs.length]) := by
      rw [percentile, PyFloat.sorted_map_fin, List.length_map, List.getElem?_map,
        List.getElem?_eq_getElem hrank]
      rfl
    have hnonempty : (!(qs.map PyFloat.fin).isEmpty) = true := by simpa using hempty
    have hhalf (q : ℚ) : .fin 0 ≤ (PyFloat.fin q).round 1 ↔ -1 / 20 ≤ q := by
      have hround := Lib.roundTo_nonneg_iff (n := 1) (q := q)
      norm_num at hround
      simp [PyFloat.round, hround, neg_div]
    rw [hpercentile, Option.map_some, wellFormed_some hd, admits_nonneg, hnonempty, hhalf,
      Lib.le_getElem_iff (Lib.sorted_le qs) hrank, (Lib.sorted_perm _ qs).countP_eq, hcount, hlength,
      FewNegative]
    simp

end

/-! ### Counts -/

/-- What keeps the metrics of the turns' counts within their definitions. -/
structure CountsWithin (cs : List Counts) : Prop where
  /-- The mean does not round to less than nothing. -/
  tokens : 0 ≤ 20 * (cs.filterMap Counts.tokensOut).sum + (cs.filterMap Counts.tokensOut).length
  truncation : (cs.filterMap Counts.chars).sum ≠ 0 →
    -1 / 20000 ≤ ((cs.filterMap Counts.charsCut).sum : ℚ) / ((cs.filterMap Counts.chars).sum : ℚ) ∧
      ((cs.filterMap Counts.charsCut).sum : ℚ) / ((cs.filterMap Counts.chars).sum : ℚ) ≤ 20001 / 20000

lemma countsWithin_of_none {cs : List Counts} (h : ∀ c ∈ cs, c = ⟨none, none, none⟩) :
    CountsWithin cs := by
  have hchars : cs.filterMap Counts.chars = [] :=
    List.filterMap_eq_nil_iff.2 fun c hc => by rw [h c hc]
  have htokens : cs.filterMap Counts.tokensOut = [] :=
    List.filterMap_eq_nil_iff.2 fun c hc => by rw [h c hc]
  constructor
  · simp [htokens]
  · simp [hchars]

lemma quotient_eq_ok {a b : Int} {n : Nat} {x : Option MetricNumber} (h : quotient a b n = .ok x) :
    x = if b = 0 then none else some (.num ((PyFloat.fin ((a : ℚ) / b)).round n)) := by
  unfold quotient at h
  split at h
  · next hb =>
    cases h
    rw [if_pos hb]
  · next hb =>
    obtain ⟨y, hy, rfl⟩ := Lib.map_eq_ok.1 h
    unfold toFloat at hy
    split at hy
    · cases hy
      rw [if_neg hb]
    · cases hy

lemma wellFormed_tokensPerTurn {turns : List Measured} {m : MetricValue}
    (h : tokensPerTurn turns = .ok m) : m.WellFormed ↔
      0 ≤ 20 * (turns.filterMap Measured.tokensOut).sum + (turns.filterMap Measured.tokensOut).length := by
  obtain ⟨mean, hmean, h⟩ := Lib.bind_eq_ok.1 h
  obtain ⟨samples, -, h⟩ := Lib.bind_eq_ok.1 h
  cases h
  have hdef : metricDef "tokens_per_turn" = some ⟨"tokens_per_turn", some 0, none⟩ := rfl
  rw [quotient_eq_ok hmean]
  generalize turns.filterMap Measured.tokensOut = toks
  cases toks with
  | nil => simp [wellFormed_none]
  | cons n toks =>
    have hpos : (0 : ℚ) < ((n :: toks).length : Int) := by
      exact_mod_cast Nat.succ_pos toks.length
    have hne : ((n :: toks).length : Int) ≠ 0 := by exact_mod_cast hpos.ne'
    have hround := Lib.roundTo_nonneg_iff (n := 1)
      (q := ((n :: toks).sum : ℚ) / (((n :: toks).length : Int) : ℚ))
    rw [if_neg hne, wellFormed_some hdef, admits_nonneg]
    simp only [PyFloat.round, PyFloat.fin_le_fin_iff, hround, List.isEmpty_cons, Bool.not_false,
      forall_const]
    rw [le_div_iff₀ hpos]
    have hcast : (0 : ℤ) ≤ 20 * (n :: toks).sum + (n :: toks).length ↔
        (0 : ℚ) ≤ 20 * ((n :: toks).sum : ℚ) + (((n :: toks).length : Int) : ℚ) := by
      exact_mod_cast Iff.rfl
    rw [hcast]
    constructor
    · intro h
      linarith
    · intro h
      linarith

lemma wellFormed_truncationRate {turns : List Measured} {m : MetricValue}
    (h : truncationRate turns = .ok m) : m.WellFormed ↔
      ((turns.filterMap Measured.ttsChars).sum ≠ 0 →
        -1 / 20000 ≤ ((turns.filterMap Measured.ttsCharsCut).sum : ℚ) /
            ((turns.filterMap Measured.ttsChars).sum : ℚ) ∧
          ((turns.filterMap Measured.ttsCharsCut).sum : ℚ) /
            ((turns.filterMap Measured.ttsChars).sum : ℚ) ≤ 20001 / 20000) := by
  obtain ⟨rate, hrate, h⟩ := Lib.bind_eq_ok.1 h
  cases h
  have hdef : metricDef "truncation_rate" = some ⟨"truncation_rate", some 0, some 1⟩ := rfl
  rw [quotient_eq_ok hrate]
  by_cases hchars : (turns.filterMap Measured.ttsChars).sum = 0
  · simp [hchars, wellFormed_none]
  · rw [if_neg hchars, wellFormed_some hdef, admits_ratio, decide_eq_true_iff]

lemma wellFormed_cutReasons (turns : List Measured) : (cutReasons turns).WellFormed := by
  unfold cutReasons
  rw [wellFormed_mv]
  simp

/-- The metrics of the turns, by the percentiles and the counts. -/
lemma wellFormed_layer2Metrics {turns : List Measured} {metrics : List MetricValue}
    (h : layer2Metrics turns = .ok metrics) : (∀ m ∈ metrics, m.WellFormed) ↔
      ((percentileMetric turns "response_latency_ms" Measured.responseLatencyMs).WellFormed ∧
        (percentileMetric turns "llm_ttft_ms" Measured.llmTtftMs).WellFormed ∧
        (percentileMetric turns "assembly_ms" Measured.assemblyMs).WellFormed ∧
        (percentileMetric turns "tts_ttfb_ms" Measured.ttsTtfbMs).WellFormed ∧
        (percentileMetric turns "unattributed_ms" Measured.unattributedMs).WellFormed ∧
        (percentileMetric turns "llm_ttft_reported_ms" Measured.llmTtftReportedMs).WellFormed ∧
        (percentileMetric turns "tts_ttfb_reported_ms" Measured.ttsTtfbReportedMs).WellFormed) ∧
      CountsWithin (turns.map Measured.counts) := by
  obtain ⟨tokens, htokens, h⟩ := Lib.bind_eq_ok.1 h
  obtain ⟨truncation, htruncation, h⟩ := Lib.bind_eq_ok.1 h
  cases h
  have hcounts : CountsWithin (turns.map Measured.counts) ↔ tokens.WellFormed ∧ truncation.WellFormed := by
    rw [wellFormed_tokensPerTurn htokens, wellFormed_truncationRate htruncation]
    constructor
    · rintro ⟨htokens, htruncation⟩
      rw [List.filterMap_map] at htokens
      rw [List.filterMap_map, List.filterMap_map] at htruncation
      exact ⟨htokens, htruncation⟩
    · rintro ⟨htokens, htruncation⟩
      constructor
      · rw [List.filterMap_map]
        exact htokens
      · rw [List.filterMap_map, List.filterMap_map]
        exact htruncation
  rw [hcounts]
  simp only [List.forall_mem_append, List.forall_mem_cons, List.not_mem_nil, IsEmpty.forall_iff,
    implies_true, and_true, wellFormed_cutReasons, and_assoc]

/-! ### Analyses -/

section

variable [Text]

/-- The seconds that an attribute reports. -/
def reported (v : Value PyFloat) : Option PyFloat :=
  match floatOrNone v with
  | .ok x => x
  | .error _ => none

/-- The time to the first token of the exchange of a turn span. -/
def llmTtft (spans : List (Span PyFloat)) (offset : PyFloat) (ts : Span PyFloat) : Latency where
  clocked := ms (toAudio ((children spans ts.exchange .llm).head?.bind Span.tStart) offset)
    (toAudio (firstEventT spans "llm.first_token" ts.exchange) offset)
  reported := reported (attr (children spans ts.exchange .llm) "metrics.ttft")

/-- The time to the first byte of speech of the exchange of a turn span. -/
def ttsTtfb (spans : List (Span PyFloat)) (offset : PyFloat) (ts : Span PyFloat) : Latency where
  clocked := ms
    (toAudio (PyFloat.minimum ((children spans ts.exchange .tts).filterMap Span.tStart)) offset)
    (toAudio (firstEventT spans "tts.first_audio" ts.exchange) offset)
  reported := reported (attr (children spans ts.exchange .tts) "metrics.ttfb")

/-- What only the producer reports. -/
def Latency.unclocked (l : Latency) : Latency :=
  { l with clocked := none }

/-- What keeps the metrics of the turns within their definitions, by the turn spans. -/
structure TurnsWithin (spans : List (Span PyFloat)) (offset : PyFloat) (tss : List (Span PyFloat)) :
    Prop where
  ttft : FewNegative (tss.map (llmTtft spans offset))
  ttfb : FewNegative (tss.map (ttsTtfb spans offset))
  ttftReported : FewNegative (tss.map fun ts => (llmTtft spans offset ts).unclocked)
  ttfbReported : FewNegative (tss.map fun ts => (ttsTtfb spans offset ts).unclocked)
  counts : CountsWithin (tss.map fun ts => counts spans ts.exchange)

lemma turnsWithin_nil (spans : List (Span PyFloat)) (offset : PyFloat) : TurnsWithin spans offset [] := by
  have hfew : FewNegative [] := Nat.zero_le _
  exact ⟨hfew, hfew, hfew, hfew, countsWithin_of_none (by simp)⟩

variable {spans : List (Span PyFloat)} {o : ℚ}

lemma secToMs_reported {v : Value PyFloat} {x : Option PyFloat} (h : secToMs v = .ok x) :
    x = (reported v).map fun x => (x.scale 1000).round 1 := by
  obtain ⟨y, hy, h⟩ := Lib.bind_eq_ok.1 h
  cases h
  rw [reported, hy]

lemma reported_rational (h : RationalSpans spans) (tid : String) (stage : Stage) (key : String) :
    ∀ x ∈ reported (attr (children spans tid stage) key), x.Rational := by
  intro x hx
  unfold attr at hx
  cases hfind : (children spans tid stage).findSome? fun s => present (s.attrs.lookup key) with
  | none =>
    rw [hfind] at hx
    cases hx
  | some v =>
    rw [hfind, Option.getD_some] at hx
    obtain ⟨s, hs, hv⟩ := List.exists_of_findSome?_eq_some hfind
    have hlookup : s.attrs.lookup key = some v := by
      unfold present at hv
      split at hv
      · cases hv
      · cases hv
      · cases hv
        assumption
    unfold reported at hx
    split at hx
    · next y hy =>
      rw [hx] at hy
      exact h.attrs s (List.mem_of_mem_filter hs) _ (Lib.mem_of_lookup hlookup) x hy
    · cases hx

lemma llmTtft_exact (h : RationalSpans spans) (ts : Span PyFloat) : (llmTtft spans (.fin o) ts).Exact := by
  refine ⟨fun x hx => ⟨ms_rational (toAudio_rational fun y hy => ?_) (toAudio_rational ?_) x hx,
    ms_nonneg x hx⟩, reported_rational h _ _ _⟩
  · obtain ⟨s, hs, hy⟩ := Option.bind_eq_some_iff.1 hy
    exact h.starts s (List.mem_of_mem_filter (List.mem_of_head? hs)) y hy
  · exact firstEventT_rational h _ _

lemma ttsTtfb_exact (h : RationalSpans spans) (ts : Span PyFloat) : (ttsTtfb spans (.fin o) ts).Exact := by
  refine ⟨fun x hx => ⟨ms_rational (toAudio_rational ?_) (toAudio_rational ?_) x hx,
    ms_nonneg x hx⟩, reported_rational h _ _ _⟩
  · refine minimum_rational fun y hy => ?_
    obtain ⟨s, hs, hy⟩ := List.mem_filterMap.1 hy
    exact h.starts s (List.mem_of_mem_filter hs) y hy
  · exact firstEventT_rational h _ _

omit [Text] in
lemma Latency.Exact.unclocked {l : Latency} (h : l.Exact) : l.unclocked.Exact :=
  ⟨fun x hx => absurd hx (Option.not_mem_none x), h.reported⟩

variable {cfg : MetricConfig} {audioEnabled : Bool} {trace : Trace PyFloat CallHeader}
  {audio : Option (AudioAnalysis PyFloat)}

/-- The metrics of the turns that are built from turn spans. -/
lemma wellFormed_builtTurns (hspans : RationalSpans spans) {tss : List (Span PyFloat)}
    {utterances : List (Utterance PyFloat)} {turns : List (Turn Measured)}
    (hturns : (tss.zipIdx.mapM fun (ts, position) =>
      (canonical cfg audioEnabled).buildTurn ts spans utterances (.fin o) position) = .ok turns)
    {metrics : List MetricValue} (h : layer2Metrics (turns.map Turn.measured) = .ok metrics) :
    (∀ m ∈ metrics, m.WellFormed) ↔ TurnsWithin spans (.fin o) tss := by
  have hreads : ∀ m ∈ turns.map Turn.measured, ∃ ts, Reads ts spans utterances (.fin o) m :=
    List.forall_mem_map.2 (reads_of_buildTurns hturns)
  have hresponse : (percentileMetric (turns.map Turn.measured) "response_latency_ms"
      Measured.responseLatencyMs).WellFormed := by
    refine wellFormed_percentile rfl fun m hm x hx => ?_
    obtain ⟨ts, h⟩ := hreads m hm
    exact ms_nonneg x (h.responseLatency ▸ hx)
  have hassembly : (percentileMetric (turns.map Turn.measured) "assembly_ms"
      Measured.assemblyMs).WellFormed := by
    refine wellFormed_percentile rfl fun m hm x hx => ?_
    obtain ⟨ts, h⟩ := hreads m hm
    obtain ⟨a, b, h⟩ := h.assembly
    exact ms_nonneg x (h ▸ hx)
  have hunattributed : (percentileMetric (turns.map Turn.measured) "unattributed_ms"
      Measured.unattributedMs).WellFormed := by
    refine wellFormed_percentile rfl fun m hm x hx => ?_
    obtain ⟨ts, h⟩ := hreads m hm
    exact uncovered_nonneg x (h.unattributed ▸ hx)
  have hlatency {name : String} {field : Measured → Option PyFloat} {latency : Span PyFloat → Latency}
      (hd : metricDef name = some ⟨name, some 0, none⟩)
      (hfield : ∀ ts m, Reads ts spans utterances (.fin o) m → field m = (latency ts).ms)
      (hexact : ∀ ts, (latency ts).Exact) :
      (percentileMetric (turns.map Turn.measured) name field).WellFormed ↔
        FewNegative (tss.map latency) := by
    refine wellFormed_percentile_iff hd (Lib.filterMap_eq_of_map_eq ?_)
      (List.forall_mem_map.2 fun ts _ => hexact ts)
    rw [map_of_buildTurns hturns hfield, List.map_map]
    rfl
  have httft : (percentileMetric (turns.map Turn.measured) "llm_ttft_ms"
      Measured.llmTtftMs).WellFormed ↔ FewNegative (tss.map (llmTtft spans (.fin o))) := by
    refine hlatency rfl (fun ts m h => ?_) (llmTtft_exact hspans)
    rw [h.llmTtft, secToMs_reported h.ttft]
    rfl
  have httfb : (percentileMetric (turns.map Turn.measured) "tts_ttfb_ms"
      Measured.ttsTtfbMs).WellFormed ↔ FewNegative (tss.map (ttsTtfb spans (.fin o))) := by
    refine hlatency rfl (fun ts m h => ?_) (ttsTtfb_exact hspans)
    rw [h.ttsTtfb, secToMs_reported h.ttfb]
    rfl
  have httftReported : (percentileMetric (turns.map Turn.measured) "llm_ttft_reported_ms"
      Measured.llmTtftReportedMs).WellFormed ↔
        FewNegative (tss.map fun ts => (llmTtft spans (.fin o) ts).unclocked) := by
    refine hlatency rfl (fun ts m h => ?_) fun ts => (llmTtft_exact hspans ts).unclocked
    rw [secToMs_reported h.ttft]
    rfl
  have httfbReported : (percentileMetric (turns.map Turn.measured) "tts_ttfb_reported_ms"
      Measured.ttsTtfbReportedMs).WellFormed ↔
        FewNegative (tss.map fun ts => (ttsTtfb spans (.fin o) ts).unclocked) := by
    refine hlatency rfl (fun ts m h => ?_) fun ts => (ttsTtfb_exact hspans ts).unclocked
    rw [secToMs_reported h.ttfb]
    rfl
  rw [wellFormed_layer2Metrics h, httft, httfb, httftReported, httfbReported,
    counts_of_buildTurns hturns]
  constructor
  · rintro ⟨⟨-, httft, -, httfb, -, httftReported, httfbReported⟩, hcounts⟩
    exact ⟨httft, httfb, httftReported, httfbReported, hcounts⟩
  · rintro ⟨httft, httfb, httftReported, httfbReported, hcounts⟩
    exact ⟨⟨hresponse, httft, hassembly, httfb, hunattributed, httftReported, httfbReported⟩, hcounts⟩

/-- The metrics of turns that are derived from events. -/
lemma wellFormed_derivedTurns {metrics : List MetricValue}
    (h : layer2Metrics (((canonical cfg audioEnabled).turnsFromEvents trace).map Turn.measured) =
      .ok metrics) : ∀ m ∈ metrics, m.WellFormed := by
  have hmeasured : ∀ m ∈ ((canonical cfg audioEnabled).turnsFromEvents trace).map Turn.measured,
      ∃ g, m = eventTurn g := by
    intro m hm
    obtain ⟨turn, hturn, rfl⟩ := List.mem_map.1 hm
    obtain ⟨g, -, -, hmeasured⟩ := Calculator.mem_turnsFromEvents (Q := fun _ => True) trivial
      (fun _ _ _ _ => trivial) hturn
    exact ⟨g, hmeasured⟩
  have hms {name : String} {field : Measured → Option PyFloat}
      (hd : metricDef name = some ⟨name, some 0, none⟩)
      (hfield : ∀ g, (∃ a b, field (eventTurn g) = ms a b) ∨ field (eventTurn g) = none) :
      (percentileMetric (((canonical cfg audioEnabled).turnsFromEvents trace).map Turn.measured)
        name field).WellFormed := by
    refine wellFormed_percentile hd fun m hm x hx => ?_
    obtain ⟨g, rfl⟩ := hmeasured m hm
    rcases hfield g with ⟨a, b, h⟩ | h
    · exact ms_nonneg x (h ▸ hx)
    · rw [h] at hx
      cases hx
  refine (wellFormed_layer2Metrics h).2 ⟨⟨hms rfl ?_, hms rfl ?_, hms rfl ?_, hms rfl ?_, hms rfl ?_,
    hms rfl ?_, hms rfl ?_⟩, ?_⟩
  · exact fun g => .inl ⟨_, _, rfl⟩
  · exact fun g => .inl ⟨_, _, rfl⟩
  · exact fun g => .inr rfl
  · exact fun g => .inr rfl
  · exact fun g => .inr rfl
  · exact fun g => .inr rfl
  · exact fun g => .inr rfl
  · refine countsWithin_of_none (List.forall_mem_map.2 fun m hm => ?_)
    obtain ⟨g, rfl⟩ := hmeasured m hm
    rfl

/-- The metrics of the turns of an analysis, be they built or derived. -/
lemma wellFormed_turnMetrics (hspans : RationalSpans trace.spans) {tss : List (Span PyFloat)}
    (htss : turnSpans trace.spans = .ok tss) {utterances : List (Utterance PyFloat)}
    {turns : List (Turn Measured)}
    (hturns : (tss.zipIdx.mapM fun (ts, position) =>
      (canonical cfg audioEnabled).buildTurn ts trace.spans utterances (.fin o) position) = .ok turns)
    {analysed : List (Turn Measured)}
    (hanalysed : analysed =
      if turns.isEmpty then (canonical cfg audioEnabled).turnsFromEvents trace else turns)
    {metrics : List MetricValue}
    (h : turnMetrics (trace.spans.isEmpty || analysed.isEmpty) (analysed.map Turn.measured) =
      .ok metrics) :
    (∀ m ∈ metrics, m.WellFormed) ↔ TurnsWithin trace.spans (.fin o) tss := by
  have hlength := length_of_buildTurns hturns
  cases turns with
  | nil =>
    obtain rfl : tss = [] := List.eq_nil_of_length_eq_zero hlength.symm
    obtain rfl : analysed = (canonical cfg audioEnabled).turnsFromEvents trace :=
      hanalysed.trans (if_pos rfl)
    refine iff_of_true ?_ (turnsWithin_nil _ _)
    unfold turnMetrics at h
    split at h
    · cases h
      simp
    · exact wellFormed_derivedTurns h
  | cons turn turns =>
    obtain rfl : analysed = turn :: turns := hanalysed
    cases hempty : trace.spans with
    | nil =>
      rw [hempty] at htss
      obtain rfl : [] = tss := Except.ok.inj htss
      simp at hlength
    | cons s rest =>
      rw [hempty] at h
      rw [← hempty]
      exact wellFormed_builtTurns hspans hturns h

/-- What keeps the metrics of an analysis within their definitions. -/
def MetricsWithin (spans : List (Span PyFloat)) (audio : Option (AudioAnalysis PyFloat))
    (offset : PyFloat) : Prop :=
  (∀ x ∈ audio, AudioWithin x (agentIntervals spans offset)) ∧
    ∀ tss, turnSpans spans = .ok tss → TurnsWithin spans offset tss

/-- The metrics of an analysis, and those of a call that is audio only, are well formed exactly when
what they are made of is within the definitions. -/
theorem metrics_wellFormed_iff {o : Option ℚ} (hspans : RationalSpans trace.spans)
    (haudio : ∀ x ∈ audio, RationalAudio x) :
    (∀ a, (canonical cfg audioEnabled).analyze trace audio (o.map .fin) = .ok a →
      ((∀ m ∈ a.report.metrics, m.WellFormed) ↔
        MetricsWithin trace.spans audio (.fin (o.getD 0)))) ∧
      ∀ x ∈ audio, (∀ m ∈ audioOnlyMetrics x cfg, m.WellFormed) ↔
        AudioWithin x (uttsToIntervals (x.utterances.filter (·.channel = "agent"))) := by
  constructor
  · intro a h
    have hoffset : (o.map PyFloat.fin).getD Builtins.zero = .fin (o.getD 0) := by cases o <;> rfl
    obtain ⟨tss, htss, h⟩ := Lib.bind_eq_ok.1 h
    obtain ⟨turns, hturns, h⟩ := Lib.bind_eq_ok.1 h
    obtain ⟨r, hr, h⟩ := Lib.bind_eq_ok.1 h
    cases h
    obtain ⟨metrics, hmetrics, hr⟩ := Lib.bind_eq_ok.1 hr
    obtain ⟨trust, -, hr⟩ := Lib.bind_eq_ok.1 hr
    cases hr
    rw [hoffset] at hturns
    have haudio : (∀ m ∈ (audio.map fun a =>
          audioMetrics a (agentIntervals trace.spans (.fin (o.getD 0))) cfg).getD [],
        m.WellFormed) ↔ ∀ x ∈ audio, AudioWithin x (agentIntervals trace.spans (.fin (o.getD 0))) := by
      cases audio with
      | none => simp
      | some x =>
        simpa using wellFormed_audioMetrics (haudio x rfl) (agentIntervals_rational hspans _) cfg
    have hlayer2 : (∀ m ∈ metrics, m.WellFormed) ↔
        ∀ tss, turnSpans trace.spans = .ok tss → TurnsWithin trace.spans (.fin (o.getD 0)) tss := by
      rw [wellFormed_turnMetrics hspans htss hturns rfl hmetrics]
      constructor
      · intro hwithin tss' htss'
        obtain rfl : tss = tss' := Except.ok.inj (htss.symm.trans htss')
        exact hwithin
      · exact fun hwithin => hwithin tss htss
    rw [MetricsWithin, ← haudio, ← hlayer2, hoffset]
    exact List.forall_mem_append
  · intro x hx
    refine wellFormed_audioMetrics (haudio x hx) ?_ cfg
    obtain ⟨js, -, hapart, hjs⟩ := exists_uttsToIntervals_eq fun u hu =>
      (haudio x hx).utterances u (List.mem_of_mem_filter hu)
    exact ⟨js, hapart, hjs⟩

end

/-! ### Speech before the recording -/

/-- A call whose only span is the agent's speech. -/
def spokenTrace : Trace PyFloat CallHeader where
  header := { callId := "c1", source := "pipecat", environment := "prod" }
  spans := [{
    spanId := "s1"
    name := "tts"
    stage := .tts
    tStart := some (.fin 0)
    tEnd := some (.fin 1) }]

/-- A recording on which nobody speaks. -/
def silentAudio : AudioAnalysis PyFloat where
  utterances := []
  coverage := [("caller", .fin 1)]

lemma rationalSpans_spokenTrace : RationalSpans spokenTrace.spans := by
  constructor <;> simp [spokenTrace]

lemma rationalAudio_silentAudio : RationalAudio silentAudio := by
  constructor <;> simp [silentAudio]

/-- The speech is within the call when the recording starts with it. -/
theorem metrics_wellFormed_spoken : ∃ a : Analysis Measured Report,
    (canonical {} true).analyze spokenTrace (some silentAudio) ((some 0).map .fin) = .ok a ∧
      ∀ m ∈ a.report.metrics, m.WellFormed := by
  have hanalyze : ∃ a, (canonical {} true).analyze spokenTrace (some silentAudio)
      ((some 0).map .fin) = .ok a := ⟨_, rfl⟩
  obtain ⟨a, ha⟩ := hanalyze
  refine ⟨a, ha, ((metrics_wellFormed_iff rationalSpans_spokenTrace fun x hx => ?_).1 a ha).2
    ⟨fun x hx => ?_, fun tss htss => ?_⟩⟩
  · cases hx
    exact rationalAudio_silentAudio
  · cases hx
    constructor <;> decide +kernel
  · obtain rfl : [] = tss := Except.ok.inj htss
    exact turnsWithin_nil _ _

/-- The agent's share of a call that ends before the recording starts is available without a
value. -/
theorem metrics_malformed :
    ¬∀ (trace : Trace PyFloat CallHeader) (audio : Option (AudioAnalysis PyFloat)) (o : Option ℚ)
      (a : Analysis Measured Report), RationalSpans trace.spans → (∀ x ∈ audio, RationalAudio x) →
      (canonical {} true).analyze trace audio (o.map .fin) = .ok a →
      ∀ m ∈ a.report.metrics, m.WellFormed := by
  intro h
  have hanalyze : ((canonical {} true).analyze spokenTrace (some silentAudio)
      ((some 2).map .fin)).map (fun a => a.report.metrics[4]?) =
      .ok (some (mv "talk_ratio_agent" true none "no agent spans")) := by decide +kernel
  obtain ⟨a, ha, hmetric⟩ := Lib.map_eq_ok.1 hanalyze
  have hwell := h spokenTrace (some silentAudio) (some 2) a rationalSpans_spokenTrace
    (fun x hx => by cases hx; exact rationalAudio_silentAudio) ha _ (List.mem_of_getElem? hmetric)
  exact Bool.noConfusion (hwell.available rfl)

end Pulse.Core
