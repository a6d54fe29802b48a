import Pulse.Core.AudioClock
import Pulse.Core.Conversions

/-!
# What the calculator can analyse

`analyze` returns exactly when the sequences of the spans without a clock, the values that the kept
turns read, their counts and the counter of dropped events are such that no conversion raises.
-/

namespace Pulse.Core

open Lib (PyFloat Succeeds)

section

variable [Text]

/-! ### The kept turn spans -/

/-- A span without a clock has no sequence that is too large for a float. -/
def OrderKeyReads (s : Span PyFloat) : Prop :=
  s.tStart = none → ∀ n : Int, s.sequence = some n → |(n : ℚ)| < floatLimit

lemma succeeds_orderKey {s : Span PyFloat} : Succeeds (orderKey s) ↔ OrderKeyReads s := by
  unfold orderKey OrderKeyReads
  cases s.tStart with
  | some t => simp
  | none =>
    cases s.sequence with
    | none => simp
    | some n => simp [Builtins.ofInt, succeeds_toFloat]

/-- The turn span that `_turn_spans` keeps of each exchange, in the order of the dict. -/
def keptTurns (spans : List (Span PyFloat)) : Except PyError (List (Span PyFloat)) :=
  ((spans.filter (·.stage = .turn)).foldlM (keepBest (callerSide spans)) []).map (List.map Prod.snd)

variable {spans kept : List (Span PyFloat)}

lemma keepBest_subset {caller : List (Option String)} {best best' : List (String × Span PyFloat)}
    {s : Span PyFloat} (hs : s ∈ spans) (hbest : ∀ e ∈ best, e.2 ∈ spans)
    (h : keepBest caller best s = .ok best') : ∀ e ∈ best', e.2 ∈ spans := by
  unfold keepBest at h
  cases hfind : best.lookup s.exchange with
  | none =>
    rw [hfind] at h
    cases h
    intro e he
    rcases List.mem_append.1 he with he | he
    · exact hbest e he
    · rw [List.mem_singleton.1 he]
      exact hs
  | some cur =>
    rw [hfind] at h
    obtain ⟨takes, -, h⟩ := Lib.bind_eq_ok.1 h
    cases takes with
    | false =>
      cases h
      exact hbest
    | true =>
      cases h
      intro e he
      obtain ⟨e', he', rfl⟩ := List.mem_map.1 he
      split
      · exact hs
      · exact hbest e' he'

lemma succeeds_takesPlace {caller : List (Option String)} {s cur : Span PyFloat}
    (hs : OrderKeyReads s) (hcur : OrderKeyReads cur) : Succeeds (takesPlace caller s cur) := by
  unfold takesPlace
  dsimp only
  split
  · exact Lib.succeeds_ok _
  · split
    · exact (succeeds_orderKey.2 hs).bind fun _ _ =>
        (succeeds_orderKey.2 hcur).bind fun _ _ => ⟨_, rfl⟩
    · exact Lib.succeeds_ok _

lemma succeeds_keepBest {caller : List (Option String)} {best : List (String × Span PyFloat)}
    {s : Span PyFloat} (hs : OrderKeyReads s) (hbest : ∀ e ∈ best, OrderKeyReads e.2) :
    Succeeds (keepBest caller best s) := by
  unfold keepBest
  cases hfind : best.lookup s.exchange with
  | none => exact Lib.succeeds_ok _
  | some cur =>
    have hcur : (s.exchange, cur) ∈ best := Lib.mem_of_lookup hfind
    refine (succeeds_takesPlace hs (hbest _ hcur)).bind fun takes _ => ?_
    cases takes <;> exact ⟨_, rfl⟩

lemma succeeds_keptTurns (h : ∀ s ∈ spans, OrderKeyReads s) : Succeeds (keptTurns spans) := by
  rw [keptTurns, Lib.succeeds_map]
  refine Lib.succeeds_foldlM (I := fun best => ∀ e ∈ best, e.2 ∈ spans) ?_ ?_ (by simp)
  · intro best s best' hs hbest hok
    exact keepBest_subset (List.mem_of_mem_filter hs) hbest hok
  · intro best s hs hbest
    exact succeeds_keepBest (h s (List.mem_of_mem_filter hs)) fun e he => h e.2 (hbest e he)

lemma mem_of_keptTurns (h : keptTurns spans = .ok kept) : ∀ ts ∈ kept, ts ∈ spans := by
  obtain ⟨best, hbest, rfl⟩ := Lib.map_eq_ok.1 h
  have hsub : ∀ e ∈ best, e.2 ∈ spans :=
    Lib.foldlM_ok (I := fun best => ∀ e ∈ best, e.2 ∈ spans)
      (fun _ _ _ hs hI hok => keepBest_subset (List.mem_of_mem_filter hs) hI hok) (by simp) hbest
  intro ts hts
  obtain ⟨e, he, rfl⟩ := List.mem_map.1 hts
  exact hsub e he

/-- The turn spans are the kept ones in order. -/
lemma turnSpans_perm {ts : List (Span PyFloat)} (hkept : keptTurns spans = .ok kept)
    (h : turnSpans spans = .ok ts) : ts.Perm kept := by
  obtain ⟨best, hbest, rfl⟩ := Lib.map_eq_ok.1 hkept
  obtain ⟨best', hbest', h⟩ := Lib.bind_eq_ok.1 h
  obtain ⟨keyed, hkeyed, h⟩ := Lib.bind_eq_ok.1 h
  cases h
  obtain rfl : best' = best := Except.ok.inj (hbest'.symm.trans hbest)
  have hspans : keyed.map Prod.snd = best'.map Prod.snd := by
    refine Lib.map_of_mapM_ok (fun e k hok => ?_) hkeyed
    obtain ⟨i, -, hok⟩ := Lib.bind_eq_ok.1 hok
    obtain ⟨key, -, hok⟩ := Lib.bind_eq_ok.1 hok
    cases hok
    rfl
  rw [← hspans]
  exact (Lib.sorted_perm _ keyed).map Prod.snd

lemma succeeds_turnSpans (hkeys : ∀ s ∈ spans, OrderKeyReads s) (hkept : keptTurns spans = .ok kept) :
    Succeeds (turnSpans spans) ↔
      ∀ ts ∈ kept, NotInfinite ((ts.attrs.lookup "turn.index").getD .null) := by
  have hmem := mem_of_keptTurns hkept
  obtain ⟨best, hbest, rfl⟩ := Lib.map_eq_ok.1 hkept
  constructor
  · intro h
    obtain ⟨best', hbest', h⟩ := Lib.succeeds_bind.1 h
    obtain rfl : best' = best := Except.ok.inj (hbest'.symm.trans hbest)
    obtain ⟨keyed, hkeyed, -⟩ := Lib.succeeds_bind.1 h
    intro ts hts
    obtain ⟨e, he, rfl⟩ := List.mem_map.1 hts
    obtain ⟨i, hi, -⟩ := Lib.succeeds_bind.1 (Lib.succeeds_mapM.1 ⟨keyed, hkeyed⟩ e he)
    exact succeeds_turnIndex.1 ⟨i, hi⟩
  · intro h
    refine Lib.Succeeds.bind ⟨best, hbest⟩ fun best' hbest' => ?_
    obtain rfl : best' = best := Except.ok.inj (hbest'.symm.trans hbest)
    refine Lib.Succeeds.bind (Lib.succeeds_mapM.2 fun e he => ?_) fun _ _ => ⟨_, rfl⟩
    have hts : e.2 ∈ best'.map Prod.snd := List.mem_map_of_mem he
    refine (succeeds_turnIndex.2 (h e.2 hts)).bind fun _ _ => ?_
    exact (succeeds_orderKey.2 (hkeys e.2 (hmem e.2 hts))).bind fun _ _ => ⟨_, rfl⟩

end

/-! ### Counts -/

/-- The counts and their quotient are not too large for a float. -/
def CountsFit (cs : List Counts) : Prop :=
  (∀ c ∈ cs, ∀ n : Int, c.tokensOut = some n → |(n : ℚ)| < floatLimit) ∧
    ((cs.filterMap Counts.chars).sum ≠ 0 →
      |((cs.filterMap Counts.charsCut).sum : ℚ) / ((cs.filterMap Counts.chars).sum : ℚ)| < floatLimit)

lemma CountsFit.perm {cs cs' : List Counts} (hperm : cs.Perm cs') (h : CountsFit cs) :
    CountsFit cs' := by
  rw [CountsFit, ← (hperm.filterMap Counts.chars).sum_eq, ← (hperm.filterMap Counts.charsCut).sum_eq]
  exact ⟨fun c hc => h.1 c (hperm.mem_iff.2 hc), h.2⟩

/-- Counts that are all missing fit. -/
lemma countsFit_of_none {cs : List Counts} (h : ∀ c ∈ cs, c = ⟨none, none, none⟩) : CountsFit cs := by
  have hnone : cs.filterMap Counts.chars = [] :=
    List.filterMap_eq_nil_iff.2 fun c hc => by rw [h c hc]
  refine ⟨fun c hc n hn => ?_, fun hchars => ?_⟩
  · rw [h c hc] at hn
    cases hn
  · rw [hnone] at hchars
    exact absurd rfl hchars

/-- A mean is within the bounds of its numbers. -/
lemma abs_mean_lt {ns : List Int} {b : ℚ} (hne : ns ≠ []) (h : ∀ n ∈ ns, |(n : ℚ)| < b) :
    |(ns.sum : ℚ) / ((ns.length : Int) : ℚ)| < b := by
  have hsum : ∀ ns : List Int, ns ≠ [] → (∀ n ∈ ns, |(n : ℚ)| < b) →
      |((ns.sum : Int) : ℚ)| < ns.length * b := by
    intro ns
    induction ns with
    | nil => exact fun hne => absurd rfl hne
    | cons n ns ih =>
      intro _ h
      have hn := h n List.mem_cons_self
      rw [List.sum_cons, List.length_cons, Int.cast_add, Nat.cast_add, Nat.cast_one]
      by_cases hns : ns = []
      · subst hns
        simpa using hn
      · have hrest := ih hns fun m hm => h m (List.mem_cons_of_mem n hm)
        calc |(n : ℚ) + (ns.sum : Int)| ≤ |(n : ℚ)| + |((ns.sum : Int) : ℚ)| := abs_add_le _ _
          _ < b + ns.length * b := add_lt_add hn hrest
          _ = (ns.length + 1) * b := by ring
  have hlength : (0 : ℚ) < ns.length := by
    exact_mod_cast List.length_pos_of_ne_nil hne
  rw [Int.cast_natCast, abs_div, abs_of_pos hlength, div_lt_iff₀ hlength, mul_comm]
  exact hsum ns hne h

lemma succeeds_quotient {a b : Int} {n : Nat} :
    Succeeds (quotient a b n) ↔ (b ≠ 0 → |(a : ℚ) / b| < floatLimit) := by
  unfold quotient
  split
  · simp [*]
  · simp [succeeds_toFloat, *]

/-- The counts of a turn. -/
def Measured.counts (m : Measured) : Counts :=
  ⟨m.tokensOut, m.ttsChars, m.ttsCharsCut⟩

lemma succeeds_tokensPerTurn {turns : List Measured} : Succeeds (tokensPerTurn turns) ↔
    ∀ n ∈ turns.filterMap Measured.tokensOut, |(n : ℚ)| < floatLimit := by
  constructor
  · intro h
    obtain ⟨mean, -, h⟩ := Lib.succeeds_bind.1 h
    obtain ⟨samples, hsamples, -⟩ := Lib.succeeds_bind.1 h
    exact fun n hn => succeeds_toFloat.1 (Lib.succeeds_mapM.1 ⟨samples, hsamples⟩ n hn)
  · intro h
    refine (succeeds_quotient.2 fun hlength => ?_).bind fun _ _ => ?_
    · refine abs_mean_lt (fun hnil => hlength ?_) h
      rw [hnil]
      rfl
    · exact (Lib.succeeds_mapM.2 fun n hn => succeeds_toFloat.2 (h n hn)).bind fun _ _ => ⟨_, rfl⟩

lemma succeeds_truncationRate {turns : List Measured} : Succeeds (truncationRate turns) ↔
    ((turns.filterMap Measured.ttsChars).sum ≠ 0 →
      |((turns.filterMap Measured.ttsCharsCut).sum : ℚ) / ((turns.filterMap Measured.ttsChars).sum : ℚ)|
        < floatLimit) := by
  rw [← succeeds_quotient (n := 4)]
  constructor
  · intro h
    obtain ⟨rate, hrate, -⟩ := Lib.succeeds_bind.1 h
    exact ⟨rate, hrate⟩
  · exact fun h => h.bind fun _ _ => ⟨_, rfl⟩

lemma succeeds_layer2Metrics {turns : List Measured} :
    Succeeds (layer2Metrics turns) ↔ CountsFit (turns.map Measured.counts) := by
  have hiff : Succeeds (layer2Metrics turns) ↔
      Succeeds (tokensPerTurn turns) ∧ Succeeds (truncationRate turns) := by
    constructor
    · intro h
      obtain ⟨tokens, htokens, h⟩ := Lib.succeeds_bind.1 h
      obtain ⟨truncation, htruncation, -⟩ := Lib.succeeds_bind.1 h
      exact ⟨⟨tokens, htokens⟩, ⟨truncation, htruncation⟩⟩
    · rintro ⟨htokens, htruncation⟩
      exact htokens.bind fun _ _ => htruncation.bind fun _ _ => ⟨_, rfl⟩
  rw [hiff, succeeds_tokensPerTurn, succeeds_truncationRate, CountsFit, List.filterMap_map,
    List.filterMap_map]
  refine and_congr ?_ Iff.rfl
  simp only [List.mem_filterMap, List.mem_map, forall_exists_index, and_imp]
  constructor
  · rintro h c m hm rfl n hn
    exact h n m hm hn
  · intro h n m hm hn
    exact h _ m hm rfl n hn

lemma succeeds_turnMetrics {missing : Bool} {turns : List Measured} :
    Succeeds (turnMetrics missing turns) ↔
      (missing = false → CountsFit (turns.map Measured.counts)) := by
  unfold turnMetrics
  cases missing with
  | true => simp
  | false => simp [succeeds_layer2Metrics]

/-! ### Analyses -/

section

variable [Text] {cfg : MetricConfig} {audioEnabled : Bool} {trace : Trace PyFloat CallHeader}
  {audio : Option (AudioAnalysis PyFloat)} {spans kept : List (Span PyFloat)} {offset : PyFloat}

lemma buildTurn_ok {ts : Span PyFloat} {utterances : List (Utterance PyFloat)} {position : Nat}
    {turn : Turn Measured}
    (h : (canonical cfg audioEnabled).buildTurn ts spans utterances offset position = .ok turn) :
    Readable ts spans offset ∧ Reads ts spans utterances offset turn.measured := by
  obtain ⟨m, hm, h⟩ := Lib.bind_eq_ok.1 h
  obtain ⟨i, hi, h⟩ := Lib.bind_eq_ok.1 h
  cases h
  have hreads := waterfall_ok hm
  exact ⟨hreads.readable (succeeds_turnIndex.1 ⟨i, hi⟩), hreads⟩

lemma succeeds_buildTurn {ts : Span PyFloat} {utterances : List (Utterance PyFloat)} {position : Nat} :
    Succeeds ((canonical cfg audioEnabled).buildTurn ts spans utterances offset position) ↔
      Readable ts spans offset := by
  constructor
  · rintro ⟨turn, h⟩
    exact (buildTurn_ok h).1
  · intro h
    exact (waterfall_succeeds h).bind fun _ _ =>
      (succeeds_turnIndex.2 h.index).bind fun _ _ => ⟨_, rfl⟩

/-- The turns of `analyze` before any are derived. -/
lemma succeeds_buildTurns {tss : List (Span PyFloat)} {utterances : List (Utterance PyFloat)} :
    Succeeds (tss.zipIdx.mapM fun (ts, position) =>
      (canonical cfg audioEnabled).buildTurn ts spans utterances offset position) ↔
      ∀ ts ∈ tss, Readable ts spans offset := by
  rw [Lib.succeeds_mapM]
  constructor
  · intro h ts hts
    obtain ⟨i, hi, hget⟩ := List.getElem_of_mem hts
    have hmem : (ts, i) ∈ tss.zipIdx :=
      List.mk_mem_zipIdx_iff_getElem?.2 (List.getElem?_eq_some_iff.2 ⟨hi, hget⟩)
    exact succeeds_buildTurn.1 (h _ hmem)
  · intro h e he
    exact succeeds_buildTurn.2 (h e.1 (List.fst_mem_of_mem_zipIdx he))

/-- Each turn that is built comes from a span. -/
lemma reads_of_buildTurns {tss : List (Span PyFloat)} {utterances : List (Utterance PyFloat)}
    {turns : List (Turn Measured)} (h : (tss.zipIdx.mapM fun (ts, position) =>
      (canonical cfg audioEnabled).buildTurn ts spans utterances offset position) = .ok turns) :
    ∀ turn ∈ turns, ∃ ts, Reads ts spans utterances offset turn.measured := by
  intro turn hturn
  obtain ⟨e, -, hok⟩ := Lib.mem_of_mapM_ok h turn hturn
  exact ⟨e.1, (buildTurn_ok hok).2⟩

/-- What each turn that is built has in common with its span. -/
lemma map_of_buildTurns {tss : List (Span PyFloat)} {utterances : List (Utterance PyFloat)}
    {turns : List (Turn Measured)} (h : (tss.zipIdx.mapM fun (ts, position) =>
      (canonical cfg audioEnabled).buildTurn ts spans utterances offset position) = .ok turns)
    {α : Type} {f : Measured → α} {g : Span PyFloat → α}
    (hg : ∀ ts m, Reads ts spans utterances offset m → f m = g ts) :
    (turns.map Turn.measured).map f = tss.map g := by
  have hmap : turns.map (fun turn => f turn.measured) = tss.zipIdx.map fun e => g e.1 :=
    Lib.map_of_mapM_ok (fun e _ hok => hg e.1 _ (buildTurn_ok hok).2) h
  rw [List.map_map]
  conv_rhs => rw [← List.zipIdx_map_fst 0 tss, List.map_map]
  exact hmap

lemma length_of_buildTurns {tss : List (Span PyFloat)} {utterances : List (Utterance PyFloat)}
    {turns : List (Turn Measured)} (h : (tss.zipIdx.mapM fun (ts, position) =>
      (canonical cfg audioEnabled).buildTurn ts spans utterances offset position) = .ok turns) :
    turns.length = tss.length := by
  have hmap := map_of_buildTurns h (f := fun _ => ()) (g := fun _ => ()) fun _ _ _ => rfl
  simpa using congrArg List.length hmap

lemma counts_of_buildTurns {tss : List (Span PyFloat)} {utterances : List (Utterance PyFloat)}
    {turns : List (Turn Measured)} (h : (tss.zipIdx.mapM fun (ts, position) =>
      (canonical cfg audioEnabled).buildTurn ts spans utterances offset position) = .ok turns) :
    (turns.map Turn.measured).map Measured.counts = tss.map fun ts => counts spans ts.exchange :=
  map_of_buildTurns h fun _ _ hreads => hreads.counts.symm

/-- The turns that are derived from events have no counts. -/
lemma countsFit_turnsFromEvents (trace : Trace PyFloat CallHeader) : CountsFit
    ((((canonical cfg audioEnabled).turnsFromEvents trace).map Turn.measured).map Measured.counts) := by
  refine countsFit_of_none fun c hc => ?_
  obtain ⟨m, hm, rfl⟩ := List.mem_map.1 hc
  obtain ⟨turn, hturn, rfl⟩ := List.mem_map.1 hm
  obtain ⟨g, -, -, hmeasured⟩ := Calculator.mem_turnsFromEvents (Q := fun _ => True) trivial
    (fun _ _ _ _ => trivial) hturn
  rw [hmeasured]
  rfl

lemma succeeds_report {turns : List (Turn Measured)} :
    Succeeds (report cfg audioEnabled trace audio turns offset) ↔
      Succeeds (turnMetrics (trace.spans.isEmpty || turns.isEmpty) (turns.map Turn.measured)) ∧
        Succeeds (spanDroppedEvents trace.header) := by
  constructor
  · intro h
    obtain ⟨layer2, hlayer2, h⟩ := Lib.succeeds_bind.1 h
    obtain ⟨trust, htrust, -⟩ := Lib.succeeds_bind.1 h
    exact ⟨⟨layer2, hlayer2⟩, (trustReport_ok_iff trace ..).1 ⟨trust, htrust⟩⟩
  · rintro ⟨hlayer2, hdropped⟩
    refine hlayer2.bind fun _ _ => ?_
    exact Lib.Succeeds.bind ((trustReport_ok_iff trace ..).2 hdropped) fun _ _ => ⟨_, rfl⟩

/-- Every conversion of the analysis accepts what it is given. -/
structure Analysable (trace : Trace PyFloat CallHeader) (offset : PyFloat) : Prop where
  turns : ∀ kept, keptTurns trace.spans = .ok kept → ∀ ts ∈ kept, Readable ts trace.spans offset
  counts : ∀ kept, keptTurns trace.spans = .ok kept →
    CountsFit (kept.map fun ts => counts trace.spans ts.exchange)
  dropped : Succeeds (spanDroppedEvents trace.header)

/-- An analysis returns, if all spans can be ordered, exactly on what the conversions accept. -/
theorem succeeds_analyze (hkeys : ∀ s ∈ trace.spans, OrderKeyReads s) (t0OffsetS : Option PyFloat) :
    Succeeds ((canonical cfg audioEnabled).analyze trace audio t0OffsetS) ↔
      Analysable trace (t0OffsetS.getD (.fin 0)) := by
  obtain ⟨kept, hkept⟩ := succeeds_keptTurns hkeys
  constructor
  · intro h
    obtain ⟨tss, htss, h⟩ := Lib.succeeds_bind.1 h
    obtain ⟨turns, hturns, h⟩ := Lib.succeeds_bind.1 h
    obtain ⟨r, hr, -⟩ := Lib.succeeds_bind.1 h
    obtain ⟨hmetrics, hdropped⟩ := succeeds_report.1 ⟨r, hr⟩
    have hperm := turnSpans_perm hkept htss
    refine ⟨?_, ?_, hdropped⟩
    · intro kept' hkept' ts hts
      obtain rfl : kept = kept' := Except.ok.inj (hkept.symm.trans hkept')
      exact succeeds_buildTurns.1 ⟨turns, hturns⟩ ts (hperm.mem_iff.2 hts)
    · intro kept' hkept'
      obtain rfl : kept = kept' := Except.ok.inj (hkept.symm.trans hkept')
      refine CountsFit.perm (hperm.map _) ?_
      rw [← counts_of_buildTurns hturns]
      cases hspans : trace.spans with
      | nil =>
        rw [hspans] at hkept
        have hnil : kept = [] := (Except.ok.inj hkept).symm
        rw [hnil] at hperm
        rw [hperm.eq_nil] at hturns
        obtain rfl : [] = turns := Except.ok.inj hturns
        exact countsFit_of_none (by simp)
      | cons s rest =>
        rw [hspans] at hmetrics
        cases turns with
        | nil => exact countsFit_of_none (by simp)
        | cons turn turns => exact succeeds_turnMetrics.1 hmetrics rfl
  · intro h
    have hreadable := h.turns kept hkept
    obtain ⟨tss, htss⟩ := (succeeds_turnSpans hkeys hkept).2 fun ts hts => (hreadable ts hts).index
    have hperm := turnSpans_perm hkept htss
    refine Lib.Succeeds.bind ⟨tss, htss⟩ fun tss' htss' => ?_
    obtain rfl : tss' = tss := Except.ok.inj (htss'.symm.trans htss)
    refine (succeeds_buildTurns.2 fun ts hts => hreadable ts (hperm.mem_iff.1 hts)).bind
      fun turns hturns => ?_
    have hcounts : CountsFit ((turns.map Turn.measured).map Measured.counts) := by
      rw [counts_of_buildTurns hturns]
      exact (h.counts kept hkept).perm (hperm.symm.map _)
    refine (succeeds_report.2 ⟨succeeds_turnMetrics.2 fun _ => ?_, h.dropped⟩).bind
      fun _ _ => ⟨_, rfl⟩
    split
    · exact countsFit_turnsFromEvents trace
    · exact hcounts

end

end Pulse.Core
