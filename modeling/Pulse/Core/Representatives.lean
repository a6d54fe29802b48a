import Pulse.Core.TurnSpans

/-!
# One span for each exchange

Of the TURN spans of an exchange `_turn_spans` keeps one: a span on the caller's side if there is one,
and of those the first in call order.
-/

namespace Pulse.Core

open Lib (PyFloat)

/-- The span parents a span of the caller's speech. -/
def ParentsCaller (spans : List (Span PyFloat)) (s : Span PyFloat) : Prop :=
  ∃ c ∈ spans, (c.stage = .stt ∨ c.stage = .speech) ∧ c.parentSpanId = some s.spanId

lemma parentsCaller_iff {spans : List (Span PyFloat)} {s : Span PyFloat} :
    ParentsCaller spans s ↔ some s.spanId ∈ callerSide spans := by
  simp only [ParentsCaller, callerSide, List.mem_map, List.mem_filter, decide_eq_true_eq, and_assoc]

section

variable [Text]

/-- The spans kept are TURN spans, one for each exchange that a TURN span is of. The one kept is on
the caller's side if any span of its exchange is, and has the smallest order key among the spans that
are on its side. -/
structure Represents (spans tss : List (Span PyFloat)) : Prop where
  turns : ∀ ts ∈ tss, ts ∈ spans ∧ ts.stage = .turn
  once : (tss.map Span.exchange).Nodup
  all : ∀ s ∈ spans, s.stage = .turn → s.exchange ∈ tss.map Span.exchange
  caller : ∀ ts ∈ tss, ∀ s ∈ spans, s.stage = .turn → s.exchange = ts.exchange →
    ParentsCaller spans s → ParentsCaller spans ts
  first : ∀ ts ∈ tss, ∀ s ∈ spans, s.stage = .turn → s.exchange = ts.exchange →
    (ParentsCaller spans s ↔ ParentsCaller spans ts) →
    s = ts ∨ ∃ k k', orderKey ts = .ok k ∧ orderKey s = .ok k' ∧ keyLt k k' = true

variable {spans tss : List (Span PyFloat)}

lemma Champions.represents {best : List (String × Span PyFloat)} (hreads : ∀ s ∈ spans, OrderKeyReads s)
    (h : Champions (callerSide spans) (spans.filter (·.stage = .turn)) best)
    (hperm : tss.Perm (best.map Prod.snd)) : Represents spans tss := by
  have hturn {s : Span PyFloat} : s ∈ spans.filter (·.stage = .turn) ↔ s ∈ spans ∧ s.stage = .turn := by
    rw [List.mem_filter, decide_eq_true_eq]
  have hentry {ts : Span PyFloat} (hts : ts ∈ tss) : ∃ e ∈ best, e.2 = ts :=
    List.mem_map.1 (hperm.mem_iff.1 hts)
  have hexchanges : (tss.map Span.exchange).Perm (best.map Prod.fst) := by
    refine (hperm.map Span.exchange).trans (List.Perm.of_eq ?_)
    rw [List.map_map]
    exact List.map_congr_left fun e he => (h.mem e he).2
  have hstanding {ts s : Span PyFloat} (hts : ts ∈ tss) (hs : s ∈ spans) (hstage : s.stage = .turn)
      (hexchange : s.exchange = ts.exchange) :
      s = ts ∨ standingLt (standing (callerSide spans) ts) (standing (callerSide spans) s) = true := by
    obtain ⟨e, he, rfl⟩ := hentry hts
    exact h.first e he s (hturn.2 ⟨hs, hstage⟩) (hexchange.trans (h.mem e he).2)
  constructor
  · intro ts hts
    obtain ⟨e, he, rfl⟩ := hentry hts
    exact hturn.1 (h.mem e he).1
  · exact hexchanges.nodup_iff.2 h.keys
  · intro s hs hstage
    exact hexchanges.mem_iff.2 (h.covers s (hturn.2 ⟨hs, hstage⟩))
  · intro ts hts s hs hstage hexchange hcaller
    rw [parentsCaller_iff] at hcaller ⊢
    rcases hstanding hts hs hstage hexchange with rfl | hlt
    · exact hcaller
    · by_contra hnot
      simp [standingLt, standing, Lib.lexLt_iff, hcaller, hnot] at hlt
  · intro ts hts s hs hstage hexchange hsame
    rw [parentsCaller_iff, parentsCaller_iff] at hsame
    refine (hstanding hts hs hstage hexchange).imp_right fun hlt => ?_
    obtain ⟨e, he, rfl⟩ := hentry hts
    obtain ⟨k, hk⟩ := succeeds_orderKey.2 (hreads e.2 (hturn.1 (h.mem e he).1).1)
    obtain ⟨k', hk'⟩ := succeeds_orderKey.2 (hreads s hs)
    refine ⟨k, k', hk, hk', ?_⟩
    simpa [standingLt, standing, Lib.lexLt_iff, hsame, hk, hk', Except.toOption] using hlt

/-- `_turn_spans` returns a representative of each exchange, the same for every order of the spans, if
the order keys are different and no start is a not-a-number beside other starts. -/
theorem turnSpans_represents (hkeys : DistinctKeys spans)
    (hstarts : PyFloat.Comparable (spans.filterMap Span.tStart))
    (hindices : ∀ s ∈ spans, NotInfinite ((s.attrs.lookup "turn.index").getD .null)) :
    ∃ tss, turnSpans spans = .ok tss ∧ Represents spans tss ∧
      ∀ spans', spans.Perm spans' → turnSpans spans' = .ok tss := by
  obtain ⟨kept, hkept⟩ := succeeds_keptTurns hkeys.reads
  obtain ⟨tss, htss⟩ := (succeeds_turnSpans hkeys.reads hkept).2 fun ts hts =>
    hindices ts (mem_of_keptTurns hkept ts hts)
  have hperm := turnSpans_perm hkept htss
  obtain ⟨best, hbest, rfl⟩ := Lib.map_eq_ok.1 hkept
  have hempty : Champions (callerSide spans) [] [] := by constructor <;> simp
  have hchampions : Champions (callerSide spans) (spans.filter (·.stage = .turn)) best :=
    hempty.keepAll (hkeys.ranked hstarts _) (fun s hs => List.mem_of_mem_filter hs) (by simp) hbest
  exact ⟨tss, htss, hchampions.represents hkeys.reads hperm,
    fun spans' hspans' => turnSpans_eq_of_perm hkeys hstarts hspans' htss⟩

end

/-- Two TURN spans of one exchange. -/
def twoTurns (first second : PyFloat) : List (Span PyFloat) := [
  { spanId := "a", name := "turn", stage := .turn, tStart := some first, turnId := some "t" },
  { spanId := "b", name := "turn", stage := .turn, tStart := some second, turnId := some "t" }]

lemma distinctKeys_twoTurns {first second : PyFloat} (h : first ≠ second) :
    DistinctKeys (twoTurns first second) := by
  constructor
  · simp [twoTurns, OrderKeyReads]
  · simp [twoTurns, orderKey, h]

lemma notInfinite_twoTurns (first second : PyFloat) : ∀ s ∈ twoTurns first second,
    NotInfinite ((s.attrs.lookup "turn.index").getD .null) := by
  simp [twoTurns, NotInfinite]

/-- Of two spans of an exchange the earlier one is kept. -/
theorem turnSpans_represents_two : ∃ tss, turnSpans (twoTurns (.fin 2) (.fin 1)) = .ok tss ∧
    Represents (twoTurns (.fin 2) (.fin 1)) tss ∧
      ∀ spans', (twoTurns (.fin 2) (.fin 1)).Perm spans' → turnSpans spans' = .ok tss :=
  turnSpans_represents (distinctKeys_twoTurns (by decide))
    (PyFloat.comparable_of_ne_nan (by decide)) (notInfinite_twoTurns _ _)

/-- A span that starts at no number compares with no other: the one that is listed first is kept. -/
theorem turnSpans_keeps_first_listed : ¬∀ spans : List (Span PyFloat),
    (spans.map Span.spanId).Nodup → DistinctKeys spans →
    (∀ s ∈ spans, NotInfinite ((s.attrs.lookup "turn.index").getD .null)) →
    ∃ tss, turnSpans spans = .ok tss ∧ Represents spans tss ∧
      ∀ spans', spans.Perm spans' → turnSpans spans' = .ok tss := by
  intro h
  have hlisted : (turnSpans (twoTurns .nan (.fin 1))).map (List.map Span.spanId) = .ok ["a"] := rfl
  have hswapped : (turnSpans (twoTurns .nan (.fin 1)).reverse).map (List.map Span.spanId) =
      .ok ["b"] := rfl
  obtain ⟨tss, htss, -, hperm⟩ := h (twoTurns .nan (.fin 1)) (by decide)
    (distinctKeys_twoTurns (by decide)) (notInfinite_twoTurns _ _)
  rw [htss] at hlisted
  rw [hperm _ (List.reverse_perm _).symm, hlisted] at hswapped
  exact absurd hswapped (by decide)

end Pulse.Core
