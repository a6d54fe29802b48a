import Pulse.Core.Calculator
import Pulse.Lib.Relational

/-!
# The indices of the turns

A turn's index is the one that the producer gave, or else its place in call order; both share one
number space. The turns of an analysis have different ids in any case, and different indices
exactly when no given index is repeated and none is the place of a turn without one.
-/

namespace Pulse.Core

open Lib (bind_eq_ok)

section

variable {F H M R : Type} [Builtins F]

/-! ### The spans of the turns -/

/-- The dict of the loop has one span under each key, of that exchange. -/
structure OnePerExchange (best : List (String × Span F)) : Prop where
  keys : (best.map Prod.fst).Nodup
  exchange : ∀ e ∈ best, e.2.exchange = e.1

lemma OnePerExchange.keepBest {caller : List (Option String)} {best best' : List (String × Span F)}
    {s : Span F} (h : OnePerExchange best) (hok : keepBest caller best s = .ok best') :
    OnePerExchange best' := by
  unfold Core.keepBest at hok
  cases hfind : best.lookup s.exchange with
  | none =>
    rw [hfind] at hok
    cases hok
    constructor
    · exact Lib.nodup_keys_append h.keys hfind s
    · intro e he
      rcases List.mem_append.1 he with he | he
      · exact h.exchange e he
      · rw [List.mem_singleton.1 he]
  | some cur =>
    rw [hfind] at hok
    obtain ⟨takes, -, hok⟩ := bind_eq_ok.1 hok
    cases takes with
    | false =>
      cases hok
      exact h
    | true =>
      cases hok
      constructor
      · rw [Lib.keys_map fun e => by by_cases he : e.1 = s.exchange <;> simp [he]]
        exact h.keys
      · intro e he
        obtain ⟨e₀, he₀, rfl⟩ := List.mem_map.1 he
        by_cases hkey : e₀.1 = s.exchange
        · simp [hkey]
        · simpa [hkey] using h.exchange e₀ he₀

lemma turnSpans_exchange_nodup {spans ts : List (Span F)} (h : turnSpans spans = .ok ts) :
    (ts.map Span.exchange).Nodup := by
  obtain ⟨best, hbest, h⟩ := bind_eq_ok.1 h
  obtain ⟨keyed, hkeyed, h⟩ := bind_eq_ok.1 h
  cases h
  have hone : OnePerExchange best :=
    Lib.foldlM_ok (fun _ _ _ _ hI hok => hI.keepBest hok) ⟨by simp, by simp⟩ hbest
  have hspans : keyed.map Prod.snd = best.map Prod.snd := by
    refine Lib.map_of_mapM_ok (fun e k hok => ?_) hkeyed
    obtain ⟨i, -, hok⟩ := bind_eq_ok.1 hok
    obtain ⟨key, -, hok⟩ := bind_eq_ok.1 hok
    cases hok
    rfl
  have hkeys : (best.map Prod.snd).map Span.exchange = best.map Prod.fst := by
    rw [List.map_map]
    exact List.map_congr_left hone.exchange
  have hperm := ((Lib.sorted_perm (fun a b => indexedLt a.1 b.1) keyed).map Prod.snd).map
    Span.exchange
  rw [hperm.nodup_iff, hspans, hkeys]
  exact hone.keys

/-! ### Their numbers -/

/-- The index that the producer gave, if one can be read. -/
def given (s : Span F) : Option Int :=
  (givenIndex s).toOption.join

lemma turnIndex_ok {s : Span F} {dflt i : Int} (h : turnIndex s dflt = .ok i) :
    i = (given s).getD dflt := by
  unfold turnIndex at h
  unfold given
  cases hg : givenIndex s with
  | error e => simp [hg, Except.map] at h
  | ok g =>
    rw [hg] at h
    cases h
    rfl

namespace Calculator

variable {c : Calculator F H M R}

lemma buildTurn_ok {turnSpan : Span F} {spans : List (Span F)} {utterances : List (Utterance F)}
    {offset : F} {position : Nat} {turn : Turn M}
    (h : c.buildTurn turnSpan spans utterances offset position = .ok turn) :
    turn.turnId = turnSpan.exchange ∧ turn.turnIndex = (given turnSpan).getD position := by
  obtain ⟨measured, -, h⟩ := bind_eq_ok.1 h
  obtain ⟨i, hi, h⟩ := bind_eq_ok.1 h
  cases h
  exact ⟨rfl, turnIndex_ok hi⟩

lemma buildTurns_ok {ts spans : List (Span F)} {utterances : List (Utterance F)} {offset : F}
    {turns : List (Turn M)} (h : (ts.zipIdx.mapM fun (ts, position) =>
      c.buildTurn ts spans utterances offset position) = .ok turns) :
    turns.map Turn.turnId = ts.map Span.exchange ∧
      turns.map Turn.turnIndex = Lib.numbers given ts := by
  constructor
  · rw [Lib.map_of_mapM_ok (fun _ _ hok => (buildTurn_ok hok).1) h]
    conv_rhs => rw [← List.zipIdx_map_fst 0 ts, List.map_map]
    rfl
  · exact Lib.map_of_mapM_ok (fun _ _ hok => (buildTurn_ok hok).2) h

/-! ### Turns inferred from events -/

/-- Each turn has its place for its index, and an id made from it. -/
def Numbered (turns : List (Turn M)) : Prop :=
  turns.map Turn.turnIndex = (List.range turns.length).map (fun n : Nat => (n : Int)) ∧
    turns.map Turn.turnId = (List.range turns.length).map fun n => "ev:" ++ toString n

lemma Numbered.nil : Numbered ([] : List (Turn M)) :=
  ⟨rfl, rfl⟩

omit [Builtins F] in
lemma Numbered.close {turns : List (Turn M)} (h : Numbered turns) (group : Group F) :
    Numbered (c.close turns group) := by
  unfold Calculator.close
  split
  · exact h
  · constructor
    · simp [h.1, List.range_succ]
    · simp [h.2, List.range_succ]

lemma Numbered.eventStep {acc : List (Turn M) × Option (Group F)} (h : Numbered acc.1)
    (e : F × SpanEvent F) : Numbered (c.eventStep acc e).1 := by
  obtain ⟨turns, group⟩ := acc
  cases group with
  | none => exact h
  | some group =>
    unfold Calculator.eventStep
    dsimp only
    split
    · exact h.close group
    · exact h

lemma numbered_turnsFromEvents (trace : Trace F H) : Numbered (c.turnsFromEvents trace) := by
  have hfold : ∀ (events : List (F × SpanEvent F)) (acc : List (Turn M) × Option (Group F)),
      Numbered acc.1 → Numbered (events.foldl c.eventStep acc).1 := by
    intro events
    induction events with
    | nil => exact fun _ h => h
    | cons e events ih => exact fun acc h => ih _ (h.eventStep e)
  unfold turnsFromEvents
  have hevents := hfold (Lib.sorted (fun a b => Builtins.lt a.1 b.1)
    ((trace.spans.flatMap Span.events).filterMap fun e => e.t.map (·, e))) ([], none) .nil
  dsimp only
  split
  · rename_i turns group heq
    rw [heq] at hevents
    exact Numbered.close hevents group
  · rename_i turns heq
    rw [heq] at hevents
    exact hevents

lemma Numbered.distinct {turns : List (Turn M)} (h : Numbered turns) :
    (turns.map Turn.turnId).Nodup ∧ (turns.map Turn.turnIndex).Nodup := by
  rw [h.1, h.2]
  constructor
  · refine List.nodup_range.map fun m n hmn => ?_
    exact Lib.repr_injective (String.append_right_inj "ev:" |>.1 hmn)
  · exact List.nodup_range.map fun _ _ => Int.ofNat_inj.1

end Calculator

/-! ### The rows of the turns -/

/-- A row of the turn table. Of the columns that a turn measures nothing is kept. -/
structure TurnRow where
  callId : Nat
  turnIndex : Int
  turnId : String

/-- The turn table, with `uq_turn_index`. -/
structure TurnTable where
  rows : List TurnRow
  unique : (rows.map fun r => (r.callId, r.turnIndex)).Nodup

namespace TurnTable

def empty : TurnTable where
  rows := []
  unique := by simp

def insert (t : TurnTable) (r : TurnRow) : Except Lib.Violation TurnTable :=
  if h : (r.callId, r.turnIndex) ∈ t.rows.map fun r => (r.callId, r.turnIndex) then .error .unique
  else .ok {
    rows := t.rows ++ [r]
    unique := by
      rw [List.map_append, List.map_singleton, List.nodup_append_comm]
      exact List.nodup_cons.2 ⟨h, t.unique⟩ }

/-- `DELETE FROM turn WHERE call_id = callId` -/
def delete (t : TurnTable) (callId : Nat) : TurnTable where
  rows := t.rows.filter (·.callId ≠ callId)
  unique := (List.filter_sublist.map _).nodup t.unique

/-- The turns of `_persist`: delete, then insert. -/
def persistTurns (t : TurnTable) (callId : Nat) (turns : List (Turn M)) :
    Except Lib.Violation TurnTable :=
  (turns.map fun turn => (⟨callId, turn.turnIndex, turn.turnId⟩ : TurnRow)).foldlM insert
    (t.delete callId)

lemma insertAll_ok_iff (t : TurnTable) (rows : List TurnRow) :
    (∃ t', rows.foldlM insert t = .ok t') ↔
      ((t.rows ++ rows).map fun r => (r.callId, r.turnIndex)).Nodup := by
  induction rows generalizing t with
  | nil => simpa using ⟨fun _ => t.unique, fun _ => ⟨t, rfl⟩⟩
  | cons r rows ih =>
    rw [List.foldlM_cons]
    by_cases hr : (r.callId, r.turnIndex) ∈ t.rows.map fun r => (r.callId, r.turnIndex)
    · rw [insert, dif_pos hr]
      constructor
      · rintro ⟨t', h⟩
        cases h
      · intro h
        rw [List.map_append, List.nodup_append'] at h
        exact absurd List.mem_cons_self (h.2.2 hr)
    · rw [insert, dif_neg hr]
      have := ih ⟨t.rows ++ [r], by
        rw [List.map_append, List.map_singleton, List.nodup_append_comm]
        exact List.nodup_cons.2 ⟨hr, t.unique⟩⟩
      rw [List.append_assoc] at this
      exact this

lemma persistTurns_ok_iff (t : TurnTable) (callId : Nat) (turns : List (Turn M)) :
    (∃ t', t.persistTurns callId turns = .ok t') ↔ (turns.map Turn.turnIndex).Nodup := by
  have hold : ∀ r ∈ (t.delete callId).rows, r.callId ≠ callId := by
    intro r hr
    simpa using (List.mem_filter.1 hr).2
  have hnew : (turns.map fun turn => (callId, turn.turnIndex)).Nodup ↔
      (turns.map Turn.turnIndex).Nodup := by
    rw [← List.nodup_map_iff (f := fun i : Int => (callId, i)) (fun _ _ h => (Prod.mk.inj h).2),
      List.map_map]
    rfl
  rw [persistTurns, insertAll_ok_iff, List.map_append, List.nodup_append', ← hnew, List.map_map]
  constructor
  · exact fun h => h.2.1
  · refine fun h => ⟨(t.delete callId).unique, h, fun key hkey hkey' => ?_⟩
    obtain ⟨r, hr, rfl⟩ := List.mem_map.1 hkey
    obtain ⟨turn, -, heq⟩ := List.mem_map.1 hkey'
    exact hold r hr (Prod.mk.inj heq).1.symm

end TurnTable

/-! ### When they differ -/

/-- No index that a producer gave is repeated, and none is the place in call order of a turn
without one. -/
def Clear (spans : List (Span F)) : Prop :=
  ∀ ts, turnSpans spans = .ok ts → Lib.Compatible given ts

/-- The turns have different ids and different indices, and any turn table takes their rows. -/
structure DistinctTurns (turns : List (Turn M)) : Prop where
  ids : (turns.map Turn.turnId).Nodup
  indices : (turns.map Turn.turnIndex).Nodup
  rows : ∀ (t : TurnTable) callId, ∃ t', t.persistTurns callId turns = .ok t'

lemma distinctTurns_iff {turns : List (Turn M)} (hids : (turns.map Turn.turnId).Nodup) :
    DistinctTurns turns ↔ (turns.map Turn.turnIndex).Nodup :=
  ⟨fun h => h.indices, fun h => ⟨hids, h, fun t callId => (t.persistTurns_ok_iff callId turns).2 h⟩⟩

/-- The turns of an analysis are distinct exactly when the given indices keep clear of each other
and of the places of the turns without one. -/
theorem analyze_distinctTurns_iff {c : Calculator F H M R} {trace : Trace F H}
    {audio : Option (AudioAnalysis F)} {t0OffsetS : Option F} {analysis : Analysis M R}
    (h : c.analyze trace audio t0OffsetS = .ok analysis) :
    DistinctTurns analysis.turns ↔ Clear trace.spans := by
  obtain ⟨ts, hts, h⟩ := bind_eq_ok.1 h
  obtain ⟨turns, hturns, h⟩ := bind_eq_ok.1 h
  obtain ⟨report, -, h⟩ := bind_eq_ok.1 h
  cases h
  obtain ⟨hids, hindices⟩ := Calculator.buildTurns_ok hturns
  have hclear : Clear trace.spans ↔ Lib.Compatible given ts := by
    unfold Clear
    rw [hts]
    simp
  rw [hclear, ← Lib.numbers_nodup_iff]
  by_cases hempty : turns = []
  · -- no span is a turn
    have hnone : ts = [] := by simpa [hempty] using hids.symm
    have hnumbered := (Calculator.numbered_turnsFromEvents (c := c) trace).distinct
    simp only [hempty, List.isEmpty_nil, if_true, hnone]
    exact iff_of_true ((distinctTurns_iff hnumbered.1).2 hnumbered.2) (by simp [Lib.numbers])
  · have hturns' : turns.isEmpty = false := by simpa using hempty
    have hnodup : (turns.map Turn.turnId).Nodup := hids ▸ turnSpans_exchange_nodup hts
    simp only [hturns', Bool.false_eq_true, if_false]
    rw [distinctTurns_iff hnodup, hindices]

end

/-! ### Two turns, one of them numbered -/

/-- Integers for floats. -/
instance : Builtins Int where
  zero := 0
  inf := 1000000000000
  lt a b := decide (a < b)
  ofInt := .ok
  toInt := .ok
  digit ch := if ch.isDigit then some (ch.toNat - 48) else none
  isSpace ch := ch.isWhitespace

/-- A calculator that measures nothing. -/
def noMeasures : Calculator Int Unit Unit Unit where
  waterfall _ _ _ _ _ := .ok ()
  eventTurn _ := ()
  report _ _ _ _ := .ok ()

/-- A turn span, with an index or without one. -/
def turnSpan (spanId : String) (tStart : Int) (index : Option Int) : Span Int where
  spanId := spanId
  name := "turn"
  stage := .turn
  tStart := some tStart
  attrs := index.elim [] fun i => [("turn.index", .int i)]

/-- The first turn is given an index, the second is not. -/
def mixedTrace (index : Int) : Trace Int Unit where
  header := ()
  spans := [turnSpan "t1" 0 (some index), turnSpan "t2" 5 none]

/-- The index 0 is the place of its own turn. -/
theorem analyze_distinctTurns_iff_zero :
    DistinctTurns [(⟨0, "t1", ()⟩ : Turn Unit), ⟨1, "t2", ()⟩] ∧ Clear (mixedTrace 0).spans := by
  have hok : noMeasures.analyze (mixedTrace 0) none none =
      .ok ⟨[⟨0, "t1", ()⟩, ⟨1, "t2", ()⟩], ()⟩ := rfl
  have hclear : Clear (mixedTrace 0).spans := by
    intro ts hts
    cases hts
    exact (Lib.numbers_nodup_iff given _).1 (by decide)
  exact ⟨(analyze_distinctTurns_iff hok).2 hclear, hclear⟩

/-- The index 1 is the place of the other turn. -/
theorem analyze_turns_collide :
    ∃ analysis, noMeasures.analyze (mixedTrace 1) none none = .ok analysis ∧
      ¬DistinctTurns analysis.turns :=
  ⟨⟨[⟨1, "t1", ()⟩, ⟨1, "t2", ()⟩], ()⟩, rfl, fun h => absurd h.indices (by decide)⟩

end Pulse.Core
