import Mathlib.Logic.Function.Basic
import Pulse.Core.TurnSpans
import Pulse.Worker.EventRows

/-!
# The timeline read back

`get_call` orders the stored rows by their positions and `_span_tree` of `api/read.py` puts the
events below their spans. The writer interleaves the two kinds of rows under one counter; the reader
takes them apart again.
-/

namespace Pulse.Api

open Core (CallHeader OrderKeyReads Span SpanEvent Text Trace Value keyLt orderKey)
open Lib (PyFloat StablySorted StrictOrder lexLt nullsLast)
open Worker (EventRow eventContent eventRow eventRows spanRow spanRows stageValue text)

/-! ### The reader -/

/-- Floats in the order of the store: one that is no number comes after all others. -/
def offsetLt (a b : PyFloat) : Bool :=
  a.lt b || a ≠ .nan && b = .nan

/-- `order_by(Event.position.asc().nulls_last(), Event.t_offset_s)`; a null time is last as well. -/
def storedLt (a b : EventRow × Option Nat) : Bool :=
  lexLt (nullsLast fun i j => decide (i < j)) (nullsLast offsetLt) (a.2, a.1.tOffsetS)
    (b.2, b.1.tOffsetS)

structure EventNode where
  name : String
  tOffsetS : Option PyFloat
  attrs : List (String × Value PyFloat)
  contentText : Value PyFloat

structure SpanNode where
  spanId : String
  parentSpanId : Option String
  name : String
  stage : String
  turnId : Option String
  tStartS : Option PyFloat
  durationS : Option PyFloat
  attrs : List (String × Value PyFloat)
  contentText : Value PyFloat
  contentKind : Option String
  events : List EventNode

def eventNode (e : EventRow) : EventNode where
  name := e.name
  tOffsetS := e.tOffsetS
  attrs := e.attrs
  contentText := e.contentText

/-- `by_span`; a span that is not in it has no events. -/
def bySpan (events : List EventRow) : String → List EventNode :=
  events.foldl (fun dict e =>
    if e.kind = "event" then Function.update dict e.spanId (dict e.spanId ++ [eventNode e])
    else dict) fun _ => []

def spanNode (dict : String → List EventNode) (e : EventRow) : SpanNode where
  spanId := e.spanId
  parentSpanId := e.parentSpanId
  name := e.name
  stage := e.type
  turnId := e.turnId
  tStartS := e.tOffsetS
  durationS := e.durationS
  attrs := e.attrs
  contentText := e.contentText
  contentKind := e.contentKind
  events := dict e.spanId

/-- `_span_tree` -/
def spanTree (events : List EventRow) : List SpanNode :=
  (events.filter fun e => e.kind = "span").map (spanNode (bySpan events))

/-- The spans of `get_call`. -/
def callSpans (stored : List (EventRow × Option Nat)) : List SpanNode :=
  spanTree ((Lib.sorted storedLt stored).map Prod.fst)

lemma bySpan_eq (events : List EventRow) (id : String) : bySpan events id =
    (events.filter fun e => e.kind = "event" ∧ e.spanId = id).map eventNode := by
  have hfold (dict : String → List EventNode) : events.foldl (fun dict e =>
      if e.kind = "event" then Function.update dict e.spanId (dict e.spanId ++ [eventNode e])
      else dict) dict id =
      dict id ++ (events.filter fun e => e.kind = "event" ∧ e.spanId = id).map eventNode := by
    induction events generalizing dict with
    | nil => simp
    | cons e events ih =>
      rw [List.foldl_cons, ih]
      by_cases hkind : e.kind = "event"
      · by_cases hid : e.spanId = id
        · subst hid
          simp [hkind]
        · simp [hkind, hid, Function.update_of_ne (Ne.symm hid)]
      · simp [hkind]
  exact hfold _

lemma strictOrder_offsetLt : StrictOrder offsetLt where
  asymm a b h := by
    cases a <;> cases b <;> simp_all [offsetLt, PyFloat.lt]
    exact h.le
  trans a b c hab hbc := by
    cases a <;> cases b <;> cases c <;> simp_all [offsetLt, PyFloat.lt]
    exact hab.trans hbc

lemma strictOrder_storedLt : StrictOrder storedLt := by
  have hposition : StrictOrder fun i j : Nat => decide (i < j) :=
    ⟨fun i j h => by simpa using (of_decide_eq_true h).le,
      fun i j k hij hjk => decide_eq_true ((of_decide_eq_true hij).trans (of_decide_eq_true hjk))⟩
  exact (hposition.nullsLast.lex strictOrder_offsetLt.nullsLast).comap
    fun a : EventRow × Option Nat => (a.2, a.1.tOffsetS)

/-- Rows with the positions that they have in a list are read in the order of the list. -/
lemma sorted_stored {rows : List EventRow} {stored : List (EventRow × Option Nat)}
    (h : stored.Perm (rows.zipIdx.map fun r => (r.1, some r.2))) :
    (Lib.sorted storedLt stored).map Prod.fst = rows := by
  have hpairwise : (rows.zipIdx.map fun r => (r.1, some r.2)).Pairwise
      fun a b : EventRow × Option Nat => storedLt a b = true := by
    rw [List.pairwise_map]
    have hpositions : rows.zipIdx.Pairwise fun a b => a.2 < b.2 := by
      rw [← List.pairwise_map (f := Prod.snd) (R := fun i j : Nat => i < j), List.zipIdx_map_snd]
      exact List.pairwise_lt_range'
    refine hpositions.imp fun {a b} hab => ?_
    exact Lib.lexLt_iff.2 (.inl (decide_eq_true hab))
  rw [Lib.sorted_eq_of_pairwise strictOrder_storedLt h hpairwise, List.map_map]
  exact List.zipIdx_map_fst 0 rows

/-! ### The order of the rows -/

/-- The order key, when there is one. -/
def callKey (s : Span PyFloat) : Option (Nat × PyFloat) := (orderKey s).toOption

/-- Tuples compare, and a float that is no number with none. -/
def callKeyLe : Option (Nat × PyFloat) → Option (Nat × PyFloat) → Prop
  | some k, some k' => k.1 < k'.1 ∨ k.1 = k'.1 ∧ k.2 ≤ k'.2
  | _, _ => False

/-- Untimed is last. -/
def timeLe : Option PyFloat → Option PyFloat → Prop
  | some t, some t' => t ≤ t'
  | _, none => True
  | none, some _ => False

/-- `sorted(trace.spans, key=order_key)` -/
def inCallOrder (spans : List (Span PyFloat)) : List (Span PyFloat) :=
  Lib.sorted (fun s s' => nullsLast keyLt (callKey s) (callKey s')) spans

/-- The events of a span as `_event_rows` sorts them. -/
def byTime (events : List (SpanEvent PyFloat)) : List (SpanEvent PyFloat) :=
  Lib.sorted (fun e e' => (e.t.getD .inf).lt (e'.t.getD .inf)) events

/-- Of two times neither is `nan`, or one is missing. -/
def BothNumbers (t t' : Option PyFloat) : Prop :=
  ∀ x ∈ t, ∀ y ∈ t', x ≠ .nan ∧ y ≠ .nan

lemma BothNumbers.symm {t t' : Option PyFloat} (h : BothNumbers t t') : BothNumbers t' t :=
  fun x hx y hy => (h y hy x hx).symm

/-- All starts are numbers, or there is one. -/
def StartsCompare (spans : List (Span PyFloat)) : Prop :=
  spans.Pairwise fun s s' => BothNumbers s.tStart s'.tStart

/-- The times of the events compare, and after an event without a time none is listed at infinity,
which stands for no time. -/
structure TimesCompare (events : List (SpanEvent PyFloat)) : Prop where
  numbers : events.Pairwise fun e e' => BothNumbers e.t e'.t
  infinity : events.Pairwise fun e e' => e.t = none → ∀ t' ∈ e'.t, t'.lt .inf = true

lemma ne_nan_of_le {t t' : PyFloat} (h : t ≤ t') : t ≠ .nan ∧ t' ≠ .nan := by
  have h : (t.lt t' || (t = t' && t ≠ .nan)) = true := h
  constructor
  · rintro rfl
    simp [PyFloat.lt] at h
  · rintro rfl
    cases t <;> simp [PyFloat.lt] at h

lemma le_of_not_lt {t t' : PyFloat} (h : t'.lt t = false) (ht : t ≠ .nan) (ht' : t' ≠ .nan) :
    t ≤ t' := by
  change (t.lt t' || (t = t' && t ≠ .nan)) = true
  obtain rfl | hlt | hlt := PyFloat.decides_lt (iff_of_false ht ht')
  · simp [ht]
  · rw [hlt]
    rfl
  · rw [h] at hlt
    cases hlt

section

variable {events : List (SpanEvent PyFloat)}

/-- The times decide which event comes first, or there is one time, which is no number. -/
lemma byTime_pairwise (h : TimesCompare events) :
    (byTime events).Pairwise fun e e' => (e'.t.getD .inf).lt (e.t.getD .inf) = false := by
  have : Std.Symm fun e e' : SpanEvent PyFloat => BothNumbers e.t e'.t :=
    ⟨fun _ _ => BothNumbers.symm⟩
  by_cases hnan : ∃ e ∈ events, e.t = some .nan
  · obtain ⟨e₀, he₀, hnan⟩ := hnan
    have hkey (e : SpanEvent PyFloat) (he : e ∈ events) :
        e.t.getD .inf = .inf ∨ e.t.getD .inf = .nan := by
      by_cases heq : e = e₀
      · exact .inr (by rw [heq, hnan]; rfl)
      · cases ht : e.t with
        | none => exact .inl rfl
        | some t => exact absurd rfl (h.numbers.forall he he₀ heq t ht .nan hnan).2
    have hfalse (e : SpanEvent PyFloat) (he : e ∈ events) (e' : SpanEvent PyFloat)
        (he' : e' ∈ events) : (e.t.getD .inf).lt (e'.t.getD .inf) = false := by
      obtain hk | hk := hkey e he <;> obtain hk' | hk' := hkey e' he' <;> rw [hk, hk'] <;> rfl
    exact Lib.sorted_pairwise_of_mem (fun a ha b hb => .inl (hfalse b hb a ha))
      fun a ha _ _ c hc _ _ => hfalse c hc a ha
  · have hnumber (e : SpanEvent PyFloat) (he : e ∈ events) : e.t.getD .inf ≠ .nan := by
      cases ht : e.t with
      | none => exact PyFloat.noConfusion
      | some t =>
        rintro rfl
        exact hnan ⟨e, he, ht⟩
    have hmap : (byTime events).map (fun e => e.t.getD .inf) =
        Lib.sorted PyFloat.lt (events.map fun e => e.t.getD .inf) :=
      Lib.map_sorted (fun _ _ => rfl) events
    rw [← List.pairwise_map (f := fun e : SpanEvent PyFloat => e.t.getD .inf)
      (R := fun t t' => PyFloat.lt t' t = false), hmap]
    refine Lib.sorted_pairwise_of_decides PyFloat.strictOrder_lt fun t ht t' ht' => ?_
    obtain ⟨e, he, rfl⟩ := List.mem_map.1 ht
    obtain ⟨e', he', rfl⟩ := List.mem_map.1 ht'
    exact PyFloat.decides_lt (iff_of_false (hnumber e he) (hnumber e' he'))

/-- The events at infinity stand as they are listed, those without a time among them. -/
lemma byTime_infinity (events : List (SpanEvent PyFloat))
    {R : SpanEvent PyFloat → SpanEvent PyFloat → Prop} :
    ((byTime events).Pairwise fun e e' => (e.t.getD .inf).lt .inf = false →
        (e'.t.getD .inf).lt .inf = false → R e e') ↔
      events.Pairwise fun e e' => (e.t.getD .inf).lt .inf = false →
        (e'.t.getD .inf).lt .inf = false → R e e' := by
  let p (e : SpanEvent PyFloat) : Bool := !(e.t.getD .inf).lt .inf
  have hfilter : (byTime events).filter p = events.filter p := by
    refine Lib.filter_sorted fun e _ e' _ hp hp' => ?_
    simp only [p, Bool.not_eq_true'] at hp hp'
    cases hk : e.t.getD .inf <;> cases hk' : e'.t.getD .inf <;> simp_all [PyFloat.lt]
  have hpairwise (es : List (SpanEvent PyFloat)) :
      (es.Pairwise fun e e' => (e.t.getD .inf).lt .inf = false →
        (e'.t.getD .inf).lt .inf = false → R e e') ↔ (es.filter p).Pairwise R := by
    rw [List.pairwise_filter]
    simp [p]
  rw [hpairwise, hpairwise, hfilter]

/-- The events are in time order, untimed ones last, exactly when their times allow it. -/
lemma byTime_ordered_iff :
    ((byTime events).Pairwise fun e e' => timeLe e.t e'.t) ↔ TimesCompare events := by
  have hperm : (byTime events).Perm events := Lib.sorted_perm _ events
  constructor
  · intro h
    constructor
    · refine (hperm.pairwise_iff BothNumbers.symm).1 (h.imp fun {e e'} hle t ht t' ht' => ?_)
      rw [Option.mem_def] at ht ht'
      rw [ht, ht'] at hle
      exact ne_nan_of_le hle
    · have hinfinity := (byTime_infinity events).1 (h.imp fun {e e'} hle _ _ => hle)
      refine hinfinity.imp fun {e e'} hle hnone t' ht' => ?_
      rw [Option.mem_def] at ht'
      rw [hnone, ht'] at hle
      cases hlt : t'.lt .inf with
      | true => rfl
      | false => exact (hle rfl hlt).elim
  · intro h
    have hinfinity := (byTime_infinity events
      (R := fun e e' => e.t = none → e'.t = none)).2 (h.infinity.imp fun {e e'} himp _ hlt hnone => by
        cases ht' : e'.t with
        | none => rfl
        | some t' =>
          rw [ht'] at hlt
          have hfalse := himp hnone t' ht'
          rw [Option.getD_some] at hlt
          rw [hlt] at hfalse
          cases hfalse)
    have hnumbers := (hperm.pairwise_iff BothNumbers.symm).2 h.numbers
    refine ((byTime_pairwise h).and (hinfinity.and hnumbers)).imp ?_
    rintro e e' ⟨hlt, hnone, hnumbers⟩
    cases ht : e.t with
    | none =>
      cases ht' : e'.t with
      | none => trivial
      | some t' =>
        rw [ht, ht'] at hlt hnone
        cases hnone rfl hlt rfl
    | some t =>
      cases ht' : e'.t with
      | none => trivial
      | some t' =>
        rw [ht, ht'] at hlt
        obtain ⟨hn, hn'⟩ := hnumbers t ht t' ht'
        exact le_of_not_lt hlt hn hn'

end

lemma callKey_ok {s : Span PyFloat} {k : Nat × PyFloat} (h : callKey s = some k) :
    orderKey s = .ok k := by
  unfold callKey at h
  cases hk : orderKey s with
  | ok k' =>
    rw [hk] at h
    cases h
    rfl
  | error e =>
    rw [hk] at h
    cases h

lemma callKey_timed {s : Span PyFloat} {t : PyFloat} (h : s.tStart = some t) :
    callKey s = some (0, t) := by
  unfold callKey orderKey
  rw [h]
  rfl

lemma exists_callKey {s : Span PyFloat} (h : OrderKeyReads s) : ∃ k, callKey s = some k := by
  obtain ⟨k, hk⟩ := Core.succeeds_orderKey.2 h
  exact ⟨k, by rw [callKey, hk]; rfl⟩

lemma bothNumbers_of_callKeyLe {s s' : Span PyFloat} (h : callKeyLe (callKey s) (callKey s')) :
    BothNumbers s.tStart s'.tStart := by
  intro t ht t' ht'
  rw [callKey_timed ht, callKey_timed ht'] at h
  obtain hlt | ⟨-, hle⟩ := h
  · cases hlt
  · exact ne_nan_of_le hle

lemma callKeyLe_of_not_lt {s s' : Span PyFloat} (hs : OrderKeyReads s) (hs' : OrderKeyReads s')
    (hnumbers : BothNumbers s.tStart s'.tStart)
    (h : nullsLast keyLt (callKey s') (callKey s) = false) : callKeyLe (callKey s) (callKey s') := by
  obtain ⟨k, hk⟩ := exists_callKey hs
  obtain ⟨k', hk'⟩ := exists_callKey hs'
  have hnumber {s : Span PyFloat} {k : Nat × PyFloat} (hk : callKey s = some k)
      (ht : s.tStart = none) : k.1 = 1 ∧ k.2 ≠ .nan := Core.orderKey_untimed ht (callKey_ok hk)
  rw [hk, hk'] at h ⊢
  change (decide (k'.1 < k.1) || k'.1 == k.1 && k'.2.lt k.2) = false at h
  rw [Bool.or_eq_false_iff, decide_eq_false_iff_not, Nat.not_lt] at h
  obtain hlt | heq := h.1.lt_or_eq
  · exact .inl hlt
  refine .inr ⟨heq, ?_⟩
  have hlt : k'.2.lt k.2 = false := by simpa [heq] using h.2
  cases ht : s.tStart with
  | none =>
    cases ht' : s'.tStart with
    | none => exact le_of_not_lt hlt (hnumber hk ht).2 (hnumber hk' ht').2
    | some t' =>
      obtain rfl := Core.orderKey_timed ht' (callKey_ok hk')
      rw [(hnumber hk ht).1] at heq
      cases heq
  | some t =>
    obtain rfl := Core.orderKey_timed ht (callKey_ok hk)
    cases ht' : s'.tStart with
    | none =>
      rw [(hnumber hk' ht').1] at heq
      cases heq
    | some t' =>
      obtain rfl := Core.orderKey_timed ht' (callKey_ok hk')
      obtain ⟨hn, hn'⟩ := hnumbers t ht t' ht'
      exact le_of_not_lt hlt hn hn'

section

variable {spans : List (Span PyFloat)}

lemma inCallOrder_perm : (inCallOrder spans).Perm spans := Lib.sorted_perm _ spans

/-- The spans are in the order of their keys, when the starts compare. -/
lemma inCallOrder_ordered (hreads : ∀ s ∈ spans, OrderKeyReads s) (h : StartsCompare spans) :
    (inCallOrder spans).Pairwise fun s s' => callKeyLe (callKey s) (callKey s') := by
  have : Std.Symm fun s s' : Span PyFloat => BothNumbers s.tStart s'.tStart :=
    ⟨fun _ _ => BothNumbers.symm⟩
  have hmap : (inCallOrder spans).map callKey =
      Lib.sorted (nullsLast keyLt) (spans.map callKey) :=
    Lib.map_sorted (fun _ _ => rfl) spans
  have hpairwise : (inCallOrder spans).Pairwise
      fun s s' => nullsLast keyLt (callKey s') (callKey s) = false := by
    rw [← List.pairwise_map (f := callKey) (R := fun k k' => nullsLast keyLt k' k = false), hmap]
    refine Lib.sorted_pairwise_of_decides Core.strictOrder_keyLt.nullsLast fun k hk k' hk' => ?_
    obtain ⟨s, hs, rfl⟩ := List.mem_map.1 hk
    obtain ⟨s', hs', rfl⟩ := List.mem_map.1 hk'
    obtain ⟨key, hkey⟩ := exists_callKey (hreads s hs)
    obtain ⟨key', hkey'⟩ := exists_callKey (hreads s' hs')
    have hstarts : ∀ t ∈ s.tStart, ∀ t' ∈ s'.tStart, Lib.Decides PyFloat.lt t t' := by
      intro t ht t' ht'
      by_cases heq : s = s'
      · subst heq
        exact .inl (Option.mem_unique ht ht')
      · obtain ⟨hn, hn'⟩ := h.forall hs hs' heq t ht t' ht'
        exact PyFloat.decides_lt (iff_of_false hn hn')
    rw [hkey, hkey']
    exact (Core.decides_keyLt (callKey_ok hkey) (callKey_ok hkey') hstarts).imp_left (congrArg some)
  have hperm : (inCallOrder spans).Perm spans := inCallOrder_perm
  have hnumbers := (hperm.pairwise_iff BothNumbers.symm).2 h
  refine (hpairwise.and hnumbers).imp_of_mem fun {s s'} hs hs' hand => ?_
  exact callKeyLe_of_not_lt (hreads s (inCallOrder_perm.mem_iff.1 hs))
    (hreads s' (inCallOrder_perm.mem_iff.1 hs')) hand.2 hand.1

lemma inCallOrder_stablySorted (hreads : ∀ s ∈ spans, OrderKeyReads s) (h : StartsCompare spans) :
    StablySorted callKey callKeyLe spans (inCallOrder spans) where
  perm := inCallOrder_perm
  ordered := inCallOrder_ordered hreads h
  stable k := Lib.filter_sorted fun s _ s' _ hs hs' => by
    rw [of_decide_eq_true hs, of_decide_eq_true hs']
    exact Core.strictOrder_keyLt.nullsLast.irrefl k

lemma byTime_stablySorted {events : List (SpanEvent PyFloat)} (h : TimesCompare events) :
    StablySorted SpanEvent.t timeLe events (byTime events) where
  perm := Lib.sorted_perm _ events
  ordered := byTime_ordered_iff.2 h
  stable t := Lib.filter_sorted fun e _ e' _ he he' => by
    rw [of_decide_eq_true he, of_decide_eq_true he']
    exact PyFloat.strictOrder_lt.irrefl _

end

/-! ### The writer -/

/-- The contents are strings. -/
structure StringContent (s : Span PyFloat) : Prop where
  span : ∀ c ∈ s.content, ∃ str, c.2 = .str str
  events : ∀ e ∈ s.events, ∀ c ∈ e.content, ∃ str, c.2 = .str str

/-- The row of an event whose content is a string. -/
def stringRow (s : Span PyFloat) (e : SpanEvent PyFloat) : EventRow where
  spanId := s.spanId
  parentSpanId := s.parentSpanId
  turnId := s.turnId
  tOffsetS := e.t
  kind := "event"
  type := String.ofList (e.name.toList.take 48)
  name := e.name
  attrs := e.attrs
  contentText := eventContent e
  contentKind := e.content.head?.map Prod.fst

/-- The rows of spans, each followed by those of its events. -/
def timeline (spans : List (Span PyFloat)) : List EventRow :=
  spans.flatMap fun s => spanRow s :: (byTime s.events).map (stringRow s)

section

variable [Text]

lemma text_eventContent {e : SpanEvent PyFloat} (h : ∀ c ∈ e.content, ∃ str, c.2 = .str str) :
    text (eventContent e) = .ok (eventContent e) := by
  unfold eventContent
  cases hcontent : e.content with
  | nil => rfl
  | cons c cs =>
    obtain ⟨k, v⟩ := c
    obtain ⟨str, hstr⟩ := h (k, v) (by rw [hcontent]; exact List.mem_cons_self)
    change v = .str str at hstr
    subst hstr
    dsimp only
    split <;> rfl

lemma spanRows_eq {s : Span PyFloat} (h : StringContent s) :
    spanRows s = .ok (spanRow s :: (byTime s.events).map (stringRow s)) := by
  have hrows : (byTime s.events).mapM (eventRow s) = .ok ((byTime s.events).map (stringRow s)) := by
    have hrow : ∀ e ∈ byTime s.events, eventRow s e = .ok (stringRow s e) := fun e he => by
      have htext := text_eventContent (h.events e (Lib.mem_sorted.1 he))
      unfold eventRow
      rw [htext]
      rfl
    rw [Lib.mapM_congr hrow]
    exact List.mapM_pure
  change (do return spanRow s :: (← (byTime s.events).mapM (eventRow s))) = _
  rw [hrows]
  rfl

/-- The rows are those of the spans in call order, with the positions in the list. -/
lemma eventRows_eq_ok_iff {spans : List (Span PyFloat)} (hcontent : ∀ s ∈ spans, StringContent s)
    {rows : List (EventRow × Nat)} : eventRows spans = .ok rows ↔
      (∀ s ∈ spans, OrderKeyReads s) ∧ rows = (timeline (inCallOrder spans)).zipIdx := by
  have hkeyed {keyed : List ((Nat × PyFloat) × Span PyFloat)} (hok : (spans.mapM fun s => do
      return ((← orderKey s, s) : (Nat × PyFloat) × Span PyFloat)) = .ok keyed) :
      (Lib.sorted (fun a b => keyLt a.1 b.1) keyed).map Prod.snd = inCallOrder spans := by
    have hmap : keyed.map Prod.snd = spans.map id := by
      refine Lib.map_of_mapM_ok (fun s k hk => ?_) hok
      obtain ⟨key, -, hk⟩ := Lib.bind_eq_ok.1 hk
      cases hk
      rfl
    have hkey : ∀ p ∈ keyed, callKey p.2 = some p.1 := fun p hp => by
      obtain ⟨s, -, hs⟩ := Lib.mem_of_mapM_ok hok p hp
      obtain ⟨key, hkey, hs⟩ := Lib.bind_eq_ok.1 hs
      cases hs
      change (orderKey s).toOption = some key
      rw [hkey]
      rfl
    rw [inCallOrder, ← List.map_id spans, ← hmap]
    refine List.map_insertionSort _ _ Prod.snd keyed fun a ha b hb => ?_
    change keyLt b.1 a.1 = false ↔ nullsLast keyLt (callKey b.2) (callKey a.2) = false
    rw [hkey a ha, hkey b hb]
    rfl
  have hrows : (inCallOrder spans).mapM spanRows = .ok ((inCallOrder spans).map fun s =>
      spanRow s :: (byTime s.events).map (stringRow s)) := by
    rw [Lib.mapM_congr fun s hs => spanRows_eq (hcontent s (inCallOrder_perm.mem_iff.1 hs))]
    exact List.mapM_pure
  have hreads : Lib.Succeeds (spans.mapM fun s => do
      return ((← orderKey s, s) : (Nat × PyFloat) × Span PyFloat)) ↔
        ∀ s ∈ spans, OrderKeyReads s := by
    rw [Lib.succeeds_mapM]
    refine forall₂_congr fun s _ => ?_
    rw [← Core.succeeds_orderKey]
    exact Lib.succeeds_map
  rw [← hreads]
  constructor
  · intro h
    obtain ⟨keyed, hok, h⟩ := Lib.bind_eq_ok.1 h
    dsimp only at h
    rw [hkeyed hok, hrows] at h
    cases h
    exact ⟨⟨keyed, hok⟩, by rw [timeline, List.flatMap_def]⟩
  · rintro ⟨⟨keyed, hok⟩, rfl⟩
    unfold eventRows
    rw [hok, Lib.ok_bind]
    dsimp only
    rw [hkeyed hok, hrows, timeline, List.flatMap_def]
    rfl

end

/-! ### The rows taken apart -/

lemma filter_spans (spans : List (Span PyFloat)) :
    ((timeline spans).filter fun r => r.kind = "span") = spans.map spanRow := by
  induction spans with
  | nil => rfl
  | cons s spans ih =>
    have hevents : (((byTime s.events).map (stringRow s)).filter fun r => r.kind = "span") = [] := by
      rw [List.filter_eq_nil_iff, List.forall_mem_map]
      intro e _
      simp [stringRow]
    rw [timeline, List.flatMap_cons, ← timeline, List.filter_append, ih, List.filter_cons,
      if_pos (by simp [spanRow]), hevents]
    rfl

/-- Among the rows of a span and its events those of the events of a span. -/
lemma filter_block (s : Span PyFloat) (id : String) :
    ((spanRow s :: (byTime s.events).map (stringRow s)).filter
        fun r => r.kind = "event" ∧ r.spanId = id) =
      if s.spanId = id then (byTime s.events).map (stringRow s) else [] := by
  rw [List.filter_cons, if_neg (by simp [spanRow])]
  split
  · next hid =>
    rw [List.filter_eq_self, List.forall_mem_map]
    intro e _
    simp [stringRow, hid]
  · next hid =>
    rw [List.filter_eq_nil_iff, List.forall_mem_map]
    intro e _
    simp [stringRow, hid]

lemma filter_own_events {spans : List (Span PyFloat)} (hnodup : (spans.map Span.spanId).Nodup)
    {s : Span PyFloat} (hs : s ∈ spans) :
    ((timeline spans).filter fun r => r.kind = "event" ∧ r.spanId = s.spanId) =
      (byTime s.events).map (stringRow s) := by
  induction spans with
  | nil => cases hs
  | cons s' spans ih =>
    rw [List.map_cons, List.nodup_cons] at hnodup
    rw [timeline, List.flatMap_cons, ← timeline, List.filter_append, filter_block]
    obtain rfl | hs := List.mem_cons.1 hs
    · have hnone : ((timeline spans).filter
          fun r => r.kind = "event" ∧ r.spanId = s.spanId) = [] := by
        rw [timeline, List.filter_flatMap, List.flatMap_eq_nil_iff]
        intro s' hs'
        have hne : s'.spanId ≠ s.spanId := fun heq => hnodup.1 (List.mem_map.2 ⟨s', hs', heq⟩)
        rw [filter_block, if_neg hne]
      rw [if_pos rfl, hnone, List.append_nil]
    · have hne : s'.spanId ≠ s.spanId := fun heq => hnodup.1 (List.mem_map.2 ⟨s, hs, heq.symm⟩)
      rw [if_neg hne, List.nil_append, ih hnodup.2 hs]

/-- A span as it is shown, with its events. -/
def shownSpan (s : Span PyFloat) : SpanNode :=
  spanNode (fun _ => ((byTime s.events).map (stringRow s)).map eventNode) (spanRow s)

lemma spanTree_timeline {spans : List (Span PyFloat)} (hnodup : (spans.map Span.spanId).Nodup) :
    spanTree (timeline spans) = spans.map shownSpan := by
  rw [spanTree, filter_spans, List.map_map]
  refine List.map_congr_left fun s hs => ?_
  have hevents : bySpan (timeline spans) s.spanId =
      ((byTime s.events).map (stringRow s)).map eventNode := by
    rw [bySpan_eq, filter_own_events hnodup hs]
  unfold shownSpan
  change spanNode (bySpan (timeline spans)) (spanRow s) = _
  unfold spanNode
  change SpanNode.mk _ _ _ _ _ _ _ _ _ _ (bySpan (timeline spans) s.spanId) = _
  rw [hevents]

lemma length_timeline (spans : List (Span PyFloat)) :
    (timeline spans).length = (spans.map fun s => 1 + s.events.length).sum := by
  rw [timeline, List.length_flatMap]
  refine congrArg List.sum (List.map_congr_left fun s _ => ?_)
  have hperm : (byTime s.events).Perm s.events := Lib.sorted_perm _ s.events
  rw [List.length_cons, List.length_map, hperm.length_eq, Nat.add_comm]

lemma callSpans_eq {spans : List (Span PyFloat)} (hdistinct : (spans.map Span.spanId).Nodup)
    {stored : List (EventRow × Option Nat)} (h : stored.Perm
      ((timeline (inCallOrder spans)).zipIdx.map fun r => (r.1, some r.2))) :
    callSpans stored = (inCallOrder spans).map shownSpan := by
  have hnodup := ((inCallOrder_perm.map Span.spanId).nodup_iff).2 hdistinct
  rw [callSpans, sorted_stored h, spanTree_timeline hnodup]

/-! ### What is read back -/

section

variable [Text]

structure EventShown (e : SpanEvent PyFloat) (node : EventNode) : Prop where
  name : node.name = e.name
  tOffsetS : node.tOffsetS = e.t
  attrs : node.attrs = e.attrs
  contentText : text (eventContent e) = .ok node.contentText

/-- A span is shown with exactly its own events, in time order with untimed ones last. -/
structure SpanShown (s : Span PyFloat) (node : SpanNode) : Prop where
  spanId : node.spanId = s.spanId
  parentSpanId : node.parentSpanId = s.parentSpanId
  turnId : node.turnId = s.turnId
  name : node.name = s.name
  stage : node.stage = stageValue s.stage
  tStartS : node.tStartS = s.tStart
  attrs : node.attrs = s.attrs
  events : ∃ events, StablySorted SpanEvent.t timeLe s.events events ∧
    List.Forall₂ EventShown events node.events

/-- The positions have no gaps, and there is one row for each span and each event. -/
structure OneRowEach (spans : List (Span PyFloat)) (rows : List (EventRow × Nat)) : Prop where
  positions : rows.map Prod.snd = List.range rows.length
  spanRows : (((rows.map Prod.fst).filter fun r => r.kind = "span").map EventRow.spanId).Perm
    (spans.map Span.spanId)
  eventRows : ∀ s ∈ spans, ((rows.map Prod.fst).filter
    fun r => r.kind = "event" ∧ r.spanId = s.spanId).length = s.events.length
  noOther : rows.length = (spans.map fun s => 1 + s.events.length).sum

/-- In whatever order the rows are stored, the spans are read in call order. -/
def ReadsBack (spans : List (Span PyFloat)) (rows : List (EventRow × Nat)) : Prop :=
  ∀ stored, stored.Perm (rows.map fun r => (r.1, some r.2)) →
    ∃ ordered, StablySorted callKey callKeyLe spans ordered ∧
      List.Forall₂ SpanShown ordered (callSpans stored)

/-- Every span has an order key, and the times compare. -/
structure Orderable (spans : List (Span PyFloat)) : Prop where
  reads : ∀ s ∈ spans, OrderKeyReads s
  starts : StartsCompare spans
  times : ∀ s ∈ spans, TimesCompare s.events

lemma eventShown_stringRow {s : Span PyFloat} {e : SpanEvent PyFloat}
    (h : ∀ c ∈ e.content, ∃ str, c.2 = .str str) : EventShown e (eventNode (stringRow s e)) where
  name := rfl
  tOffsetS := rfl
  attrs := rfl
  contentText := text_eventContent h

lemma times_of_shown {events : List (SpanEvent PyFloat)} {nodes : List EventNode}
    (h : List.Forall₂ EventShown events nodes) :
    events.map SpanEvent.t = nodes.map EventNode.tOffsetS := by
  induction h with
  | nil => rfl
  | cons hshown _ ih => rw [List.map_cons, List.map_cons, hshown.tOffsetS, ih]

/-- The events of a span are in time order as they are shown exactly when their times compare. -/
lemma spanShown_iff {s : Span PyFloat} (h : StringContent s) :
    SpanShown s (shownSpan s) ↔ TimesCompare s.events := by
  have hnodes : (shownSpan s).events = (byTime s.events).map (eventNode ∘ stringRow s) :=
    List.map_map
  constructor
  · intro hshown
    obtain ⟨events, hsorted, hevents⟩ := hshown.events
    have htimes : events.map SpanEvent.t = (byTime s.events).map SpanEvent.t := by
      rw [times_of_shown hevents, hnodes, List.map_map]
      rfl
    have hordered : (events.map SpanEvent.t).Pairwise timeLe := List.pairwise_map.2 hsorted.ordered
    rw [htimes, List.pairwise_map] at hordered
    exact byTime_ordered_iff.1 hordered
  · intro htimes
    refine ⟨rfl, rfl, rfl, rfl, rfl, rfl, rfl, byTime s.events, byTime_stablySorted htimes, ?_⟩
    rw [hnodes, List.forall₂_map_right_iff, List.forall₂_same]
    exact fun e he => eventShown_stringRow (h.events e (Lib.mem_sorted.1 he))

omit [Text] in
lemma oneRowEach {spans : List (Span PyFloat)} (hdistinct : (spans.map Span.spanId).Nodup) :
    OneRowEach spans (timeline (inCallOrder spans)).zipIdx := by
  have hperm : (inCallOrder spans).Perm spans := inCallOrder_perm
  have hnodup := ((hperm.map Span.spanId).nodup_iff).2 hdistinct
  constructor
  · rw [List.zipIdx_map_snd, List.length_zipIdx, List.range_eq_range']
  · rw [List.zipIdx_map_fst, filter_spans, List.map_map]
    exact hperm.map Span.spanId
  · intro s hs
    rw [List.zipIdx_map_fst, filter_own_events hnodup (hperm.mem_iff.2 hs), List.length_map]
    exact (Lib.sorted_perm _ s.events).length_eq
  · rw [List.length_zipIdx, length_timeline]
    exact (hperm.map _).sum_eq

/-- The timeline reads back in call order exactly when the spans have order keys and the times
compare. -/
theorem timeline_reads_back_iff (trace : Trace PyFloat CallHeader)
    (hdistinct : (trace.spans.map Span.spanId).Nodup)
    (hcontent : ∀ s ∈ trace.spans, StringContent s) :
    (∃ rows, eventRows trace.spans = .ok rows ∧ OneRowEach trace.spans rows ∧
      ReadsBack trace.spans rows) ↔ Orderable trace.spans := by
  constructor
  · rintro ⟨rows, hrows, -, hreads⟩
    obtain ⟨hkeys, rfl⟩ := (eventRows_eq_ok_iff hcontent).1 hrows
    obtain ⟨ordered, hsorted, hshown⟩ := hreads _ (List.Perm.refl _)
    rw [callSpans_eq hdistinct (List.Perm.refl _)] at hshown
    refine ⟨hkeys, ?_, fun s hs => ?_⟩
    · refine (hsorted.perm.pairwise_iff BothNumbers.symm).1 (hsorted.ordered.imp ?_)
      exact bothNumbers_of_callKeyLe
    · rw [List.forall₂_map_right_iff] at hshown
      obtain ⟨s', hs', hnode⟩ := Lib.exists_mem_of_forall₂ hshown s (hsorted.perm.mem_iff.2 hs)
      obtain rfl : s' = s := List.inj_on_of_nodup_map hdistinct (inCallOrder_perm.mem_iff.1 hs') hs
        hnode.spanId
      exact (spanShown_iff (hcontent s' hs)).1 hnode
  · intro h
    refine ⟨_, (eventRows_eq_ok_iff hcontent).2 ⟨h.reads, rfl⟩, oneRowEach hdistinct,
      fun stored hstored => ⟨_, inCallOrder_stablySorted h.reads h.starts, ?_⟩⟩
    rw [callSpans_eq hdistinct hstored, List.forall₂_map_right_iff, List.forall₂_same]
    intro s hs
    have hs := inCallOrder_perm.mem_iff.1 hs
    exact (spanShown_iff (hcontent s hs)).2 (h.times s hs)

end

/-- Two spans of which the later one is listed first, and events out of order. -/
def twoSpans : Trace PyFloat CallHeader where
  header := { callId := "c", source := "s", environment := "e" }
  spans := [
    { spanId := "b", name := "llm", stage := .llm, tStart := some (.fin 3) },
    { spanId := "a", name := "stt", stage := .stt, tStart := some (.fin 1),
      events := [{ name := "late", t := some (.fin 2) }, { name := "early", t := some (.fin 1) },
        { name := "untimed", content := [("text", .str "hi")] }] }]

theorem timeline_reads_back_two : ∃ rows, eventRows twoSpans.spans = .ok rows ∧
    OneRowEach twoSpans.spans rows ∧ ReadsBack twoSpans.spans rows := by
  have hreads : ∀ s ∈ twoSpans.spans, OrderKeyReads s := by
    simp [twoSpans, OrderKeyReads]
  have hcontent : ∀ s ∈ twoSpans.spans, StringContent s := by
    intro s hs
    constructor <;> simp_all [twoSpans] <;> rcases hs with rfl | rfl <;> simp
  have hstarts : StartsCompare twoSpans.spans := by
    simp [StartsCompare, BothNumbers, twoSpans]
  have htimes : ∀ s ∈ twoSpans.spans, TimesCompare s.events := by
    intro s hs
    constructor <;> simp_all [twoSpans] <;> rcases hs with rfl | rfl <;>
      simp [BothNumbers, PyFloat.lt]
  exact (timeline_reads_back_iff twoSpans (by decide) hcontent).2 ⟨hreads, hstarts, htimes⟩

/-- A span without a clock whose place in the source is too large for a float. -/
def hugeSequence : Trace PyFloat CallHeader where
  header := { callId := "c", source := "s", environment := "e" }
  spans := [{ spanId := "a", name := "stt", stage := .stt, sequence := some (10 ^ 400) }]

/-- The key of its order overflows, and no row is made. -/
theorem huge_sequence_raises : ¬∃ rows, eventRows hugeSequence.spans = .ok rows ∧
    OneRowEach hugeSequence.spans rows ∧ ReadsBack hugeSequence.spans rows := by
  rintro ⟨rows, hrows, -⟩
  have hcontent : ∀ s ∈ hugeSequence.spans, StringContent s :=
    List.forall_mem_singleton.2 ⟨nofun, nofun⟩
  have hreads := ((eventRows_eq_ok_iff hcontent).1 hrows).1 _ List.mem_cons_self rfl (10 ^ 400) rfl
  exact absurd hreads (by decide +kernel)

end Pulse.Api
