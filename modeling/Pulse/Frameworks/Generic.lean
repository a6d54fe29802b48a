import Pulse.Core.Calculator
import Pulse.Lib.Chains

/-!
# The turn of a span

`_propagate_turn_ids` of `frameworks/generic.py`: a span without a turn id takes that of the nearest
turn it is nested under. The parents may be missing or form a cycle.
-/

namespace Pulse.Frameworks

open Pulse.Core

variable {F : Type}

/-- `by_id.get(id)`: of the spans with an id, the last one. -/
def byId (spans : List (Span F)) (id : String) : Option (Span F) :=
  spans.reverse.find? (·.spanId = id)

/-- The parent of a span. An empty parent id is none. -/
def parentOf (spans : List (Span F)) (s : Span F) : Option (Span F) :=
  s.parentSpanId.bind fun id => if id = "" then none else byId spans id

lemma mem_of_byId {spans : List (Span F)} {id : String} {s : Span F} (h : byId spans id = some s) :
    s ∈ spans ∧ s.spanId = id :=
  ⟨List.mem_reverse.1 (List.mem_of_find?_eq_some h), by simpa using List.find?_some h⟩

lemma parentOf_eq_some {spans : List (Span F)} {s p : Span F} (h : parentOf spans s = some p) :
    p ∈ spans ∧ s.parentSpanId = some p.spanId ∧ p.spanId ≠ "" := by
  obtain ⟨id, hid, h⟩ := Option.bind_eq_some_iff.1 h
  split at h
  · cases h
  · next hne =>
    obtain ⟨hp, rfl⟩ := mem_of_byId h
    exact ⟨hp, hid, hne⟩

/-- The first span from `s` up that `stop` accepts, unless a span id comes again before. -/
def firstAbove (spans : List (Span F)) (stop : Span F → Bool) (s : Span F) (hs : s ∈ spans) :
    Option (Span F) :=
  Lib.climb spans Span.spanId (parentOf spans) (fun _ _ h => (parentOf_eq_some h).1) stop [] s hs

def isTurn (s : Span F) : Bool :=
  s.stage = .turn

/-- `turn_of` -/
def turnOf (spans : List (Span F)) (s : Span F) (hs : s ∈ spans) : Option String :=
  (firstAbove spans isTurn s hs).map Span.exchange

/-- `_propagate_turn_ids` -/
def propagateTurnIds (spans : List (Span F)) : List (Span F) :=
  spans.attach.map fun s => { s.1 with turnId := s.1.turnId.or (turnOf spans s.1 s.2) }

/-! ### The nearest turn -/

/-- `p` is the parent of `s`. -/
def Parent (spans : List (Span F)) (s p : Span F) : Prop :=
  p ∈ spans ∧ s.parentSpanId = some p.spanId ∧ p.spanId ≠ ""

/-- `u` is the first span on the parent chain of `s`, itself included, that is of the kind. -/
def Nearest (spans : List (Span F)) (kind : Span F → Bool) (s u : Span F) : Prop :=
  Relation.ReflTransGen (fun a b => kind a = false ∧ Parent spans a b) s u ∧ kind u = true

variable {spans : List (Span F)} {kind : Span F → Bool} {s p u : Span F}

/-- The span ids are distinct. -/
abbrev DistinctIds (spans : List (Span F)) : Prop := (spans.map Span.spanId).Nodup

lemma DistinctIds.eq (h : DistinctIds spans) (hs : s ∈ spans) (hp : p ∈ spans)
    (hid : s.spanId = p.spanId) : s = p :=
  List.inj_on_of_nodup_map h hs hp hid

lemma DistinctIds.parentOf_iff (h : DistinctIds spans) :
    parentOf spans s = some p ↔ Parent spans s p := by
  refine ⟨parentOf_eq_some, fun ⟨hp, hid, hne⟩ => ?_⟩
  have hfind : byId spans p.spanId = some p := by
    cases hfound : byId spans p.spanId with
    | none =>
      have hnone := List.find?_eq_none.1 hfound p (List.mem_reverse.2 hp)
      simp at hnone
    | some q =>
      obtain ⟨hq, hqid⟩ := mem_of_byId hfound
      rw [h.eq hq hp hqid]
  rw [parentOf, hid, Option.bind_some, if_neg hne, hfind]

lemma DistinctIds.firstAbove_iff (h : DistinctIds spans) {hs : s ∈ spans} :
    firstAbove spans kind s hs = some u ↔ Nearest spans kind s u := by
  have hlink : Lib.Link (parentOf spans) kind = fun a b => kind a = false ∧ Parent spans a b := by
    funext a b
    exact propext (and_congr_right fun _ => h.parentOf_iff)
  rw [firstAbove, Lib.climb_eq_some_iff fun c hc d hd => h.eq hc hd, Lib.LeadsTo, hlink, Nearest]

lemma DistinctIds.nearest_unique (h : DistinctIds spans) (hs : s ∈ spans) (hu : Nearest spans kind s u)
    (hp : Nearest spans kind s p) : u = p := by
  have hu : firstAbove spans kind s hs = some u := h.firstAbove_iff.2 hu
  rw [h.firstAbove_iff.2 hp] at hu
  exact (Option.some.inj hu).symm

lemma Nearest.mem (hs : s ∈ spans) (h : Nearest spans kind s u) : u ∈ spans := by
  rcases Relation.ReflTransGen.cases_tail h.1 with rfl | ⟨b, -, hlink⟩
  · exact hs
  · exact hlink.2.1

/-! ### The spans after it -/

/-- What `_propagate_turn_ids` makes of a span: a turn id that is set stays, another one is that of the
nearest turn, and none without a turn. -/
structure Propagated (spans : List (Span F)) (s s' : Span F) : Prop where
  keeps : s' = { s with turnId := s'.turnId }
  set : ∀ t, s.turnId = some t → s'.turnId = some t
  nearest : s.turnId = none → ∀ u, Nearest spans isTurn s u → s'.turnId = some u.exchange
  none : s.turnId = none → (∀ u, ¬Nearest spans isTurn s u) → s'.turnId = none

lemma DistinctIds.propagated (h : DistinctIds spans) (hs : s ∈ spans) :
    Propagated spans s { s with turnId := s.turnId.or (turnOf spans s hs) } := by
  constructor
  · rfl
  · intro t ht
    simp [ht]
  · intro hnone u hu
    simp [hnone, turnOf, h.firstAbove_iff.2 hu]
  · intro hnone hall
    have hfirst : firstAbove spans isTurn s hs = none :=
      Option.eq_none_iff_forall_ne_some.2 fun u hu => hall u (h.firstAbove_iff.1 hu)
    simp [hnone, turnOf, hfirst]

lemma forall₂_propagateTurnIds (h : DistinctIds spans) :
    List.Forall₂ (Propagated spans) spans (propagateTurnIds spans) := by
  rw [← Lib.forall₂_attach, propagateTurnIds, List.forall₂_map_right_iff, List.forall₂_same]
  exact fun s _ => h.propagated s.2

lemma spanIds_propagateTurnIds (spans : List (Span F)) :
    (propagateTurnIds spans).map Span.spanId = spans.map Span.spanId := by
  rw [propagateTurnIds, List.map_map]
  change spans.attach.map (Span.spanId ∘ Subtype.val) = _
  rw [← List.map_map, List.attach_map_subtype_val]

lemma exists_of_mem_propagateTurnIds (h : DistinctIds spans) {s' : Span F}
    (hs' : s' ∈ propagateTurnIds spans) : ∃ s ∈ spans, Propagated spans s s' := by
  obtain ⟨s, -, rfl⟩ := List.mem_map.1 hs'
  exact ⟨s.1, s.2, h.propagated s.2⟩

/-- A turn id that is set stays, whatever the span ids. -/
lemma keeps_propagateTurnIds (spans : List (Span F)) :
    List.Forall₂ (fun s s' => ∀ t, s.turnId = some t → s'.turnId = some t) spans
      (propagateTurnIds spans) := by
  rw [← Lib.forall₂_attach, propagateTurnIds, List.forall₂_map_right_iff, List.forall₂_same]
  intro s _ t ht
  simp [ht]

/-- A turn above a span after the propagation was above it before. -/
lemma exists_nearest (h : DistinctIds spans) {s' u' : Span F} (hs : Propagated spans s s')
    (hnearest : Nearest (propagateTurnIds spans) isTurn s' u') :
    ∃ u, Nearest spans isTurn s u := by
  obtain ⟨hlinks, hu'⟩ := hnearest
  have hstage {s s' : Span F} (hs : Propagated spans s s') : isTurn s' = isTurn s := by
    rw [hs.keeps]
    rfl
  induction hlinks using Relation.ReflTransGen.head_induction_on generalizing s with
  | refl =>
    rw [hstage hs] at hu'
    exact ⟨s, .refl, hu'⟩
  | @head a b hlink _ ih =>
    obtain ⟨hnot, hb, hparent, hne⟩ := hlink
    obtain ⟨p, hp, hpb⟩ := exists_of_mem_propagateTurnIds h hb
    obtain ⟨u, hlinks, hu⟩ := ih hpb
    rw [hstage hs] at hnot
    have hid : b.spanId = p.spanId := by rw [hpb.keeps]
    have hlink : Parent spans s p := by
      rw [hs.keeps, hid] at hparent
      exact ⟨hp, hparent, hid ▸ hne⟩
    exact ⟨u, .head ⟨hnot, hlink⟩ hlinks, hu⟩

/-- `_propagate_turn_ids` gives each span without a turn id that of the nearest turn on its parent
chain, if there is one, and changes nothing else. A second time it changes nothing. -/
theorem propagateTurnIds_nearest (h : DistinctIds spans) :
    List.Forall₂ (Propagated spans) spans (propagateTurnIds spans) ∧
      propagateTurnIds (propagateTurnIds spans) = propagateTurnIds spans := by
  refine ⟨forall₂_propagateTurnIds h, ?_⟩
  have hids : DistinctIds (propagateTurnIds spans) := by
    rw [DistinctIds, spanIds_propagateTurnIds]
    exact h
  have hsame : ∀ s' : {s' // s' ∈ propagateTurnIds spans},
      ({ s'.1 with turnId := s'.1.turnId.or (turnOf (propagateTurnIds spans) s'.1 s'.2) } : Span F) =
        s'.1 := by
    rintro ⟨s', hs'⟩
    obtain ⟨s, hs, hpropagated⟩ := exists_of_mem_propagateTurnIds h hs'
    have hturn : s'.turnId.or (turnOf (propagateTurnIds spans) s' hs') = s'.turnId := by
      cases hset : s'.turnId with
      | some t => rfl
      | none =>
        rw [Option.none_or]
        have hnone : s.turnId = none := by
          by_contra hne
          obtain ⟨t, ht⟩ := Option.ne_none_iff_exists'.1 hne
          simp [hpropagated.set t ht] at hset
        refine Option.eq_none_iff_forall_ne_some.2 fun t ht => ?_
        obtain ⟨u', hu', -⟩ := Option.map_eq_some_iff.1 ht
        obtain ⟨u, hu⟩ := exists_nearest h hpropagated (hids.firstAbove_iff.1 hu')
        simp [hpropagated.nearest hnone u hu] at hset
    simp only [hturn]
  conv_lhs => rw [propagateTurnIds, List.map_congr_left fun s' _ => hsame s']
  exact List.attach_map_subtype_val _

/-- A tool call in a turn, and a span that is its own parent. -/
def nestedSpans : List (Span Nat) := [
  { spanId := "t", name := "turn", stage := .turn },
  { spanId := "a", parentSpanId := some "t", name := "tool", stage := .tool },
  { spanId := "b", parentSpanId := some "b", name := "net", stage := .net }]

theorem propagateTurnIds_nearest_nested :
    List.Forall₂ (Propagated nestedSpans) nestedSpans (propagateTurnIds nestedSpans) ∧
      propagateTurnIds (propagateTurnIds nestedSpans) = propagateTurnIds nestedSpans :=
  propagateTurnIds_nearest (by decide)

end Pulse.Frameworks
