import Pulse.Frameworks.Generic
import Pulse.Core.Conversions

/-!
# The agent's turns of LiveKit

LiveKit reports an exchange as two spans, `user_turn` and `agent_turn`. `_pair_agent_turns` of
`frameworks/livekit/adapter.py` gives what is nested under an agent's turn the turn id of the user's
turn before it. An agent that speaks first is given to the user's turn that starts last.
-/

namespace Pulse.Frameworks

open Pulse.Core
open Lib (PyFloat Succeeds)

def isUserTurn (s : Span PyFloat) : Bool :=
  s.name = "user_turn"

def isAgentTurn (s : Span PyFloat) : Bool :=
  s.name = "agent_turn"

/-- `a <= b` of two starts. A start that is missing compares with none. -/
def startLe : Option PyFloat → Option PyFloat → Except PyError Bool
  | some a, some b => .ok (a.le b)
  | _, _ => .error .typeError

def startLt (a b : Span PyFloat) : Bool :=
  (a.tStart.getD .nan).lt (b.tStart.getD .nan)

/-- `sorted(…, key=lambda s: s.t_start)`; a single span is compared with none. -/
def sortedByStart (spans : List (Span PyFloat)) : Except PyError (List (Span PyFloat)) :=
  if spans.length ≤ 1 ∨ spans.all (·.tStart.isSome) then .ok (Lib.sorted startLt spans)
  else .error .typeError

/-- `preceding_turn_id` -/
def precedingTurnId (userTurns : List (Span PyFloat)) (tStart : Option PyFloat) :
    Except PyError (Option String) := do
  let compared ← userTurns.mapM fun u => do return (u, ← startLe u.tStart tStart)
  let prior := (compared.filter Prod.snd).map Prod.fst
  return (if prior.isEmpty then userTurns else prior).getLast?.map Span.exchange

/-- `agent_turn_of`: the first span from `s` up whose id is that of an agent's turn. -/
def agentTurnOf (spans : List (Span PyFloat)) (s : Span PyFloat) (hs : s ∈ spans) :
    Option (Span PyFloat) :=
  let agentRoots := (spans.filter isAgentTurn).map Span.spanId
  firstAbove spans (fun cur => agentRoots.contains cur.spanId) s hs

/-- One turn of the loop over the spans. -/
def pairOne (spans userTurns : List (Span PyFloat)) (s : {s // s ∈ spans}) :
    Except PyError (Span PyFloat) :=
  match agentTurnOf spans s.1 s.2 with
  | none => .ok s.1
  | some root => do
    let tid ← precedingTurnId userTurns root.tStart
    return { s.1 with turnId := tid.or s.1.turnId }

/-- `_pair_agent_turns` -/
def pairAgentTurns (spans : List (Span PyFloat)) : Except PyError (List (Span PyFloat)) := do
  let userTurns ← sortedByStart (spans.filter isUserTurn)
  if userTurns.isEmpty then return spans
  let out ← spans.attach.mapM (pairOne spans userTurns)
  return propagateTurnIds out

/-! ### What is nested under an agent's turn -/

section

variable {spans : List (Span PyFloat)} {s a u v : Span PyFloat}

lemma nearest_congr {kind kind' : Span PyFloat → Bool} (h : ∀ c ∈ spans, kind c = kind' c)
    (hs : s ∈ spans) : Nearest spans kind s u ↔ Nearest spans kind' s u := by
  have hof {kind kind' : Span PyFloat → Bool} (h : ∀ c ∈ spans, kind c = kind' c)
      (hu : Nearest spans kind s u) : Nearest spans kind' s u := by
    obtain ⟨hlinks, hu⟩ := hu
    induction hlinks using Relation.ReflTransGen.head_induction_on with
    | refl => exact ⟨.refl, h _ hs ▸ hu⟩
    | head hlink _ ih =>
      obtain ⟨hlinks, hu'⟩ := ih hlink.2.1
      exact ⟨.head ⟨h _ hs ▸ hlink.1, hlink.2⟩ hlinks, hu'⟩
  exact ⟨hof h, hof fun c hc => (h c hc).symm⟩

lemma agentTurnOf_iff (h : DistinctIds spans) {hs : s ∈ spans} :
    agentTurnOf spans s hs = some a ↔ Nearest spans isAgentTurn s a := by
  have hroots : ∀ c ∈ spans,
      ((spans.filter isAgentTurn).map Span.spanId).contains c.spanId = isAgentTurn c := by
    intro c hc
    rw [Bool.eq_iff_iff, List.contains_iff_mem, List.mem_map]
    constructor
    · rintro ⟨b, hb, hid⟩
      obtain ⟨hb, hagent⟩ := List.mem_filter.1 hb
      exact h.eq hb hc hid ▸ hagent
    · intro hagent
      exact ⟨c, List.mem_filter.2 ⟨hc, hagent⟩, rfl⟩
  rw [agentTurnOf, h.firstAbove_iff, nearest_congr hroots hs]

/-! ### The user's turn before -/

/-- `u` starts when `a` does or before it. -/
def NotAfter (u a : Span PyFloat) : Prop :=
  ∃ x ∈ u.tStart, ∃ y ∈ a.tStart, x ≤ y

/-- `u` starts before `a`. -/
def Before (u a : Span PyFloat) : Prop :=
  ∃ x ∈ u.tStart, ∃ y ∈ a.tStart, x < y

/-- The turn id that is due below the agent's turn `a`: that of a last user's turn among those that
start when `a` does or before, and if there is none, not that of a user's turn before which another
one starts. -/
structure Folded (spans : List (Span PyFloat)) (a : Span PyFloat) (tid : Option String) : Prop where
  preceding : (∃ u ∈ spans, isUserTurn u ∧ NotAfter u a) →
    ∃ u ∈ spans, isUserTurn u ∧ NotAfter u a ∧ tid = some u.exchange ∧
      ∀ v ∈ spans, isUserTurn v → NotAfter v a → NotAfter v u
  greeting : (∀ u ∈ spans, isUserTurn u → ¬NotAfter u a) → ∀ u ∈ spans, isUserTurn u →
    tid = some u.exchange → ∀ v ∈ spans, isUserTurn v → Before a v → ¬Before v u

/-- What the pairing makes of a span: below an agent's turn it has the turn id that is due, and
elsewhere a turn id that is set stays. -/
structure Paired (spans : List (Span PyFloat)) (s s' : Span PyFloat) : Prop where
  inside : ∀ a, Nearest spans isAgentTurn s a → Folded spans a s'.turnId
  outside : (∀ a, ¬Nearest spans isAgentTurn s a) → ∀ t, s.turnId = some t → s'.turnId = some t

/-- The pairing returns and is right about each span. -/
def PairsAgentTurns (spans : List (Span PyFloat)) : Prop :=
  ∃ out, pairAgentTurns spans = .ok out ∧ List.Forall₂ (Paired spans) spans out

/-- The starts that are compared are there, and an agent who speaks before the user finds user's turns
that all start at once. -/
structure Foldable (spans : List (Span PyFloat)) : Prop where
  timed : (2 ≤ spans.countP isUserTurn ∨ ∃ a ∈ spans, isAgentTurn a) →
    ∀ s ∈ spans, isUserTurn s ∨ isAgentTurn s → s.tStart.isSome
  answers : ∀ a ∈ spans, isAgentTurn a → (∃ u ∈ spans, isUserTurn u ∧ NotAfter u a) ∨
    ∀ u ∈ spans, ∀ v ∈ spans, isUserTurn u → isUserTurn v → u.tStart = v.tStart

/-! ### The user's turns in order -/

/-- The span has a start that is a number. -/
def Timed (s : Span PyFloat) : Prop :=
  ∃ x, s.tStart = some x ∧ x ≠ .nan

lemma le_of_lt_eq_false {x y : PyFloat} (hx : x ≠ .nan) (hy : y ≠ .nan) (h : y.lt x = false) : x ≤ y := by
  rcases PyFloat.decides_lt (a := x) (b := y) (by simp [hx, hy]) with rfl | hlt | hlt
  · change x.le x = true
    simp [PyFloat.le, hx]
  · change x.le y = true
    simp [PyFloat.le, hlt]
  · simp [hlt] at h

lemma lt_or_eq_of_le {x y : PyFloat} (h : x ≤ y) : x < y ∨ x = y := by
  have h : x.le y = true := h
  simp only [PyFloat.le, Bool.or_eq_true, Bool.and_eq_true, decide_eq_true_eq] at h
  exact h.imp_right And.left

lemma Timed.notAfter (hu : Timed u) (hv : Timed v) (h : startLt v u = false) : NotAfter u v := by
  obtain ⟨x, hx, hnumber⟩ := hu
  obtain ⟨y, hy, hnumber'⟩ := hv
  refine ⟨x, hx, y, hy, le_of_lt_eq_false hnumber hnumber' ?_⟩
  simpa [startLt, hx, hy] using h

lemma Timed.before (hu : Timed u) (hv : Timed v) (h : ¬NotAfter v u) : Before u v := by
  have hlt : startLt u v = true := by
    by_contra hnot
    exact h (hv.notAfter hu (by simpa using hnot))
  obtain ⟨x, hx, -⟩ := hu
  obtain ⟨y, hy, -⟩ := hv
  refine ⟨x, hx, y, hy, ?_⟩
  change x.lt y = true
  simpa [startLt, hx, hy] using hlt

lemma pairwise_sorted_startLt {us : List (Span PyFloat)} (h : ∀ u ∈ us, Timed u) :
    (Lib.sorted startLt us).Pairwise fun u v => NotAfter u v := by
  let start (u : Span PyFloat) : PyFloat := u.tStart.getD .nan
  have hmap : (Lib.sorted startLt us).map start = Lib.sorted PyFloat.lt (us.map start) :=
    Lib.map_sorted (fun _ _ => rfl) us
  have hnumbers : ∀ x ∈ us.map start, x ≠ .nan := by
    intro x hx
    obtain ⟨u, hu, rfl⟩ := List.mem_map.1 hx
    obtain ⟨y, hy, hnumber⟩ := h u hu
    simpa [start, hy] using hnumber
  have hpairwise := Lib.sorted_pairwise_of_decides PyFloat.strictOrder_lt
    fun x hx y hy => (PyFloat.comparable_of_ne_nan hnumbers).decides hx hy
  rw [← hmap, List.pairwise_map] at hpairwise
  refine hpairwise.imp_of_mem fun {u v} hu hv hlt => ?_
  exact (h u (Lib.mem_sorted.1 hu)).notAfter (h v (Lib.mem_sorted.1 hv)) hlt

/-- The last one of spans in order starts last. -/
lemma exists_getLast {us : List (Span PyFloat)} (hne : us ≠ []) (h : ∀ u ∈ us, Timed u)
    (hsorted : us.Pairwise NotAfter) :
    ∃ u ∈ us, us.getLast? = some u ∧ ∀ v ∈ us, NotAfter v u := by
  obtain ⟨earlier, u, rfl⟩ := (List.eq_nil_or_concat' us).resolve_left hne
  refine ⟨u, by simp, by simp, fun v hv => ?_⟩
  rcases List.mem_append.1 hv with hv | hv
  · exact (List.pairwise_append.1 hsorted).2.2 v hv u (List.mem_singleton_self u)
  · have hself : startLt u u = false := PyFloat.strictOrder_lt.irrefl _
    rw [List.mem_singleton.1 hv]
    exact (h u (by simp)).notAfter (h u (by simp)) hself

/-- The turn id given is that of a last one of the user's turns that do not start after, and if there
is none, of a last one of all. -/
lemma precedingTurnId_spec {us : List (Span PyFloat)} (hne : us ≠ []) (h : ∀ u ∈ us, Timed u)
    (hsorted : us.Pairwise NotAfter) (ha : Timed a) :
    ∃ u ∈ us, precedingTurnId us a.tStart = .ok (some u.exchange) ∧
      ((∃ v ∈ us, NotAfter v a) → NotAfter u a ∧ ∀ v ∈ us, NotAfter v a → NotAfter v u) ∧
      ((∀ v ∈ us, ¬NotAfter v a) → ∀ v ∈ us, NotAfter v u) := by
  obtain ⟨y, hy, -⟩ := ha
  let prior (u : Span PyFloat) : Bool := (u.tStart.getD .nan).le y
  have hprior : ∀ u ∈ us, prior u = true ↔ NotAfter u a := by
    intro u hu
    obtain ⟨x, hx, -⟩ := h u hu
    simp only [prior, NotAfter, hx, hy, Option.getD_some, Option.mem_some_iff, exists_eq_left']
    rfl
  have hcompared : us.mapM (fun u => do return (u, ← startLe u.tStart a.tStart)) =
      .ok (us.map fun u => (u, prior u)) := by
    rw [Lib.mapM_eq_ok_iff, List.forall₂_map_right_iff, List.forall₂_same]
    intro u hu
    obtain ⟨x, hx, -⟩ := h u hu
    simp only [prior, hx, hy, Option.getD_some]
    rfl
  have hid : precedingTurnId us a.tStart =
      .ok ((if (us.filter prior).isEmpty then us else us.filter prior).getLast?.map Span.exchange) := by
    have hfilter : ((us.map fun u => (u, prior u)).filter Prod.snd).map Prod.fst = us.filter prior := by
      rw [List.filter_map, List.map_map]
      exact List.map_id _
    rw [precedingTurnId, hcompared, Lib.ok_bind, hfilter]
    rfl
  have hmem {u : Span PyFloat} : u ∈ us.filter prior ↔ u ∈ us ∧ NotAfter u a := by
    rw [List.mem_filter]
    exact and_congr_right fun hu => hprior u hu
  by_cases hnone : us.filter prior = []
  · obtain ⟨u, hu, hlast, hall⟩ := exists_getLast hne h hsorted
    refine ⟨u, hu, by rw [hid, hnone]; simp [hlast], fun ⟨v, hv, hva⟩ => ?_, fun _ => hall⟩
    exact absurd (hmem.2 ⟨hv, hva⟩) (by simp [hnone])
  · obtain ⟨u, hu, hlast, hall⟩ := exists_getLast hnone (fun u hu => h u (hmem.1 hu).1)
      (hsorted.filter prior)
    refine ⟨u, (hmem.1 hu).1, by rw [hid]; simp [hnone, hlast], fun _ => ⟨(hmem.1 hu).2, ?_⟩, ?_⟩
    · exact fun v hv hva => hall v (hmem.2 ⟨hv, hva⟩)
    · exact fun hall' => absurd (hmem.1 hu).2 (hall' u (hmem.1 hu).1)

/-! ### The pairing -/

lemma pairAgentTurns_eq_ok (huser : ∃ u ∈ spans, isUserTurn u) {out : List (Span PyFloat)} :
    pairAgentTurns spans = .ok out ↔
      ((spans.filter isUserTurn).length ≤ 1 ∨ (spans.filter isUserTurn).all (·.tStart.isSome)) ∧
      ∃ paired, List.Forall₂ (fun s m => pairOne spans (Lib.sorted startLt (spans.filter isUserTurn)) s =
        .ok m) spans.attach paired ∧ out = propagateTurnIds paired := by
  have hne : (Lib.sorted startLt (spans.filter isUserTurn)).isEmpty = false := by
    obtain ⟨u, hu, huser⟩ := huser
    have hmem : u ∈ Lib.sorted startLt (spans.filter isUserTurn) :=
      Lib.mem_sorted.2 (List.mem_filter.2 ⟨hu, huser⟩)
    simpa using List.ne_nil_of_mem hmem
  unfold pairAgentTurns sortedByStart
  simp only [← Lib.mapM_eq_ok_iff]
  split
  · next hcond =>
    rw [Lib.ok_bind, if_neg (by simp [hne]), and_iff_right hcond, Lib.bind_eq_ok]
    exact exists_congr fun _ => and_congr_right fun _ => ⟨fun h => (Except.ok.inj h).symm, fun h => h ▸ rfl⟩
  · next hcond =>
    exact iff_of_false (fun h => by cases h) fun h => hcond h.1

lemma startLe_ok {x y : Option PyFloat} {b : Bool} (h : startLe x y = .ok b) :
    x.isSome ∧ y.isSome := by
  cases x <;> cases y <;> first | exact ⟨rfl, rfl⟩ | cases h

lemma nearest_self (h : isAgentTurn a = true) : Nearest spans isAgentTurn a a := ⟨.refl, h⟩

/-- What pairing one agent's turn compares. -/
lemma timed_of_pairOne (hids : DistinctIds spans) {us : List (Span PyFloat)} (hne : us ≠ [])
    (ha : a ∈ spans) (hagent : isAgentTurn a = true) {m : Span PyFloat}
    (h : pairOne spans us ⟨a, ha⟩ = .ok m) :
    a.tStart.isSome ∧ (∀ u ∈ us, u.tStart.isSome) ∧
      ∃ tid, precedingTurnId us a.tStart = .ok tid ∧ m = { a with turnId := tid.or a.turnId } := by
  rw [pairOne, (agentTurnOf_iff hids).2 (nearest_self hagent)] at h
  obtain ⟨tid, htid, h⟩ := Lib.bind_eq_ok.1 h
  obtain ⟨compared, hcompared, -⟩ := Lib.bind_eq_ok.1 htid
  have hsome : ∀ u ∈ us, u.tStart.isSome ∧ a.tStart.isSome := by
    intro u hu
    obtain ⟨r, hr⟩ := Lib.succeeds_mapM.1 ⟨compared, hcompared⟩ u hu
    obtain ⟨b, hb, -⟩ := Lib.bind_eq_ok.1 hr
    exact startLe_ok hb
  obtain ⟨u, hu⟩ := List.exists_mem_of_ne_nil us hne
  exact ⟨(hsome u hu).2, fun u hu => (hsome u hu).1, tid, htid, (Except.ok.inj h).symm⟩

lemma foldable_of_pairs (hids : DistinctIds spans) (huser : ∃ u ∈ spans, isUserTurn u)
    (hnumbers : ∀ s ∈ spans, isUserTurn s ∨ isAgentTurn s → s.tStart ≠ some .nan)
    (h : PairsAgentTurns spans) : Foldable spans := by
  obtain ⟨out, hout, hright⟩ := h
  obtain ⟨hcond, paired, hpaired, rfl⟩ := (pairAgentTurns_eq_ok huser).1 hout
  generalize hus : Lib.sorted startLt (spans.filter isUserTurn) = us at hpaired
  have hmem {u : Span PyFloat} : u ∈ us ↔ u ∈ spans ∧ isUserTurn u := by
    rw [← hus, Lib.mem_sorted, List.mem_filter]
  have hne : us ≠ [] := by
    obtain ⟨u, hu⟩ := huser
    exact List.ne_nil_of_mem (hmem.2 hu)
  have hagent : ∀ a ∈ spans, isAgentTurn a → a.tStart.isSome ∧ (∀ u ∈ us, u.tStart.isSome) ∧
      ∃ tid s', precedingTurnId us a.tStart = .ok tid ∧ Paired spans a s' ∧
        ∀ t, tid = some t → s'.turnId = some t := by
    intro a ha hagent
    have hboth := List.Forall₂.mp (fun _ _ h h' => And.intro h h')
      (Lib.forall₂_comp hpaired (keeps_propagateTurnIds paired)) (Lib.forall₂_attach.2 hright)
    obtain ⟨s', -, ⟨m, hm, hkeeps⟩, hs'⟩ := Lib.exists_of_forall₂ hboth (List.mem_attach spans ⟨a, ha⟩)
    obtain ⟨hstart, hstarts, tid, htid, rfl⟩ := timed_of_pairOne hids hne ha hagent hm
    exact ⟨hstart, hstarts, tid, s', htid, hs', fun t ht => hkeeps t (by simp [ht])⟩
  have htimed : (2 ≤ spans.countP isUserTurn ∨ ∃ a ∈ spans, isAgentTurn a) →
      ∀ s ∈ spans, isUserTurn s ∨ isAgentTurn s → s.tStart.isSome := by
    rintro hcase s hs (huser | hagent')
    · rcases hcase with htwo | ⟨a, ha, hagent'⟩
      · rw [List.countP_eq_length_filter] at htwo
        have hall := hcond.resolve_left (by omega)
        exact List.all_eq_true.1 hall s (List.mem_filter.2 ⟨hs, huser⟩)
      · exact (hagent a ha hagent').2.1 s (hmem.2 ⟨hs, huser⟩)
    · exact (hagent s hs hagent').1
  refine ⟨htimed, fun a ha hagent' => ?_⟩
  rw [or_iff_not_imp_left]
  intro hnone u hu v hv huser huser'
  obtain ⟨-, -, tid, s', htid, hs', hkeeps⟩ := hagent a ha hagent'
  have hnumber : ∀ s ∈ spans, isUserTurn s ∨ isAgentTurn s → Timed s := by
    intro s hs hkind
    obtain ⟨x, hx⟩ := Option.isSome_iff_exists.1 (htimed (.inr ⟨a, ha, hagent'⟩) s hs hkind)
    exact ⟨x, hx, fun hnan => hnumbers s hs hkind (hnan ▸ hx)⟩
  have hustimed : ∀ u ∈ us, Timed u := fun u hu => hnumber u (hmem.1 hu).1 (.inl (hmem.1 hu).2)
  have hatimed := hnumber a ha (.inr hagent')
  have hsorted : us.Pairwise NotAfter := by
    rw [← hus]
    exact pairwise_sorted_startLt fun u hu => hustimed u (hmem.2 (List.mem_filter.1 hu))
  obtain ⟨last, hlast, hid, -, hgreeting⟩ := precedingTurnId_spec hne hustimed hsorted hatimed
  have hafter : ∀ v ∈ us, ¬NotAfter v a := fun v hv hva =>
    hnone ⟨v, (hmem.1 hv).1, (hmem.1 hv).2, hva⟩
  have hfolded := (hs'.inside a (nearest_self hagent')).greeting
    (fun v hv hkind => hafter v (hmem.2 ⟨hv, hkind⟩)) last (hmem.1 hlast).1 (hmem.1 hlast).2
    (hkeeps _ (Except.ok.inj (htid.symm.trans hid)))
  have hsame : ∀ v ∈ us, v.tStart = last.tStart := by
    intro v hv
    have hbefore := hatimed.before (hustimed v hv) (hafter v hv)
    have hnot := hfolded v (hmem.1 hv).1 (hmem.1 hv).2 hbefore
    obtain ⟨x, hx, y, hy, hle⟩ := hgreeting hafter v hv
    rcases lt_or_eq_of_le hle with hlt | rfl
    · exact absurd ⟨x, hx, y, hy, hlt⟩ hnot
    · rw [hx, hy]
  rw [hsame u (hmem.2 ⟨hu, huser⟩), hsame v (hmem.2 ⟨hv, huser'⟩)]

lemma pairs_of_foldable (hids : DistinctIds spans) (huser : ∃ u ∈ spans, isUserTurn u)
    (hnumbers : ∀ s ∈ spans, isUserTurn s ∨ isAgentTurn s → s.tStart ≠ some .nan)
    (h : Foldable spans) : PairsAgentTurns spans := by
  generalize hus : Lib.sorted startLt (spans.filter isUserTurn) = us
  have hmem {u : Span PyFloat} : u ∈ us ↔ u ∈ spans ∧ isUserTurn u := by
    rw [← hus, Lib.mem_sorted, List.mem_filter]
  have hne : us ≠ [] := by
    obtain ⟨u, hu⟩ := huser
    exact List.ne_nil_of_mem (hmem.2 hu)
  have hcond : (spans.filter isUserTurn).length ≤ 1 ∨
      (spans.filter isUserTurn).all (·.tStart.isSome) := by
    refine (Nat.lt_or_ge 1 _).symm.imp_right fun htwo => List.all_eq_true.2 fun s hs => ?_
    obtain ⟨hs, hkind⟩ := List.mem_filter.1 hs
    exact h.timed (.inl (List.countP_eq_length_filter ▸ htwo)) s hs (.inl hkind)
  have hpair : ∀ s ∈ spans.attach, ∃ m, pairOne spans us s = .ok m ∧
      (∀ a, Nearest spans isAgentTurn s.1 a → ∃ t, m.turnId = some t ∧ Folded spans a (some t)) ∧
      ((∀ a, ¬Nearest spans isAgentTurn s.1 a) → m = s.1) := by
    rintro ⟨s, hs⟩ -
    cases hroot : agentTurnOf spans s hs with
    | none =>
      have hnot : ∀ a, ¬Nearest spans isAgentTurn s a := fun a ha => by
        rw [(agentTurnOf_iff hids).2 ha] at hroot
        cases hroot
      exact ⟨s, by rw [pairOne, hroot], fun a ha => absurd ha (hnot a), fun _ => rfl⟩
    | some a =>
      have hnearest := (agentTurnOf_iff hids).1 hroot
      have ha := hnearest.mem hs
      have hagent : isAgentTurn a = true := hnearest.2
      have hnumber : ∀ s ∈ spans, isUserTurn s ∨ isAgentTurn s → Timed s := by
        intro s hs hkind
        obtain ⟨x, hx⟩ := Option.isSome_iff_exists.1 (h.timed (.inr ⟨a, ha, hagent⟩) s hs hkind)
        exact ⟨x, hx, fun hnan => hnumbers s hs hkind (hnan ▸ hx)⟩
      have hustimed : ∀ u ∈ us, Timed u := fun u hu => hnumber u (hmem.1 hu).1 (.inl (hmem.1 hu).2)
      have hsorted : us.Pairwise NotAfter := by
        rw [← hus]
        exact pairwise_sorted_startLt fun u hu => hustimed u (hmem.2 (List.mem_filter.1 hu))
      obtain ⟨u, hu, hid, hpreceding, -⟩ :=
        precedingTurnId_spec hne hustimed hsorted (hnumber a ha (.inr hagent))
      refine ⟨{ s with turnId := some u.exchange }, by rw [pairOne, hroot]; simp [hid],
        fun a' ha' => ⟨u.exchange, rfl, ?_⟩, fun hnot => absurd hnearest (hnot a)⟩
      obtain rfl := hids.nearest_unique hs hnearest ha'
      constructor
      · rintro ⟨v, hv, hkind, hva⟩
        obtain ⟨hua, hall⟩ := hpreceding ⟨v, hmem.2 ⟨hv, hkind⟩, hva⟩
        exact ⟨u, (hmem.1 hu).1, (hmem.1 hu).2, hua, rfl,
          fun w hw hkind hwa => hall w (hmem.2 ⟨hw, hkind⟩) hwa⟩
      · rintro hnone v hv hkind - w hw hkind' -
        rcases h.answers a ha hagent with ⟨v', hv', hkind', hva⟩ | hsame
        · exact absurd hva (hnone v' hv' hkind')
        · rintro ⟨x, hx, y, hy, hlt⟩
          rw [hsame w hw v hv hkind' hkind, hy] at hx
          cases hx
          have hself : x.lt x = true := hlt
          simp [PyFloat.strictOrder_lt.irrefl] at hself
  obtain ⟨paired, hpaired⟩ := Lib.exists_forall₂ hpair
  refine ⟨propagateTurnIds paired, (pairAgentTurns_eq_ok huser).2
    ⟨hcond, paired, by rw [hus]; exact hpaired.imp fun _ _ h => h.1, rfl⟩, ?_⟩
  rw [← Lib.forall₂_attach]
  refine (Lib.forall₂_comp hpaired (keeps_propagateTurnIds paired)).imp ?_
  rintro s s' ⟨m, ⟨-, hinside, houtside⟩, hkeeps⟩
  constructor
  · intro a ha
    obtain ⟨t, ht, hfolded⟩ := hinside a ha
    exact hkeeps t ht ▸ hfolded
  · intro hnot t ht
    exact hkeeps t (houtside hnot ▸ ht)

/-- Every span below an agent's turn is given the turn id that is due exactly when the starts are there
and no agent speaks before users who do not all start at once. -/
theorem pairAgentTurns_iff (hids : DistinctIds spans) (huser : ∃ u ∈ spans, isUserTurn u)
    (hnumbers : ∀ s ∈ spans, isUserTurn s ∨ isAgentTurn s → s.tStart ≠ some .nan) :
    PairsAgentTurns spans ↔ Foldable spans :=
  ⟨foldable_of_pairs hids huser hnumbers, pairs_of_foldable hids huser hnumbers⟩

end

/-- A span of LiveKit that starts at a time. -/
def livekitSpan (id name : String) (tStart : ℚ) : Span PyFloat where
  spanId := id
  name := name
  stage := .turn
  tStart := some (.fin tStart)

/-- The agent answers the user. -/
def answeredUser : List (Span PyFloat) :=
  [livekitSpan "u" "user_turn" 0, livekitSpan "a" "agent_turn" 1]

theorem pairAgentTurns_iff_answered : PairsAgentTurns answeredUser ↔ Foldable answeredUser :=
  pairAgentTurns_iff (by decide) ⟨_, List.mem_cons_self, rfl⟩ (by
    simp [answeredUser, livekitSpan])

/-- The agent greets the user, who then speaks twice. -/
def greetedUser : List (Span PyFloat) :=
  [livekitSpan "a" "agent_turn" 0, livekitSpan "u1" "user_turn" 1, livekitSpan "u2" "user_turn" 2]

/-- The greeting is given to the second of the user's turns. -/
theorem greeting_given_to_last : DistinctIds greetedUser ∧ (∃ u ∈ greetedUser, isUserTurn u) ∧
    (pairAgentTurns greetedUser).map (List.map Span.turnId) = .ok [some "u2", some "u1", some "u2"] ∧
      ¬PairsAgentTurns greetedUser := by
  have hids : DistinctIds greetedUser := by decide
  have huser : ∃ u ∈ greetedUser, isUserTurn u :=
    ⟨livekitSpan "u1" "user_turn" 1, by simp [greetedUser], rfl⟩
  refine ⟨hids, huser, by decide +kernel, fun h => ?_⟩
  have hfoldable := foldable_of_pairs hids huser (by simp [greetedUser, livekitSpan]) h
  have hagent : livekitSpan "a" "agent_turn" 0 ∈ greetedUser := List.mem_cons_self
  have hstarts : ¬(∃ u ∈ greetedUser, isUserTurn u ∧ NotAfter u (livekitSpan "a" "agent_turn" 0)) := by
    simp [greetedUser, livekitSpan, isUserTurn, NotAfter]
  have hsame := (hfoldable.answers _ hagent rfl).resolve_left hstarts
    (livekitSpan "u1" "user_turn" 1) (by simp [greetedUser])
    (livekitSpan "u2" "user_turn" 2) (by simp [greetedUser]) rfl rfl
  simp [livekitSpan] at hsame

end Pulse.Frameworks
