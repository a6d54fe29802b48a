import Pulse.Lib.Forests
import Pulse.Lib.Lists

/-!
# The waterfall of a trace

`flatten` of `components/Waterfall.tsx`, which puts the spans of a trace into rows. The spans come
from `_span_tree` in the order of their starts; the parent of one may be no span of the trace.
-/

namespace Pulse.Ui

universe u

variable {ρ : Type u}

/-- `Span`: its id, its parent's, and the rest that its row shows. -/
structure Span (ρ : Type u) where
  spanId : String
  parentSpanId : Option String
  rest : ρ
deriving DecidableEq

structure Node (ρ : Type u) where
  span : Span ρ
  depth : Nat

/-- `kids` -/
def kidsOf (spans : List (Span ρ)) : List (Option String × List (Span ρ)) :=
  Lib.gather Span.parentSpanId (fun list s => list.getD [] ++ [s]) spans

/-- `walk`, which pushes to `out`. With no fuel left it is not over. -/
def walk (kids : List (Option String × List (Span ρ))) :
    Nat → Option String → Nat → List (Node ρ) → Option (List (Node ρ))
  | 0, _, _, _ => none
  | fuel + 1, parent, depth, out =>
    ((kids.lookup parent).getD []).foldlM
      (fun out span => walk kids fuel (some span.spanId) (depth + 1) (out ++ [⟨span, depth⟩])) out

/-- `flatten` -/
def flatten (fuel : Nat) (spans : List (Span ρ)) : Option (List (Node ρ)) :=
  walk (kidsOf spans) fuel none 0 []

/-- `flatten` comes to an end with these rows. -/
def Flattens (spans : List (Span ρ)) (out : List (Node ρ)) : Prop :=
  ∃ fuel, flatten fuel spans = some out

/-! ### What the waterfall is to show -/

/-- `p` is a span of the trace and the parent of `s`. -/
def HasParent (spans : List (Span ρ)) (s p : Span ρ) : Prop :=
  p ∈ spans ∧ s.parentSpanId = some p.spanId

/-- The rows show every span. -/
structure ShowsEvery (spans : List (Span ρ)) (out : List (Node ρ)) : Prop where
  /-- Each span has one row. -/
  once : (out.map Node.span).Perm spans
  /-- A span is below its parent and one deeper, unless the parents lead back to it. -/
  nested : ∀ s ∈ spans, ∀ p, HasParent spans s p →
    ¬Relation.ReflTransGen (HasParent spans) p s →
      ∃ depth, [⟨p, depth⟩, ⟨s, depth + 1⟩].Sublist out
  /-- The spans of one parent are in their order. -/
  siblings : ∀ parent, ((out.map Node.span).filter fun s => s.parentSpanId = parent) =
    spans.filter fun s => s.parentSpanId = parent

/-! ### The walk -/

lemma lookup_kidsOf (spans : List (Span ρ)) (parent : Option String) :
    ((kidsOf spans).lookup parent).getD [] = spans.filter fun s => s.parentSpanId = parent := by
  have hlookup : (kidsOf spans).lookup parent = (spans.filter fun s => s.parentSpanId = parent).foldl
      (fun list s => some (list.getD [] ++ [s])) none := by
    rw [← Lib.lookup_gather]
    congr
    exact lawful_beq_subsingleton _ _
  rw [hlookup]
  induction spans.filter fun s => s.parentSpanId = parent using List.reverseRecOn with
  | nil => rfl
  | append_singleton list s ih =>
    rw [List.foldl_append, List.foldl_cons, List.foldl_nil, ih]
    rfl

lemma foldlM_mono {α β : Type*} {f g : β → α → Option β} {as : List α} {b c : β}
    (hfg : ∀ b a c, f b a = some c → g b a = some c) (h : as.foldlM f b = some c) :
    as.foldlM g b = some c := by
  induction as generalizing b with
  | nil => exact h
  | cons a as ih =>
    rw [List.foldlM_cons] at h ⊢
    obtain ⟨b', hb', h⟩ := Option.bind_eq_some_iff.1 h
    exact Option.bind_eq_some_iff.2 ⟨b', hfg b a b' hb', ih h⟩

lemma walk_mono {kids : List (Option String × List (Span ρ))} {fuel more depth : Nat}
    {parent : Option String} {out rows : List (Node ρ)} (hle : fuel ≤ more)
    (h : walk kids fuel parent depth out = some rows) : walk kids more parent depth out = some rows := by
  induction fuel generalizing more parent depth out rows with
  | zero => cases h
  | succ fuel ih =>
    obtain ⟨more, rfl⟩ := Nat.exists_eq_succ_of_ne_zero (by omega : more ≠ 0)
    exact foldlM_mono (fun out span rows hrows => ih (by omega) hrows) h

/-- It ends with the same rows, however much fuel is left. -/
lemma Flattens.unique {spans : List (Span ρ)} {out out' : List (Node ρ)} (h : Flattens spans out)
    (h' : Flattens spans out') : out = out' := by
  obtain ⟨fuel, h⟩ := h
  obtain ⟨fuel', h'⟩ := h'
  have hmax := walk_mono (Nat.le_max_left fuel fuel') h
  rw [walk_mono (Nat.le_max_right fuel fuel') h'] at hmax
  exact (Option.some.inj hmax).symm

section

variable {spans : List (Span ρ)} (hids : (spans.map Span.spanId).Nodup)

/-- The spans under their parents, with `null` as the root. -/
def parents : Lib.Parents (Span ρ) (Option String) where
  all := spans
  key s := some s.spanId
  parent := Span.parentSpanId
  root := none
  keys := by
    have hsome := hids.map (Option.some_injective String)
    rwa [List.map_map] at hsome
  key_ne_root _ _ := nofun

def row (x : Span ρ × Nat) : Node ρ := ⟨x.1, x.2⟩

/-- With as much fuel as there are generations left, the walk goes through them. -/
lemma walk_eq_preorder {fuel depth : Nat} {parent : Option String} (out : List (Node ρ))
    (hdepth : depth ≤ spans.length) (hfuel : spans.length < depth + fuel)
    (hlevel : ∀ s ∈ (parents hids).children parent, s ∈ (parents hids).level none depth) :
    walk (kidsOf spans) fuel parent depth out =
      some (out ++ ((parents hids).preorder fuel parent depth).map row) := by
  induction fuel generalizing parent depth out with
  | zero => omega
  | succ fuel ih =>
    rw [walk, lookup_kidsOf, Lib.Parents.preorder]
    change ((parents hids).children parent).foldlM _ out = _
    revert hlevel
    induction (parents hids).children parent generalizing out with
    | nil => simp
    | cons s list ihlist =>
      intro hlevel
      obtain ⟨hs, hlist⟩ := List.forall_mem_cons.1 hlevel
      have hlt : depth < spans.length := Lib.Parents.lt_length_of_level hs
      have hchildren : ∀ c ∈ (parents hids).children (some s.spanId),
          c ∈ (parents hids).level none (depth + 1) := by
        intro c hc
        obtain ⟨hc, hparent⟩ := Lib.Parents.mem_children.1 hc
        exact Lib.Parents.mem_level_succ.2 ⟨hc, s, hs, hparent⟩
      have hbelow := ih (out ++ [⟨s, depth⟩]) (by omega) (by omega) hchildren
      rw [List.foldlM_cons, hbelow, Option.bind_eq_bind, Option.bind_some, ihlist _ hlist]
      simp [row, parents]

/-- `flatten` ends for all spans with distinct ids, and walks down from the roots. -/
theorem flattens_depthFirst : Flattens spans ((parents hids).depthFirst.map row) :=
  ⟨spans.length + 1, walk_eq_preorder hids [] (Nat.zero_le _) (by omega) fun _ hs => hs⟩

/-- If the parents of all spans lead to roots, the walk down from these shows every span. -/
lemma showsEvery_of_level
    (h : ∀ s ∈ spans, ∃ n, s ∈ (parents hids).level none n) :
    ShowsEvery spans ((parents hids).depthFirst.map row) := by
  have hspans : ((parents hids).depthFirst.map row).map Node.span =
      (parents hids).depthFirst.map Prod.fst := by
    rw [List.map_map]
    rfl
  have hperm : ((parents hids).depthFirst.map Prod.fst).Perm spans :=
    Lib.Parents.depthFirst_perm_iff.2 h
  refine ⟨hspans ▸ hperm, fun s hs p hp _ => ?_, fun parent => ?_⟩
  · obtain ⟨depth, hlevel⟩ := h p hp.1
    exact ⟨depth, (Lib.Parents.pair_sublist_depthFirst hs hlevel hp.2).map row⟩
  · rw [hspans]
    exact Lib.Parents.filter_depthFirst hperm parent

end

/-- The waterfall shows every span if each parent is there and no span is its own ancestor. -/
theorem flatten_showsEvery_iff {spans : List (Span ρ)} (hids : (spans.map Span.spanId).Nodup) :
    (∃ out, Flattens spans out ∧ ShowsEvery spans out) ↔
      (∀ s ∈ spans, s.parentSpanId ≠ none → ∃ p, HasParent spans s p) ∧
        ∀ s ∈ spans, ¬Relation.TransGen (HasParent spans) s s := by
  refine Iff.trans ?_ (Lib.Parents.forall_level_iff (P := parents hids))
  constructor
  · rintro ⟨out, hout, hshows⟩
    have honce := hshows.once
    rw [hout.unique (flattens_depthFirst hids), List.map_map] at honce
    exact Lib.Parents.depthFirst_perm_iff.1 honce
  · intro h
    exact ⟨_, flattens_depthFirst hids, showsEvery_of_level hids h⟩

/-- A session, a turn of it, and what the model does in the turn, which comes first. -/
def sessionSpans : List (Span Unit) :=
  [⟨"llm", some "turn", ()⟩, ⟨"session", none, ()⟩, ⟨"turn", some "session", ()⟩]

lemma sessionSpans_ids : (sessionSpans.map Span.spanId).Nodup := by decide

theorem flatten_showsEvery_session :
    ∃ out, Flattens sessionSpans out ∧ ShowsEvery sessionSpans out := by
  have hlevels : ∀ s ∈ sessionSpans, ∃ n, s ∈ (parents sessionSpans_ids).level none n := by
    have hllm : sessionSpans[0] ∈ (parents sessionSpans_ids).level none 2 := by decide
    have hsession : sessionSpans[1] ∈ (parents sessionSpans_ids).level none 0 := by decide
    have hturn : sessionSpans[2] ∈ (parents sessionSpans_ids).level none 1 := by decide
    exact List.forall_mem_cons.2 ⟨⟨2, hllm⟩, List.forall_mem_cons.2 ⟨⟨0, hsession⟩,
      List.forall_mem_singleton.2 ⟨1, hturn⟩⟩⟩
  exact (flatten_showsEvery_iff sessionSpans_ids).2
    (Lib.Parents.forall_level_iff (P := parents sessionSpans_ids).1 hlevels)

/-- A turn whose session has not come yet has no row. -/
theorem flatten_hides_orphan :
    ¬∀ spans : List (Span Unit), (spans.map Span.spanId).Nodup →
      ∃ out, Flattens spans out ∧ ShowsEvery spans out := by
  intro h
  obtain ⟨out, hout, hshows⟩ := h [⟨"turn", some "session", ()⟩] (by decide)
  have hempty : Flattens [(⟨"turn", some "session", ()⟩ : Span Unit)] [] := ⟨1, rfl⟩
  rw [hout.unique hempty] at hshows
  exact absurd hshows.once.length_eq (by decide)

end Pulse.Ui
