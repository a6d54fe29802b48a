import Mathlib.Algebra.Order.Ring.Rat
import Mathlib.Algebra.Order.BigOperators.Group.List
import Mathlib.Tactic.Abel
import Mathlib.Tactic.Linarith
import Pulse.Lib.Lists

/-!
# Interval math

Lists of intervals `(start, end)` over any type with a comparison: their union, the overlap of two
lists, the gaps up to some end and the total length. An interval may be reversed, and then it
covers nothing.
-/

namespace Pulse.Lib

universe u v

abbrev Interval (α : Type u) := α × α

/-! ### The operations -/

section Operations

variable {α : Type u} [LT α] [DecidableLT α] [LE α] [DecidableLE α] [DecidableEq α]

/-- `max(a, b)`: the first one unless the second one is greater. -/
def maxOf (a b : α) : α :=
  if a < b then b else a

/-- `min(a, b)`: the first one unless the second one is less. -/
def minOf (a b : α) : α :=
  if b < a then b else a

/-- The order of tuples. -/
def intervalLt (a b : Interval α) : Bool :=
  decide (a.1 < b.1) || a.1 = b.1 && decide (a.2 < b.2)

/-- One turn of the loop of `merge`, with the merged intervals in reverse. -/
def mergeStep (merged : List (Interval α)) (i : Interval α) : List (Interval α) :=
  match merged with
  | [] => [i]
  | last :: before => if i.1 ≤ last.2 then (last.1, maxOf last.2 i.2) :: before else i :: last :: before

/-- The union of overlapping or adjacent intervals, sorted. -/
def merge (intervals : List (Interval α)) : List (Interval α) :=
  ((sorted intervalLt intervals).foldl mergeStep []).reverse

/-- The overlap of two intervals, if there is one. -/
def overlap (a b : Interval α) : List (Interval α) :=
  let lo := maxOf a.1 b.1
  let hi := minOf a.2 b.2
  if lo < hi then [(lo, hi)] else []

/-- The overlap of `a`, and after it that of the intervals that `rest` goes through, with a list. -/
def intersectFrom (rest : List (Interval α) → List (Interval α)) (a : Interval α) :
    List (Interval α) → List (Interval α)
  | [] => []
  | b :: bs => overlap a b ++ if a.2 < b.2 then rest (b :: bs) else intersectFrom rest a bs

/-- The overlap between two sorted lists. -/
def intersect : List (Interval α) → List (Interval α) → List (Interval α)
  | [] => fun _ => []
  | a :: as => intersectFrom (intersect as) a

/-- The part of an interval from `lo` to `hi`, if there is one. -/
def clip (lo hi : α) (i : Interval α) : Option (Interval α) :=
  if maxOf lo i.1 < minOf hi i.2 then some (maxOf lo i.1, minOf hi i.2) else none

/-- The gaps between merged intervals from `cursor` on, and the last one up to `stop`. -/
def gapsFrom (stop cursor : α) : List (Interval α) → List (Interval α)
  | [] => if cursor < stop then [(cursor, stop)] else []
  | i :: rest =>
    if cursor < i.1 then (cursor, i.1) :: gapsFrom stop (maxOf cursor i.2) rest
    else gapsFrom stop (maxOf cursor i.2) rest

/-- The gaps of the intervals within `[zero, stop]`. -/
def complement (zero : α) (intervals : List (Interval α)) (stop : α) : List (Interval α) :=
  gapsFrom stop zero (merge intervals)

/-- The summed length. -/
def total [Sub α] [Add α] [Zero α] (intervals : List (Interval α)) : α :=
  (intervals.map fun i => i.2 - i.1).foldl (· + ·) 0

end Operations

/-! ### Intervals in another order -/

section Reordered

variable {α : Type u} [LT α] [DecidableLT α] [LE α] [DecidableLE α] [DecidableEq α]

omit [LE α] [DecidableLE α] in
lemma intervalLt_eq_lexLt : intervalLt (α := α) =
    lexLt (fun a b => decide (a < b)) fun a b => decide (a < b) := rfl

/-- Intervals are merged to the same ones in whatever order they come. -/
theorem merge_perm (hlt : StrictOrder fun a b : α => decide (a < b)) {is js : List (Interval α)}
    (hperm : is.Perm js)
    (hstarts : is.Pairwise fun i j => Decides (fun a b => decide (a < b)) i.1 j.1)
    (hends : is.Pairwise fun i j => Decides (fun a b => decide (a < b)) i.2 j.2) :
    merge is = merge js := by
  have hdecides : is.Pairwise (Decides intervalLt) := by
    rw [intervalLt_eq_lexLt]
    exact (hstarts.and hends).imp fun h => h.1.lex h.2
  have hstrict : StrictOrder (intervalLt (α := α)) := by
    rw [intervalLt_eq_lexLt]
    exact hlt.lex hlt
  have hsorted : sorted intervalLt is = sorted intervalLt js :=
    sorted_eq_of_perm hstrict hperm hdecides
  rw [merge, hsorted, merge]

end Reordered

/-! ### Merged intervals -/

section Order

variable {α : Type u} [LinearOrder α]

lemma maxOf_eq_max (a b : α) : maxOf a b = max a b := by
  unfold maxOf
  split
  · next h => exact (max_eq_right h.le).symm
  · next h => exact (max_eq_left (not_lt.1 h)).symm

lemma minOf_eq_min (a b : α) : minOf a b = min a b := by
  unfold minOf
  split
  · next h => exact (min_eq_right h.le).symm
  · next h => exact (min_eq_left (not_lt.1 h)).symm

/-- Each interval ends before every later one starts. -/
def Apart (ivs : List (Interval α)) : Prop :=
  ivs.Pairwise fun i j => i.2 < j.1

lemma intervalLt_eq_false {a b : Interval α} :
    intervalLt b a = false ↔ a.1 < b.1 ∨ a.1 = b.1 ∧ a.2 ≤ b.2 := by
  rw [← Bool.not_eq_true]
  simp only [intervalLt, Bool.or_eq_true, Bool.and_eq_true, decide_eq_true_eq, not_or, not_and,
    not_lt]
  constructor
  · rintro ⟨hle, heq⟩
    rcases hle.lt_or_eq with h | h
    · exact .inl h
    · exact .inr ⟨h, heq h.symm⟩
  · rintro (h | ⟨h, h'⟩)
    · exact ⟨h.le, fun heq => absurd heq h.ne'⟩
    · exact ⟨h.le, fun _ => h'⟩

/-- Sorted intervals start one after the other. -/
lemma sorted_starts (ivs : List (Interval α)) :
    (sorted intervalLt ivs).Pairwise fun i j => i.1 ≤ j.1 := by
  have hpairwise : (sorted intervalLt ivs).Pairwise fun a b => intervalLt b a = false := by
    refine sorted_pairwise (fun a b => ?_) (fun a b c hab hbc => ?_) ivs
    · rw [intervalLt_eq_false, intervalLt_eq_false]
      rcases lt_trichotomy a.1 b.1 with h | h | h
      · exact .inl (.inl h)
      · rcases le_total a.2 b.2 with h' | h'
        · exact .inl (.inr ⟨h, h'⟩)
        · exact .inr (.inr ⟨h.symm, h'⟩)
      · exact .inr (.inl h)
    · rw [intervalLt_eq_false] at hab hbc ⊢
      rcases hab with hab | ⟨hab, hab'⟩ <;> rcases hbc with hbc | ⟨hbc, hbc'⟩
      · exact .inl (hab.trans hbc)
      · exact .inl (hbc ▸ hab)
      · exact .inl (hab ▸ hbc)
      · exact .inr ⟨hab.trans hbc, hab'.trans hbc'⟩
  refine hpairwise.imp fun {a b} h => ?_
  rcases intervalLt_eq_false.1 h with h | ⟨h, -⟩
  · exact h.le
  · exact h.le

lemma mergeStep_touching {last i : Interval α} {before : List (Interval α)} (h : i.1 ≤ last.2) :
    mergeStep (last :: before) i = (last.1, max last.2 i.2) :: before := by
  rw [mergeStep, if_pos h, maxOf_eq_max]

lemma mergeStep_gap {last i : Interval α} {before : List (Interval α)} (h : last.2 < i.1) :
    mergeStep (last :: before) i = i :: last :: before := by
  rw [mergeStep, if_neg (not_le.2 h)]

/-- What the loop of `merge` keeps: the merged intervals, the last one first, are apart and start
before what is left. -/
lemma foldl_mergeStep_apart {ivs merged : List (Interval α)}
    (hivs : ivs.Pairwise fun i j => i.1 ≤ j.1) (hmerged : merged.Pairwise fun j i => i.2 < j.1)
    (hstarts : ∀ m ∈ merged, ∀ i ∈ ivs, m.1 ≤ i.1) :
    (ivs.foldl mergeStep merged).Pairwise fun j i => i.2 < j.1 := by
  induction ivs generalizing merged with
  | nil => exact hmerged
  | cons i ivs ih =>
    rw [List.pairwise_cons] at hivs
    rw [List.foldl_cons]
    cases merged with
    | nil =>
      refine ih hivs.2 (List.pairwise_singleton _ _) fun m hm j hj => ?_
      rw [List.mem_singleton.1 hm]
      exact hivs.1 j hj
    | cons last before =>
      rw [List.pairwise_cons] at hmerged
      rcases le_or_gt i.1 last.2 with htouch | hgap
      · rw [mergeStep_touching htouch]
        refine ih hivs.2 (List.pairwise_cons.2 hmerged) fun m hm j hj => ?_
        rcases List.mem_cons.1 hm with rfl | hm
        · exact hstarts last List.mem_cons_self j (List.mem_cons_of_mem i hj)
        · exact hstarts m (List.mem_cons_of_mem last hm) j (List.mem_cons_of_mem i hj)
      · have hlast : last.1 ≤ i.1 := hstarts last List.mem_cons_self i List.mem_cons_self
        rw [mergeStep_gap hgap]
        refine ih hivs.2 (List.pairwise_cons.2 ⟨fun m hm => ?_, List.pairwise_cons.2 hmerged⟩)
          fun m hm j hj => ?_
        · rcases List.mem_cons.1 hm with rfl | hm
          · exact hgap
          · exact (hmerged.1 m hm).trans_le hlast
        · rcases List.mem_cons.1 hm with rfl | hm
          · exact hivs.1 j hj
          · exact hstarts m hm j (List.mem_cons_of_mem i hj)

/-- Merged intervals are apart. -/
theorem merge_apart (ivs : List (Interval α)) : Apart (merge ivs) := by
  rw [Apart, merge, List.pairwise_reverse]
  exact foldl_mergeStep_apart (sorted_starts ivs) List.Pairwise.nil fun m hm => by cases hm

/-- What holds of every interval and is kept when an end moves up holds of the merged ones. -/
theorem merge_all {p : Interval α → Prop} (hp : ∀ i e, p i → i.2 ≤ e → p (i.1, e))
    {ivs : List (Interval α)} (h : ∀ i ∈ ivs, p i) : ∀ i ∈ merge ivs, p i := by
  have hfold : ∀ (ivs merged : List (Interval α)), (∀ i ∈ ivs, p i) → (∀ m ∈ merged, p m) →
      ∀ m ∈ ivs.foldl mergeStep merged, p m := by
    intro ivs
    induction ivs with
    | nil => exact fun merged _ hmerged => hmerged
    | cons i ivs ih =>
      intro merged hivs hmerged
      rw [List.forall_mem_cons] at hivs
      refine ih _ hivs.2 ?_
      cases merged with
      | nil => exact List.forall_mem_singleton.2 hivs.1
      | cons last before =>
        rw [List.forall_mem_cons] at hmerged
        rcases le_or_gt i.1 last.2 with htouch | hgap
        · rw [mergeStep_touching htouch]
          exact List.forall_mem_cons.2 ⟨hp last _ hmerged.1 (le_max_left _ _), hmerged.2⟩
        · rw [mergeStep_gap hgap]
          exact List.forall_mem_cons.2 ⟨hivs.1, List.forall_mem_cons.2 hmerged⟩
  intro i hi
  exact hfold _ [] (fun i hi => h i (mem_sorted.1 hi)) (by simp) i (List.mem_reverse.1 hi)

/-- A point is in one of the intervals; an interval has its start, but not its end. -/
def Covers (ivs : List (Interval α)) (x : α) : Prop :=
  ∃ i ∈ ivs, i.1 ≤ x ∧ x < i.2

@[simp] lemma covers_cons {i : Interval α} {ivs : List (Interval α)} {x : α} :
    Covers (i :: ivs) x ↔ (i.1 ≤ x ∧ x < i.2) ∨ Covers ivs x := by
  simp [Covers]

lemma covers_mergeStep {merged : List (Interval α)} {i : Interval α} {x : α}
    (h : ∀ m ∈ merged, m.1 ≤ i.1) :
    Covers (mergeStep merged i) x ↔ Covers merged x ∨ (i.1 ≤ x ∧ x < i.2) := by
  cases merged with
  | nil => simp [mergeStep, Covers]
  | cons last before =>
    have hstart : last.1 ≤ i.1 := h last List.mem_cons_self
    rcases le_or_gt i.1 last.2 with htouch | hgap
    · rw [mergeStep_touching htouch, covers_cons, covers_cons, lt_max_iff]
      constructor
      · rintro (⟨hx, hlast | hi⟩ | hx)
        · exact .inl (.inl ⟨hx, hlast⟩)
        · rcases lt_or_ge x last.2 with hlast | hlast
          · exact .inl (.inl ⟨hx, hlast⟩)
          · exact .inr ⟨htouch.trans hlast, hi⟩
        · exact .inl (.inr hx)
      · rintro ((⟨hx, hlast⟩ | hx) | ⟨hx, hi⟩)
        · exact .inl ⟨hx, .inl hlast⟩
        · exact .inr hx
        · exact .inl ⟨hstart.trans hx, .inr hi⟩
    · rw [mergeStep_gap hgap, covers_cons, or_comm]

/-- The union of the merged intervals is that of the intervals. -/
theorem covers_merge (ivs : List (Interval α)) (x : α) : Covers (merge ivs) x ↔ Covers ivs x := by
  have hfold (ivs merged : List (Interval α)) (hivs : ivs.Pairwise fun i j => i.1 ≤ j.1)
      (hstarts : ∀ m ∈ merged, ∀ i ∈ ivs, m.1 ≤ i.1) :
      Covers (ivs.foldl mergeStep merged) x ↔ Covers merged x ∨ Covers ivs x := by
    induction ivs generalizing merged with
    | nil => simp [Covers]
    | cons i ivs ih =>
      rw [List.pairwise_cons] at hivs
      have hstep : ∀ m ∈ mergeStep merged i, ∀ j ∈ ivs, m.1 ≤ j.1 := by
        intro m hm j hj
        cases merged with
        | nil => exact List.mem_singleton.1 hm ▸ hivs.1 j hj
        | cons last before =>
          have hrest (m : Interval α) (hm : m ∈ last :: before) : m.1 ≤ j.1 :=
            hstarts m hm j (List.mem_cons_of_mem i hj)
          rcases le_or_gt i.1 last.2 with htouch | hgap
          · rw [mergeStep_touching htouch] at hm
            rcases List.mem_cons.1 hm with rfl | hm
            · exact hrest last List.mem_cons_self
            · exact hrest m (List.mem_cons_of_mem last hm)
          · rw [mergeStep_gap hgap] at hm
            rcases List.mem_cons.1 hm with rfl | hm
            · exact hivs.1 j hj
            · exact hrest m hm
      rw [List.foldl_cons, ih _ hivs.2 hstep, covers_cons,
        covers_mergeStep fun m hm => hstarts m hm i List.mem_cons_self, or_assoc]
  have hsorted : Covers (sorted intervalLt ivs) x ↔ Covers ivs x := by
    simp only [Covers, mem_sorted]
  have hnil : ¬Covers ([] : List (Interval α)) x := by simp [Covers]
  have hmerged := hfold _ [] (sorted_starts ivs) (by simp)
  rw [or_iff_right hnil, hsorted] at hmerged
  simpa only [Covers, merge, List.mem_reverse] using hmerged

lemma clip_eq_some {lo hi : α} {i j : Interval α} :
    clip lo hi i = some j ↔ max lo i.1 < min hi i.2 ∧ j = (max lo i.1, min hi i.2) := by
  unfold clip
  rw [maxOf_eq_max, minOf_eq_min]
  split
  · next h => simp [h, eq_comm]
  · next h => simp [h]

/-- What is clipped to a window covers the window's part of what was covered. -/
theorem covers_clip {lo hi : α} {ivs : List (Interval α)} {x : α} :
    Covers (ivs.filterMap (clip lo hi)) x ↔ (lo ≤ x ∧ x < hi) ∧ Covers ivs x := by
  constructor
  · rintro ⟨j, hj, hx⟩
    obtain ⟨i, hi, hclip⟩ := List.mem_filterMap.1 hj
    obtain ⟨-, rfl⟩ := clip_eq_some.1 hclip
    rw [max_le_iff, lt_min_iff] at hx
    exact ⟨⟨hx.1.1, hx.2.1⟩, i, hi, hx.1.2, hx.2.2⟩
  · rintro ⟨⟨hlo, hhi⟩, i, hi, hstart, hend⟩
    have hx : max lo i.1 ≤ x ∧ x < min _ i.2 := ⟨max_le hlo hstart, lt_min hhi hend⟩
    exact ⟨_, List.mem_filterMap.2 ⟨i, hi, clip_eq_some.2 ⟨hx.1.trans_lt hx.2, rfl⟩⟩, hx⟩

/-- An overlap is not empty. -/
lemma overlap_all {a b : Interval α} : ∀ i ∈ overlap a b, i.1 < i.2 := by
  unfold overlap
  dsimp only
  split
  · next h => simpa using h
  · simp

lemma intersect_all (as bs : List (Interval α)) : ∀ i ∈ intersect as bs, i.1 < i.2 := by
  induction as generalizing bs with
  | nil => simp [intersect]
  | cons a as ih =>
    change ∀ i ∈ intersectFrom (intersect as) a bs, i.1 < i.2
    induction bs with
    | nil => simp [intersectFrom]
    | cons b bs ihb =>
      intro i hi
      rcases List.mem_append.1 hi with hi | hi
      · exact overlap_all i hi
      · split at hi
        · exact ih (b :: bs) i hi
        · exact ihb i hi

/-- A gap is not empty. -/
lemma gapsFrom_all (stop cursor : α) (ivs : List (Interval α)) :
    ∀ i ∈ gapsFrom stop cursor ivs, i.1 < i.2 := by
  induction ivs generalizing cursor with
  | nil =>
    unfold gapsFrom
    split
    · next h => simpa using h
    · simp
  | cons i ivs ih =>
    unfold gapsFrom
    split
    · next h => exact List.forall_mem_cons.2 ⟨h, ih _⟩
    · exact ih _

end Order

/-! ### Lengths -/

section Length

variable {α : Type u} [AddCommGroup α] [LinearOrder α] [IsOrderedAddMonoid α]

omit [LinearOrder α] [IsOrderedAddMonoid α] in
lemma total_eq_sum (ivs : List (Interval α)) : total ivs = (ivs.map fun i => i.2 - i.1).sum :=
  List.sum_eq_foldl.symm

omit [LinearOrder α] [IsOrderedAddMonoid α] in
@[simp] lemma total_nil : total ([] : List (Interval α)) = 0 := rfl

omit [LinearOrder α] [IsOrderedAddMonoid α] in
@[simp] lemma total_cons (i : Interval α) (ivs : List (Interval α)) :
    total (i :: ivs) = i.2 - i.1 + total ivs := by
  rw [total_eq_sum, total_eq_sum, List.map_cons, List.sum_cons]

omit [LinearOrder α] [IsOrderedAddMonoid α] in
lemma total_append (ivs jvs : List (Interval α)) : total (ivs ++ jvs) = total ivs + total jvs := by
  rw [total_eq_sum, total_eq_sum, total_eq_sum, List.map_append, List.sum_append]

lemma total_nonneg {ivs : List (Interval α)} (h : ∀ i ∈ ivs, i.1 ≤ i.2) : 0 ≤ total ivs := by
  rw [total_eq_sum]
  refine List.sum_nonneg fun d hd => ?_
  obtain ⟨i, hi, rfl⟩ := List.mem_map.1 hd
  exact sub_nonneg.2 (h i hi)

/-- The overlap with `a` is within the part of `a` from `m` on, if nothing that is left starts before
`m` inside of `a`. -/
lemma total_intersectFrom_le {a : Interval α} {as bs : List (Interval α)}
    (has : ∀ bs, Apart bs → total (intersect as bs) ≤ total as) (hbs : Apart bs) {m : α}
    (hm : m ≤ a.2) (hstarts : ∀ b ∈ bs, m ≤ max a.1 b.1) (htotal : 0 ≤ total as) :
    total (intersectFrom (intersect as) a bs) ≤ a.2 - m + total as := by
  induction bs generalizing m with
  | nil => exact add_nonneg (sub_nonneg.2 hm) htotal
  | cons b bs ih =>
    have hb := List.pairwise_cons.1 hbs
    have hstart : m ≤ max a.1 b.1 := hstarts b List.mem_cons_self
    unfold intersectFrom
    rw [total_append]
    split
    · have hoverlap : total (overlap a b) ≤ a.2 - m := by
        unfold overlap
        rw [maxOf_eq_max, minOf_eq_min]
        dsimp only
        split
        · rw [total_cons, total_nil, add_zero]
          exact sub_le_sub (min_le_left _ _) hstart
        · exact sub_nonneg.2 hm
      exact add_le_add hoverlap (has (b :: bs) hbs)
    · next hend =>
      have hend : b.2 ≤ a.2 := not_lt.1 hend
      have hrest := ih hb.2 (m := max m b.2) (max_le hm hend) fun j hj =>
        max_le (hstarts j (List.mem_cons_of_mem b hj)) ((hb.1 j hj).le.trans (le_max_right _ _))
      have hoverlap : total (overlap a b) ≤ max m b.2 - m := by
        unfold overlap
        rw [maxOf_eq_max, minOf_eq_min]
        dsimp only
        split
        · rw [total_cons, total_nil, add_zero]
          exact sub_le_sub ((min_le_right _ _).trans (le_max_right _ _)) hstart
        · exact sub_nonneg.2 (le_max_left _ _)
      calc total (overlap a b) + total (intersectFrom (intersect as) a bs)
          ≤ (max m b.2 - m) + (a.2 - max m b.2 + total as) := add_le_add hoverlap hrest
        _ = a.2 - m + total as := by abel

/-- The overlap with intervals that are apart is not longer than the list. -/
theorem total_intersect_le {as bs : List (Interval α)} (has : ∀ a ∈ as, a.1 ≤ a.2) (hbs : Apart bs) :
    total (intersect as bs) ≤ total as := by
  induction as generalizing bs with
  | nil => exact le_rfl
  | cons a as ih =>
    rw [List.forall_mem_cons] at has
    rw [total_cons]
    exact total_intersectFrom_le (fun bs hbs => ih has.2 hbs) hbs has.1
      (fun b _ => le_max_left _ _) (total_nonneg has.2)

end Length

/-! ### Intervals in another order -/

section Embedding

variable {α : Type u} {β : Type v} [LT α] [DecidableLT α] [LE α] [DecidableLE α] [DecidableEq α]
  [LT β] [DecidableLT β] [LE β] [DecidableLE β] [DecidableEq β]

/-- A map that keeps the order and tells its arguments apart. -/
structure Embeds (f : α → β) : Prop where
  lt : ∀ a b, f a < f b ↔ a < b
  le : ∀ a b, f a ≤ f b ↔ a ≤ b
  injective : Function.Injective f

variable {f : α → β} (h : Embeds f)

include h

omit [DecidableLE α] [DecidableEq α] [DecidableLE β] [DecidableEq β] in
lemma Embeds.maxOf (a b : α) : maxOf (f a) (f b) = f (maxOf a b) := by
  unfold Lib.maxOf
  simp only [h.lt]
  split <;> rfl

omit [DecidableLE α] [DecidableEq α] [DecidableLE β] [DecidableEq β] in
lemma Embeds.minOf (a b : α) : minOf (f a) (f b) = f (minOf a b) := by
  unfold Lib.minOf
  simp only [h.lt]
  split <;> rfl

omit [DecidableLE α] [DecidableEq α] [DecidableLE β] [DecidableEq β] in
lemma Embeds.clip (lo hi : α) (ivs : List (Interval α)) :
    (ivs.map (Prod.map f f)).filterMap (clip (f lo) (f hi)) =
      (ivs.filterMap (clip lo hi)).map (Prod.map f f) := by
  rw [List.filterMap_map, List.map_filterMap]
  congr 1
  funext i
  simp only [Function.comp_apply, Lib.clip, Prod.map_fst, Prod.map_snd, h.maxOf, h.minOf, h.lt]
  split <;> rfl

lemma Embeds.merge (ivs : List (Interval α)) :
    merge (ivs.map (Prod.map f f)) = (merge ivs).map (Prod.map f f) := by
  have hlt (a b : Interval α) : intervalLt (Prod.map f f a) (Prod.map f f b) = intervalLt a b := by
    simp only [intervalLt, Prod.map_fst, Prod.map_snd, h.lt, h.injective.eq_iff]
  have hstep (merged : List (Interval α)) (i : Interval α) :
      mergeStep (merged.map (Prod.map f f)) (Prod.map f f i) =
        (mergeStep merged i).map (Prod.map f f) := by
    cases merged with
    | nil => rfl
    | cons last before =>
      simp only [mergeStep, List.map_cons, Prod.map_fst, Prod.map_snd, h.le, h.maxOf]
      split <;> rfl
  have hfold (ivs merged : List (Interval α)) :
      (ivs.map (Prod.map f f)).foldl mergeStep (merged.map (Prod.map f f)) =
        (ivs.foldl mergeStep merged).map (Prod.map f f) := by
    induction ivs generalizing merged with
    | nil => rfl
    | cons i ivs ih => rw [List.map_cons, List.foldl_cons, List.foldl_cons, hstep, ih]
  unfold Lib.merge
  rw [← map_sorted hlt, List.map_reverse, ← hfold]
  rfl

omit [DecidableLE α] [DecidableEq α] [DecidableLE β] [DecidableEq β] in
lemma Embeds.intersect (as bs : List (Interval α)) :
    intersect (as.map (Prod.map f f)) (bs.map (Prod.map f f)) =
      (intersect as bs).map (Prod.map f f) := by
  induction as generalizing bs with
  | nil => rfl
  | cons a as ih =>
    change intersectFrom (Lib.intersect (as.map (Prod.map f f))) (Prod.map f f a) _ =
      (intersectFrom (Lib.intersect as) a bs).map _
    induction bs with
    | nil => rfl
    | cons b bs ihb =>
      have hoverlap : overlap (Prod.map f f a) (Prod.map f f b) =
          (overlap a b).map (Prod.map f f) := by
        simp only [overlap, Prod.map_fst, Prod.map_snd, h.maxOf, h.minOf, h.lt]
        split <;> rfl
      rw [List.map_cons, intersectFrom, intersectFrom, hoverlap, ihb, ← List.map_cons, ih,
        Prod.map_snd, Prod.map_snd, List.map_append]
      simp only [h.lt]
      split <;> rfl

omit [DecidableLE α] [DecidableEq α] [DecidableLE β] [DecidableEq β] in
lemma Embeds.gapsFrom (stop cursor : α) (ivs : List (Interval α)) :
    gapsFrom (f stop) (f cursor) (ivs.map (Prod.map f f)) =
      (gapsFrom stop cursor ivs).map (Prod.map f f) := by
  induction ivs generalizing cursor with
  | nil =>
    simp only [Lib.gapsFrom, List.map_nil, h.lt]
    split <;> rfl
  | cons i ivs ih =>
    simp only [Lib.gapsFrom, List.map_cons, Prod.map_fst, Prod.map_snd, h.lt, h.maxOf, ih]
    split <;> rfl

end Embedding

end Pulse.Lib
