import Mathlib.MeasureTheory.Measure.Lebesgue.Basic
import Pulse.Lib.Intervals

/-!
# The measure of a union of intervals

The summed length of merged intervals is the Lebesgue measure of the union of the intervals, and
within a window it is that of the intervals clipped to the window.
-/

namespace Pulse.Lib

open MeasureTheory

/-- The points that intervals cover. -/
def covered (ivs : List (Interval ℝ)) : Set ℝ := {x | Covers ivs x}

lemma covered_cons (i : Interval ℝ) (ivs : List (Interval ℝ)) :
    covered (i :: ivs) = Set.Ico i.1 i.2 ∪ covered ivs := by
  ext x
  exact covers_cons

/-- The union of intervals that are apart is as long as they are together. -/
lemma volume_of_apart {ivs : List (Interval ℝ)} (hapart : Apart ivs) (h : ∀ i ∈ ivs, i.1 ≤ i.2) :
    volume (covered ivs) = ENNReal.ofReal (total ivs) := by
  induction ivs with
  | nil => simp [covered, Covers]
  | cons i ivs ih =>
    rw [Apart, List.pairwise_cons] at hapart
    rw [List.forall_mem_cons] at h
    have hdisjoint : Disjoint (covered ivs) (Set.Ico i.1 i.2) := by
      refine Set.disjoint_left.2 fun x hx hi => ?_
      obtain ⟨j, hj, hstart, -⟩ := hx
      exact absurd (hi.2.trans (hapart.1 j hj)) (not_lt.2 hstart)
    rw [covered_cons, Set.union_comm, measure_union hdisjoint measurableSet_Ico, ih hapart.2 h.2,
      Real.volume_Ico, total_cons, add_comm, ENNReal.ofReal_add (sub_nonneg.2 h.1) (total_nonneg h.2)]

/-- The merged intervals are as long as the union of the intervals. -/
theorem volume_covered {ivs : List (Interval ℝ)} (h : ∀ i ∈ ivs, i.1 ≤ i.2) :
    volume (covered ivs) = ENNReal.ofReal (total (merge ivs)) := by
  have hsame : covered ivs = covered (merge ivs) := Set.ext fun x => (covers_merge ivs x).symm
  rw [hsame]
  exact volume_of_apart (merge_apart ivs) (merge_all (fun i e hi he => hi.trans he) h)

lemma covered_clip (lo hi : ℝ) (ivs : List (Interval ℝ)) :
    covered (ivs.filterMap (clip lo hi)) = Set.Ico lo hi ∩ covered ivs :=
  Set.ext fun _ => covers_clip

/-- The merged parts of the intervals within a window are as long as what they cover of it. -/
theorem volume_window (lo hi : ℝ) (ivs : List (Interval ℝ)) :
    volume (Set.Ico lo hi ∩ covered ivs) =
      ENNReal.ofReal (total (merge (ivs.filterMap (clip lo hi)))) := by
  rw [← covered_clip]
  refine volume_covered fun i hi => ?_
  obtain ⟨j, -, hclip⟩ := List.mem_filterMap.1 hi
  obtain ⟨hlt, rfl⟩ := clip_eq_some.1 hclip
  exact hlt.le

/-! ### Rational intervals -/

/-- Rational intervals among the reals. -/
abbrev realIntervals (ivs : List (Interval ℚ)) : List (Interval ℝ) :=
  ivs.map (Prod.map (↑) (↑))

lemma embeds_ratCast : Embeds ((↑) : ℚ → ℝ) where
  lt _ _ := Rat.cast_lt
  le _ _ := Rat.cast_le
  injective := Rat.cast_injective

lemma total_realIntervals (ivs : List (Interval ℚ)) : total (realIntervals ivs) = ((total ivs : ℚ) : ℝ) := by
  induction ivs with
  | nil => simp
  | cons i ivs ih => simp [ih]

/-- The measure of what rational intervals cover of a window is what is computed from them. -/
theorem volume_rational (lo hi : ℚ) (ivs : List (Interval ℚ)) :
    volume (Set.Ico (lo : ℝ) hi ∩ covered (realIntervals ivs)) =
      ENNReal.ofReal (total (merge (ivs.filterMap (clip lo hi))) : ℚ) := by
  rw [volume_window, embeds_ratCast.clip, embeds_ratCast.merge, total_realIntervals]

/-- What is covered of a window is not longer than the window. -/
lemma total_window_le {lo hi : ℚ} (h : lo ≤ hi) (ivs : List (Interval ℚ)) :
    total (merge (ivs.filterMap (clip lo hi))) ≤ hi - lo := by
  have hle : ENNReal.ofReal (total (merge (ivs.filterMap (clip lo hi))) : ℚ) ≤
      ENNReal.ofReal (hi - lo) := by
    rw [← volume_rational, ← Real.volume_Ico]
    exact measure_mono Set.inter_subset_left
  rw [ENNReal.ofReal_le_ofReal_iff (sub_nonneg.2 (Rat.cast_le.2 h))] at hle
  exact_mod_cast hle

end Pulse.Lib
