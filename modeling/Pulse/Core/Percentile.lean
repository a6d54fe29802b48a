import Pulse.Core.MetricBounds

/-!
# Percentiles of samples

`percentile` takes the sample at the place nearest to `pct` percent of the last one. It is the
nearest-rank percentile, the smallest sample that `pct` percent of the samples are not above, where
both places have the same sample.
-/

namespace Pulse.Core

open Lib (PyFloat LeastAbove)
open Lib.PyFloat (Number)

/-- The smallest sample with at least `pct` percent of the samples not above it. -/
structure NearestRank (values : List PyFloat) (pct : ℚ) (v : PyFloat) : Prop where
  mem : v ∈ values
  enough : pct / 100 * values.length ≤ values.countP (· ≤ v)
  least : ∀ w ∈ values, pct / 100 * values.length ≤ values.countP (· ≤ w) → v ≤ w

/-- The place of the nearest rank in a sorted list of `n`. -/
def ceilRank (pct : ℚ) (n : Nat) : Nat :=
  ⌈pct / 100 * n⌉.toNat - 1

/-- The two places are one, or have the same sample. -/
def RanksAgree (values : List PyFloat) (pct : ℚ) : Prop :=
  rank pct values.length = ceilRank pct values.length ∨
    (Lib.sorted PyFloat.lt values)[rank pct values.length]? =
      (Lib.sorted PyFloat.lt values)[ceilRank pct values.length]?

section

variable {pct pct' : ℚ} {n : Nat}

lemma ceilRank_succ (hpos : 0 < pct) (hn : 0 < n) : ceilRank pct n + 1 = ⌈pct / 100 * n⌉.toNat := by
  have hceil : 0 < ⌈pct / 100 * n⌉ := Int.ceil_pos.2 (by positivity)
  unfold ceilRank
  omega

lemma ceilRank_lt (hpos : 0 < pct) (hle : pct ≤ 100) (hn : 0 < n) : ceilRank pct n < n := by
  have hceil : ⌈pct / 100 * n⌉ ≤ n := by
    rw [Int.ceil_le, Int.cast_natCast]
    exact mul_le_of_le_one_left (Nat.cast_nonneg n) (by linarith)
  have hsucc := ceilRank_succ hpos hn
  omega

/-- So many percent of `n` are at most a count when it is above the place. -/
lemma percent_le_iff (hpos : 0 < pct) (hn : 0 < n) {count : Nat} :
    pct / 100 * n ≤ count ↔ ceilRank pct n + 1 ≤ count := by
  rw [ceilRank_succ hpos hn, Int.toNat_le, Int.ceil_le, Int.cast_natCast]

lemma rank_mono (h : pct ≤ pct') (hn : 0 < n) : rank pct n ≤ rank pct' n := by
  have hlast : (0 : ℚ) ≤ (n : ℚ) - 1 := by
    have : (1 : ℚ) ≤ n := by exact_mod_cast hn
    linarith
  have hround : Lib.roundEven (pct / 100 * ((n : ℚ) - 1)) ≤
      Lib.roundEven (pct' / 100 * ((n : ℚ) - 1)) :=
    Lib.roundEven_mono (mul_le_mul_of_nonneg_right (by linarith) hlast)
  unfold rank
  omega

variable {ns : List Number}

lemma countP_numbers (m : Number) :
    (ns.map Number.val).countP (· ≤ m.val) = ns.countP (· ≤ m) := by
  rw [List.countP_map]
  rfl

lemma nearestRank_iff (hpos : 0 < pct) (hne : ns ≠ []) (m : Number) :
    NearestRank (ns.map Number.val) pct m.val ↔ LeastAbove ns (ceilRank pct ns.length + 1) m := by
  have hn : 0 < ns.length := List.length_pos_iff.2 hne
  have hmem (m : Number) : m.val ∈ ns.map Number.val ↔ m ∈ ns :=
    List.mem_map_of_injective fun _ _ => Number.ext
  have hcount (m : Number) : pct / 100 * (ns.map Number.val).length ≤
      ((ns.map Number.val).countP (· ≤ m.val) : ℚ) ↔
        ceilRank pct ns.length + 1 ≤ ns.countP (· ≤ m) := by
    rw [List.length_map, countP_numbers, percent_le_iff hpos hn]
  constructor
  · intro h
    refine ⟨(hmem m).1 h.mem, (hcount m).1 h.enough, fun c hc hle => ?_⟩
    exact h.least c.val ((hmem c).2 hc) ((hcount c).2 hle)
  · intro h
    refine ⟨(hmem m).2 h.mem, (hcount m).2 h.le_count, fun w hw hle => ?_⟩
    obtain ⟨c, hc, rfl⟩ := List.mem_map.1 hw
    exact h.least c hc ((hcount c).1 hle)

lemma percentile_numbers {r : Nat} (hr : r < (Lib.sorted (fun a b => decide (a < b)) ns).length) :
    (Lib.sorted PyFloat.lt (ns.map Number.val))[r]? =
      some (Lib.sorted (fun a b => decide (a < b)) ns)[r].val := by
  rw [PyFloat.sorted_numbers, List.getElem?_map, List.getElem?_eq_getElem hr, Option.map_some]

/-- The order of the samples does not matter. -/
lemma percentile_perm {values values' : List PyFloat} (hnan : ∀ x ∈ values, x ≠ .nan)
    (hperm : values.Perm values') : percentile values' pct = percentile values pct := by
  have hsorted : Lib.sorted PyFloat.lt values = Lib.sorted PyFloat.lt values' := by
    refine Lib.sorted_eq_of_perm PyFloat.strictOrder_lt hperm ?_
    refine List.pairwise_of_forall_mem_list fun x hx y hy => ?_
    exact PyFloat.decides_lt (iff_of_false (hnan x hx) (hnan y hy))
  rw [percentile, percentile, hsorted, hperm.length_eq]

lemma length_sorted_numbers (ns : List Number) :
    (Lib.sorted (fun a b => decide (a < b)) ns).length = ns.length :=
  (Lib.sorted_perm _ ns).length_eq

lemma exists_nearestRank_iff (hne : ns ≠ []) (hpos : 0 < pct) (hle : pct ≤ 100) :
    (∃ v, percentile (ns.map Number.val) pct = some v ∧ NearestRank (ns.map Number.val) pct v) ↔
      RanksAgree (ns.map Number.val) pct := by
  have hn : 0 < ns.length := List.length_pos_iff.2 hne
  have hordered := Lib.sorted_le ns
  have hrank : rank pct ns.length < _ := (rank_lt hn).trans_eq (length_sorted_numbers ns).symm
  have hceil := (ceilRank_lt hpos hle hn).trans_eq (length_sorted_numbers ns).symm
  have hplace (m : Number) : NearestRank (ns.map Number.val) pct m.val ↔
      m = (Lib.sorted (fun a b => decide (a < b)) ns)[ceilRank pct ns.length] := by
    rw [nearestRank_iff hpos hne, ← Lib.leastAbove_getElem_iff hordered hceil]
    exact ⟨fun h => h.perm (Lib.sorted_perm _ ns).symm, fun h => h.perm (Lib.sorted_perm _ ns)⟩
  have hagree : RanksAgree (ns.map Number.val) pct ↔
      (Lib.sorted (fun a b => decide (a < b)) ns)[rank pct ns.length] =
        (Lib.sorted (fun a b => decide (a < b)) ns)[ceilRank pct ns.length] := by
    rw [RanksAgree, List.length_map, percentile_numbers hrank, percentile_numbers hceil,
      Option.some_inj, ← Number.ext_iff]
    exact or_iff_right_of_imp fun heq => by simp only [heq]
  rw [hagree, percentile, List.length_map, percentile_numbers hrank]
  constructor
  · rintro ⟨v, hv, hnearest⟩
    obtain rfl := Option.some.inj hv
    exact (hplace _).1 hnearest
  · exact fun heq => ⟨_, rfl, (hplace _).2 heq⟩

lemma percentile_mono (hne : ns ≠ []) (h : pct ≤ pct') :
    ∃ v v', percentile (ns.map Number.val) pct = some v ∧
      percentile (ns.map Number.val) pct' = some v' ∧ v ≤ v' := by
  have hn : 0 < ns.length := List.length_pos_iff.2 hne
  have hrank : rank pct ns.length < _ := (rank_lt hn).trans_eq (length_sorted_numbers ns).symm
  have hrank' : rank pct' ns.length < _ := (rank_lt hn).trans_eq (length_sorted_numbers ns).symm
  rw [percentile, percentile, List.length_map, percentile_numbers hrank, percentile_numbers hrank']
  exact ⟨_, _, rfl, rfl, (Lib.sorted_le ns).rel_get_of_le (a := ⟨_, hrank⟩) (b := ⟨_, hrank'⟩)
    (rank_mono h hn)⟩

/-- A percentile is the nearest-rank percentile exactly when both ranks have the same sample. It does
not depend on the order of the samples, and a higher one is not smaller. -/
theorem percentile_nearestRank_iff {values : List PyFloat} (hne : values ≠ [])
    (hnan : ∀ x ∈ values, x ≠ .nan) (hpos : 0 < pct) (hle : pct ≤ 100) :
    ((∃ v, percentile values pct = some v ∧ NearestRank values pct v) ↔ RanksAgree values pct) ∧
      (∀ values', values.Perm values' → percentile values' pct = percentile values pct) ∧
      ∀ pct', pct ≤ pct' → pct' ≤ 100 → ∃ v v', percentile values pct = some v ∧
        percentile values pct' = some v' ∧ v ≤ v' := by
  obtain ⟨ns, rfl⟩ := PyFloat.exists_numbers hnan
  have hns : ns ≠ [] := by rwa [ne_eq, List.map_eq_nil_iff] at hne
  exact ⟨exists_nearestRank_iff hns hpos hle, fun _ => percentile_perm hnan,
    fun _ hpct _ => percentile_mono hns hpct⟩

end

/-- The median of three samples. -/
theorem percentile_nearestRank_iff_three :
    ((∃ v, percentile [.fin 3, .fin 1, .fin 2] 50 = some v ∧
        NearestRank [.fin 3, .fin 1, .fin 2] 50 v) ↔ RanksAgree [.fin 3, .fin 1, .fin 2] 50) ∧
      (∀ values', [PyFloat.fin 3, .fin 1, .fin 2].Perm values' →
        percentile values' 50 = percentile [.fin 3, .fin 1, .fin 2] 50) ∧
      ∀ pct', 50 ≤ pct' → pct' ≤ 100 → ∃ v v', percentile [.fin 3, .fin 1, .fin 2] 50 = some v ∧
        percentile [.fin 3, .fin 1, .fin 2] pct' = some v' ∧ v ≤ v' :=
  percentile_nearestRank_iff (by decide) (by decide) (by norm_num) (by norm_num)

/-- Of four samples the median is the third, though half of them are not above the second. -/
theorem percentile_four_not_nearest : ¬∃ v, percentile [.fin 1, .fin 2, .fin 3, .fin 4] 50 = some v ∧
    NearestRank [.fin 1, .fin 2, .fin 3, .fin 4] 50 v := by
  have hthird : percentile [.fin 1, .fin 2, .fin 3, .fin 4] 50 = some (.fin 3) := by decide +kernel
  rintro ⟨v, hv, hnearest⟩
  rw [hthird] at hv
  obtain rfl := Option.some.inj hv
  have hcount : [PyFloat.fin 1, .fin 2, .fin 3, .fin 4].countP (· ≤ .fin 2) = 2 := by decide +kernel
  have hle := hnearest.least (.fin 2) (by decide) (by rw [hcount]; norm_num)
  exact absurd hle (by decide +kernel)

end Pulse.Core
