import Pulse.Lib.IntervalSets
import Pulse.Lib.Measure
import Pulse.Lib.PyFloat

/-!
# The reals between floats

Floats among the extended reals, the real numbers that intervals of floats cover, and the measure of
these as the total length of merged intervals.
-/

namespace Pulse.Lib

open MeasureTheory

namespace PyFloat

/-- A float among the extended reals; not-a-number is below all reals. -/
noncomputable def toEReal : PyFloat → EReal
  | .fin q => ((q : ℝ) : EReal)
  | .inf => ⊤
  | .negInf | .nan => ⊥

/-- The length that a float says. -/
noncomputable def extent : PyFloat → ENNReal
  | .fin q => ENNReal.ofReal q
  | .inf => ⊤
  | .negInf | .nan => 0

namespace Number

noncomputable def toEReal (n : Number) : EReal := n.val.toEReal

lemma embeds_val : Embeds Number.val where
  lt _ _ := Iff.rfl
  le _ _ := Iff.rfl
  injective _ _ := Number.ext

lemma toEReal_strictMono : StrictMono toEReal := by
  rintro ⟨a, ha⟩ ⟨b, hb⟩ hlt
  have hlt : a.lt b = true := hlt
  cases a <;> cases b <;> simp_all [toEReal, PyFloat.toEReal, PyFloat.lt]

lemma embeds_toEReal : Embeds toEReal where
  lt _ _ := toEReal_strictMono.lt_iff_lt
  le _ _ := toEReal_strictMono.le_iff_le
  injective := toEReal_strictMono.injective

end Number

lemma toEReal_lt {a b : PyFloat} (h : a < b) : a.toEReal < b.toEReal :=
  Number.toEReal_strictMono (a := ⟨a, (ne_nan_of_lt h).1⟩) (b := ⟨b, (ne_nan_of_lt h).2⟩) h

lemma lt_of_toEReal_lt {a b : PyFloat} (ha : a ≠ .nan) (h : a.toEReal < b.toEReal) : a < b := by
  have hb : b ≠ .nan := by
    rintro rfl
    exact not_lt_bot h
  have hlt : (⟨a, ha⟩ : Number) < ⟨b, hb⟩ := Number.toEReal_strictMono.lt_iff_lt.1 h
  exact hlt

/-- No number of the list is above its maximum. -/
lemma le_maximum {xs : List PyFloat} (h : ∀ x ∈ xs, x ≠ .nan) {m : PyFloat}
    (hm : maximum xs = some m) : ∀ x ∈ xs, x ≤ m := by
  obtain ⟨ns, rfl⟩ := exists_numbers h
  have hfold (n : Number) (ns : List Number) : (ns.map Number.val).foldl maxOf n.val =
      (ns.foldl max n).val := by
    induction ns generalizing n with
    | nil => rfl
    | cons k ns ih =>
      rw [List.map_cons, List.foldl_cons, Number.embeds_val.maxOf, maxOf_eq_max, ih, List.foldl_cons]
  cases ns with
  | nil => cases hm
  | cons n ns =>
    have hm : m = (ns.foldl max n).val := (Option.some.inj hm).symm.trans (hfold n ns)
    have hmax : (n :: ns).max? = some (ns.foldl max n) := rfl
    rw [List.forall_mem_map, hm]
    exact (List.max?_eq_some_iff.1 hmax).2

end PyFloat

open PyFloat (Number)

/-! ### Intervals of floats -/

/-- Each interval ends after its start. -/
def Proper (ivs : List (Interval PyFloat)) : Prop :=
  ∀ i ∈ ivs, i.1 < i.2

instance (ivs : List (Interval PyFloat)) : Decidable (Proper ivs) :=
  inferInstanceAs (Decidable (∀ i ∈ ivs, i.1 < i.2))

/-- The intervals are sorted, with a gap between any two. -/
structure Merged (ivs : List (Interval PyFloat)) : Prop where
  proper : Proper ivs
  gaps : ivs.Pairwise fun i j => i.2 < j.1

instance (ivs : List (Interval PyFloat)) : Decidable (Merged ivs) :=
  decidable_of_iff (Proper ivs ∧ ivs.Pairwise fun i j => i.2 < j.1)
    ⟨fun h => ⟨h.1, h.2⟩, fun h => ⟨h.proper, h.gaps⟩⟩

/-- The reals from `lo` on, before `hi`. -/
def span (lo hi : EReal) : Set ℝ := {x | lo ≤ x ∧ x < hi}

/-- The reals that intervals cover. -/
def points (ivs : List (Interval PyFloat)) : Set ℝ :=
  {x | ∃ i ∈ ivs, x ∈ span i.1.toEReal i.2.toEReal}

/-- Intervals of numbers, among those of floats. -/
abbrev numberIntervals (ns : List (Interval Number)) : List (Interval PyFloat) :=
  ns.map (Prod.map Number.val Number.val)

/-- Intervals of numbers, among those of extended reals. -/
noncomputable abbrev erealIntervals (ns : List (Interval Number)) : List (Interval EReal) :=
  ns.map (Prod.map Number.toEReal Number.toEReal)

lemma merged_nil : Merged [] :=
  ⟨nofun, List.Pairwise.nil⟩

lemma points_nil : points [] = ∅ :=
  Set.eq_empty_of_forall_notMem fun _ ⟨_, hi, _⟩ => List.not_mem_nil hi

lemma points_append (ivs jvs : List (Interval PyFloat)) :
    points (ivs ++ jvs) = points ivs ∪ points jvs := by
  ext x
  simp [points, or_and_right, exists_or]

lemma exists_numberIntervals {ivs : List (Interval PyFloat)} (h : Proper ivs) :
    ∃ ns : List (Interval Number), ivs = numberIntervals ns ∧ ∀ n ∈ ns, n.1 < n.2 := by
  induction ivs with
  | nil => exact ⟨[], rfl, nofun⟩
  | cons i ivs ih =>
    rw [Proper, List.forall_mem_cons] at h
    obtain ⟨ns, rfl, hns⟩ := ih h.2
    have hnumbers := PyFloat.ne_nan_of_lt h.1
    exact ⟨(⟨i.1, hnumbers.1⟩, ⟨i.2, hnumbers.2⟩) :: ns, rfl, List.forall_mem_cons.2 ⟨h.1, hns⟩⟩

section

variable {ns ms : List (Interval Number)}

lemma mem_points {x : ℝ} : x ∈ points (numberIntervals ns) ↔ Covers (erealIntervals ns) (x : EReal) := by
  constructor
  · rintro ⟨i, hi, hx⟩
    obtain ⟨n, hn, rfl⟩ := List.mem_map.1 hi
    exact ⟨_, List.mem_map_of_mem hn, hx⟩
  · rintro ⟨i, hi, hx⟩
    obtain ⟨n, hn, rfl⟩ := List.mem_map.1 hi
    exact ⟨_, List.mem_map_of_mem hn, hx⟩

lemma erealIntervals_proper (h : ∀ n ∈ ns, n.1 < n.2) : ∀ i ∈ erealIntervals ns, i.1 < i.2 := by
  rw [List.forall_mem_map]
  exact fun n hn => Number.toEReal_strictMono (h n hn)

lemma erealIntervals_apart : Apart (erealIntervals ns) ↔ Apart ns := by
  rw [Apart, Apart, List.pairwise_map]
  simp only [Prod.map_fst, Prod.map_snd, Number.embeds_toEReal.lt]

lemma merged_numberIntervals : Merged (numberIntervals ns) ↔ (∀ n ∈ ns, n.1 < n.2) ∧ Apart ns := by
  have hproper : Proper (numberIntervals ns) ↔ ∀ n ∈ ns, n.1 < n.2 := List.forall_mem_map
  have hgaps : (numberIntervals ns).Pairwise (fun i j => i.2 < j.1) ↔ Apart ns := List.pairwise_map
  exact ⟨fun h => ⟨hproper.1 h.proper, hgaps.1 h.gaps⟩, fun h => ⟨hproper.2 h.1, hgaps.2 h.2⟩⟩

lemma Merged.exists_numbers {ivs : List (Interval PyFloat)} (h : Merged ivs) :
    ∃ ns, ivs = numberIntervals ns ∧ (∀ n ∈ ns, n.1 < n.2) ∧ Apart ns := by
  obtain ⟨ns, rfl, -⟩ := exists_numberIntervals h.proper
  exact ⟨ns, rfl, merged_numberIntervals.1 h⟩

/-! ### The operations -/

lemma covers_erealIntervals_merge (ns : List (Interval Number)) (x : EReal) :
    Covers (erealIntervals (merge ns)) x ↔ Covers (erealIntervals ns) x := by
  rw [erealIntervals, ← Number.embeds_toEReal.merge, covers_merge]

/-- Merged intervals cover what the intervals do. -/
theorem points_merge {ivs : List (Interval PyFloat)} (h : Proper ivs) :
    Merged (merge ivs) ∧ points (merge ivs) = points ivs := by
  obtain ⟨ns, rfl, hns⟩ := exists_numberIntervals h
  rw [Number.embeds_val.merge]
  refine ⟨merged_numberIntervals.2 ⟨merge_all (fun i e hi he => hi.trans_le he) hns, merge_apart ns⟩, ?_⟩
  ext x
  rw [mem_points, mem_points, covers_erealIntervals_merge]

/-- Merged lists overlap where both cover. -/
theorem points_intersect {as bs : List (Interval PyFloat)} (has : Merged as) (hbs : Merged bs) :
    points (intersect as bs) = points as ∩ points bs := by
  obtain ⟨ns, rfl, -, hns⟩ := has.exists_numbers
  obtain ⟨ms, rfl, -, hms⟩ := hbs.exists_numbers
  rw [Number.embeds_val.intersect]
  ext x
  rw [Set.mem_inter_iff, mem_points, mem_points, mem_points, erealIntervals,
    ← Number.embeds_toEReal.intersect,
    covers_intersect (erealIntervals_apart.2 hns) (erealIntervals_apart.2 hms)]

lemma merged_intersect {as bs : List (Interval PyFloat)} (has : Merged as) (hbs : Merged bs) :
    Merged (intersect as bs) := by
  obtain ⟨ns, rfl, -, hns⟩ := has.exists_numbers
  obtain ⟨ms, rfl, -, hms⟩ := hbs.exists_numbers
  rw [Number.embeds_val.intersect]
  exact merged_numberIntervals.2 ⟨intersect_all ns ms, intersect_apart hns hms⟩

/-- A difference covers what the base covers and the cut does not. -/
theorem points_subtract {base cut : List (Interval PyFloat)} (hbase : Proper base)
    (hcut : Proper cut) : points (subtract base cut) = points base \ points cut := by
  obtain ⟨ns, rfl, -⟩ := exists_numberIntervals hbase
  obtain ⟨ms, rfl, -⟩ := exists_numberIntervals hcut
  rw [Number.embeds_val.subtract]
  ext x
  rw [Set.mem_sdiff, mem_points, mem_points, mem_points, erealIntervals,
    ← Number.embeds_toEReal.subtract, covers_subtract]

lemma merged_subtract {base cut : List (Interval PyFloat)} (hbase : Merged base)
    (hcut : Proper cut) : Merged (subtract base cut) := by
  obtain ⟨ns, rfl, hns, hapart⟩ := hbase.exists_numbers
  obtain ⟨ms, rfl, hms⟩ := exists_numberIntervals hcut
  rw [Number.embeds_val.subtract]
  exact merged_numberIntervals.2 (subtract_apart hapart hns hms).symm

lemma eq_nil_of_ends_nan {ivs : List (Interval PyFloat)} (h : ∀ i ∈ ivs, i.2 ≤ .nan) :
    ivs = [] := by
  refine List.eq_nil_iff_forall_not_mem.2 fun i hi => ?_
  have hle : i.2.le .nan = true := h i hi
  cases hend : i.2 <;> rw [hend] at hle <;> cases hle

lemma merge_ends_le {ivs : List (Interval PyFloat)} (h : Proper ivs) {stop : PyFloat}
    (hstop : ∀ i ∈ ivs, i.2 ≤ stop) : ∀ i ∈ merge ivs, i.2 ≤ stop := by
  by_cases hnan : stop = .nan
  · rw [hnan] at hstop
    rw [eq_nil_of_ends_nan hstop]
    exact nofun
  obtain ⟨ns, rfl, hns⟩ := exists_numberIntervals h
  have hends : ∀ n ∈ merge ns, n.2 ≤ ⟨stop, hnan⟩ :=
    merge_ends hns fun n hn => hstop _ (List.mem_map_of_mem hn)
  rw [Number.embeds_val.merge, List.forall_mem_map]
  exact hends

/-- The gaps of merged intervals cover what these do not, up to the end. -/
theorem points_complement {ivs : List (Interval PyFloat)} (h : Proper ivs) {stop : PyFloat}
    (hstop : ∀ i ∈ ivs, i.2 ≤ stop) :
    Merged (complement (.fin 0) ivs stop) ∧
      points (complement (.fin 0) ivs stop) = span 0 stop.toEReal \ points ivs := by
  by_cases hnan : stop = .nan
  · have hnone : ivs = [] := eq_nil_of_ends_nan (hnan ▸ hstop)
    have hempty : span 0 (PyFloat.nan).toEReal = ∅ :=
      Set.eq_empty_of_forall_notMem fun x hx => not_lt_bot hx.2
    rw [hnone, hnan, hempty, Set.empty_sdiff]
    exact ⟨merged_nil, points_nil⟩
  obtain ⟨ns, rfl, hns⟩ := exists_numberIntervals h
  have hends : ∀ n ∈ merge ns, n.2 ≤ ⟨stop, hnan⟩ :=
    merge_ends hns fun n hn => hstop _ (List.mem_map_of_mem hn)
  have hproper : ∀ n ∈ merge ns, n.1 < n.2 := merge_all (fun i e hi he => hi.trans_le he) hns
  have hgaps : complement (.fin 0) (numberIntervals ns) stop =
      numberIntervals (gapsFrom ⟨stop, hnan⟩ ⟨.fin 0, nofun⟩ (merge ns)) := by
    rw [complement, Number.embeds_val.merge]
    exact Number.embeds_val.gapsFrom ⟨stop, hnan⟩ ⟨.fin 0, nofun⟩ (merge ns)
  have hzero : (⟨.fin 0, nofun⟩ : Number).toEReal = 0 := by simp [Number.toEReal, PyFloat.toEReal]
  rw [hgaps]
  refine ⟨merged_numberIntervals.2 ⟨gapsFrom_all _ _ _, gapsFrom_apart hproper⟩, ?_⟩
  ext x
  rw [Set.mem_sdiff, mem_points, mem_points, erealIntervals, ← Number.embeds_toEReal.gapsFrom,
    covers_gapsFrom (erealIntervals_apart.2 (merge_apart ns)) (erealIntervals_proper hproper), hzero,
    covers_erealIntervals_merge]
  · rfl
  · rw [List.forall_mem_map]
    exact fun n hn => Number.toEReal_strictMono.monotone (hends n hn)

/-! ### Maximal gaps -/

/-- The interval is in `s`, and no longer one is. -/
structure MaximalSpan (s : Set ℝ) (lo hi : EReal) : Prop where
  lt : lo < hi
  within : span lo hi ⊆ s
  maximal : ∀ lo' hi', lo' ≤ lo → hi ≤ hi' → span lo' hi' ⊆ s → lo' = lo ∧ hi' = hi

lemma ne_bot_of_span_subset {lo hi : EReal} (hlt : lo < hi) {start : ℝ}
    (h : span lo hi ⊆ Set.Ici start) : lo ≠ ⊥ := by
  rintro rfl
  obtain ⟨y, -, hy⟩ := EReal.lt_iff_exists_real_btwn.1 hlt
  have hbefore : min y (start - 1) ∈ span ⊥ hi :=
    ⟨bot_le, lt_of_le_of_lt (EReal.coe_le_coe_iff.2 (min_le_left _ _)) hy⟩
  have hle : start ≤ min y (start - 1) := h hbefore
  have := min_le_right y (start - 1)
  linarith

/-- Extended reals are covered where reals are, when nothing is before some time. -/
lemma span_subset_iff {start : ℝ} (hstart : points (numberIntervals ns) ⊆ Set.Ici start)
    {lo hi : EReal} : span lo hi ⊆ points (numberIntervals ns) ↔
      ∀ x, lo ≤ x → x < hi → Covers (erealIntervals ns) x := by
  refine ⟨fun h x hlo hhi => ?_, fun h x hx => mem_points.2 (h x hx.1 hx.2)⟩
  induction x with
  | bot =>
    have hne := ne_bot_of_span_subset (hlo.trans_lt hhi) (h.trans hstart)
    exact absurd (le_bot_iff.1 hlo) hne
  | top => exact absurd hhi not_top_lt
  | coe x => exact mem_points.1 (h ⟨hlo, hhi⟩)

lemma maximalSpan_iff {start : ℝ} (hstart : points (numberIntervals ns) ⊆ Set.Ici start)
    {g : Interval EReal} : MaximalSpan (points (numberIntervals ns)) g.1 g.2 ↔
      MaximalIn (Covers (erealIntervals ns)) g := by
  constructor
  · intro h
    refine ⟨h.lt, (span_subset_iff hstart).1 h.within, fun k hlo hhi hk => ?_⟩
    obtain ⟨hfst, hsnd⟩ := h.maximal k.1 k.2 hlo hhi ((span_subset_iff hstart).2 hk)
    exact Prod.ext hfst hsnd
  · intro h
    refine ⟨h.lt, (span_subset_iff hstart).2 h.within, fun lo hi hlo hhi hk => ?_⟩
    have heq := h.maximal (lo, hi) hlo hhi ((span_subset_iff hstart).1 hk)
    exact ⟨congrArg Prod.fst heq, congrArg Prod.snd heq⟩

/-- Intervals with gaps between them are the maximal ones in what they cover, if that has a start. -/
theorem Merged.mem_iff {ivs : List (Interval PyFloat)} (h : Merged ivs) {start : ℝ}
    (hstart : points ivs ⊆ Set.Ici start) {i : Interval PyFloat} :
    i ∈ ivs ↔ MaximalSpan (points ivs) i.1.toEReal i.2.toEReal := by
  obtain ⟨ns, rfl, hns, hapart⟩ := h.exists_numbers
  have hmem (n : Interval Number) : n ∈ ns ↔
      MaximalSpan (points (numberIntervals ns)) n.1.toEReal n.2.toEReal := by
    have hinjective : Function.Injective (Prod.map Number.toEReal Number.toEReal) :=
      Number.embeds_toEReal.injective.prodMap Number.embeds_toEReal.injective
    rw [← List.mem_map_of_injective hinjective, (erealIntervals_apart.2 hapart).mem_iff
      (erealIntervals_proper hns), ← maximalSpan_iff hstart]
    rfl
  constructor
  · intro hi
    obtain ⟨n, hn, rfl⟩ := List.mem_map.1 hi
    exact (hmem n).1 hn
  · intro hmaximal
    have hend : i.2 ≠ .nan := by
      intro hnan
      have hlt := hmaximal.lt
      rw [hnan] at hlt
      exact not_lt_bot hlt
    have hbegin : i.1 ≠ .nan := by
      intro hnan
      refine ne_bot_of_span_subset hmaximal.lt (hmaximal.within.trans hstart) ?_
      rw [hnan]
      rfl
    exact List.mem_map_of_mem ((hmem (⟨i.1, hbegin⟩, ⟨i.2, hend⟩)).2 hmaximal)

/-- An interval that merged intervals cover is in one of them. -/
lemma Merged.exists_around {ivs : List (Interval PyFloat)} (h : Merged ivs) {start : ℝ}
    (hstart : points ivs ⊆ Set.Ici start) {lo hi : EReal} (hlt : lo < hi)
    (hsub : span lo hi ⊆ points ivs) : ∃ i ∈ ivs, i.1.toEReal ≤ lo ∧ hi ≤ i.2.toEReal := by
  obtain ⟨ns, rfl, hns, hapart⟩ := h.exists_numbers
  obtain ⟨j, hj, hlo, hhi⟩ := (erealIntervals_apart.2 hapart).exists_around
    (erealIntervals_proper hns) hlt ((span_subset_iff hstart).1 hsub)
  obtain ⟨n, hn, rfl⟩ := List.mem_map.1 hj
  exact ⟨_, List.mem_map_of_mem hn, hlo, hhi⟩

lemma Merged.filter {ivs : List (Interval PyFloat)} (h : Merged ivs) (p : Interval PyFloat → Bool) :
    Merged (ivs.filter p) :=
  ⟨fun i hi => h.proper i (List.mem_of_mem_filter hi), h.gaps.filter p⟩

/-- Intervals that are empty or reversed cover nothing. -/
lemma points_filter_proper {ivs : List (Interval PyFloat)} (h : ∀ i ∈ ivs, i.1 ≠ .nan) :
    points (ivs.filter fun i => i.1 < i.2) = points ivs := by
  ext x
  constructor
  · rintro ⟨i, hi, hx⟩
    exact ⟨i, List.mem_of_mem_filter hi, hx⟩
  · rintro ⟨i, hi, hx⟩
    have hlt : i.1 < i.2 := PyFloat.lt_of_toEReal_lt (h i hi) (hx.1.trans_lt hx.2)
    exact ⟨i, List.mem_filter.2 ⟨hi, decide_eq_true hlt⟩, hx⟩

/-- Merged intervals are in one order. -/
lemma Merged.eq_of_mem_iff {ivs jvs : List (Interval PyFloat)} (h : Merged ivs) (h' : Merged jvs)
    (hmem : ∀ i, i ∈ ivs ↔ i ∈ jvs) : ivs = jvs := by
  have hstarts {ivs : List (Interval PyFloat)} (hivs : Merged ivs) :
      ivs.Pairwise fun i j => i.1.lt j.1 = true :=
    hivs.gaps.imp_of_mem fun {i j} hi _ hlt =>
      PyFloat.strictOrder_lt.trans i.1 i.2 j.1 (hivs.proper i hi) hlt
  have hasymm {i j : Interval PyFloat} (hlt : i.1.lt j.1 = true) (hgt : j.1.lt i.1 = true) : i = j := by
    rw [PyFloat.strictOrder_lt.asymm i.1 j.1 hlt] at hgt
    cases hgt
  have hdistinct {i j : Interval PyFloat} (hlt : i.1.lt j.1 = true) : i ≠ j := by
    rintro rfl
    rw [PyFloat.strictOrder_lt.asymm i.1 i.1 hlt] at hlt
    cases hlt
  have hperm : ivs.Perm jvs :=
    (List.perm_ext_iff_of_nodup ((hstarts h).imp hdistinct) ((hstarts h').imp hdistinct)).2 hmem
  exact hperm.eq_of_pairwise (fun _ _ _ _ => hasymm) (hstarts h) (hstarts h')

/-! ### Measures -/

namespace PyFloat

lemma extent_add {a b : PyFloat} (ha : .fin 0 ≤ a) (hb : .fin 0 ≤ b) :
    .fin 0 ≤ a + b ∧ extent (a + b) = extent a + extent b := by
  cases a with
  | fin p =>
    rw [fin_le_fin_iff] at ha
    cases b with
    | fin q =>
      rw [fin_le_fin_iff] at hb
      rw [fin_add_fin, fin_le_fin_iff, extent, extent, extent, Rat.cast_add,
        ENNReal.ofReal_add (Rat.cast_nonneg.2 ha) (Rat.cast_nonneg.2 hb)]
      exact ⟨add_nonneg ha hb, rfl⟩
    | inf => exact ⟨rfl, (add_top _).symm⟩
    | negInf | nan => cases hb
  | inf =>
    cases b with
    | fin | inf => exact ⟨rfl, (top_add _).symm⟩
    | negInf | nan => cases hb
  | negInf | nan => cases ha

/-- A length is told by its extent. -/
lemma eq_of_extent {a b : PyFloat} (ha : .fin 0 ≤ a) (hb : .fin 0 ≤ b)
    (h : extent a = extent b) : a = b := by
  cases a with
  | fin p =>
    rw [fin_le_fin_iff] at ha
    cases b with
    | fin q =>
      rw [fin_le_fin_iff] at hb
      rw [extent, extent, ENNReal.ofReal_eq_ofReal_iff (Rat.cast_nonneg.2 ha) (Rat.cast_nonneg.2 hb),
        Rat.cast_inj] at h
      rw [h]
    | inf => exact absurd h ENNReal.ofReal_ne_top
    | negInf | nan => cases hb
  | inf =>
    cases b with
    | fin => exact absurd h.symm ENNReal.ofReal_ne_top
    | inf => rfl
    | negInf | nan => cases hb
  | negInf | nan => cases ha

lemma le_of_extent_le {a b : PyFloat} (ha : .fin 0 ≤ a) (hb : .fin 0 ≤ b)
    (h : extent a ≤ extent b) : a ≤ b := by
  cases b with
  | fin q =>
    rw [fin_le_fin_iff] at hb
    cases a with
    | fin p => rwa [extent, extent, ENNReal.ofReal_le_ofReal_iff (Rat.cast_nonneg.2 hb), Rat.cast_le,
        ← fin_le_fin_iff] at h
    | inf => exact absurd (top_le_iff.1 h) ENNReal.ofReal_ne_top
    | negInf | nan => cases ha
  | inf =>
    cases a with
    | fin | inf => rfl
    | negInf | nan => cases ha
  | negInf | nan => cases hb

end PyFloat

open PyFloat (extent)

lemma volume_span {a b : PyFloat} (h : a < b) :
    .fin 0 ≤ b - a ∧ volume (span a.toEReal b.toEReal) = extent (b - a) := by
  have h : a.lt b = true := h
  cases a with
  | fin p =>
    cases b with
    | fin q =>
      have hlt : p < q := of_decide_eq_true h
      have hspan : span (PyFloat.fin p).toEReal (PyFloat.fin q).toEReal = Set.Ico (p : ℝ) q := by
        ext x
        simp [span, PyFloat.toEReal]
      rw [hspan, Real.volume_Ico, PyFloat.fin_sub_fin, PyFloat.fin_le_fin_iff, extent, Rat.cast_sub]
      exact ⟨sub_nonneg.2 hlt.le, rfl⟩
    | inf =>
      have hspan : span (PyFloat.fin p).toEReal PyFloat.inf.toEReal = Set.Ici (p : ℝ) := by
        ext x
        simp [span, PyFloat.toEReal]
      rw [hspan, Real.volume_Ici]
      exact ⟨rfl, rfl⟩
    | negInf | nan => cases h
  | negInf =>
    cases b with
    | fin q =>
      have hspan : span PyFloat.negInf.toEReal (PyFloat.fin q).toEReal = Set.Iio (q : ℝ) := by
        ext x
        simp [span, PyFloat.toEReal]
      rw [hspan, Real.volume_Iio]
      exact ⟨rfl, rfl⟩
    | inf =>
      have hspan : span PyFloat.negInf.toEReal PyFloat.inf.toEReal = Set.univ := by
        ext x
        simp [span, PyFloat.toEReal]
      rw [hspan, Real.volume_univ]
      exact ⟨rfl, rfl⟩
    | negInf | nan => cases h
  | inf | nan => cases b <;> cases h

/-- An interval within another is not longer. -/
lemma length_le {i j : Interval PyFloat} (hi : i.1 < i.2) (hj : j.1 < j.2)
    (h : span i.1.toEReal i.2.toEReal ⊆ span j.1.toEReal j.2.toEReal) : i.2 - i.1 ≤ j.2 - j.1 := by
  obtain ⟨hi, hivolume⟩ := volume_span hi
  obtain ⟨hj, hjvolume⟩ := volume_span hj
  refine PyFloat.le_of_extent_le hi hj ?_
  rw [← hivolume, ← hjvolume]
  exact measure_mono h

lemma measurableSet_span (lo hi : EReal) : MeasurableSet (span lo hi) :=
  measurable_coe_real_ereal measurableSet_Ico

lemma measurableSet_points (ivs : List (Interval PyFloat)) : MeasurableSet (points ivs) := by
  have hunion : points ivs = ⋃ i ∈ {i | i ∈ ivs}, span i.1.toEReal i.2.toEReal := by
    ext x
    simp [points]
  rw [hunion]
  exact MeasurableSet.biUnion (List.finite_toSet ivs).countable fun i _ => measurableSet_span _ _

lemma extent_foldl {ds : List PyFloat} (hds : ∀ d ∈ ds, .fin 0 ≤ d) {acc : PyFloat}
    (hacc : .fin 0 ≤ acc) : .fin 0 ≤ ds.foldl (· + ·) acc ∧
      extent (ds.foldl (· + ·) acc) = extent acc + (ds.map extent).sum := by
  induction ds generalizing acc with
  | nil => exact ⟨hacc, (add_zero _).symm⟩
  | cons d ds ih =>
    rw [List.forall_mem_cons] at hds
    obtain ⟨hnonneg, hextent⟩ := PyFloat.extent_add hacc hds.1
    obtain ⟨hrest, hsum⟩ := ih hds.2 hnonneg
    rw [List.foldl_cons, hsum, hextent, List.map_cons, List.sum_cons, add_assoc]
    exact ⟨hrest, rfl⟩

lemma extent_total {ivs : List (Interval PyFloat)} (h : Proper ivs) :
    .fin 0 ≤ total ivs ∧ extent (total ivs) = (ivs.map fun i => extent (i.2 - i.1)).sum := by
  have hlengths : ∀ d ∈ ivs.map fun i => i.2 - i.1, .fin 0 ≤ d := by
    rw [List.forall_mem_map]
    exact fun i hi => (volume_span (h i hi)).1
  have hstart : .fin 0 ≤ (0 : PyFloat) := PyFloat.fin_le_fin_iff.2 le_rfl
  have hfold := extent_foldl hlengths hstart
  have hzero : extent 0 = 0 := by
    change ENNReal.ofReal ((0 : ℚ) : ℝ) = 0
    simp
  rw [hzero, zero_add, List.map_map] at hfold
  exact hfold

/-- The total length of merged intervals is the measure of what they cover. -/
theorem volume_points {ivs : List (Interval PyFloat)} (h : Merged ivs) :
    volume (points ivs) = extent (total ivs) := by
  rw [(extent_total h.proper).2]
  obtain ⟨hproper, hgaps⟩ := h
  induction ivs with
  | nil => simp [points]
  | cons i ivs ih =>
    rw [List.pairwise_cons] at hgaps
    rw [Proper, List.forall_mem_cons] at hproper
    have hunion : points (i :: ivs) = span i.1.toEReal i.2.toEReal ∪ points ivs := by
      ext x
      simp [points]
    have hdisjoint : Disjoint (span i.1.toEReal i.2.toEReal) (points ivs) := by
      refine Set.disjoint_left.2 fun x hx hj => ?_
      obtain ⟨j, hj, hjx⟩ := hj
      have hlt : i.2.toEReal < j.1.toEReal := PyFloat.toEReal_lt (hgaps.1 j hj)
      exact lt_irrefl _ ((hx.2.trans hlt).trans_le hjx.1)
    rw [hunion, measure_union hdisjoint (measurableSet_points ivs), (volume_span hproper.1).2,
      ih hproper.2 hgaps.2, List.map_cons, List.sum_cons]

/-- The measure of merged intervals is a rational, if it is not infinite. -/
lemma exists_rat_volume {ivs : List (Interval PyFloat)} (h : Merged ivs)
    (hfinite : volume (points ivs) ≠ ⊤) :
    ∃ q : ℚ, 0 ≤ q ∧ total ivs = .fin q ∧ volume (points ivs) = ENNReal.ofReal q := by
  have hnonneg := (extent_total h.proper).1
  rw [volume_points h] at hfinite ⊢
  cases htotal : total ivs with
  | fin q =>
    rw [htotal] at hnonneg
    exact ⟨q, PyFloat.fin_le_fin_iff.1 hnonneg, rfl, rfl⟩
  | inf =>
    rw [htotal] at hfinite
    exact absurd rfl hfinite
  | negInf | nan =>
    rw [htotal] at hnonneg
    cases hnonneg

/-- Totals differ by what the one list covers and the other does not. -/
lemma exists_difference {as bs : List (Interval PyFloat)} (has : Merged as) (hbs : Merged bs)
    (hafinite : volume (points as) ≠ ⊤) (hbfinite : volume (points bs) ≠ ⊤) :
    ∃ b extra missed : ℚ, (0 ≤ b ∧ volume (points bs) = ENNReal.ofReal b) ∧
      (0 ≤ extra ∧ volume (points as \ points bs) = ENNReal.ofReal extra) ∧
      (0 ≤ missed ∧ volume (points bs \ points as) = ENNReal.ofReal missed) ∧
      total bs = .fin b ∧ total as = .fin (b + extra - missed) := by
  have hdifference {as bs : List (Interval PyFloat)} (has : Merged as) (hbs : Merged bs)
      (hfinite : volume (points as) ≠ ⊤) :
      ∃ q : ℚ, 0 ≤ q ∧ volume (points as \ points bs) = ENNReal.ofReal q := by
    rw [← points_subtract has.proper hbs.proper]
    have hle : volume (points (subtract as bs)) ≤ volume (points as) := by
      rw [points_subtract has.proper hbs.proper]
      exact measure_mono Set.sdiff_subset
    obtain ⟨q, hq, -, hvolume⟩ :=
      exists_rat_volume (merged_subtract has hbs.proper) (ne_top_of_le_ne_top hfinite hle)
    exact ⟨q, hq, hvolume⟩
  obtain ⟨a, ha, hatotal, havolume⟩ := exists_rat_volume has hafinite
  obtain ⟨b, hb, hbtotal, hbvolume⟩ := exists_rat_volume hbs hbfinite
  obtain ⟨extra, hextra, hextravolume⟩ := hdifference has hbs hafinite
  obtain ⟨missed, hmissed, hmissedvolume⟩ := hdifference hbs has hbfinite
  have hunion : volume (points as) + volume (points bs \ points as) =
      volume (points bs) + volume (points as \ points bs) := by
    rw [measure_add_sdiff (measurableSet_points as).nullMeasurableSet,
      measure_add_sdiff (measurableSet_points bs).nullMeasurableSet, Set.union_comm]
  have hsum : a + missed = b + extra := by
    rw [havolume, hbvolume, hextravolume, hmissedvolume,
      ← ENNReal.ofReal_add (Rat.cast_nonneg.2 ha) (Rat.cast_nonneg.2 hmissed),
      ← ENNReal.ofReal_add (Rat.cast_nonneg.2 hb) (Rat.cast_nonneg.2 hextra),
      ENNReal.ofReal_eq_ofReal_iff (by positivity) (by positivity)] at hunion
    exact_mod_cast hunion
  refine ⟨b, extra, missed, ⟨hb, hbvolume⟩, ⟨hextra, hextravolume⟩, ⟨hmissed, hmissedvolume⟩, hbtotal, ?_⟩
  rw [hatotal, ← hsum, add_sub_cancel_right]

/-- Two merged lists are as long together as their union and their overlap. -/
theorem total_add_total {as bs : List (Interval PyFloat)} (has : Merged as) (hbs : Merged bs) :
    total as + total bs = total (merge (as ++ bs)) + total (intersect as bs) := by
  have hboth : Proper (as ++ bs) := List.forall_mem_append.2 ⟨has.proper, hbs.proper⟩
  obtain ⟨hmerged, hunion⟩ := points_merge hboth
  have hextralap := merged_intersect has hbs
  have hleft := PyFloat.extent_add (extent_total has.proper).1 (extent_total hbs.proper).1
  have hright := PyFloat.extent_add (extent_total hmerged.proper).1 (extent_total hextralap.proper).1
  refine PyFloat.eq_of_extent hleft.1 hright.1 ?_
  rw [hleft.2, hright.2, ← volume_points has, ← volume_points hbs, ← volume_points hmerged,
    ← volume_points hextralap, hunion, points_append, points_intersect has hbs,
    measure_union_add_inter _ (measurableSet_points bs)]

end

end Pulse.Lib
