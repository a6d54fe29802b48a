import Mathlib.Data.Rat.Floor
import Mathlib.Tactic.FieldSimp
import Mathlib.Tactic.Linarith
import Mathlib.Tactic.Ring
import Pulse.Lib.Arrays

/-!
# Waveform peaks

`channel_peaks` of `core/audio/peaks.py` makes one pair of each bucket of samples, and the viewer
(`Recording.tsx`) draws the pair `k` at `k / peaks_per_second` seconds. The last bucket is filled up
with zeros, and a bucket has a whole number of samples.
-/

namespace Pulse.Core.Audio

open Lib (LeastBy frombuffer leastBy padTo reshape setStrided tobytes)

/-- `bucket_len`; the rate of peaks is positive. -/
def bucketLen (sampleRate peaksPerSecond : Int) : Nat := max 1 (sampleRate / peaksPerSecond).toNat

/-- `channel_peaks`. No result: there is no shape for the samples, or an empty row. -/
def channelPeaks (samples : List Int16) (sampleRate peaksPerSecond : Int) : Option (List UInt8) :=
  if samples.length = 0 ∨ peaksPerSecond ≤ 0 then some []
  else do
    let len := bucketLen sampleRate peaksPerSecond
    let nBuckets := ⌈(samples.length : ℚ) / len⌉₊
    let grid ← reshape len (padTo (nBuckets * len) 0 samples)
    let mins ← grid.rows.mapM (leastBy Int16.toInt)
    let maxs ← grid.rows.mapM (leastBy fun x => -x.toInt)
    return tobytes (setStrided 1 2 maxs (setStrided 0 2 mins (List.replicate (nBuckets * 2) 0)))

/-- The pairs that `Wave` draws. -/
def pairsOf (pk : List Int16) : List (Int16 × Int16) :=
  (List.range (pk.length / 2)).map fun i => (pk.getD (2 * i) 0, pk.getD (2 * i + 1) 0)

/-- `decodePeaks`, and the pairs of it. -/
def decodePeaks (bytes : List UInt8) : Option (List (Int16 × Int16)) :=
  (frombuffer bytes).map pairsOf

/-! ### What the viewer shows -/

/-- The samples of one bucket. -/
def bucket (samples : List Int16) (len i : Nat) : List Int16 := (samples.drop (i * len)).take len

/-- Each pair has the extrema of its bucket, each sample is in one bucket, and the viewer puts each
pair within its bucket, at most one bucket from where its samples begin. -/
structure TruePeaks (pairs : List (Int16 × Int16)) (samples : List Int16) (len : Nat)
    (sampleRate peaksPerSecond : Int) : Prop where
  minimum : ∀ i (hi : i < pairs.length), LeastBy Int16.toInt pairs[i].1 (bucket samples len i)
  maximum : ∀ i (hi : i < pairs.length),
    LeastBy (fun x => -x.toInt) pairs[i].2 (bucket samples len i)
  once : ∀ j < samples.length, ∃! i, i < pairs.length ∧ i * len ≤ j ∧ j < (i + 1) * len
  covers : ∀ i < pairs.length, (i * len : ℚ) / sampleRate ≤ i / peaksPerSecond ∧
    (i / peaksPerSecond : ℚ) ≤ (i + 1) * len / sampleRate
  near : ∀ i < pairs.length,
    |(i / peaksPerSecond : ℚ) - i * len / sampleRate| ≤ len / sampleRate

def ShowsTruePeaks (samples : List Int16) (sampleRate peaksPerSecond : Int) : Prop :=
  ∃ bytes pairs, channelPeaks samples sampleRate peaksPerSecond = some bytes ∧
    decodePeaks bytes = some pairs ∧
      TruePeaks pairs samples (bucketLen sampleRate peaksPerSecond) sampleRate peaksPerSecond

/-- The number of the last bucket. -/
def lastIndex (samples : List Int16) (len : Nat) : Nat := (samples.length - 1) / len

/-- The last bucket is full, or there are samples on both sides of zero in it. -/
def LastReachesZero (samples : List Int16) (len : Nat) : Prop :=
  samples.length % len = 0 ∨
    (∃ s ∈ bucket samples len (lastIndex samples len), s.toInt ≤ 0) ∧
      ∃ s ∈ bucket samples len (lastIndex samples len), 0 ≤ s.toInt

/-- What the rate leaves over in each bucket has not become a bucket by the last one. -/
def DriftWithinBucket (samples : List Int16) (sampleRate peaksPerSecond : Int) : Prop :=
  lastIndex samples (bucketLen sampleRate peaksPerSecond) * (sampleRate % peaksPerSecond) ≤
    peaksPerSecond * bucketLen sampleRate peaksPerSecond

/-! ### The buckets -/

/-- One row of the grid: the samples with the zeros after them, from `i * len` on. -/
def row (samples : List Int16) (len i : Nat) : List Int16 :=
  ((padTo ((lastIndex samples len + 1) * len) 0 samples).drop (i * len)).take len

section

variable {samples : List Int16} {len : Nat}

lemma lastIndex_bounds (hne : samples ≠ []) (hlen : 0 < len) :
    lastIndex samples len * len < samples.length ∧
      samples.length ≤ (lastIndex samples len + 1) * len := by
  have hpos := List.length_pos_iff.2 hne
  have hle := Nat.div_mul_le_self (samples.length - 1) len
  have hlt := Nat.lt_div_mul_add hlen (a := samples.length - 1)
  rw [Nat.succ_mul]
  unfold lastIndex
  omega

lemma nBuckets_eq (hne : samples ≠ []) (hlen : 0 < len) :
    ⌈(samples.length : ℚ) / len⌉₊ = lastIndex samples len + 1 := by
  obtain ⟨hlt, hle⟩ := lastIndex_bounds hne hlen
  have hpos : (0 : ℚ) < len := by exact_mod_cast hlen
  rw [Nat.ceil_eq_iff (Nat.add_one_ne_zero _), Nat.add_sub_cancel, lt_div_iff₀ hpos,
    div_le_iff₀ hpos]
  exact_mod_cast And.intro hlt hle

/-- A row is a bucket, filled up. -/
lemma row_eq (hne : samples ≠ []) (hlen : 0 < len) {i : Nat} (hi : i ≤ lastIndex samples len) :
    row samples len i =
      bucket samples len i ++ List.replicate (len - (bucket samples len i).length) 0 := by
  obtain ⟨hlt, hle⟩ := lastIndex_bounds hne hlen
  have hmul : i * len ≤ lastIndex samples len * len := Nat.mul_le_mul_right _ hi
  have hfirst : i * len - samples.length = 0 := by omega
  rw [row, padTo, List.drop_append, hfirst, List.drop_zero, List.take_append, List.take_replicate,
    List.length_drop, bucket, List.length_take, List.length_drop]
  congr 2
  rw [Nat.succ_mul] at hle ⊢
  rcases Nat.lt_or_eq_of_le hi with hbefore | rfl
  · have hnext : (i + 1) * len ≤ lastIndex samples len * len := Nat.mul_le_mul_right _ hbefore
    rw [Nat.succ_mul] at hnext
    omega
  · omega

/-- What is missing from a bucket: nothing, but for the last one. -/
lemma bucket_full_iff (hne : samples ≠ []) (hlen : 0 < len) {i : Nat}
    (hi : i ≤ lastIndex samples len) :
    len - (bucket samples len i).length = 0 ↔
      i < lastIndex samples len ∨ samples.length % len = 0 := by
  obtain ⟨hlt, hle⟩ := lastIndex_bounds hne hlen
  rw [bucket, List.length_take, List.length_drop]
  rcases Nat.lt_or_eq_of_le hi with hbefore | rfl
  · have hnext : (i + 1) * len ≤ lastIndex samples len * len := Nat.mul_le_mul_right _ hbefore
    rw [Nat.succ_mul] at hnext
    simp only [hbefore, true_or, iff_true]
    omega
  · simp only [Nat.lt_irrefl, false_or]
    rw [← Nat.dvd_iff_mod_eq_zero]
    constructor
    · intro hfull
      refine ⟨lastIndex samples len + 1, ?_⟩
      rw [Nat.mul_comm]
      rw [Nat.succ_mul] at hle ⊢
      omega
    · rintro ⟨m, hm⟩
      rw [hm, Nat.mul_comm len m] at hlt
      have hmul : (lastIndex samples len + 1) * len ≤ m * len :=
        Nat.mul_le_mul_right _ (Nat.lt_of_mul_lt_mul_right hlt)
      rw [Nat.succ_mul] at hmul
      rw [hm, Nat.mul_comm len m]
      omega

/-- The least of a row is the least of its bucket, unless the zeros at the end are below it. -/
lemma leastBy_row_iff (hne : samples ≠ []) (hlen : 0 < len) {i : Nat}
    (hi : i ≤ lastIndex samples len) {key : Int16 → Int} (hzero : key 0 = 0)
    (hinj : Function.Injective key) {m : Int16}
    (h : LeastBy key m (row samples len i)) :
    LeastBy key m (bucket samples len i) ↔ i < lastIndex samples len ∨
      samples.length % len = 0 ∨ ∃ s ∈ bucket samples len i, key s ≤ 0 := by
  rw [row_eq hne hlen hi] at h
  rw [Lib.leastBy_padded_iff hzero hinj h, bucket_full_iff hne hlen hi, or_assoc]

/-- Each sample is in the bucket that its number divided by the length is. -/
lemma existsUnique_bucket (hlen : 0 < len) {j : Nat} (hj : j < samples.length) :
    ∃! i, i < lastIndex samples len + 1 ∧ i * len ≤ j ∧ j < (i + 1) * len := by
  refine ⟨j / len, ⟨?_, Nat.div_mul_le_self j len, ?_⟩, ?_⟩
  · exact Nat.lt_succ_of_le (Nat.div_le_div_right (Nat.le_sub_one_of_lt hj))
  · rw [Nat.succ_mul]
    exact Nat.lt_div_mul_add hlen
  · rintro i ⟨-, hle, hlt⟩
    exact (Nat.div_eq_of_lt_le hle hlt).symm

end

/-! ### The pairs -/

section

variable {samples : List Int16} {sampleRate peaksPerSecond : Int}

lemma bucketLen_pos : 0 < bucketLen sampleRate peaksPerSecond :=
  Nat.le_max_left 1 _

/-- Minima and maxima written in turn are read in pairs. -/
lemma pairsOf_setStrided {mins maxs : List Int16} {n : Nat} (hmins : mins.length = n)
    (hmaxs : maxs.length = n) :
    pairsOf (setStrided 1 2 maxs (setStrided 0 2 mins (List.replicate (n * 2) 0))) =
      mins.zip maxs := by
  have hlength : n * 2 / 2 = n := Nat.mul_div_cancel _ (by decide)
  apply List.ext_getElem
  · simp [pairsOf, hmins, hmaxs, hlength]
  · intro i hi hzip
    have hin : i < n := by simpa [pairsOf, hlength] using hi
    obtain ⟨hmin, hmax⟩ := Lib.getElem?_setStrided_two
      (List.length_replicate (a := (0 : Int16))) hmins hmaxs hin
    have hfirst : 2 * i = 0 + i * 2 := by omega
    have hsecond : 2 * i + 1 = 1 + i * 2 := by omega
    simp only [pairsOf, List.getElem_map, List.getElem_range, List.getD_eq_getElem?_getD,
      List.getElem_zip]
    rw [hsecond, hmax, hfirst, hmin, List.getElem?_eq_getElem (hmins.symm ▸ hin),
      List.getElem?_eq_getElem (hmaxs.symm ▸ hin)]
    rfl

/-- The viewer reads the array that was written. -/
lemma decodePeaks_interleaved {mins maxs : List Int16} {n : Nat} (hmins : mins.length = n)
    (hmaxs : maxs.length = n) :
    decodePeaks (tobytes (setStrided 1 2 maxs (setStrided 0 2 mins (List.replicate (n * 2) 0)))) =
      some (mins.zip maxs) := by
  rw [decodePeaks, Lib.frombuffer_tobytes, Option.map_some, pairsOf_setStrided hmins hmaxs]

/-- The zeros fill the last row up, so there is a shape. -/
lemma reshape_filled (hne : samples ≠ []) {len : Nat} (hlen : 0 < len) :
    ∃ grid, reshape len (padTo ((lastIndex samples len + 1) * len) 0 samples) = some grid ∧
      grid.rows = (List.range (lastIndex samples len + 1)).map (row samples len) := by
  have hfilled := Lib.length_padTo (0 : Int16) (lastIndex_bounds hne hlen).2
  obtain ⟨grid, hgrid, -, hrows⟩ := Lib.reshape_of_dvd (hfilled ▸ Nat.dvd_mul_left len _)
  refine ⟨grid, hgrid, ?_⟩
  rw [hrows, Lib.rowsOf, hfilled, Nat.mul_div_cancel _ hlen]
  rfl

lemma row_ne_nil (hne : samples ≠ []) {len : Nat} (hlen : 0 < len) {i : Nat}
    (hi : i ≤ lastIndex samples len) : row samples len i ≠ [] := by
  rw [row_eq hne hlen hi, ← List.length_pos_iff, List.length_append, List.length_replicate]
  omega

/-- Each pair has the extrema of its row, zeros and all. -/
structure RowPeaks (pairs : List (Int16 × Int16)) (samples : List Int16) (len : Nat) : Prop where
  count : pairs.length = lastIndex samples len + 1
  minimum : ∀ i (hi : i < pairs.length), LeastBy Int16.toInt pairs[i].1 (row samples len i)
  maximum : ∀ i (hi : i < pairs.length),
    LeastBy (fun x => -x.toInt) pairs[i].2 (row samples len i)

lemma RowPeaks.zip {len : Nat} {mins maxs : List Int16}
    (hmins : List.Forall₂ (LeastBy Int16.toInt) mins
      ((List.range (lastIndex samples len + 1)).map (row samples len)))
    (hmaxs : List.Forall₂ (LeastBy fun x => -x.toInt) maxs
      ((List.range (lastIndex samples len + 1)).map (row samples len))) :
    RowPeaks (mins.zip maxs) samples len := by
  have hminsLength := hmins.length_eq
  have hmaxsLength := hmaxs.length_eq
  rw [List.length_map, List.length_range] at hminsLength hmaxsLength
  constructor
  · rw [List.length_zip, hminsLength, hmaxsLength, Nat.min_self]
  · intro i hi
    have hin := List.lt_length_left_of_zip hi
    simpa using hmins.get hin (by simpa [hminsLength] using hin)
  · intro i hi
    have hin := List.lt_length_right_of_zip hi
    simpa using hmaxs.get hin (by simpa [hmaxsLength] using hin)

/-- What the viewer has: for each row its extrema. -/
lemma exists_rowPeaks (hne : samples ≠ []) (hpps : 1 ≤ peaksPerSecond) (sampleRate : Int) :
    ∃ bytes pairs, channelPeaks samples sampleRate peaksPerSecond = some bytes ∧
      decodePeaks bytes = some pairs ∧
        RowPeaks pairs samples (bucketLen sampleRate peaksPerSecond) := by
  have hpos : 0 < bucketLen sampleRate peaksPerSecond := bucketLen_pos
  have hguard : ¬ (samples.length = 0 ∨ peaksPerSecond ≤ 0) := by
    rw [List.length_eq_zero_iff, not_or]
    exact ⟨hne, by omega⟩
  obtain ⟨grid, hgrid, hrows⟩ := reshape_filled hne hpos
  have hfull : ∀ as ∈ grid.rows, as ≠ [] := by
    rw [hrows, List.forall_mem_map]
    intro i hi
    exact row_ne_nil hne hpos (Nat.le_of_lt_succ (List.mem_range.1 hi))
  obtain ⟨mins, hmins, hleast⟩ := Lib.mapM_leastBy Int16.toInt hfull
  obtain ⟨maxs, hmaxs, hmost⟩ := Lib.mapM_leastBy (fun x : Int16 => -x.toInt) hfull
  rw [hrows] at hleast hmost
  have hminsLength := hleast.length_eq
  have hmaxsLength := hmost.length_eq
  rw [List.length_map, List.length_range, ← nBuckets_eq hne hpos] at hminsLength hmaxsLength
  have hread := decodePeaks_interleaved hminsLength hmaxsLength
  refine ⟨_, mins.zip maxs, ?_, hread, RowPeaks.zip hleast hmost⟩
  rw [← nBuckets_eq hne hpos] at hgrid
  rw [channelPeaks, if_neg hguard]
  simp only [hgrid, Option.bind_eq_bind, Option.bind_some, hmins, hmaxs]
  rfl

/-! ### The time of a pair -/

lemma bucketLen_cast (hpps : 1 ≤ peaksPerSecond) (hrate : peaksPerSecond ≤ sampleRate) :
    (bucketLen sampleRate peaksPerSecond : Int) = sampleRate / peaksPerSecond := by
  have hone : 1 ≤ sampleRate / peaksPerSecond := by
    rw [Int.le_ediv_iff_mul_le (by omega)]
    omega
  unfold bucketLen
  omega

/-- A pair is not drawn before its samples, and after them by what the rate leaves over. -/
lemma drift_eq (hpps : 1 ≤ peaksPerSecond) (hrate : peaksPerSecond ≤ sampleRate) (i : Nat) :
    (i / peaksPerSecond : ℚ) - i * bucketLen sampleRate peaksPerSecond / sampleRate =
      i * (sampleRate % peaksPerSecond : Int) / (peaksPerSecond * sampleRate) := by
  have hp : (0 : ℚ) < peaksPerSecond := by exact_mod_cast hpps
  have hr : (0 : ℚ) < sampleRate := by exact_mod_cast hpps.trans hrate
  have hsum : (sampleRate : ℚ) = peaksPerSecond * bucketLen sampleRate peaksPerSecond +
      (sampleRate % peaksPerSecond : Int) := by
    have hcast := bucketLen_cast hpps hrate
    have hmod := Int.mul_ediv_add_emod sampleRate peaksPerSecond
    rw [← hcast] at hmod
    exact_mod_cast hmod.symm
  rw [div_sub_div _ _ hp.ne' hr.ne', hsum]
  congr 1
  ring

lemma drift_le_iff (hpps : 1 ≤ peaksPerSecond) (hrate : peaksPerSecond ≤ sampleRate) (i : Nat) :
    (i / peaksPerSecond : ℚ) - i * bucketLen sampleRate peaksPerSecond / sampleRate ≤
        bucketLen sampleRate peaksPerSecond / sampleRate ↔
      i * (sampleRate % peaksPerSecond) ≤
        peaksPerSecond * bucketLen sampleRate peaksPerSecond := by
  have hp : (0 : ℚ) < peaksPerSecond := by exact_mod_cast hpps
  have hr : (0 : ℚ) < sampleRate := by exact_mod_cast hpps.trans hrate
  rw [drift_eq hpps hrate, ← div_div, div_le_div_iff_of_pos_right hr, div_le_iff₀ hp, mul_comm
    (bucketLen sampleRate peaksPerSecond : ℚ)]
  exact_mod_cast Iff.rfl

lemma drift_nonneg (hpps : 1 ≤ peaksPerSecond) (hrate : peaksPerSecond ≤ sampleRate) (i : Nat) :
    (0 : ℚ) ≤ i / peaksPerSecond - i * bucketLen sampleRate peaksPerSecond / sampleRate := by
  have hp : (0 : ℚ) < peaksPerSecond := by exact_mod_cast hpps
  have hr : (0 : ℚ) < sampleRate := by exact_mod_cast hpps.trans hrate
  have hmod : (0 : ℚ) ≤ (sampleRate % peaksPerSecond : Int) := by
    exact_mod_cast Int.emod_nonneg _ (by omega)
  rw [drift_eq hpps hrate]
  positivity

/-- The drift grows, so what holds of the last pair holds of all. -/
lemma drift_of_last (hpps : 1 ≤ peaksPerSecond)
    (h : DriftWithinBucket samples sampleRate peaksPerSecond) {i : Nat}
    (hi : i ≤ lastIndex samples (bucketLen sampleRate peaksPerSecond)) :
    i * (sampleRate % peaksPerSecond) ≤
      peaksPerSecond * bucketLen sampleRate peaksPerSecond := by
  have hmod := Int.emod_nonneg sampleRate (show peaksPerSecond ≠ 0 by omega)
  exact (mul_le_mul_of_nonneg_right (by exact_mod_cast hi) hmod).trans h

lemma toInt_injective : Function.Injective Int16.toInt := fun _ _ => Int16.toInt_inj.1

lemma neg_toInt_injective : Function.Injective fun x : Int16 => -x.toInt := fun _ _ h =>
  toInt_injective (Int.neg_inj.1 h)

section

variable {len : Nat} {pairs : List (Int16 × Int16)}

lemma reaches_of_truePeaks (hne : samples ≠ []) (hlen : 0 < len) (h : RowPeaks pairs samples len)
    (htrue : TruePeaks pairs samples len sampleRate peaksPerSecond) :
    LastReachesZero samples len := by
  have hlast : lastIndex samples len < pairs.length := h.count ▸ Nat.lt_succ_self _
  have hmin := (leastBy_row_iff hne hlen le_rfl rfl toInt_injective (h.minimum _ hlast)).1
    (htrue.minimum _ hlast)
  have hmax := (leastBy_row_iff hne hlen le_rfl rfl neg_toInt_injective (h.maximum _ hlast)).1
    (htrue.maximum _ hlast)
  rw [or_iff_right (Nat.lt_irrefl _)] at hmin hmax
  rcases hmin with hfull | hmin
  · exact .inl hfull
  · refine hmax.imp_right fun hmax => ⟨hmin, ?_⟩
    simpa only [Int.neg_nonpos_iff] using hmax

/-- Before the last bucket nothing is filled up. -/
lemma reaches_at (hreaches : LastReachesZero samples len) {i : Nat}
    (hi : i ≤ lastIndex samples len) : i < lastIndex samples len ∨ samples.length % len = 0 ∨
      (∃ s ∈ bucket samples len i, s.toInt ≤ 0) ∧ ∃ s ∈ bucket samples len i, 0 ≤ s.toInt := by
  rcases Nat.lt_or_eq_of_le hi with hlt | rfl
  · exact .inl hlt
  · exact .inr hreaches

lemma truePeaks_of_reaches (hne : samples ≠ []) (hpps : 1 ≤ peaksPerSecond)
    (hrate : peaksPerSecond ≤ sampleRate)
    (h : RowPeaks pairs samples (bucketLen sampleRate peaksPerSecond))
    (hreaches : LastReachesZero samples (bucketLen sampleRate peaksPerSecond))
    (hdrift : DriftWithinBucket samples sampleRate peaksPerSecond) :
    TruePeaks pairs samples (bucketLen sampleRate peaksPerSecond) sampleRate peaksPerSecond := by
  have hpos : 0 < bucketLen sampleRate peaksPerSecond := bucketLen_pos
  have hle {i : Nat} (hi : i < pairs.length) :
      i ≤ lastIndex samples (bucketLen sampleRate peaksPerSecond) :=
    Nat.le_of_lt_succ (Nat.lt_of_lt_of_eq hi h.count)
  have hwithin {i : Nat} (hi : i < pairs.length) := (drift_le_iff hpps hrate i).2
    (drift_of_last hpps hdrift (hle hi))
  constructor
  · intro i hi
    apply (leastBy_row_iff hne hpos (hle hi) rfl toInt_injective (h.minimum i hi)).2
    exact (reaches_at hreaches (hle hi)).imp_right (Or.imp_right And.left)
  · intro i hi
    apply (leastBy_row_iff hne hpos (hle hi) rfl neg_toInt_injective (h.maximum i hi)).2
    simp only [Int.neg_nonpos_iff]
    exact (reaches_at hreaches (hle hi)).imp_right (Or.imp_right And.right)
  · intro j hj
    rw [h.count]
    exact existsUnique_bucket hpos hj
  · intro i hi
    have hfirst := sub_nonneg.1 (drift_nonneg hpps hrate i)
    have hlast := sub_le_iff_le_add.1 (hwithin hi)
    refine ⟨hfirst, hlast.trans_eq ?_⟩
    ring
  · intro i hi
    rw [abs_of_nonneg (drift_nonneg hpps hrate i)]
    exact hwithin hi

lemma truePeaks_iff (hne : samples ≠ []) (hpps : 1 ≤ peaksPerSecond)
    (hrate : peaksPerSecond ≤ sampleRate)
    (h : RowPeaks pairs samples (bucketLen sampleRate peaksPerSecond)) :
    TruePeaks pairs samples (bucketLen sampleRate peaksPerSecond) sampleRate peaksPerSecond ↔
      LastReachesZero samples (bucketLen sampleRate peaksPerSecond) ∧
        DriftWithinBucket samples sampleRate peaksPerSecond := by
  constructor
  · intro htrue
    have hlast : lastIndex samples (bucketLen sampleRate peaksPerSecond) < pairs.length :=
      h.count ▸ Nat.lt_succ_self _
    have hnear := (le_abs_self _).trans (htrue.near _ hlast)
    exact ⟨reaches_of_truePeaks hne bucketLen_pos h htrue, (drift_le_iff hpps hrate _).1 hnear⟩
  · rintro ⟨hreaches, hdrift⟩
    exact truePeaks_of_reaches hne hpps hrate h hreaches hdrift

end

lemma reaches_of_shows (hne : samples ≠ []) (hpps : 1 ≤ peaksPerSecond)
    (hrate : peaksPerSecond ≤ sampleRate) (h : ShowsTruePeaks samples sampleRate peaksPerSecond) :
    LastReachesZero samples (bucketLen sampleRate peaksPerSecond) ∧
      DriftWithinBucket samples sampleRate peaksPerSecond := by
  obtain ⟨bytes, pairs, hbytes, hdecoded, hrows⟩ := exists_rowPeaks hne hpps sampleRate
  obtain ⟨bytes', pairs', hbytes', hdecoded', htrue⟩ := h
  obtain rfl := Option.some.inj (hbytes.symm.trans hbytes')
  obtain rfl := Option.some.inj (hdecoded.symm.trans hdecoded')
  exact (truePeaks_iff hne hpps hrate hrows).1 htrue

lemma shows_of_reaches (hne : samples ≠ []) (hpps : 1 ≤ peaksPerSecond)
    (hrate : peaksPerSecond ≤ sampleRate)
    (h : LastReachesZero samples (bucketLen sampleRate peaksPerSecond))
    (hdrift : DriftWithinBucket samples sampleRate peaksPerSecond) :
    ShowsTruePeaks samples sampleRate peaksPerSecond := by
  obtain ⟨bytes, pairs, hbytes, hdecoded, hrows⟩ := exists_rowPeaks hne hpps sampleRate
  exact ⟨bytes, pairs, hbytes, hdecoded, (truePeaks_iff hne hpps hrate hrows).2 ⟨h, hdrift⟩⟩

/-- The viewer shows true peaks, on its own scale of time, exactly when the last bucket is full or
reaches zero on both sides, and the rate leaves less than one bucket over until then. -/
theorem showsTruePeaks_iff (hne : samples ≠ []) (hpps : 1 ≤ peaksPerSecond)
    (hrate : peaksPerSecond ≤ sampleRate) :
    ShowsTruePeaks samples sampleRate peaksPerSecond ↔
      LastReachesZero samples (bucketLen sampleRate peaksPerSecond) ∧
        DriftWithinBucket samples sampleRate peaksPerSecond :=
  ⟨reaches_of_shows hne hpps hrate, fun h => shows_of_reaches hne hpps hrate h.1 h.2⟩

end

/-- Two full buckets of two samples. -/
theorem showsTruePeaks_full : ShowsTruePeaks [3, 1, 2, 2] 8000 4000 :=
  (showsTruePeaks_iff (by decide) (by decide) (by decide)).2
    ⟨.inl (by decide), by unfold DriftWithinBucket; decide⟩

/-- One sample of 160 is shown with the silence after it. -/
theorem channelPeaks_pads :
    ¬ ∀ (samples : List Int16) (sampleRate peaksPerSecond : Int), samples ≠ [] →
      1 ≤ peaksPerSecond → peaksPerSecond ≤ sampleRate →
        ShowsTruePeaks samples sampleRate peaksPerSecond := by
  intro h
  have hreaches := (reaches_of_shows (by decide) (by decide) (by decide)
    (h [5] 8000 50 (by decide) (by decide) (by decide))).1
  have hlen : bucketLen 8000 50 = 160 := by decide
  rw [hlen] at hreaches
  revert hreaches
  unfold LastReachesZero
  decide

end Pulse.Core.Audio
