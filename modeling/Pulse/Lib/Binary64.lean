import Mathlib.Data.Int.Log
import Pulse.Lib.PyFloat

/-!
# Doubles

The numbers of IEEE 754 binary64 without their sign, as rationals: a decimal is read as the nearest
one, and a double is written as the shortest decimal that is read as it.
-/

namespace Pulse.Lib

/-! ### Reading -/

/-- The exponent of the last place of a double of that size. -/
def lastPlace (q : ℚ) : ℤ :=
  if Int.log 2 q - 52 < -1074 then -1074 else Int.log 2 q - 52

/-- The nearest double, from halfway the one with the even significand. There is no largest one
here. -/
def nearestDouble (q : ℚ) : ℚ := roundEven (q / 2 ^ lastPlace q) * 2 ^ lastPlace q

/-- What doubles are. -/
def IsDouble (x : ℚ) : Prop := ∃ (m : ℕ) (e : ℤ), m < 2 ^ 53 ∧ -1074 ≤ e ∧ x = m * 2 ^ e

lemma roundEven_eq_or (q : ℚ) : roundEven q = ⌊q⌋ ∨ roundEven q = ⌊q⌋ + 1 := by
  unfold roundEven
  dsimp only
  split
  · exact .inl rfl
  · exact .inr rfl

lemma roundEven_natCast (n : ℕ) : roundEven (n : ℚ) = n := by
  unfold roundEven
  simp

lemma two_zpow_pos (e : ℤ) : (0 : ℚ) < 2 ^ e := zpow_pos (by norm_num) e

lemma lt_two_zpow (q : ℚ) : q < 2 ^ (lastPlace q + 53) := by
  have hlog : q < (2 : ℚ) ^ (Int.log 2 q + 1) := Int.lt_zpow_succ_log_self (by decide) q
  refine hlog.trans_le (zpow_le_zpow_right₀ (by norm_num) ?_)
  unfold lastPlace
  omega

/-- A double is a multiple of its last place. -/
lemma lastPlace_le {m : ℕ} {e : ℤ} (hm : m < 2 ^ 53) (hpos : 0 < m) (he : -1074 ≤ e) :
    lastPlace (m * 2 ^ e) ≤ e := by
  have hlt : (m * 2 ^ e : ℚ) < 2 ^ (53 + e) := by
    rw [zpow_add₀ (by norm_num)]
    apply mul_lt_mul_of_pos_right _ (two_zpow_pos e)
    exact_mod_cast hm
  have hq : (0 : ℚ) < m * 2 ^ e := mul_pos (by exact_mod_cast hpos) (two_zpow_pos e)
  have hlog : Int.log 2 (m * 2 ^ e : ℚ) < 53 + e :=
    (Int.lt_zpow_iff_log_lt (by decide) hq).1 (by exact_mod_cast hlt)
  unfold lastPlace
  omega

lemma nearestDouble_of_isDouble {x : ℚ} (h : IsDouble x) : nearestDouble x = x := by
  obtain ⟨m, e, hm, he, rfl⟩ := h
  rcases Nat.eq_zero_or_pos m with rfl | hpos
  · have hzero := roundEven_natCast 0
    simp only [Nat.cast_zero] at hzero
    simp [nearestDouble, hzero]
  · have hle := lastPlace_le hm hpos he
    obtain ⟨k, hk⟩ := Int.eq_ofNat_of_zero_le (sub_nonneg.2 hle)
    have hquot : (m * 2 ^ e : ℚ) / 2 ^ lastPlace (m * 2 ^ e) = (m * 2 ^ k : ℕ) := by
      rw [mul_div_assoc, ← zpow_sub₀ (by norm_num), hk]
      push_cast
      rw [zpow_natCast]
    rw [nearestDouble, hquot, roundEven_natCast, Int.cast_natCast, ← hquot]
    exact div_mul_cancel₀ _ (two_zpow_pos _).ne'

lemma isDouble_of_le {m : ℕ} {e : ℤ} (hm : m ≤ 2 ^ 53) (he : -1074 ≤ e) :
    IsDouble (m * 2 ^ e) := by
  rcases Nat.lt_or_eq_of_le hm with hlt | rfl
  · exact ⟨m, e, hlt, he, rfl⟩
  · refine ⟨2 ^ 52, e + 1, by decide, by omega, ?_⟩
    rw [zpow_add₀ (by norm_num)]
    push_cast
    ring

lemma roundEven_nonneg {q : ℚ} (hq : 0 ≤ q) : 0 ≤ roundEven q := by
  have hmono := roundEven_mono hq
  rwa [← Nat.cast_zero, roundEven_natCast] at hmono

lemma isDouble_nearestDouble {q : ℚ} (hq : 0 ≤ q) : IsDouble (nearestDouble q) := by
  have hplace := two_zpow_pos (lastPlace q)
  have hnonneg : 0 ≤ roundEven (q / 2 ^ lastPlace q) := roundEven_nonneg (by positivity)
  have hle : roundEven (q / 2 ^ lastPlace q) ≤ 2 ^ 53 := by
    have hquot : q / 2 ^ lastPlace q ≤ ((2 ^ 53 : ℕ) : ℚ) := by
      rw [div_le_iff₀ hplace]
      have hlt := lt_two_zpow q
      rw [add_comm, zpow_add₀ (by norm_num)] at hlt
      exact_mod_cast hlt.le
    have hmono := roundEven_mono hquot
    rw [roundEven_natCast] at hmono
    exact_mod_cast hmono
  obtain ⟨m, hm⟩ := Int.eq_ofNat_of_zero_le hnonneg
  rw [nearestDouble, hm, Int.cast_natCast]
  refine isDouble_of_le (by omega) ?_
  unfold lastPlace
  omega

lemma nearestDouble_natCast {n : ℕ} (hn : n ≤ 2 ^ 53) : nearestDouble n = n := by
  have h := isDouble_of_le (e := 0) hn (by decide)
  rw [zpow_zero, mul_one] at h
  exact nearestDouble_of_isDouble h

/-- From `2 ^ 53` on nothing is read as a smaller number. -/
lemma le_nearestDouble {q : ℚ} (hq : 2 ^ 53 ≤ q) : 2 ^ 53 ≤ nearestDouble q := by
  have hpos : 0 < q := lt_of_lt_of_le (by norm_num) hq
  have hself : (2 : ℚ) ^ Int.log 2 q ≤ q := Int.zpow_log_le_self (by decide) hpos
  have hlog : 53 ≤ Int.log 2 q := by
    have hmono := Int.log_mono_right (b := 2) (by norm_num) hq
    have hpow := Int.log_zpow (R := ℚ) (b := 2) (by decide) 53
    exact hpow ▸ (by exact_mod_cast hmono)
  have hplace : lastPlace q = Int.log 2 q - 52 := if_neg (by omega)
  have hquot : ((2 ^ 52 : ℕ) : ℚ) ≤ q / 2 ^ lastPlace q := by
    rw [le_div_iff₀ (two_zpow_pos _), hplace]
    refine le_trans (le_of_eq ?_) hself
    rw [zpow_sub₀ (by norm_num)]
    push_cast
    field_simp
  have hround := roundEven_mono hquot
  rw [roundEven_natCast] at hround
  have hround : (2 ^ 52 : ℚ) ≤ roundEven (q / 2 ^ lastPlace q) := by exact_mod_cast hround
  have hunit : (2 : ℚ) ≤ 2 ^ lastPlace q := by
    have hone : (2 : ℚ) ^ (1 : ℤ) ≤ 2 ^ lastPlace q :=
      zpow_le_zpow_right₀ (by norm_num) (by omega)
    rwa [zpow_one] at hone
  calc (2 ^ 53 : ℚ) = 2 ^ 52 * 2 := by norm_num
    _ ≤ roundEven (q / 2 ^ lastPlace q) * 2 ^ lastPlace q :=
      mul_le_mul hround hunit (by norm_num) (by positivity)

/-! ### Writing -/

/-- A decimal of `n + 1` digits next to `x` that is read as `x`, and the nearest one if both are. -/
def decimalOf (x : ℚ) (n : ℕ) : Option ℚ :=
  let unit : ℚ := 10 ^ (Int.log 10 x - n)
  let below := ⌊x / unit⌋ * unit
  let above := (⌊x / unit⌋ + 1) * unit
  if nearestDouble below = x then
    if nearestDouble above = x then some (roundEven (x / unit) * unit) else some below
  else if nearestDouble above = x then some above
  else none

/-- The shortest decimal that is read as `x`: 17 digits are enough for every double. -/
def shortestDecimal (x : ℚ) : ℚ := ((List.range 17).findSome? (decimalOf x)).getD x

lemma nearestDouble_of_decimalOf {x r : ℚ} {n : ℕ} (h : decimalOf x n = some r) :
    nearestDouble r = x := by
  unfold decimalOf at h
  dsimp only at h
  split at h
  · next hbelow =>
    split at h
    · next habove =>
      cases h
      rcases roundEven_eq_or (x / 10 ^ (Int.log 10 x - n)) with heq | heq
      · rwa [heq]
      · rw [heq]
        exact_mod_cast habove
    · cases h
      exact hbelow
  · split at h
    · next habove =>
      cases h
      exact habove
    · cases h

lemma nearestDouble_shortestDecimal {x : ℚ} (hx : nearestDouble x = x) :
    nearestDouble (shortestDecimal x) = x := by
  unfold shortestDecimal
  cases hfind : (List.range 17).findSome? (decimalOf x) with
  | none => exact hx
  | some r =>
    obtain ⟨n, -, hn⟩ := List.exists_of_findSome?_eq_some hfind
    exact nearestDouble_of_decimalOf hn

lemma decimalOf_nonneg {x r : ℚ} {n : ℕ} (hx : 0 ≤ x) (h : decimalOf x n = some r) : 0 ≤ r := by
  have hunit : (0 : ℚ) ≤ 10 ^ (Int.log 10 x - n) := zpow_nonneg (by norm_num) _
  have hfloor : (0 : ℚ) ≤ ⌊x / 10 ^ (Int.log 10 x - n)⌋ := by
    exact_mod_cast Int.floor_nonneg.2 (div_nonneg hx hunit)
  have hround : (0 : ℚ) ≤ roundEven (x / 10 ^ (Int.log 10 x - n)) := by
    exact_mod_cast roundEven_nonneg (div_nonneg hx hunit)
  unfold decimalOf at h
  dsimp only at h
  split at h
  · split at h
    · cases h
      positivity
    · cases h
      positivity
  · split at h
    · cases h
      positivity
    · cases h

lemma shortestDecimal_nonneg {x : ℚ} (hx : 0 ≤ x) : 0 ≤ shortestDecimal x := by
  unfold shortestDecimal
  cases hfind : (List.range 17).findSome? (decimalOf x) with
  | none => exact hx
  | some r =>
    obtain ⟨n, -, hn⟩ := List.exists_of_findSome?_eq_some hfind
    exact decimalOf_nonneg hx hn

lemma IsDouble.nonneg {x : ℚ} (h : IsDouble x) : 0 ≤ x := by
  obtain ⟨m, e, -, -, rfl⟩ := h
  have hpos := two_zpow_pos e
  positivity

/-- What has been written once is written again. -/
lemma shortestDecimal_nearestDouble {q : ℚ} (hq : 0 ≤ q) :
    shortestDecimal (nearestDouble (shortestDecimal (nearestDouble q))) =
      shortestDecimal (nearestDouble q) := by
  have hx := nearestDouble_of_isDouble (isDouble_nearestDouble hq)
  rw [nearestDouble_shortestDecimal hx]

/-! ### Integers -/

/-- As long as a place is that of a digit, only the integer itself is read as it. -/
lemma decimalOf_natCast {n k j : ℕ} (hn : n < 2 ^ 53) (hk : Int.log 10 (n : ℚ) - j = k) :
    decimalOf n j = if n / 10 ^ k * 10 ^ k = n then some (n : ℚ) else none := by
  have hpos : 0 < 10 ^ k := Nat.pow_pos (by decide)
  have hle : n / 10 ^ k * 10 ^ k ≤ n := Nat.div_mul_le_self ..
  have hlt : n < (n / 10 ^ k + 1) * 10 ^ k := by
    rw [Nat.succ_mul]
    exact Nat.lt_div_mul_add hpos
  have hfloor : ⌊(n : ℚ) / 10 ^ k⌋ = (n / 10 ^ k : ℕ) := by
    exact_mod_cast Rat.floor_natCast_div_natCast n (10 ^ k)
  have hbelow : nearestDouble ((n / 10 ^ k * 10 ^ k : ℕ) : ℚ) = (n / 10 ^ k * 10 ^ k : ℕ) :=
    nearestDouble_natCast (hle.trans hn.le)
  have habove : nearestDouble (((n / 10 ^ k + 1) * 10 ^ k : ℕ) : ℚ) ≠ n := by
    rcases Nat.le_total ((n / 10 ^ k + 1) * 10 ^ k) (2 ^ 53) with h | h
    · rw [nearestDouble_natCast h]
      exact_mod_cast hlt.ne'
    · have hfar := le_nearestDouble (q := ((n / 10 ^ k + 1) * 10 ^ k : ℕ)) (by exact_mod_cast h)
      have hnear : (n : ℚ) < 2 ^ 53 := by exact_mod_cast hn
      exact (hnear.trans_le hfar).ne'
  unfold decimalOf
  rw [hk, zpow_natCast]
  dsimp only
  rw [hfloor]
  generalize n / 10 ^ k = m at *
  push_cast at hbelow habove ⊢
  rw [hbelow, if_neg habove, if_neg habove]
  by_cases heq : m * 10 ^ k = n
  · have hcast : (m * 10 ^ k : ℚ) = n := by exact_mod_cast heq
    rw [if_pos hcast, if_pos heq, hcast]
  · have hcast : (m * 10 ^ k : ℚ) ≠ n := by exact_mod_cast heq
    rw [if_neg hcast, if_neg heq]

lemma findSome?_range {α : Type*} {f : ℕ → Option α} {a : α} {l m : ℕ} (hlm : l < m)
    (hl : f l = some a) (h : ∀ j ≤ l, ∀ b, f j = some b → b = a) :
    (List.range m).findSome? f = some a := by
  obtain ⟨d, rfl⟩ := Nat.exists_eq_add_of_lt hlm
  rw [Nat.add_right_comm, List.range_add, List.findSome?_append]
  cases hfirst : (List.range (l + 1)).findSome? f with
  | none =>
    rw [List.findSome?_eq_none_iff] at hfirst
    rw [hfirst l (List.mem_range.2 (Nat.lt_succ_self l))] at hl
    cases hl
  | some b =>
    obtain ⟨j, hj, hb⟩ := List.exists_of_findSome?_eq_some hfirst
    rw [Option.some_or, h j (Nat.le_of_lt_succ (List.mem_range.1 hj)) b hb]

/-- Integers below `2 ^ 53` are written as they are. -/
theorem shortestDecimal_natCast {n : ℕ} (hn : n < 2 ^ 53) : shortestDecimal n = n := by
  have hlog : Int.log 10 (n : ℚ) = Nat.log 10 n := Int.log_natCast 10 n
  have hdigits : Nat.log 10 n < 17 := by
    have hlt : n < 10 ^ 17 := hn.trans (by norm_num)
    rcases Nat.eq_zero_or_pos n with rfl | hpos
    · simp
    · exact Nat.log_lt_of_lt_pow hpos.ne' hlt
  have hfind : (List.range 17).findSome? (decimalOf n) = some (n : ℚ) := by
    apply findSome?_range hdigits
    · rw [decimalOf_natCast (k := 0) hn (by omega)]
      simp
    · intro j hj r hr
      rw [decimalOf_natCast (k := Nat.log 10 n - j) hn (by omega)] at hr
      split at hr
      · exact (Option.some.inj hr).symm
      · cases hr
  rw [shortestDecimal, hfind, Option.getD_some]

end Pulse.Lib
