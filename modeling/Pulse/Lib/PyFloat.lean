import Mathlib.Data.Rat.Floor
import Mathlib.Algebra.Order.Round
import Mathlib.Tactic.Linarith
import Mathlib.Tactic.Ring
import Mathlib.Tactic.Positivity
import Pulse.Lib.Intervals

/-!
# Floats

The floats of Python with exact arithmetic: a finite float is a rational, and the infinities and
not-a-number behave as in IEEE 754. `round` goes to the nearest decimal, and from halfway to the
even one.
-/

namespace Pulse.Lib

/-! ### Rounding of rationals -/

/-- `round(q)` -/
def roundEven (q : ℚ) : ℤ :=
  let r := q - ⌊q⌋
  if r < 1 / 2 ∨ r = 1 / 2 ∧ ⌊q⌋ % 2 = 0 then ⌊q⌋ else ⌊q⌋ + 1

/-- `round(q, n)` -/
def roundTo (n : Nat) (q : ℚ) : ℚ :=
  roundEven (q * 10 ^ n) / 10 ^ n

/-- An even number is at most the rounded one from halfway below it on. -/
lemma le_roundEven_iff {n : ℤ} (hn : n % 2 = 0) {q : ℚ} :
    n ≤ roundEven q ↔ (n : ℚ) - 1 / 2 ≤ q := by
  have hfloor : (⌊q⌋ : ℚ) ≤ q := Int.floor_le q
  have hnext : q < ⌊q⌋ + 1 := Int.lt_floor_add_one q
  unfold roundEven
  dsimp only
  split
  · next h =>
    constructor
    · intro hle
      have hle : (n : ℚ) ≤ ⌊q⌋ := by exact_mod_cast hle
      linarith
    · intro hle
      rcases h with h | ⟨h, heven⟩
      · have hlt : (n : ℚ) < ⌊q⌋ + 1 := by linarith
        have hlt : n < ⌊q⌋ + 1 := by exact_mod_cast hlt
        omega
      · have hle : (n : ℚ) ≤ ⌊q⌋ + 1 := by linarith
        have hle : n ≤ ⌊q⌋ + 1 := by exact_mod_cast hle
        omega
  · next h =>
    rw [not_or, not_lt] at h
    constructor
    · intro hle
      have hle : (n : ℚ) ≤ ⌊q⌋ + 1 := by exact_mod_cast hle
      linarith [h.1]
    · intro hle
      have hlt : (n : ℚ) < ⌊q⌋ + 2 := by linarith
      have hlt : n < ⌊q⌋ + 2 := by exact_mod_cast hlt
      omega

/-- The rounded number is at most an even one up to halfway above it. -/
lemma roundEven_le_iff {n : ℤ} (hn : n % 2 = 0) {q : ℚ} :
    roundEven q ≤ n ↔ q ≤ (n : ℚ) + 1 / 2 := by
  have hfloor : (⌊q⌋ : ℚ) ≤ q := Int.floor_le q
  have hnext : q < ⌊q⌋ + 1 := Int.lt_floor_add_one q
  unfold roundEven
  dsimp only
  split
  · next h =>
    have hhalf : q ≤ ⌊q⌋ + 1 / 2 := by
      rcases h with h | ⟨h, -⟩ <;> linarith
    constructor
    · intro hle
      have hle : (⌊q⌋ : ℚ) ≤ n := by exact_mod_cast hle
      linarith
    · intro hle
      have hlt : (⌊q⌋ : ℚ) < n + 1 := by linarith
      have hlt : ⌊q⌋ < n + 1 := by exact_mod_cast hlt
      omega
  · next h =>
    rw [not_or, not_lt] at h
    constructor
    · intro hle
      have hle : (⌊q⌋ : ℚ) + 1 ≤ n := by exact_mod_cast hle
      linarith
    · intro hle
      have hfloor_le : (⌊q⌋ : ℚ) ≤ n := by linarith [h.1]
      have hfloor_le : ⌊q⌋ ≤ n := by exact_mod_cast hfloor_le
      rcases hfloor_le.lt_or_eq with hlt | heq
      · omega
      · have hq : q - ⌊q⌋ = 1 / 2 := by
          rw [heq] at h ⊢
          linarith [h.1]
        exact absurd ⟨hq, heq ▸ hn⟩ h.2

lemma roundEven_mono {q r : ℚ} (h : q ≤ r) : roundEven q ≤ roundEven r := by
  have hbounds (q : ℚ) : ⌊q⌋ ≤ roundEven q ∧ roundEven q ≤ ⌊q⌋ + 1 := by
    unfold roundEven
    dsimp only
    split <;> omega
  rcases (Int.floor_le_floor h).lt_or_eq with hlt | heq
  · exact (hbounds q).2.trans (hlt.trans_le (hbounds r).1)
  · unfold roundEven
    dsimp only
    rw [← heq]
    split
    · split <;> omega
    · next hq =>
      -- past halfway, or at halfway above an odd number, the larger one is as well
      rw [if_neg]
      rw [not_or, not_lt] at hq ⊢
      refine ⟨hq.1.trans (by linarith), fun hhalf => hq.2 ⟨le_antisymm ?_ hq.1, hhalf.2⟩⟩
      linarith [hhalf.1]

lemma roundTo_mono (n : Nat) {q r : ℚ} (h : q ≤ r) : roundTo n q ≤ roundTo n r := by
  have hpos : (0 : ℚ) < 10 ^ n := by positivity
  refine div_le_div_of_nonneg_right ?_ hpos.le
  exact_mod_cast roundEven_mono (mul_le_mul_of_nonneg_right h hpos.le)

lemma roundTo_nonneg_iff {n : Nat} {q : ℚ} : 0 ≤ roundTo n q ↔ -(1 / 2) / 10 ^ n ≤ q := by
  have hpos : (0 : ℚ) < 10 ^ n := by positivity
  have heven := le_roundEven_iff (n := 0) rfl (q := q * 10 ^ n)
  rw [Int.cast_zero, zero_sub] at heven
  have hcast : 0 ≤ (roundEven (q * 10 ^ n) : ℚ) ↔ 0 ≤ roundEven (q * 10 ^ n) := Int.cast_nonneg_iff
  rw [roundTo, le_div_iff₀ hpos, zero_mul, hcast, heven, div_le_iff₀ hpos]

lemma roundTo_nonpos_iff {n : Nat} {q : ℚ} : roundTo n q ≤ 0 ↔ q ≤ 1 / 2 / 10 ^ n := by
  have hpos : (0 : ℚ) < 10 ^ n := by positivity
  have heven := roundEven_le_iff (n := 0) rfl (q := q * 10 ^ n)
  rw [Int.cast_zero, zero_add] at heven
  have hcast : (roundEven (q * 10 ^ n) : ℚ) ≤ 0 ↔ roundEven (q * 10 ^ n) ≤ 0 := Int.cast_nonpos
  rw [roundTo, div_le_iff₀ hpos, zero_mul, hcast, heven, ← le_div_iff₀ hpos]

lemma roundTo_le_one_iff {n : Nat} (hn : n ≠ 0) {q : ℚ} :
    roundTo n q ≤ 1 ↔ q ≤ 1 + 1 / 2 / 10 ^ n := by
  have hpos : (0 : ℚ) < 10 ^ n := by positivity
  have hten : (10 : ℤ) ^ n % 2 = 0 := by
    obtain ⟨m, rfl⟩ := Nat.exists_eq_succ_of_ne_zero hn
    rw [pow_succ]
    omega
  have heven := roundEven_le_iff hten (q := q * 10 ^ n)
  rw [Int.cast_pow, Int.cast_ofNat] at heven
  have hcast : (roundEven (q * 10 ^ n) : ℚ) ≤ 10 ^ n ↔ roundEven (q * 10 ^ n) ≤ 10 ^ n := by
    exact_mod_cast Iff.rfl
  rw [roundTo, div_le_one hpos, hcast, heven, ← le_div_iff₀ hpos, add_div, div_self hpos.ne']

/-! ### Floats -/

inductive PyFloat
  | fin (q : ℚ)
  | inf
  | negInf
  | nan
  deriving DecidableEq

namespace PyFloat

/-- `a < b` -/
def lt : PyFloat → PyFloat → Bool
  | .nan, _ | _, .nan => false
  | .fin a, .fin b => decide (a < b)
  | .fin _, .inf | .negInf, .fin _ | .negInf, .inf => true
  | _, _ => false

/-- `a <= b` -/
def le (a b : PyFloat) : Bool :=
  a.lt b || (a = b && a ≠ .nan)

instance : LT PyFloat := ⟨fun a b => a.lt b = true⟩

instance : LE PyFloat := ⟨fun a b => a.le b = true⟩

instance : DecidableLT PyFloat := fun a b => inferInstanceAs (Decidable (a.lt b = true))

instance : DecidableLE PyFloat := fun a b => inferInstanceAs (Decidable (a.le b = true))

/-- `-a` -/
def neg : PyFloat → PyFloat
  | .fin a => .fin (-a)
  | .inf => .negInf
  | .negInf => .inf
  | .nan => .nan

/-- `a + b` -/
def add : PyFloat → PyFloat → PyFloat
  | .fin a, .fin b => .fin (a + b)
  | .nan, _ | _, .nan | .inf, .negInf | .negInf, .inf => .nan
  | .inf, _ | _, .inf => .inf
  | .negInf, _ | _, .negInf => .negInf

/-- `a - b` -/
def sub (a b : PyFloat) : PyFloat :=
  a.add b.neg

instance : Zero PyFloat := ⟨.fin 0⟩

instance : Add PyFloat := ⟨add⟩

instance : Sub PyFloat := ⟨sub⟩

/-- `a * c` for a positive constant. -/
def scale (c : ℚ) : PyFloat → PyFloat
  | .fin a => .fin (a * c)
  | x => x

/-- `a / b` for a positive `b`. -/
def div : PyFloat → PyFloat → PyFloat
  | x, .fin b => x.scale b⁻¹
  | .fin _, .inf => .fin 0
  | _, _ => .nan

/-- `round(a, n)` -/
def round (n : Nat) : PyFloat → PyFloat
  | .fin a => .fin (roundTo n a)
  | x => x

/-- `min(xs)` of a list that is not empty. -/
def minimum : List PyFloat → Option PyFloat
  | [] => none
  | x :: xs => some (xs.foldl minOf x)

/-- `max(xs)` of a list that is not empty. -/
def maximum : List PyFloat → Option PyFloat
  | [] => none
  | x :: xs => some (xs.foldl maxOf x)

/-! ### Rational numbers -/

/-- The float is a number and not an infinity. -/
def Rational (x : PyFloat) : Prop :=
  ∃ q, x = .fin q

@[simp] lemma fin_add_fin (a b : ℚ) : PyFloat.fin a + .fin b = .fin (a + b) := rfl

@[simp] lemma fin_sub_fin (a b : ℚ) : PyFloat.fin a - .fin b = .fin (a - b) :=
  congrArg PyFloat.fin (sub_eq_add_neg a b).symm

@[simp] lemma rational_fin (q : ℚ) : (PyFloat.fin q).Rational := ⟨q, rfl⟩

@[simp] lemma fin_lt_fin_iff {a b : ℚ} : PyFloat.fin a < .fin b ↔ a < b := decide_eq_true_iff

@[simp] lemma fin_le_fin_iff {a b : ℚ} : PyFloat.fin a ≤ .fin b ↔ a ≤ b := by
  change (decide (a < b) || (PyFloat.fin a = .fin b && PyFloat.fin a ≠ .nan)) = true ↔ a ≤ b
  simp [le_iff_lt_or_eq]

/-- The rationals are in their order among the floats. -/
lemma embeds_fin : Embeds PyFloat.fin where
  lt _ _ := fin_lt_fin_iff
  le _ _ := fin_le_fin_iff
  injective _ _ h := PyFloat.fin.inj h

lemma exists_map_fin {xs : List PyFloat} (h : ∀ x ∈ xs, x.Rational) :
    ∃ qs : List ℚ, xs = qs.map .fin := by
  induction xs with
  | nil => exact ⟨[], rfl⟩
  | cons x xs ih =>
    rw [List.forall_mem_cons] at h
    obtain ⟨q, rfl⟩ := h.1
    obtain ⟨qs, rfl⟩ := ih h.2
    exact ⟨q :: qs, rfl⟩

/-- Intervals of rationals, as intervals of floats. -/
abbrev finIntervals (ivs : List (Interval ℚ)) : List (Interval PyFloat) :=
  ivs.map (Prod.map .fin .fin)

lemma exists_finIntervals {ivs : List (Interval PyFloat)}
    (h : ∀ i ∈ ivs, i.1.Rational ∧ i.2.Rational) : ∃ qs, ivs = finIntervals qs := by
  induction ivs with
  | nil => exact ⟨[], rfl⟩
  | cons i ivs ih =>
    rw [List.forall_mem_cons] at h
    obtain ⟨⟨a, ha⟩, b, hb⟩ := h.1
    obtain ⟨qs, rfl⟩ := ih h.2
    exact ⟨(a, b) :: qs, congrArg₂ List.cons (Prod.ext ha hb) rfl⟩

lemma total_finIntervals (ivs : List (Interval ℚ)) : total (finIntervals ivs) = .fin (total ivs) := by
  have hfold (ds : List ℚ) (d : ℚ) :
      (ds.map PyFloat.fin).foldl (· + ·) (.fin d) = .fin (ds.foldl (· + ·) d) := by
    induction ds generalizing d with
    | nil => rfl
    | cons e ds ih => exact ih (d + e)
  have hlengths : (finIntervals ivs).map (fun i => i.2 - i.1) =
      (ivs.map fun i => i.2 - i.1).map PyFloat.fin := by
    rw [List.map_map, List.map_map]
    apply List.map_congr_left
    intro i _
    exact fin_sub_fin i.2 i.1
  rw [total, hlengths]
  exact hfold _ 0

lemma minOf_eq_or (a b : PyFloat) : minOf a b = a ∨ minOf a b = b := by
  unfold minOf
  split
  · exact .inr rfl
  · exact .inl rfl

lemma maxOf_eq_or (a b : PyFloat) : maxOf a b = a ∨ maxOf a b = b := by
  unfold maxOf
  split
  · exact .inr rfl
  · exact .inl rfl

/-- A fold that keeps one of two numbers ends with one of those given. -/
lemma mem_of_foldl {f : PyFloat → PyFloat → PyFloat} (hf : ∀ a b, f a b = a ∨ f a b = b)
    (x : PyFloat) (xs : List PyFloat) : xs.foldl f x ∈ x :: xs := by
  induction xs generalizing x with
  | nil => exact List.mem_singleton_self x
  | cons y xs ih =>
    rw [List.foldl_cons]
    rcases List.mem_cons.1 (ih (f x y)) with h | h
    · rw [h]
      rcases hf x y with h | h <;> simp [h]
    · exact List.mem_cons_of_mem x (List.mem_cons_of_mem y h)

lemma mem_of_minimum {x : PyFloat} {xs : List PyFloat} (h : minimum xs = some x) : x ∈ xs := by
  cases xs with
  | nil => cases h
  | cons y xs =>
    cases h
    exact mem_of_foldl minOf_eq_or y xs

lemma mem_of_maximum {x : PyFloat} {xs : List PyFloat} (h : maximum xs = some x) : x ∈ xs := by
  cases xs with
  | nil => cases h
  | cons y xs =>
    cases h
    exact mem_of_foldl maxOf_eq_or y xs

/-- Rationals have a least one. -/
lemma exists_minimum {qs : List ℚ} (h : qs ≠ []) :
    ∃ m ∈ qs, (∀ q ∈ qs, m ≤ q) ∧ minimum (qs.map .fin) = some (.fin m) := by
  cases qs with
  | nil => exact absurd rfl h
  | cons q qs =>
    have hfold (q : ℚ) : ∃ m ∈ q :: qs, (∀ r ∈ q :: qs, m ≤ r) ∧
        (qs.map PyFloat.fin).foldl minOf (.fin q) = .fin m := by
      clear h
      induction qs generalizing q with
      | nil => exact ⟨q, by simp, by simp, rfl⟩
      | cons r qs ih =>
        obtain ⟨m, hm, hle, hfold⟩ := ih (min q r)
        rw [List.forall_mem_cons, le_min_iff] at hle
        refine ⟨m, ?_, by simpa [and_assoc] using hle, ?_⟩
        · rcases List.mem_cons.1 hm with rfl | hm
          · rcases min_choice q r with h | h <;> simp [h]
          · simp [hm]
        · rw [List.map_cons, List.foldl_cons, embeds_fin.minOf, minOf_eq_min, hfold]
    obtain ⟨m, hm, hle, hfold⟩ := hfold q
    exact ⟨m, hm, hle, congrArg some hfold⟩

/-- Rationals are sorted among the floats as among themselves. -/
lemma sorted_map_fin (qs : List ℚ) :
    sorted PyFloat.lt (qs.map .fin) = (sorted (fun a b => decide (a < b)) qs).map .fin :=
  (map_sorted (fun _ _ => rfl) qs).symm

/-! ### Floats in another order -/

lemma strictOrder_lt : StrictOrder PyFloat.lt where
  asymm a b h := by
    cases a <;> cases b <;> first | cases h; done | rfl | skip
    exact decide_eq_false (lt_asymm (fin_lt_fin_iff.1 h))
  trans a b c hab hbc := by
    cases a <;> cases b <;> cases c <;> first | cases hab; done | cases hbc; done | rfl | skip
    exact fin_lt_fin_iff.2 ((fin_lt_fin_iff.1 hab).trans (fin_lt_fin_iff.1 hbc))

lemma not_lt_of_le {a b : PyFloat} (h : a ≤ b) : ¬b < a := by
  have h : (a.lt b || (a = b && a ≠ .nan)) = true := h
  intro hlt
  have hlt : b.lt a = true := hlt
  have hle := strictOrder_lt.asymm b a hlt
  rw [hle, Bool.false_or, Bool.and_eq_true, decide_eq_true_eq] at h
  obtain ⟨rfl, -⟩ := h
  rw [hlt] at hle
  cases hle

/-- Two floats are compared unless one of them alone is not a number. -/
lemma decides_lt {a b : PyFloat} (h : a = .nan ↔ b = .nan) : Decides PyFloat.lt a b := by
  cases a with
  | fin p =>
    cases b with
    | fin q =>
      rcases lt_trichotomy p q with h | h | h
      · exact .inr (.inl (fin_lt_fin_iff.2 h))
      · exact .inl (congrArg PyFloat.fin h)
      · exact .inr (.inr (fin_lt_fin_iff.2 h))
    | inf => exact .inr (.inl rfl)
    | negInf => exact .inr (.inr rfl)
    | nan => simp at h
  | inf => cases b <;> first | exact .inl rfl | exact .inr (.inr rfl) | simp at h
  | negInf => cases b <;> first | exact .inl rfl | exact .inr (.inl rfl) | simp at h
  | nan => exact .inl (h.1 rfl).symm

/-- All of the floats are numbers, or none is. -/
def Comparable (xs : List PyFloat) : Prop :=
  ∀ x ∈ xs, ∀ y ∈ xs, x = .nan → y = .nan

lemma Comparable.decides {xs : List PyFloat} (h : Comparable xs) {x y : PyFloat} (hx : x ∈ xs)
    (hy : y ∈ xs) : Decides PyFloat.lt x y :=
  decides_lt ⟨h x hx y hy, h y hy x hx⟩

lemma Comparable.subset {xs ys : List PyFloat} (h : Comparable xs) (hsub : ys ⊆ xs) :
    Comparable ys :=
  fun x hx y hy => h x (hsub hx) y (hsub hy)

lemma minimum_perm {xs ys : List PyFloat} (hperm : xs.Perm ys) (h : Comparable xs) :
    minimum xs = minimum ys := by
  have heq (xs : List PyFloat) : minimum xs =
      xs.foldl (fun m x => some (m.elim x (firstBy PyFloat.lt · x))) none := by
    cases xs with
    | nil => rfl
    | cons x xs =>
      rw [minimum, List.foldl_cons]
      exact (List.foldl_hom some fun _ _ => rfl).symm
  rw [heq, heq, reduce_firstBy_perm strictOrder_lt hperm fun x hx y hy => h.decides hx hy]

lemma maximum_perm {xs ys : List PyFloat} (hperm : xs.Perm ys) (h : Comparable xs) :
    maximum xs = maximum ys := by
  have heq (xs : List PyFloat) : maximum xs =
      xs.foldl (fun m x => some (m.elim x (firstBy (fun a b => PyFloat.lt b a) · x))) none := by
    cases xs with
    | nil => rfl
    | cons x xs =>
      rw [maximum, List.foldl_cons]
      exact (List.foldl_hom some fun _ _ => rfl).symm
  rw [heq, heq, reduce_firstBy_perm strictOrder_lt.flip hperm fun x hx y hy =>
    (h.decides hx hy).flip]

lemma decide_lt : (fun a b : PyFloat => decide (a < b)) = PyFloat.lt :=
  funext fun _ => funext fun _ => Bool.decide_eq_true

/-- Intervals are merged to the same ones in whatever order they come, if their ends are
comparable. -/
lemma merge_perm {is js : List (Interval PyFloat)} (hperm : is.Perm js)
    (hstarts : Comparable (is.map Prod.fst)) (hends : Comparable (is.map Prod.snd)) :
    merge is = merge js := by
  have hdecides {xs : List PyFloat} (h : Comparable xs) {x y : PyFloat} (hx : x ∈ xs) (hy : y ∈ xs) :
      Decides (fun a b => decide (a < b)) x y := by
    rw [decide_lt]
    exact h.decides hx hy
  refine Lib.merge_perm (decide_lt ▸ strictOrder_lt) hperm
    (List.pairwise_of_forall_mem_list fun i hi j hj => ?_)
    (List.pairwise_of_forall_mem_list fun i hi j hj => ?_)
  · exact hdecides hstarts (List.mem_map_of_mem hi) (List.mem_map_of_mem hj)
  · exact hdecides hends (List.mem_map_of_mem hi) (List.mem_map_of_mem hj)

/-- What is less or greater than another is a number. -/
lemma ne_nan_of_lt {a b : PyFloat} (h : a < b) : a ≠ .nan ∧ b ≠ .nan := by
  have h : a.lt b = true := h
  cases a <;> cases b <;> first | cases h; done | simp

lemma comparable_of_ne_nan {xs : List PyFloat} (h : ∀ x ∈ xs, x ≠ .nan) : Comparable xs :=
  fun x hx _ _ hnan => absurd hnan (h x hx)

/-! ### Moving along the line -/

@[simp] lemma fin_lt_fin (a b : ℚ) : (PyFloat.fin a).lt (.fin b) = decide (a < b) := rfl

lemma lt_add_fin (a b : PyFloat) (d : ℚ) : (a + .fin d).lt (b + .fin d) = a.lt b := by
  cases a <;> cases b <;> first | rfl | simp

/-- A difference is the same when both numbers move. -/
lemma add_fin_sub_add_fin (a b : PyFloat) (d : ℚ) : (a + .fin d) - (b + .fin d) = a - b := by
  cases a <;> cases b <;> first | rfl | simp

lemma add_fin_sub_fin (a : PyFloat) (o d : ℚ) : (a + .fin d) - .fin (o + d) = a - .fin o :=
  add_fin_sub_add_fin a (.fin o) d

lemma minOf_add_fin (a b : PyFloat) (d : ℚ) :
    minOf (a + .fin d) (b + .fin d) = minOf a b + .fin d := by
  unfold minOf
  have hlt : (b + .fin d < a + .fin d) ↔ b < a := by
    change (b + .fin d).lt (a + .fin d) = true ↔ _
    rw [lt_add_fin]
    rfl
  simp only [hlt]
  split <;> rfl

lemma maxOf_add_fin (a b : PyFloat) (d : ℚ) :
    maxOf (a + .fin d) (b + .fin d) = maxOf a b + .fin d := by
  unfold maxOf
  have hlt : (a + .fin d < b + .fin d) ↔ a < b := by
    change (a + .fin d).lt (b + .fin d) = true ↔ _
    rw [lt_add_fin]
    rfl
  simp only [hlt]
  split <;> rfl

lemma minimum_add_fin (xs : List PyFloat) (d : ℚ) :
    minimum (xs.map (· + .fin d)) = (minimum xs).map (· + .fin d) := by
  cases xs with
  | nil => rfl
  | cons x xs =>
    simp only [minimum, List.map_cons, Option.map_some]
    congr 1
    induction xs generalizing x with
    | nil => rfl
    | cons y xs ih => rw [List.map_cons, List.foldl_cons, List.foldl_cons, minOf_add_fin, ih]

lemma maximum_add_fin (xs : List PyFloat) (d : ℚ) :
    maximum (xs.map (· + .fin d)) = (maximum xs).map (· + .fin d) := by
  cases xs with
  | nil => rfl
  | cons x xs =>
    simp only [maximum, List.map_cons, Option.map_some]
    congr 1
    induction xs generalizing x with
    | nil => rfl
    | cons y xs ih => rw [List.map_cons, List.foldl_cons, List.foldl_cons, maxOf_add_fin, ih]

/-! ### Numbers -/

/-- A float that is a number, or infinite. -/
@[ext] structure Number where
  val : PyFloat
  ne_nan : val ≠ .nan

namespace Number

instance : LE Number := ⟨fun a b => a.val ≤ b.val⟩

instance : LT Number := ⟨fun a b => a.val < b.val⟩

lemma lt_iff {a b : Number} : a < b ↔ a.val.lt b.val = true := Iff.rfl

lemma le_iff {a b : Number} : a ≤ b ↔ a < b ∨ a = b := by
  change (a.val.lt b.val || (a.val = b.val && a.val ≠ .nan)) = true ↔ _
  simp [a.ne_nan, lt_iff, Number.ext_iff]

lemma lt_asymm' {a b : Number} (h : a < b) : ¬b < a := by
  rw [lt_iff, strictOrder_lt.asymm _ _ h]
  exact Bool.false_ne_true

instance : LinearOrder Number where
  le_refl a := le_iff.2 (.inr rfl)
  le_trans a b c hab hbc := by
    rcases le_iff.1 hab with hab | rfl
    · rcases le_iff.1 hbc with hbc | rfl
      · exact le_iff.2 (.inl (strictOrder_lt.trans _ _ _ hab hbc))
      · exact le_iff.2 (.inl hab)
    · exact hbc
  le_antisymm a b hab hba := by
    rcases le_iff.1 hab with hab | rfl
    · rcases le_iff.1 hba with hba | rfl
      · exact absurd hba (lt_asymm' hab)
      · rfl
    · rfl
  le_total a b := by
    rcases decides_lt (iff_of_false a.ne_nan b.ne_nan) with heq | hlt | hlt
    · exact .inl (le_iff.2 (.inr (Number.ext heq)))
    · exact .inl (le_iff.2 (.inl hlt))
    · exact .inr (le_iff.2 (.inl hlt))
  lt_iff_le_not_ge a b := by
    rw [le_iff, le_iff, not_or]
    refine ⟨fun h => ⟨.inl h, lt_asymm' h, ?_⟩, fun h => h.1.resolve_right (Ne.symm h.2.2)⟩
    rintro rfl
    exact lt_asymm' h h
  toDecidableLE a b := inferInstanceAs (Decidable (a.val ≤ b.val))
  toDecidableEq a b := decidable_of_iff (a.val = b.val) Number.ext_iff.symm
  toDecidableLT a b := inferInstanceAs (Decidable (a.val < b.val))

end Number

lemma ne_nan_of_le {a b : PyFloat} (h : a ≤ b) : a ≠ .nan ∧ b ≠ .nan := by
  have h : (a.lt b || (a = b && a ≠ .nan)) = true := h
  rw [Bool.or_eq_true, Bool.and_eq_true, decide_eq_true_eq, decide_eq_true_eq] at h
  rcases h with hlt | ⟨rfl, hne⟩
  · exact ne_nan_of_lt hlt
  · exact ⟨hne, hne⟩

lemma le_of_le_of_le {a b c : PyFloat} (hab : a ≤ b) (hbc : b ≤ c) : a ≤ c := by
  have hle : (⟨a, (ne_nan_of_le hab).1⟩ : Number) ≤ ⟨c, (ne_nan_of_le hbc).2⟩ :=
    le_trans (b := ⟨b, (ne_nan_of_le hab).2⟩) hab hbc
  exact hle

lemma exists_numbers {xs : List PyFloat} (h : ∀ x ∈ xs, x ≠ .nan) :
    ∃ ns : List Number, xs = ns.map Number.val :=
  ⟨xs.pmap Number.mk h, by rw [List.map_pmap, List.pmap_eq_self.2 fun _ _ => rfl]⟩

lemma sorted_numbers (ns : List Number) : sorted PyFloat.lt (ns.map Number.val) =
    (sorted (fun a b => decide (a < b)) ns).map Number.val := by
  refine (map_sorted (fun a b => ?_) ns).symm
  rw [Bool.eq_iff_iff, decide_eq_true_iff, Number.lt_iff]

end PyFloat

end Pulse.Lib
