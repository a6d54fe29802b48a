import Mathlib.Data.List.Nodup
import Mathlib.Data.Rat.Floor
import Mathlib.Tactic.Linarith
import Mathlib.Tactic.Ring

/-!
# Counting into buckets

Arrays beside a list of keys, into which rows are counted one after another. Each cell is what the
rows of its key make of it, in their order.
-/

namespace Pulse.Lib

universe u v w

/-! ### Ranges -/

/-- `range(start, stop, step)` of a positive step -/
def pyRange (start stop step : Int) : List Int :=
  (List.range ((stop - start + step - 1) / step).toNat).map fun i : Nat => start + i * step

lemma mem_pyRange {start stop step n : Int} (hstep : 0 < step) :
    n ∈ pyRange start stop step ↔ ∃ i : Nat, n = start + i * step ∧ n < stop := by
  have hlt (i : Nat) : i < ((stop - start + step - 1) / step).toNat ↔ start + i * step < stop := by
    rw [Int.lt_toNat, Int.lt_iff_add_one_le, Int.le_ediv_iff_mul_le hstep, add_mul]
    omega
  simp only [pyRange, List.mem_map, List.mem_range, hlt]
  constructor
  · rintro ⟨i, hi, rfl⟩
    exact ⟨i, rfl, hi⟩
  · rintro ⟨i, rfl, hi⟩
    exact ⟨i, hi, rfl⟩

lemma pyRange_nodup {start stop step : Int} (hstep : 0 < step) :
    (pyRange start stop step).Nodup := by
  refine List.nodup_range.map fun i j hij => ?_
  have hmul : (i : Int) * step = j * step := by simpa using hij
  exact_mod_cast mul_right_cancel₀ hstep.ne' hmul

/-! ### The bucket of a time -/

/-- `int(q // width) * width` -/
def bucketOf (width : Int) (q : ℚ) : Int := ⌊q / width⌋ * width

/-- A bucket holds its start and what comes before the next one. -/
def InBucket (width key : Int) (q : ℚ) : Prop := (key : ℚ) ≤ q ∧ q < key + width

instance (width key : Int) (q : ℚ) : Decidable (InBucket width key q) :=
  inferInstanceAs (Decidable (_ ∧ _))

section

variable {width key : Int} {q : ℚ}

lemma bucketOf_le (hwidth : 0 < width) (q : ℚ) : (bucketOf width q : ℚ) ≤ q := by
  have hpos : (0 : ℚ) < width := by exact_mod_cast hwidth
  rw [bucketOf, Int.cast_mul, ← le_div_iff₀ hpos]
  exact Int.floor_le _

lemma lt_bucketOf_add (hwidth : 0 < width) (q : ℚ) : q < bucketOf width q + width := by
  have hpos : (0 : ℚ) < width := by exact_mod_cast hwidth
  have hlt := Int.lt_floor_add_one (q / width)
  rw [div_lt_iff₀ hpos] at hlt
  rw [bucketOf, Int.cast_mul]
  linarith

/-- Among the multiples of the width one holds a time. -/
lemma inBucket_iff (hwidth : 0 < width) (hkey : width ∣ key) :
    InBucket width key q ↔ bucketOf width q = key := by
  constructor
  · rintro ⟨hle, hlt⟩
    obtain ⟨i, rfl⟩ := hkey
    have hpos : (0 : ℚ) < width := by exact_mod_cast hwidth
    have hfloor : ⌊q / width⌋ = i := by
      rw [Int.floor_eq_iff, le_div_iff₀ hpos, div_lt_iff₀ hpos]
      push_cast at hle hlt
      constructor <;> linarith
    rw [bucketOf, hfloor, mul_comm]
  · rintro rfl
    exact ⟨bucketOf_le hwidth q, lt_bucketOf_add hwidth q⟩

lemma dvd_bucketOf : width ∣ bucketOf width q := dvd_mul_left width _

end

/-! ### The arrays -/

variable {κ : Type u} {ρ : Type v} {β : Type w} [DecidableEq κ]

/-- `for row in rows: k = idx.get(key(row)); if k is not None: xs[k] = step(xs[k], row)` -/
def tally (keys : List κ) (key : ρ → κ) (step : β → ρ → β) (xs : List β) (rows : List ρ) : List β :=
  rows.foldl (fun xs row =>
    match keys.idxOf? (key row) with
    | none => xs
    | some i => xs.modify i (step · row)) xs

/-- One row changes the cell of its key. -/
lemma modify_idxOf {keys : List κ} (hkeys : keys.Nodup) (f : κ → β) (g : β → β) (k : κ) :
    (match keys.idxOf? k with
      | none => keys.map f
      | some i => (keys.map f).modify i g) = keys.map fun k' => if k = k' then g (f k') else f k' := by
  induction keys with
  | nil => rfl
  | cons k' keys ih =>
    rw [List.nodup_cons] at hkeys
    rw [List.idxOf?_cons]
    by_cases heq : k' = k
    · subst heq
      have hmap : (keys.map fun k => if k' = k then g (f k) else f k) = keys.map f :=
        List.map_congr_left fun k hk => if_neg fun h : k' = k => hkeys.1 (h ▸ hk)
      simp [hmap]
    · have ih := ih hkeys.2
      have hne : ¬k = k' := fun h => heq h.symm
      rw [if_neg (by simpa using heq), List.map_cons, List.map_cons, if_neg hne, ← ih]
      cases keys.idxOf? k with
      | none => rfl
      | some i => rfl

/-- Each cell is what the rows of its key make of it. -/
theorem tally_eq {keys : List κ} (hkeys : keys.Nodup) (key : ρ → κ) (step : β → ρ → β) (f : κ → β)
    (rows : List ρ) : tally keys key step (keys.map f) rows =
      keys.map fun k => (rows.filter fun row => key row = k).foldl step (f k) := by
  induction rows generalizing f with
  | nil => rfl
  | cons row rows ih =>
    have hrow := modify_idxOf hkeys f (step · row) (key row)
    rw [tally, List.foldl_cons, hrow, ← tally, ih]
    refine List.map_congr_left fun k _ => ?_
    by_cases hk : key row = k <;> simp [hk]

/-- What is counted of the rows, where it is counted from. -/
lemma foldl_count {p : ρ → Bool} (n : Nat) (rows : List ρ) :
    rows.foldl (fun n row => if p row then n + 1 else n) n = n + rows.countP p := by
  induction rows generalizing n with
  | nil => rfl
  | cons row rows ih =>
    rw [List.foldl_cons, ih, List.countP_cons]
    split <;> omega

/-- Counters from zero hold how many rows of each key count. -/
lemma tally_count {keys : List κ} (hkeys : keys.Nodup) (key : ρ → κ) (p : ρ → Bool) (f : κ → Nat)
    (rows : List ρ) :
    tally keys key (fun n row => if p row then n + 1 else n) (keys.map f) rows =
      keys.map fun k => f k + rows.countP fun row => key row = k && p row := by
  rw [tally_eq hkeys]
  refine List.map_congr_left fun k _ => ?_
  rw [foldl_count, List.countP_filter]
  congr 2
  funext row
  exact Bool.and_comm _ _

end Pulse.Lib
