import Mathlib.Data.List.Basic
import Mathlib.Tactic.Common

/-!
# Flat arrays

Arrays of 16-bit samples as the usual array libraries have them: little-endian bytes, padding, writes
with a stride, and a flat array seen as rows of one width.
-/

namespace Pulse.Lib

/-! ### Samples as bytes -/

def le16 (x : Int16) : List UInt8 := [x.toUInt16.toUInt8, (x.toUInt16 / 256).toUInt8]

def ofLe16 (lo hi : UInt8) : Int16 := (lo.toUInt16 + hi.toUInt16 * 256).toInt16

lemma ofLe16_le16 (x : Int16) : ofLe16 x.toUInt16.toUInt8 (x.toUInt16 / 256).toUInt8 = x := by
  have hx := x.toUInt16.toNat_lt
  have h : x.toUInt16.toUInt8.toUInt16 + (x.toUInt16 / 256).toUInt8.toUInt16 * 256 = x.toUInt16 := by
    rw [← UInt16.toNat_inj]
    simp
    omega
  rw [ofLe16, h]
  rfl

def tobytes (xs : List Int16) : List UInt8 := xs.flatMap le16

/-- No result: the bytes are not a number of whole samples. -/
def frombuffer : List UInt8 → Option (List Int16)
  | [] => some []
  | [_] => none
  | lo :: hi :: bytes => (frombuffer bytes).map (ofLe16 lo hi :: ·)

lemma frombuffer_tobytes (xs : List Int16) : frombuffer (tobytes xs) = some xs := by
  induction xs with
  | nil => rfl
  | cons x xs ih =>
    change (frombuffer (tobytes xs)).map (ofLe16 _ _ :: ·) = _
    rw [ih, ofLe16_le16]
    rfl

@[simp] lemma length_tobytes (xs : List Int16) : (tobytes xs).length = 2 * xs.length := by
  induction xs with
  | nil => rfl
  | cons x xs ih =>
    rw [tobytes, List.flatMap_cons, List.length_append, ← tobytes, ih, List.length_cons]
    change 2 + _ = _
    omega

/-- The sample that begins at the byte `2 * i`. -/
def sampleAt (bytes : List UInt8) (i : Nat) : Int16 :=
  ofLe16 (bytes.getD (2 * i) 0) (bytes.getD (2 * i + 1) 0)

lemma sampleAt_take {bytes : List UInt8} {i n : Nat} (h : 2 * i + 1 < n) :
    sampleAt (bytes.take n) i = sampleAt bytes i := by
  unfold sampleAt
  rw [List.getD_eq_getElem?_getD, List.getD_eq_getElem?_getD, List.getElem?_take_of_lt h,
    List.getElem?_take_of_lt (Nat.lt_of_succ_lt h), ← List.getD_eq_getElem?_getD,
    ← List.getD_eq_getElem?_getD]

lemma length_frombuffer {bytes : List UInt8} {xs : List Int16} (h : frombuffer bytes = some xs) :
    bytes.length = 2 * xs.length := by
  induction bytes using frombuffer.induct generalizing xs with
  | case1 =>
    cases h
    rfl
  | case2 => cases h
  | case3 lo hi bytes ih =>
    obtain ⟨ys, hys, rfl⟩ := Option.map_eq_some_iff.1 h
    have hlength := ih hys
    simp only [List.length_cons]
    omega

lemma frombuffer_isSome_iff {bytes : List UInt8} :
    (frombuffer bytes).isSome = true ↔ bytes.length % 2 = 0 := by
  induction bytes using frombuffer.induct with
  | case1 => simp [frombuffer]
  | case2 => simp [frombuffer]
  | case3 lo hi bytes ih =>
    rw [frombuffer, Option.isSome_map, ih, List.length_cons, List.length_cons]
    omega

lemma getElem_frombuffer {bytes : List UInt8} {xs : List Int16} (h : frombuffer bytes = some xs)
    {i : Nat} (hi : i < xs.length) : xs[i] = sampleAt bytes i := by
  induction bytes using frombuffer.induct generalizing xs i with
  | case1 =>
    cases h
    exact absurd hi (Nat.not_lt_zero _)
  | case2 => cases h
  | case3 lo hi' bytes ih =>
    obtain ⟨ys, hys, rfl⟩ := Option.map_eq_some_iff.1 h
    cases i with
    | zero => rfl
    | succ i =>
      have hrest := ih hys (Nat.lt_of_succ_lt_succ hi)
      have hindex : 2 * (i + 1) = 2 * i + 1 + 1 := by omega
      rw [List.getElem_cons_succ, hrest, sampleAt, sampleAt, hindex, List.getD_cons_succ,
        List.getD_cons_succ, List.getD_cons_succ, List.getD_cons_succ]

lemma sampleAt_tobytes {xs : List Int16} {i : Nat} (hi : i < xs.length) :
    sampleAt (tobytes xs) i = xs[i] :=
  (getElem_frombuffer (frombuffer_tobytes xs) hi).symm

/-! ### Padding and strides -/

universe u

variable {α : Type u}

/-- Filled up at the end, to a length. -/
def padTo (n : Nat) (a : α) (as : List α) : List α := as ++ List.replicate (n - as.length) a

lemma length_padTo {n : Nat} (a : α) {as : List α} (h : as.length ≤ n) :
    (padTo n a as).length = n := by
  rw [padTo, List.length_append, List.length_replicate]
  omega

/-- `as[start::step] = values` -/
def setStrided (start step : Nat) (values as : List α) : List α :=
  as.mapIdx fun i a =>
    if start ≤ i ∧ (i - start) % step = 0 then values.getD ((i - start) / step) a else a

@[simp] lemma length_setStrided (start step : Nat) (values as : List α) :
    (setStrided start step values as).length = as.length :=
  List.length_mapIdx

lemma getElem?_setStrided (start step : Nat) (values as : List α) (i : Nat) :
    (setStrided start step values as)[i]? = as[i]?.map fun a =>
      if start ≤ i ∧ (i - start) % step = 0 then values.getD ((i - start) / step) a else a :=
  List.getElem?_mapIdx

/-- What has been written with a stride. -/
lemma getElem?_setStrided_of_lt {start step : Nat} (hstep : 0 < step) {values as : List α} {i : Nat}
    (hi : start + i * step < as.length) (hvalue : i < values.length) :
    (setStrided start step values as)[start + i * step]? = values[i]? := by
  have hindex : start + i * step - start = i * step := Nat.add_sub_cancel_left ..
  rw [getElem?_setStrided, List.getElem?_eq_getElem hi, Option.map_some, hindex,
    Nat.mul_div_cancel _ hstep, if_pos ⟨Nat.le_add_right .., Nat.mul_mod_left ..⟩,
    List.getElem?_eq_getElem hvalue]
  simp [hvalue]

/-- What stands between is left. -/
lemma getElem?_setStrided_of_ne {start step i : Nat} (h : start ≤ i → (i - start) % step ≠ 0)
    (values as : List α) : (setStrided start step values as)[i]? = as[i]? := by
  rw [getElem?_setStrided]
  simp only [if_neg fun hand : start ≤ i ∧ (i - start) % step = 0 => h hand.1 hand.2,
    Option.map_id']

/-- Two arrays written in turn. -/
lemma getElem?_setStrided_two {xs ys as : List α} {n i : Nat} (has : as.length = n * 2)
    (hxs : xs.length = n) (hys : ys.length = n) (hi : i < n) :
    (setStrided 1 2 ys (setStrided 0 2 xs as))[0 + i * 2]? = xs[i]? ∧
      (setStrided 1 2 ys (setStrided 0 2 xs as))[1 + i * 2]? = ys[i]? := by
  constructor
  · rw [getElem?_setStrided_of_ne (by omega), getElem?_setStrided_of_lt (by decide)]
    all_goals omega
  · rw [getElem?_setStrided_of_lt (by decide)]
    · rw [length_setStrided]
      omega
    · omega

/-! ### Rows -/

/-- A matrix: all of its rows have one width. -/
structure Grid (α : Type u) where
  width : Nat
  rows : List (List α)
  full : ∀ row ∈ rows, row.length = width

/-- Where the rows begin that a flat array has room for. -/
def rowsOf (width : Nat) (as : List α) : List (List α) :=
  (List.range (as.length / width)).map fun i => (as.drop (i * width)).take width

lemma index_lt {width i k n : Nat} (hk : k < width) (hi : i < n / width) : i * width + k < n := by
  have hle : (i + 1) * width ≤ n / width * width := Nat.mul_le_mul_right _ hi
  have hdiv := Nat.div_mul_le_self n width
  rw [Nat.succ_mul] at hle
  omega

lemma length_of_mem_rowsOf {width : Nat} {as row : List α} (h : row ∈ rowsOf width as) :
    row.length = width := by
  obtain ⟨i, hi, rfl⟩ := List.mem_map.1 h
  rw [List.length_take, List.length_drop, Nat.min_eq_left]
  have hle : (i + 1) * width ≤ as.length / width * width :=
    Nat.mul_le_mul_right _ (List.mem_range.1 hi)
  have hdiv := Nat.div_mul_le_self as.length width
  rw [Nat.succ_mul] at hle
  omega

/-- `as.reshape(-1, width)`. No result: the last row is not full. -/
def reshape (width : Nat) (as : List α) : Option (Grid α) :=
  if width ∣ as.length then some ⟨width, rowsOf width as, fun _ => length_of_mem_rowsOf⟩ else none

lemma reshape_of_dvd {width : Nat} {as : List α} (h : width ∣ as.length) :
    ∃ g, reshape width as = some g ∧ g.width = width ∧ g.rows = rowsOf width as :=
  ⟨_, if_pos h, rfl, rfl⟩

def inBounds (n : Nat) (k : Int) : Option (Fin n) :=
  if h : 0 ≤ k ∧ k < n then some ⟨k.toNat, by omega⟩ else none

lemma inBounds_of_lt {n k : Nat} (h : k < n) : inBounds n k = some ⟨k, h⟩ := by
  rw [inBounds, dif_pos ⟨Int.natCast_nonneg k, Int.ofNat_lt.2 h⟩]
  rfl

namespace Grid

variable (g : Grid α)

/-- An index counts from the end when it is negative. No result: it is out of bounds. -/
def index (k : Int) : Option (Fin g.width) :=
  inBounds g.width (if k < 0 then k + g.width else k)

lemma index_of_nonneg {k : Int} (h : 0 ≤ k) : g.index k = inBounds g.width k := by
  rw [index, if_neg (Int.not_lt.2 h)]

/-- `g[:, k]` -/
def column (k : Fin g.width) : List α :=
  g.rows.attach.map fun row => row.1.get ⟨k, (g.full row.1 row.2).symm ▸ k.2⟩

end Grid

/-- A column has each `width`-th element. -/
theorem column_reshape {width : Nat} {as : List α} {g : Grid α} (h : reshape width as = some g)
    (k : Fin g.width) (a : α) :
    g.column k = (List.range (as.length / width)).map fun i => as.getD (i * width + k) a := by
  obtain ⟨-, hg⟩ := Option.ite_none_right_eq_some.1 h
  obtain rfl := Option.some.inj hg
  apply List.ext_getElem
  · simp [Grid.column, rowsOf]
  · intro i hi hi'
    have hlt : i < as.length / width := by simpa using hi'
    have hindex := index_lt k.2 hlt
    simp [Grid.column, rowsOf, hindex]

/-! ### The least element -/

/-- The first element with the least key. No result: there are no elements. -/
def leastBy (key : α → Int) : List α → Option α
  | [] => none
  | a :: as => some (as.foldl (fun m b => if key b < key m then b else m) a)

structure LeastBy (key : α → Int) (m : α) (as : List α) : Prop where
  mem : m ∈ as
  le : ∀ a ∈ as, key m ≤ key a

lemma leastBy_foldl (key : α → Int) (as : List α) (a : α) :
    LeastBy key (as.foldl (fun m b => if key b < key m then b else m) a) (a :: as) := by
  induction as generalizing a with
  | nil => exact ⟨List.mem_cons_self, by simp⟩
  | cons b as ih =>
    rw [List.foldl_cons]
    by_cases hlt : key b < key a
    · rw [if_pos hlt]
      obtain ⟨hmem, hle⟩ := ih b
      have hb := hle b List.mem_cons_self
      refine ⟨List.mem_cons_of_mem a hmem, fun c hc => ?_⟩
      rcases List.mem_cons.1 hc with rfl | hc
      · omega
      · exact hle c hc
    · rw [if_neg hlt]
      obtain ⟨hmem, hle⟩ := ih a
      have ha := hle a List.mem_cons_self
      constructor
      · rcases List.mem_cons.1 hmem with hfirst | hrest
        · rw [hfirst]
          exact List.mem_cons_self
        · exact List.mem_cons_of_mem a (List.mem_cons_of_mem b hrest)
      · intro c hc
        rcases List.mem_cons.1 hc with rfl | hc
        · exact ha
        · rcases List.mem_cons.1 hc with rfl | hc
          · omega
          · exact hle c (List.mem_cons_of_mem a hc)

/-- Each row that is not empty has a least element. -/
lemma mapM_leastBy (key : α → Int) {grid : List (List α)} (h : ∀ row ∈ grid, row ≠ []) :
    ∃ ms, grid.mapM (leastBy key) = some ms ∧ List.Forall₂ (LeastBy key) ms grid := by
  induction grid with
  | nil => exact ⟨[], rfl, .nil⟩
  | cons row grid ih =>
    obtain ⟨ms, hms, hleast⟩ := ih fun r hr => h r (List.mem_cons_of_mem _ hr)
    cases row with
    | nil => exact absurd rfl (h [] List.mem_cons_self)
    | cons a as =>
      refine ⟨_, ?_, .cons (leastBy_foldl key as a) hleast⟩
      rw [List.mapM_cons, hms]
      rfl

/-- Elements of key 0 that are added at the end do not change the least element exactly when there
are none of them, or some element is not above them. -/
theorem leastBy_padded_iff {key : α → Int} {z m : α} (hz : key z = 0)
    (hinj : Function.Injective key) {as : List α} {n : Nat}
    (h : LeastBy key m (as ++ List.replicate n z)) :
    LeastBy key m as ↔ n = 0 ∨ ∃ a ∈ as, key a ≤ 0 := by
  have hle : ∀ a ∈ as, key m ≤ key a := fun a ha => h.le a (List.mem_append_left _ ha)
  constructor
  · intro hm
    rw [or_iff_not_imp_left]
    intro hn
    have hzero := h.le z (List.mem_append_right _ (List.mem_replicate.2 ⟨hn, rfl⟩))
    exact ⟨m, hm.mem, hz ▸ hzero⟩
  · rintro (rfl | ⟨a, ha, hneg⟩)
    · simpa using h
    · refine ⟨?_, hle⟩
      rcases List.mem_append.1 h.mem with hmem | hmem
      · exact hmem
      · -- the least is one of those added, so `a` is equal to it
        have hm := (List.mem_replicate.1 hmem).2
        have ham := hle a ha
        have heq : key m = key a := by
          rw [hm, hz] at ham ⊢
          omega
        exact hinj heq ▸ ha

end Pulse.Lib
