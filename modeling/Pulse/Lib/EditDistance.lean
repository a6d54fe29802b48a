import Mathlib.Order.Bounds.Basic
import Mathlib.Order.MinMax
import Mathlib.Tactic.Common

/-!
# The edit distance

The least number of insertions, deletions and substitutions that turn one list into another. It is
computed from the ends of the lists, and it is a metric.
-/

namespace Pulse.Lib

universe u

variable {α : Type u}

/-- One insertion, deletion or substitution, at the front or further on. -/
inductive Edit : List α → List α → Prop
  | insert (a : α) (as : List α) : Edit as (a :: as)
  | delete (a : α) (as : List α) : Edit (a :: as) as
  | substitute (a b : α) (as : List α) : Edit (a :: as) (b :: as)
  | later (a : α) {as bs : List α} : Edit as bs → Edit (a :: as) (a :: bs)

/-- `Edits n as bs`: so many edits turn `as` into `bs`. -/
inductive Edits : Nat → List α → List α → Prop
  | refl (as : List α) : Edits 0 as as
  | step {n : Nat} {as bs cs : List α} : Edit as bs → Edits n bs cs → Edits (n + 1) as cs

namespace Edit

variable {as bs : List α}

lemma symm (h : Edit as bs) : Edit bs as := by
  induction h with
  | insert a as => exact .delete a as
  | delete a as => exact .insert a as
  | substitute a b as => exact .substitute b a as
  | later a _ ih => exact ih.later a

lemma append_left (h : Edit as bs) (cs : List α) : Edit (cs ++ as) (cs ++ bs) := by
  induction cs with
  | nil => exact h
  | cons c cs ih => exact ih.later c

lemma append_right (h : Edit as bs) (cs : List α) : Edit (as ++ cs) (bs ++ cs) := by
  induction h with
  | insert a as => exact .insert a (as ++ cs)
  | delete a as => exact .delete a (as ++ cs)
  | substitute a b as => exact .substitute a b (as ++ cs)
  | later a _ ih => exact ih.later a

lemma reverse (h : Edit as bs) : Edit as.reverse bs.reverse := by
  induction h with
  | insert a as =>
    rw [List.reverse_cons]
    simpa using (Edit.insert a []).append_left as.reverse
  | delete a as =>
    rw [List.reverse_cons]
    simpa using (Edit.delete a []).append_left as.reverse
  | substitute a b as =>
    rw [List.reverse_cons, List.reverse_cons]
    exact (Edit.substitute a b []).append_left as.reverse
  | later a _ ih =>
    rw [List.reverse_cons, List.reverse_cons]
    exact ih.append_right [a]

end Edit

namespace Edits

variable {m n : Nat} {as bs cs : List α}

lemma trans (h : Edits m as bs) (h' : Edits n bs cs) : Edits (m + n) as cs := by
  induction h with
  | refl => rwa [Nat.zero_add]
  | step hedit _ ih =>
    rw [Nat.succ_add]
    exact .step hedit (ih h')

lemma single (h : Edit as bs) : Edits 1 as bs :=
  .step h (.refl bs)

lemma symm (h : Edits n as bs) : Edits n bs as := by
  induction h with
  | refl as => exact .refl as
  | step hedit _ ih => exact ih.trans (single hedit.symm)

lemma cons (a : α) (h : Edits n as bs) : Edits n (a :: as) (a :: bs) := by
  induction h with
  | refl as => exact .refl (a :: as)
  | step hedit _ ih => exact .step (hedit.later a) ih

lemma reverse (h : Edits n as bs) : Edits n as.reverse bs.reverse := by
  induction h with
  | refl as => exact .refl as.reverse
  | step hedit _ ih => exact .step hedit.reverse ih

lemma insertAll (bs : List α) : Edits bs.length [] bs := by
  induction bs with
  | nil => exact .refl []
  | cons b bs ih => exact ih.trans (single (.insert b bs))

@[simp] lemma zero_iff : Edits 0 as bs ↔ as = bs := by
  refine ⟨fun h => ?_, fun h => h ▸ .refl as⟩
  cases h
  rfl

end Edits

variable [DecidableEq α]

/-- What it costs to put `b` where `a` is. -/
def replacing (a b : α) : Nat :=
  if a = b then 0 else 1

/-- The distance, by what is done with the first elements. -/
def distance : List α → List α → Nat
  | [], bs => bs.length
  | a :: as, [] => (a :: as).length
  | a :: as, b :: bs =>
    min (min (distance as (b :: bs) + 1) (distance (a :: as) bs + 1)) (distance as bs + replacing a b)

lemma replacing_le_one (a b : α) : replacing a b ≤ 1 := by
  unfold replacing
  split <;> omega

@[simp] lemma distance_nil (bs : List α) : distance [] bs = bs.length := by
  rw [distance]

@[simp] lemma distance_nil_right (as : List α) : distance as [] = as.length := by
  cases as <;> rw [distance]

lemma distance_cons_cons (a b : α) (as bs : List α) : distance (a :: as) (b :: bs) =
    min (min (distance as (b :: bs) + 1) (distance (a :: as) bs + 1))
      (distance as bs + replacing a b) := by
  rw [distance]

lemma edits_distance (as bs : List α) : Edits (distance as bs) as bs := by
  induction as, bs using distance.induct with
  | case1 bs =>
    rw [distance_nil]
    exact .insertAll bs
  | case2 a as =>
    rw [distance_nil_right]
    exact (Edits.insertAll (a :: as)).symm
  | case3 a as b bs ihdelete ihinsert ihreplace =>
    have hdelete : Edits (distance as (b :: bs) + 1) (a :: as) (b :: bs) :=
      .step (.delete a as) ihdelete
    have hinsert : Edits (distance (a :: as) bs + 1) (a :: as) (b :: bs) :=
      ihinsert.trans (.single (.insert b bs))
    have hreplace : Edits (distance as bs + replacing a b) (a :: as) (b :: bs) := by
      unfold replacing
      split
      · next heq => exact heq ▸ ihreplace.cons a
      · exact (ihreplace.cons a).trans (.single (.substitute a b bs))
    rw [distance_cons_cons]
    rcases min_choice (min (distance as (b :: bs) + 1) (distance (a :: as) bs + 1))
      (distance as bs + replacing a b) with hmin | hmin
    · rw [hmin]
      rcases min_choice (distance as (b :: bs) + 1) (distance (a :: as) bs + 1) with hmin | hmin
      · rwa [hmin]
      · rwa [hmin]
    · rwa [hmin]

/-! ### One edit changes the distance by one -/

lemma distance_cons_le (a : α) (as cs : List α) : distance (a :: as) cs ≤ distance as cs + 1 := by
  cases cs with
  | nil => simp
  | cons c cs =>
    rw [distance_cons_cons]
    omega

lemma distance_le_cons_right (c : α) (as cs : List α) : distance as (c :: cs) ≤ distance as cs + 1 := by
  cases as with
  | nil => simp
  | cons a as =>
    rw [distance_cons_cons]
    omega

lemma distance_le_cons (a : α) (as cs : List α) : distance as cs ≤ distance (a :: as) cs + 1 := by
  induction cs with
  | nil =>
    simp only [distance_nil_right, List.length_cons]
    omega
  | cons c cs ih =>
    have hright := distance_le_cons_right c as cs
    rw [distance_cons_cons]
    omega

lemma distance_cons_le_cons (a b : α) (as cs : List α) :
    distance (a :: as) cs ≤ distance (b :: as) cs + 1 := by
  induction cs with
  | nil => simp
  | cons c cs ih =>
    have hone := replacing_le_one a c
    rw [distance_cons_cons, distance_cons_cons]
    omega

lemma Edit.distance_le {as bs : List α} (h : Edit as bs) (cs : List α) :
    distance as cs ≤ distance bs cs + 1 := by
  induction h generalizing cs with
  | insert a as => exact distance_le_cons a as cs
  | delete a as => exact distance_cons_le a as cs
  | substitute a b as => exact distance_cons_le_cons a b as cs
  | later a _ ih =>
    induction cs with
    | nil =>
      have hnil := ih []
      simp only [distance_nil_right, List.length_cons] at hnil ⊢
      omega
    | cons c cs ihcs =>
      have hfirst := ih (c :: cs)
      have hlast := ih cs
      rw [distance_cons_cons, distance_cons_cons]
      omega

@[simp] lemma distance_self (as : List α) : distance as as = 0 := by
  induction as with
  | nil => simp
  | cons a as ih =>
    rw [distance_cons_cons, ih, replacing, if_pos rfl]
    omega

lemma Edits.distance_le {n : Nat} {as bs : List α} (h : Edits n as bs) : distance as bs ≤ n := by
  induction h with
  | refl as => rw [distance_self]
  | step hedit _ ih => exact (hedit.distance_le _).trans (Nat.succ_le_succ ih)

/-- The distance is the least number of edits. -/
theorem isLeast_distance (as bs : List α) : IsLeast {n | Edits n as bs} (distance as bs) :=
  ⟨edits_distance as bs, fun _ h => h.distance_le⟩

/-! ### The distance as a metric -/

theorem distance_eq_zero_iff {as bs : List α} : distance as bs = 0 ↔ as = bs := by
  refine ⟨fun h => ?_, fun h => h ▸ distance_self as⟩
  have hedits := edits_distance as bs
  rwa [h, Edits.zero_iff] at hedits

theorem distance_comm (as bs : List α) : distance as bs = distance bs as :=
  le_antisymm (edits_distance bs as).symm.distance_le (edits_distance as bs).symm.distance_le

theorem distance_triangle (as bs cs : List α) :
    distance as cs ≤ distance as bs + distance bs cs :=
  ((edits_distance as bs).trans (edits_distance bs cs)).distance_le

theorem distance_reverse (as bs : List α) : distance as.reverse bs.reverse = distance as bs := by
  have hle (as bs : List α) : distance as.reverse bs.reverse ≤ distance as bs :=
    (edits_distance as bs).reverse.distance_le
  refine le_antisymm (hle as bs) ?_
  have hback := hle as.reverse bs.reverse
  rwa [List.reverse_reverse, List.reverse_reverse] at hback

/-- The distance, by what is done with the last elements. -/
theorem distance_concat_concat (as bs : List α) (a b : α) : distance (as ++ [a]) (bs ++ [b]) =
    min (min (distance as (bs ++ [b]) + 1) (distance (as ++ [a]) bs + 1))
      (distance as bs + replacing a b) := by
  rw [← distance_reverse, List.reverse_concat, List.reverse_concat, distance_cons_cons,
    ← List.reverse_concat, ← List.reverse_concat, distance_reverse, distance_reverse,
    distance_reverse]

end Pulse.Lib
