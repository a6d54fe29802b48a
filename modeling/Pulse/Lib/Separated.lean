import Mathlib.Data.List.Basic
import Mathlib.Tactic.Common

/-!
# Lists joined by a separator

A list between two separators stands in another that is also between two exactly when its parts are
neighbours there. So what is found in a joined list is one of the parts, or several of them joined.
-/

namespace Pulse.Lib

universe u

variable {α : Type u}

/-- Each part behind a separator. -/
lemma cons_intercalate {parts : List (List α)} (hne : parts ≠ []) (x : α) :
    x :: [x].intercalate parts = parts.flatMap (x :: ·) := by
  induction parts with
  | nil => exact absurd rfl hne
  | cons part parts ih =>
    rw [List.flatMap_cons]
    by_cases hparts : parts = []
    · subst hparts
      simp
    · rw [List.intercalate_cons_of_ne_nil hparts, ← ih hparts]
      simp

lemma flatMap_cons_concat (x : α) (parts : List (List α)) :
    ∃ rest, parts.flatMap (x :: ·) ++ [x] = x :: rest := by
  cases parts with
  | nil => exact ⟨[], rfl⟩
  | cons part parts => exact ⟨part ++ parts.flatMap (x :: ·) ++ [x], by simp⟩

variable [DecidableEq α] {x : α}

lemma cons_eq_flatMap_splitOn (x : α) (as : List α) :
    x :: as = (as.splitOn x).flatMap (x :: ·) := by
  rw [← cons_intercalate (List.splitOn_ne_nil x as), List.intercalate_splitOn]

lemma splitOn_wrapped (x : α) (as : List α) :
    (x :: as ++ [x]).splitOn x = [] :: as.splitOn x ++ [[]] := by
  have hfirst := List.splitOn_append_cons_self (a := x) [] (as ++ [x])
  rw [List.nil_append, List.splitOn_append_cons_self] at hfirst
  exact hfirst

theorem wrapped_infix_iff {as bs : List α} :
    x :: as ++ [x] <:+: x :: bs ++ [x] ↔ as.splitOn x <:+: bs.splitOn x := by
  constructor
  · rintro ⟨pre, post, h⟩
    have hsplit : pre.splitOn x ++ (as.splitOn x ++ post.splitOn x) =
        [] :: bs.splitOn x ++ [[]] := by
      rw [← splitOn_wrapped, ← h, ← List.splitOn_append_cons_self, ← List.splitOn_append_cons_self]
      simp
    cases hpre : pre.splitOn x with
    | nil => exact absurd hpre (List.splitOn_ne_nil x pre)
    | cons _ front =>
      obtain hpost | ⟨back, last, hpost⟩ := List.eq_nil_or_concat (post.splitOn x)
      · exact absurd hpost (List.splitOn_ne_nil x post)
      · rw [hpre, hpost, List.concat_eq_append, List.cons_append, List.cons_append] at hsplit
        have htail := List.tail_eq_of_cons_eq hsplit
        rw [← List.append_assoc, ← List.append_assoc] at htail
        exact ⟨front, back, (List.append_inj' htail rfl).1⟩
  · rintro ⟨front, back, h⟩
    obtain ⟨rest, hrest⟩ := flatMap_cons_concat x back
    refine ⟨front.flatMap (x :: ·), rest, ?_⟩
    rw [cons_eq_flatMap_splitOn x bs, ← h, List.flatMap_append, List.flatMap_append,
      ← cons_eq_flatMap_splitOn x as, List.append_assoc, List.append_assoc, List.append_assoc,
      List.append_assoc, hrest]
    rfl

/-- Between separators stands a run of neighbours, joined; only of no parts it may be empty. -/
theorem wrapped_infix_intercalate_iff {parts : List (List α)} (hx : ∀ part ∈ parts, x ∉ part)
    (as : List α) :
    x :: as ++ [x] <:+: x :: [x].intercalate parts ++ [x] ↔
      ∃ run, run <:+: parts ∧ (run = [] → parts = []) ∧ as = [x].intercalate run := by
  rw [wrapped_infix_iff]
  by_cases hparts : parts = []
  · subst hparts
    constructor
    · intro h
      have hlength : (as.splitOn x).length = 1 :=
        Nat.le_antisymm h.length_le (List.length_pos_iff.2 (List.splitOn_ne_nil x as))
      have heq : as.splitOn x = [[]] := h.eq_of_length hlength
      have has := @List.intercalate_splitOn _ as _ _ x
      rw [heq] at has
      exact ⟨[], List.nil_infix, fun _ => rfl, has.symm⟩
    · rintro ⟨run, hrun, -, rfl⟩
      obtain rfl := List.infix_nil.1 hrun
      exact List.infix_refl _
  · rw [List.splitOn_intercalate x hx hparts]
    constructor
    · intro h
      exact ⟨as.splitOn x, h, fun hnil => absurd hnil (List.splitOn_ne_nil x as),
        (List.intercalate_splitOn x).symm⟩
    · rintro ⟨run, hrun, hne, rfl⟩
      have hruns : ∀ part ∈ run, x ∉ part := fun part hpart => hx part (hrun.subset hpart)
      rwa [List.splitOn_intercalate x hruns fun h => hparts (hne h)]

end Pulse.Lib
