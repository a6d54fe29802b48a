import Mathlib.Data.List.Basic
import Mathlib.Tactic.Common

/-!
# Three-valued truth

The truth values of SQL, where `none` is `NULL`. A condition holds when its value is true; whether a
disjunction or a conjunction holds depends on what holds, though its value depends on more.
-/

namespace Pulse.Lib

universe u

abbrev Truth := Option Bool

namespace Truth

variable {α : Type u}

def or : Truth → Truth → Truth
  | some true, _ => some true
  | _, some true => some true
  | some false, some false => some false
  | _, _ => none

def and : Truth → Truth → Truth
  | some false, _ => some false
  | _, some false => some false
  | some true, some true => some true
  | _, _ => none

/-- Nothing is known of `NULL`. -/
def eq [DecidableEq α] : Option α → Option α → Truth
  | some a, some b => some (decide (a = b))
  | _, _ => none

/-- `a = ANY(array)` -/
def eqAny [DecidableEq α] (a : Option α) : Option (List α) → Truth
  | none => none
  | some array => array.foldr (fun b t => or (eq a (some b)) t) (some false)

/-- The condition selects. -/
def holds (t : Truth) : Bool := t = some true

@[simp] lemma holds_some (b : Bool) : holds (some b) = b := by
  cases b <;> rfl

@[simp] lemma holds_or (s t : Truth) : (or s t).holds = (s.holds || t.holds) := by
  obtain _ | _ | _ := s <;> obtain _ | _ | _ := t <;> rfl

@[simp] lemma holds_and (s t : Truth) : (and s t).holds = (s.holds && t.holds) := by
  obtain _ | _ | _ := s <;> obtain _ | _ | _ := t <;> rfl

variable [DecidableEq α]

lemma holds_eq {a b : Option α} : (eq a b).holds = true ↔ a ≠ none ∧ a = b := by
  obtain _ | a := a <;> obtain _ | b := b <;> simp [eq, holds]

lemma holds_eqAny {a : Option α} {array : List α} :
    (eqAny a (some array)).holds = true ↔ ∃ b ∈ array, a = some b := by
  dsimp only [eqAny]
  induction array with
  | nil => simp [holds]
  | cons b array ih =>
    have hhead : (eq a (some b)).holds = true ↔ a = some b := by
      rw [holds_eq, and_iff_right_iff_imp]
      rintro rfl
      exact Option.some_ne_none b
    rw [List.foldr_cons, holds_or, Bool.or_eq_true, ih, hhead]
    simp

end Truth

end Pulse.Lib
