import Mathlib.Tactic.Lemma

/-!
# JSON values

A JSON value as a program holds it. A number without a fraction and an exponent is an integer of
any size, every other number is of the type `F`. An object is the list of its entries.
-/

namespace Pulse.Lib

universe u v

inductive Json (F : Type u) : Type u
  | null
  | bool (b : Bool)
  | int (i : Int)
  | float (x : F)
  | str (s : String)
  | arr (vs : List (Json F))
  | obj (fields : List (String × Json F))

namespace Json

variable {F : Type u} {G : Type v}

/-- Induction over a value, with the elements of an array and the entries of an object. -/
theorem induct {p : Json F → Prop} (null : p .null) (bool : ∀ b, p (.bool b))
    (int : ∀ i, p (.int i)) (float : ∀ x, p (.float x)) (str : ∀ s, p (.str s))
    (arr : ∀ vs, (∀ v ∈ vs, p v) → p (.arr vs))
    (obj : ∀ fields, (∀ e ∈ fields, p e.2) → p (.obj fields)) (v : Json F) : p v := by
  refine @Json.rec F p (fun vs => ∀ v ∈ vs, p v) (fun fields => ∀ e ∈ fields, p e.2)
    (fun e => p e.2) null bool int float str arr obj ?_ ?_ ?_ ?_ ?_ v
  · simp
  · intro v vs hv hvs
    simpa using ⟨hv, hvs⟩
  · simp
  · intro e fields he hfields
    exact List.forall_mem_cons.2 ⟨he, hfields⟩
  · exact fun _ _ hv => hv

/-- `v.get(key)` of an object. -/
def get? (v : Json F) (key : String) : Option (Json F) :=
  match v with
  | .obj fields => fields.lookup key
  | _ => none

@[simp] lemma get?_obj (fields : List (String × Json F)) (key : String) :
    (Json.obj fields).get? key = fields.lookup key := rfl

end Json

end Pulse.Lib
