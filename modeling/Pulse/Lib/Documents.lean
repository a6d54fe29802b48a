import Mathlib.Data.List.Lex
import Mathlib.Order.Fin.Basic
import Pulse.Lib.Lists

/-!
# JSON documents

A document is what is written, with its entries in their order. Its value is what that says: of a
repeated key the last entry counts, and the order of the keys does not.
-/

namespace Pulse.Lib

universe u v

/-! ### Last entries -/

section

variable {κ : Type*} {α : Type u} {β : Type v} [DecidableEq κ]

/-- The last entry of a key. -/
def lastOf (fields : List (κ × α)) (key : κ) : Option α :=
  (fields.reverse.find? (·.1 = key)).map Prod.snd

variable {fields fields' : List (κ × α)} {key : κ}

lemma lastOf_cons (e : κ × α) (fields : List (κ × α)) (key : κ) :
    lastOf (e :: fields) key = (lastOf fields key).or (if e.1 = key then some e.2 else none) := by
  rw [lastOf, lastOf, List.reverse_cons, List.find?_append, List.find?_singleton]
  by_cases he : e.1 = key <;> cases fields.reverse.find? (·.1 = key) <;> simp [he]

lemma mem_of_lastOf {a : α} (h : lastOf fields key = some a) : (key, a) ∈ fields := by
  obtain ⟨e, he, rfl⟩ := Option.map_eq_some_iff.1 h
  have hkey : e.1 = key := by simpa using List.find?_some he
  exact hkey ▸ List.mem_reverse.1 (List.mem_of_find?_eq_some he)

lemma exists_lastOf {e : κ × α} (he : e ∈ fields) : ∃ a, lastOf fields e.1 = some a := by
  induction fields with
  | nil => cases he
  | cons e' fields ih =>
    rw [lastOf_cons]
    rcases List.mem_cons.1 he with rfl | he
    · cases lastOf fields e.1 with
      | none => exact ⟨e.2, by simp⟩
      | some a => exact ⟨a, rfl⟩
    · obtain ⟨a, ha⟩ := ih he
      exact ⟨a, by rw [ha, Option.some_or]⟩

lemma lastOf_map (f : α → β) :
    lastOf (fields.map fun e => (e.1, f e.2)) key = (lastOf fields key).map f := by
  rw [lastOf, ← List.map_reverse, List.find?_map, lastOf, Option.map_map, Option.map_map]
  rfl

/-- Where no key is repeated the order does not matter. -/
lemma lastOf_of_nodup (hkeys : (fields.map Prod.fst).Nodup) :
    lastOf fields key = fields.lookup key := by
  induction fields with
  | nil => rfl
  | cons e fields ih =>
    rw [List.map_cons, List.nodup_cons] at hkeys
    rw [lastOf_cons, ih hkeys.2, List.lookup_cons]
    by_cases he : e.1 = key
    · subst he
      have hnone : fields.lookup e.1 = none := by
        rw [List.lookup_eq_none_iff]
        intro e' he'
        have hne : e.1 ≠ e'.1 := fun heq => hkeys.1 (heq ▸ List.mem_map_of_mem he')
        simpa using hne
      simp [hnone]
    · have hne : (key == e.1) = false := by simpa using Ne.symm he
      simp [he, hne]

lemma lastOf_perm (hkeys : (fields.map Prod.fst).Nodup) (hperm : fields'.Perm fields) :
    lastOf fields' key = lastOf fields key := by
  have hkeys' : (fields'.map Prod.fst).Nodup := (hperm.map _).nodup_iff.2 hkeys
  ext a
  rw [lastOf_of_nodup hkeys, lastOf_of_nodup hkeys']
  constructor
  · intro h
    exact lookup_of_mem hkeys (hperm.mem_iff.1 (mem_of_lookup h))
  · intro h
    exact lookup_of_mem hkeys' (hperm.mem_iff.2 (mem_of_lookup h))

/-- `for key, a in fields: d[key] = a` -/
def ofEntries (fields : List (κ × α)) : List (κ × α) :=
  fields.foldl (fun d e => upsert d e.1 fun _ => e.2) []

lemma ofEntries_snoc (fields : List (κ × α)) (e : κ × α) :
    ofEntries (fields ++ [e]) = upsert (ofEntries fields) e.1 fun _ => e.2 := by
  simp [ofEntries]

lemma ofEntries_keys_nodup (fields : List (κ × α)) :
    ((ofEntries fields).map Prod.fst).Nodup := by
  induction fields using List.reverseRecOn with
  | nil => exact List.nodup_nil
  | append_singleton fields e ih =>
    rw [ofEntries_snoc]
    exact upsert_keys_nodup ih _ _

@[simp] lemma lastOf_ofEntries (fields : List (κ × α)) (key : κ) :
    lastOf (ofEntries fields) key = lastOf fields key := by
  rw [lastOf_of_nodup (ofEntries_keys_nodup fields)]
  induction fields using List.reverseRecOn with
  | nil => rfl
  | append_singleton fields e ih =>
    rw [ofEntries_snoc, lookup_upsert, ih, lastOf, lastOf, List.reverse_concat, List.find?_cons]
    by_cases he : key = e.1
    · simp [he]
    · have hne : ¬e.1 = key := fun h => he h.symm
      simp [he, hne]

end

/-! ### Texts -/

/-- A surrogate is one as well: an escape can write it alone. -/
abbrev CodePoint := Fin 0x110000

abbrev Text := List CodePoint

def text (s : String) : Text := s.toList.map fun c => ⟨c.toNat, by
  have hvalid := c.valid
  rcases hvalid with h | h <;> simp only [Char.toNat] <;> omega⟩

def CodePoint.IsSurrogate (c : CodePoint) : Prop := 0xD800 ≤ c.val ∧ c.val ≤ 0xDFFF

instance (c : CodePoint) : Decidable c.IsSurrogate := inferInstanceAs (Decidable (_ ∧ _))

/-! ### Documents and values -/

inductive Doc (N : Type u) : Type u
  | null
  | bool (b : Bool)
  | num (n : N)
  | str (s : Text)
  | arr (vs : List (Doc N))
  | obj (fields : List (Text × Doc N))

inductive Value (N : Type u) : Type u
  | null
  | bool (b : Bool)
  | num (n : N)
  | str (s : Text)
  | arr (vs : List (Value N))
  | obj (fields : Text → Option (Value N))

namespace Doc

variable {N : Type u}

/-- Induction over a document, with the elements of an array and the entries of an object. -/
theorem induct {p : Doc N → Prop} (null : p .null) (bool : ∀ b, p (.bool b)) (num : ∀ n, p (.num n))
    (str : ∀ s, p (.str s)) (arr : ∀ vs, (∀ v ∈ vs, p v) → p (.arr vs))
    (obj : ∀ fields, (∀ e ∈ fields, p e.2) → p (.obj fields)) (v : Doc N) : p v := by
  refine @Doc.rec N p (fun vs => ∀ v ∈ vs, p v) (fun fields => ∀ e ∈ fields, p e.2)
    (fun e => p e.2) null bool num str arr obj ?_ ?_ ?_ ?_ ?_ v
  · simp
  · intro v vs hv hvs
    exact List.forall_mem_cons.2 ⟨hv, hvs⟩
  · simp
  · intro e fields he hfields
    exact List.forall_mem_cons.2 ⟨he, hfields⟩
  · exact fun _ _ hv => hv

mutual

def value : Doc N → Value N
  | .null => .null
  | .bool b => .bool b
  | .num n => .num n
  | .str s => .str s
  | .arr vs => .arr (values vs)
  | .obj fields => .obj (fieldValues fields)

def values : List (Doc N) → List (Value N)
  | [] => []
  | v :: vs => v.value :: values vs

def fieldValues : List (Text × Doc N) → Text → Option (Value N)
  | [], _ => none
  | (key, v) :: fields, k => (fieldValues fields k).or (if key = k then some v.value else none)

end

mutual

/-- Each number that is written. -/
def numbers : Doc N → List N
  | .num n => [n]
  | .arr vs => numbersOf vs
  | .obj fields => fieldNumbers fields
  | .null | .bool _ | .str _ => []

def numbersOf : List (Doc N) → List N
  | [] => []
  | v :: vs => v.numbers ++ numbersOf vs

def fieldNumbers : List (Text × Doc N) → List N
  | [] => []
  | (_, v) :: fields => v.numbers ++ fieldNumbers fields

end

mutual

/-- How many arrays and objects are open at once. -/
def depth : Doc N → Nat
  | .arr vs => depthOf vs + 1
  | .obj fields => fieldDepth fields + 1
  | .null | .bool _ | .num _ | .str _ => 0

def depthOf : List (Doc N) → Nat
  | [] => 0
  | v :: vs => max v.depth (depthOf vs)

def fieldDepth : List (Text × Doc N) → Nat
  | [] => 0
  | (_, v) :: fields => max v.depth (fieldDepth fields)

end

def get? (v : Doc N) (key : String) : Option (Doc N) :=
  match v with
  | .obj fields => lastOf fields (text key)
  | _ => none

/-- The elements of an array. -/
def elements : Doc N → List (Doc N)
  | .arr vs => vs
  | _ => []

def isObject : Doc N → Bool
  | .obj _ => true
  | _ => false

/-- The elements under a key. -/
def list (v : Doc N) (key : String) : List (Doc N) := ((v.get? key).map elements).getD []

lemma get?_obj (fields : List (Text × Doc N)) (key : String) :
    (obj fields).get? key = lastOf fields (text key) := rfl

lemma list_eq (v : Doc N) (key : String) : v.list key = ((v.get? key).map elements).getD [] := rfl

lemma list_obj (fields : List (Text × Doc N)) (key : String) :
    (obj fields).list key = ((lastOf fields (text key)).map elements).getD [] := rfl

lemma values_eq (vs : List (Doc N)) : values vs = vs.map value := by
  induction vs with
  | nil => rfl
  | cons v vs ih => rw [values, ih, List.map_cons]

lemma fieldValues_eq (fields : List (Text × Doc N)) (key : Text) :
    fieldValues fields key = (lastOf fields key).map value := by
  induction fields with
  | nil => rfl
  | cons e fields ih =>
    rw [fieldValues, ih, lastOf_cons]
    cases lastOf fields key with
    | none => by_cases he : e.1 = key <;> simp [he]
    | some v => rfl

@[simp] lemma value_arr (vs : List (Doc N)) : (arr vs).value = .arr (vs.map value) := by
  rw [value, values_eq]

@[simp] lemma value_obj (fields : List (Text × Doc N)) :
    (obj fields).value = .obj fun key => (lastOf fields key).map value := by
  rw [value]
  congr 1
  funext key
  exact fieldValues_eq fields key

end Doc

end Pulse.Lib
