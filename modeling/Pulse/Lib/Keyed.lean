import Mathlib.Data.List.Nodup
import Pulse.Lib.Except

/-!
# Tables with a unique key

A table holds rows of which no two have the same key. An insert that would break this is refused,
and with it all that the statement had inserted before.
-/

namespace Pulse.Lib

universe u v w

variable {α : Type u} {κ : Type v} {ε : Type w}

structure Keyed (key : α → κ) where
  rows : List α
  nodup : (rows.map key).Nodup

namespace Keyed

variable {key : α → κ}

@[ext]
lemma ext {t t' : Keyed key} (h : t.rows = t'.rows) : t = t' := by
  cases t
  cases t'
  congr

/-- The table without rows. -/
def empty (key : α → κ) : Keyed key := ⟨[], List.nodup_nil⟩

lemma eq_of_key {t : Keyed key} {a b : α} (ha : a ∈ t.rows) (hb : b ∈ t.rows)
    (h : key a = key b) : a = b :=
  List.inj_on_of_nodup_map t.nodup ha hb h

/-- A condition that fixes the key finds the row. -/
lemma find?_eq {t : Keyed key} {p : α → Bool} {a : α} (ha : a ∈ t.rows) (hp : p a)
    (hkey : ∀ b, p b → key b = key a) : t.rows.find? p = some a := by
  cases hfind : t.rows.find? p with
  | none => exact absurd hp (List.find?_eq_none.1 hfind a ha)
  | some b =>
    rw [eq_of_key (List.mem_of_find?_eq_some hfind) ha (hkey b (List.find?_some hfind))]

def delete (p : α → Bool) (t : Keyed key) : Keyed key where
  rows := t.rows.filter (!p ·)
  nodup := t.nodup.sublist (List.filter_sublist.map key)

/-- The rows can be inserted together. -/
structure Fits (t : Keyed key) (rows : List α) : Prop where
  nodup : (rows.map key).Nodup
  fresh : ∀ r ∈ rows, key r ∉ t.rows.map key

lemma Fits.append {t : Keyed key} {rows : List α} (h : t.Fits rows) :
    ((t.rows ++ rows).map key).Nodup := by
  rw [List.map_append, List.nodup_append]
  refine ⟨t.nodup, h.nodup, fun a ha b hb => ?_⟩
  rintro rfl
  obtain ⟨r, hr, rfl⟩ := List.mem_map.1 hb
  exact h.fresh r hr ha

def add (t : Keyed key) (rows : List α) (h : t.Fits rows) : Keyed key :=
  ⟨t.rows ++ rows, h.append⟩

variable [DecidableEq κ]

instance (t : Keyed key) (rows : List α) : Decidable (t.Fits rows) :=
  decidable_of_iff ((rows.map key).Nodup ∧ ∀ r ∈ rows, key r ∉ t.rows.map key)
    ⟨fun h => ⟨h.1, h.2⟩, fun h => ⟨h.1, h.2⟩⟩

/-- The rows are inserted, or the statement is refused with `e`. -/
def insert (e : ε) (t : Keyed key) (rows : List α) : Except ε (Keyed key) :=
  if h : t.Fits rows then .ok (t.add rows h) else .error e

end Keyed

end Pulse.Lib
