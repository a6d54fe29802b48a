import Mathlib.Data.List.Nodup
import Mathlib.Data.List.Infix
import Mathlib.Tactic.Common

/-!
# Least recently used

A list whose elements have keys and whose head is the element used last. `touch` puts an element in
front in the place of the one with its key, `insert` then cuts the list at a capacity, `remove` takes a
key out. `Ordered` relates the list to the keys as they were used, the last one first.
-/

namespace Pulse.Lib.Lru

universe u v

variable {α : Type u} {κ : Type v} [DecidableEq κ] (key : α → κ)

def remove (l : List α) (k : κ) : List α := l.filter fun a => key a ≠ k

def touch (l : List α) (a : α) : List α := a :: remove key l (key a)

def insert (cap : Nat) (l : List α) (a : α) : List α := (touch key l a).take cap

/-- The elements have different keys, and those in front were used later. -/
def Ordered (uses : List κ) (l : List α) : Prop :=
  l.Pairwise fun a b => uses.idxOf (key a) < uses.idxOf (key b)

variable {key} {cap : Nat} {uses : List κ} {l : List α} {a b : α} {k : κ}

lemma mem_remove : a ∈ remove key l k ↔ a ∈ l ∧ key a ≠ k := by
  simp [remove]

lemma mem_touch : b ∈ touch key l a ↔ b = a ∨ b ∈ l ∧ key b ≠ key a := by
  simp [touch, remove]

lemma length_insert_le : (insert key cap l a).length ≤ cap :=
  List.length_take_le ..

/-- An element whose key the list has takes the place of that one. -/
lemma length_touch_of_mem (hb : b ∈ l) (hkey : key b = key a) :
    (touch key l a).length ≤ l.length := by
  rw [touch, List.length_cons, Nat.succ_le_iff, remove]
  refine List.length_filter_lt_length_iff_exists.2 ⟨b, hb, ?_⟩
  simp [hkey]

lemma insert_of_mem (hb : b ∈ l) (hkey : key b = key a) (hlen : l.length ≤ cap) :
    insert key cap l a = touch key l a :=
  List.take_of_length_le ((length_touch_of_mem hb hkey).trans hlen)

lemma remove_of_forall_ne (h : ∀ b ∈ l, key b ≠ k) : remove key l k = l :=
  List.filter_eq_self.2 fun b hb => by simp [h b hb]

namespace Ordered

lemma nil : Ordered key uses ([] : List α) := List.Pairwise.nil

lemma sublist {l' : List α} (h : Ordered key uses l) (hsub : l'.Sublist l) :
    Ordered key uses l' :=
  List.Pairwise.sublist hsub h

lemma remove (h : Ordered key uses l) (k : κ) : Ordered key uses (remove key l k) :=
  h.sublist List.filter_sublist

lemma nodup_keys (h : Ordered key uses l) : (l.map key).Nodup := by
  rw [List.Nodup, List.pairwise_map]
  refine List.Pairwise.imp (fun hlt heq => ?_) h
  rw [heq] at hlt
  exact lt_irrefl _ hlt

/-- Another use moves the keys in the list back alike. -/
lemma use (h : Ordered key uses l) (hk : ∀ a ∈ l, key a ≠ k) : Ordered key (k :: uses) l := by
  refine List.Pairwise.imp_of_mem (fun {a b} ha hb hlt => ?_) h
  rw [List.idxOf_cons_ne uses (hk a ha).symm, List.idxOf_cons_ne uses (hk b hb).symm]
  omega

lemma touch (h : Ordered key uses l) (a : α) : Ordered key (key a :: uses) (touch key l a) := by
  have hne : ∀ b ∈ Lru.remove key l (key a), key b ≠ key a := fun b hb => (mem_remove.1 hb).2
  refine List.pairwise_cons.2 ⟨fun b hb => ?_, (h.remove (key a)).use hne⟩
  rw [List.idxOf_cons_self, List.idxOf_cons_ne uses (hne b hb).symm]
  exact Nat.succ_pos _

lemma insert (h : Ordered key uses l) (cap : Nat) (a : α) :
    Ordered key (key a :: uses) (insert key cap l a) :=
  (h.touch a).sublist (List.take_sublist ..)

/-- What `insert` drops from a list within the capacity was used before everything else. -/
theorem insert_dropped (h : Ordered key uses l) (hlen : l.length ≤ cap) (hb : b ∈ l)
    (hdropped : b ∉ Lru.insert key cap l a) (hne : key b ≠ key a) :
    ∀ c ∈ Lru.touch key l a, c ≠ b →
      (key a :: uses).idxOf (key c) < (key a :: uses).idxOf (key b) := by
  have hsplit := List.take_append_drop cap (Lru.touch key l a)
  have hall := h.touch a
  rw [Ordered, ← hsplit, List.pairwise_append] at hall
  have hlast : (Lru.touch key l a).drop cap = [b] := by
    have hmem : b ∈ Lru.touch key l a := mem_touch.2 (.inr ⟨hb, hne⟩)
    rw [← hsplit, List.mem_append] at hmem
    have hcut : b ∈ (Lru.touch key l a).drop cap := hmem.resolve_left hdropped
    have hshort : ((Lru.touch key l a).drop cap).length ≤ 1 := by
      have hle : (Lru.remove key l (key a)).length ≤ l.length := List.length_filter_le ..
      rw [List.length_drop, Lru.touch, List.length_cons]
      omega
    obtain ⟨c, hc⟩ := List.length_eq_one_iff.1 (hshort.antisymm (List.length_pos_of_mem hcut))
    rw [hc, List.mem_singleton] at hcut
    rw [hc, hcut]
  intro c hc hcb
  rw [← hsplit, List.mem_append, hlast, List.mem_singleton] at hc
  exact hall.2.2 c (hc.resolve_right hcb) b (hlast ▸ List.mem_singleton_self b)

end Ordered

/-- With different keys the last element is the one that goes with its key. -/
lemma remove_last (h : ((l ++ [b]).map key).Nodup) : remove key (l ++ [b]) (key b) = l := by
  rw [List.map_append, List.nodup_append] at h
  have hne : ∀ a ∈ l, key a ≠ key b := fun a ha =>
    h.2.2 (key a) (List.mem_map_of_mem ha) (key b) (List.mem_singleton_self _)
  have hl : remove key l (key b) = l := remove_of_forall_ne hne
  rw [remove, List.filter_append]
  rw [remove] at hl
  rw [hl]
  simp

end Pulse.Lib.Lru
