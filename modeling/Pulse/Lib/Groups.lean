import Pulse.Lib.Lists

/-!
# Groups

`group key val as` is the dict of the lists that `d.setdefault(key(a), []).append(val(a))` makes of
the elements. Each element is in one group, and a group is in the order of its elements.
-/

namespace Pulse.Lib

universe u v

variable {α : Type*} {κ : Type u} {ν : Type v} [DecidableEq κ]

def group (key : α → κ) (val : α → ν) (as : List α) : List (κ × List ν) :=
  gather key (fun vs a => vs.getD [] ++ [val a]) as

section

variable {key : α → κ} {val : α → ν} {as : List α} {k : κ} {vs : List ν}

lemma foldl_append_some (val : α → ν) (as : List α) (vs : List ν) :
    as.foldl (fun o a => some (o.getD [] ++ [val a])) (some vs) = some (vs ++ as.map val) := by
  induction as generalizing vs with
  | nil => simp
  | cons a as ih => simp [ih]

lemma group_keys_nodup : ((group key val as).map Prod.fst).Nodup := gather_keys_nodup

lemma mem_group (h : (k, vs) ∈ group key val as) :
    vs = (as.filter fun a => key a = k).map val ∧ vs ≠ [] := by
  have hfold := foldl_of_mem_gather h
  cases hfilter : as.filter fun a => key a = k with
  | nil => simp [hfilter] at hfold
  | cons a as =>
    rw [hfilter, List.foldl_cons, foldl_append_some] at hfold
    cases hfold
    simp

lemma exists_mem_group {a : α} (ha : a ∈ as) : ∃ vs, (key a, vs) ∈ group key val as := by
  have hkey : key a ∈ (group key val as).map Prod.fst := key_mem_gather ha
  obtain ⟨⟨k, vs⟩, hg, hk⟩ := List.mem_map.1 hkey
  exact ⟨vs, hk ▸ hg⟩

lemma mem_of_mem_group {v : ν} (h : (k, vs) ∈ group key val as) (hv : v ∈ vs) :
    ∃ a ∈ as, key a = k ∧ val a = v := by
  rw [(mem_group h).1] at hv
  obtain ⟨a, ha, rfl⟩ := List.mem_map.1 hv
  obtain ⟨ha, hk⟩ := List.mem_filter.1 ha
  exact ⟨a, ha, by simpa using hk, rfl⟩

/-- The groups hold the elements, each once. -/
theorem group_perm (key : α → κ) (val : α → ν) (as : List α) :
    ((group key val as).flatMap fun g => g.2.map (g.1, ·)).Perm (as.map fun a => (key a, val a)) := by
  have hgroups : ((group key val as).flatMap fun g => g.2.map (g.1, ·)) =
      ((group key val as).flatMap fun g => as.filter fun a => key a = g.1).map
        fun a => (key a, val a) := by
    rw [List.map_flatMap]
    refine List.flatMap_congr fun g hg => ?_
    rw [(mem_group (k := g.1) hg).1, List.map_map]
    refine List.map_congr_left fun a ha => ?_
    have hk : key a = g.1 := by simpa using (List.mem_filter.1 ha).2
    rw [hk, Function.comp_apply]
  rw [hgroups]
  apply List.Perm.map
  have hdisjoint : (group key val as).Pairwise fun g g' => ∀ a ∈ as,
      (decide (key a = g.1)) = true → ¬(decide (key a = g'.1)) = true := by
    refine (List.pairwise_map.1 group_keys_nodup).imp fun hne a _ ha ha' => hne ?_
    rw [← decide_eq_true_iff.1 ha, ← decide_eq_true_iff.1 ha']
  refine (flatMap_filter_perm hdisjoint).trans (.of_eq (List.filter_eq_self.2 fun a ha => ?_))
  obtain ⟨vs, hg⟩ : ∃ vs, (key a, vs) ∈ group key val as := exists_mem_group ha
  exact List.any_eq_true.2 ⟨_, hg, by simp⟩

end

end Pulse.Lib
