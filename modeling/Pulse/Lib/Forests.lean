import Mathlib.Data.List.Flatten
import Mathlib.Data.List.Nodup
import Mathlib.Data.Set.Finite.List
import Mathlib.Logic.Relation
import Mathlib.Order.WellFounded
import Mathlib.Tactic.Common

/-!
# Forests given by parents

Each element of a list names a parent by its key; the parent may be no element, and the parents may
form a cycle. `preorder` walks down from a key, depth first. From the root it comes to each element
whose parents lead to the root once, and to no other.
-/

namespace Pulse.Lib

universe u v

/-- Elements with distinct keys, each of which names a parent. No element has the key of the root. -/
structure Parents (α : Type u) (κ : Type v) where
  all : List α
  key : α → κ
  parent : α → κ
  root : κ
  keys : (all.map key).Nodup
  key_ne_root : ∀ a ∈ all, key a ≠ root

namespace Parents

variable {α : Type u} {κ : Type v} {P : Parents α κ} {a b : α} {k : κ} {n d e : Nat}

lemma all_nodup : P.all.Nodup :=
  P.keys.of_map _

lemma key_inj (ha : a ∈ P.all) (hb : b ∈ P.all) (h : P.key a = P.key b) : a = b :=
  List.inj_on_of_nodup_map P.keys ha hb h

variable (P)

/-- `b` is an element and the parent of `a`. -/
def HasParent (a b : α) : Prop :=
  b ∈ P.all ∧ P.parent a = P.key b

variable [DecidableEq κ]

def children (k : κ) : List α :=
  P.all.filter fun a => P.parent a = k

/-- The descendants of a key after so many generations. -/
def level (k : κ) : Nat → List α
  | 0 => P.children k
  | n + 1 => (level k n).flatMap fun a => P.children (P.key a)

/-- The descendants of a key in `n` generations, each with its depth and before its children. -/
def preorder : Nat → κ → Nat → List (α × Nat)
  | 0, _, _ => []
  | n + 1, k, d => (P.children k).flatMap fun a => (a, d) :: preorder n (P.key a) (d + 1)

variable {P}

lemma mem_children : a ∈ P.children k ↔ a ∈ P.all ∧ P.parent a = k := by
  rw [children, List.mem_filter, decide_eq_true_iff]

lemma mem_level_succ : a ∈ P.level k (n + 1) ↔ a ∈ P.all ∧ ∃ b ∈ P.level k n, P.parent a = P.key b := by
  rw [level, List.mem_flatMap]
  simp only [mem_children]
  exact ⟨fun ⟨b, hb, ha, hp⟩ => ⟨ha, b, hb, hp⟩, fun ⟨ha, b, hb, hp⟩ => ⟨b, hb, ha, hp⟩⟩

lemma mem_all_of_level (h : a ∈ P.level k n) : a ∈ P.all := by
  cases n with
  | zero => exact (mem_children.1 h).1
  | succ n => exact (mem_level_succ.1 h).1

/-! ### Generations -/

/-- The generations of a key are those of its children, one later. -/
lemma level_succ (k : κ) (n : Nat) :
    P.level k (n + 1) = (P.children k).flatMap fun a => P.level (P.key a) n := by
  induction n with
  | zero => rfl
  | succ n ih =>
    rw [level, ih, List.flatMap_assoc]
    rfl

lemma level_nodup (k : κ) (n : Nat) : (P.level k n).Nodup := by
  induction n with
  | zero => exact all_nodup.filter _
  | succ n ih =>
    refine List.nodup_flatMap.2 ⟨fun a _ => all_nodup.filter _, ?_⟩
    refine ih.imp_of_mem fun {a b} ha hb hne => ?_
    intro c hca hcb
    have heq : P.key a = P.key b := (mem_children.1 hca).2.symm.trans (mem_children.1 hcb).2
    exact hne (key_inj (mem_all_of_level ha) (mem_all_of_level hb) heq)

/-- No element is in two generations of the root. -/
lemma level_unique (hd : a ∈ P.level P.root d) (he : a ∈ P.level P.root e) : d = e := by
  induction d generalizing a e with
  | zero =>
    cases e with
    | zero => rfl
    | succ e =>
      obtain ⟨-, b, hb, hparent⟩ := mem_level_succ.1 he
      rw [(mem_children.1 hd).2] at hparent
      exact absurd hparent.symm (P.key_ne_root b (mem_all_of_level hb))
  | succ d ih =>
    obtain ⟨-, b, hb, hparent⟩ := mem_level_succ.1 hd
    cases e with
    | zero =>
      rw [(mem_children.1 he).2] at hparent
      exact absurd hparent.symm (P.key_ne_root b (mem_all_of_level hb))
    | succ e =>
      obtain ⟨-, c, hc, hparent'⟩ := mem_level_succ.1 he
      obtain rfl : b = c :=
        key_inj (mem_all_of_level hb) (mem_all_of_level hc) (hparent.symm.trans hparent')
      rw [ih hb hc]

/-- Each generation has an ancestor of an element, so there are fewer of them than elements. -/
lemma lt_length_of_level (h : a ∈ P.level P.root n) : n < P.all.length := by
  have hancestors : ∃ as : List α, as.length = n + 1 ∧ as.Nodup ∧
      ∀ b ∈ as, ∃ e ≤ n, b ∈ P.level P.root e := by
    induction n generalizing a with
    | zero =>
      exact ⟨[a], rfl, List.nodup_singleton a, List.forall_mem_singleton.2 ⟨0, le_rfl, h⟩⟩
    | succ n ih =>
      obtain ⟨-, b, hb, -⟩ := mem_level_succ.1 h
      obtain ⟨as, hlength, hnodup, hlevels⟩ := ih hb
      refine ⟨a :: as, by rw [List.length_cons, hlength], List.nodup_cons.2 ⟨fun ha => ?_, hnodup⟩,
        List.forall_mem_cons.2 ⟨⟨n + 1, le_rfl, h⟩, fun c hc => ?_⟩⟩
      · obtain ⟨e, he, hae⟩ := hlevels a ha
        have := level_unique h hae
        omega
      · obtain ⟨e, he, hce⟩ := hlevels c hc
        exact ⟨e, by omega, hce⟩
  obtain ⟨as, hlength, hnodup, hlevels⟩ := hancestors
  have hsub : as.length ≤ P.all.length :=
    (hnodup.subperm fun b hb => let ⟨_, _, hbe⟩ := hlevels b hb; mem_all_of_level hbe).length_le
  omega

/-! ### Who has a generation -/

lemma level_of_hasParent (h : P.HasParent a b) (ha : a ∈ P.level P.root n) :
    ∃ m < n, b ∈ P.level P.root m := by
  obtain ⟨hb, hparent⟩ := h
  cases n with
  | zero =>
    rw [(mem_children.1 ha).2] at hparent
    exact absurd hparent.symm (P.key_ne_root b hb)
  | succ n =>
    obtain ⟨-, c, hc, hparent'⟩ := mem_level_succ.1 ha
    obtain rfl : b = c := key_inj hb (mem_all_of_level hc) (hparent.symm.trans hparent')
    exact ⟨n, Nat.lt_succ_self n, hc⟩

lemma level_of_ancestor (h : Relation.TransGen P.HasParent a b) (ha : a ∈ P.level P.root n) :
    ∃ m < n, b ∈ P.level P.root m := by
  induction h with
  | single h => exact level_of_hasParent h ha
  | tail _ h ih =>
    obtain ⟨m, hm, hb⟩ := ih
    obtain ⟨l, hl, hc⟩ := level_of_hasParent h hb
    exact ⟨l, hl.trans hm, hc⟩

/-- The parents of all elements lead to the root if each is there and none leads back. -/
theorem forall_level_iff : (∀ a ∈ P.all, ∃ n, a ∈ P.level P.root n) ↔
    (∀ a ∈ P.all, P.parent a ≠ P.root → ∃ b, P.HasParent a b) ∧
      ∀ a ∈ P.all, ¬Relation.TransGen P.HasParent a a := by
  constructor
  · intro h
    refine ⟨fun a ha hne => ?_, fun a ha hcycle => ?_⟩
    · obtain ⟨n, hn⟩ := h a ha
      cases n with
      | zero => exact absurd (mem_children.1 hn).2 hne
      | succ n =>
        obtain ⟨-, b, hb, hparent⟩ := mem_level_succ.1 hn
        exact ⟨b, mem_all_of_level hb, hparent⟩
    · obtain ⟨n, hn⟩ := h a ha
      obtain ⟨m, hm, ha'⟩ := level_of_ancestor hcycle hn
      exact absurd (level_unique ha' hn) hm.ne
  · rintro ⟨hthere, hacyclic⟩ a ha
    -- the ancestors of an element are well-founded, since there are finitely many
    have hfinite : Finite {a // a ∈ P.all} := (List.finite_toSet P.all).to_subtype
    let ancestor (x y : {a // a ∈ P.all}) : Prop := Relation.TransGen P.HasParent y.1 x.1
    have : IsTrans _ ancestor := ⟨fun _ _ _ hxy hyz => hyz.trans hxy⟩
    have : Std.Irrefl ancestor := ⟨fun x => hacyclic x.1 x.2⟩
    have hwf : WellFounded ancestor := Finite.wellFounded_of_trans_of_irrefl ancestor
    induction hx : (⟨a, ha⟩ : {a // a ∈ P.all}) using hwf.induction generalizing a with
    | _ x ih =>
      subst hx
      by_cases hroot : P.parent a = P.root
      · exact ⟨0, mem_children.2 ⟨ha, hroot⟩⟩
      · obtain ⟨b, hb⟩ := hthere a ha hroot
        obtain ⟨n, hn⟩ := ih ⟨b, hb.1⟩ (.single hb) b hb.1 rfl
        exact ⟨n + 1, mem_level_succ.2 ⟨ha, b, hn, hb.2⟩⟩

/-! ### The walk -/

lemma depth_of_mem_preorder {x : α × Nat} (h : x ∈ P.preorder n k d) : d ≤ x.2 := by
  induction n generalizing k d with
  | zero => cases h
  | succ n ih =>
    obtain ⟨a, -, hx⟩ := List.mem_flatMap.1 h
    rcases List.mem_cons.1 hx with rfl | hx
    · exact le_rfl
    · exact (Nat.le_succ d).trans (ih hx)

lemma lt_of_mem_preorder {x : α × Nat} (h : x ∈ P.preorder n k d) : x.2 < d + n := by
  induction n generalizing k d with
  | zero => cases h
  | succ n ih =>
    obtain ⟨a, -, hx⟩ := List.mem_flatMap.1 h
    rcases List.mem_cons.1 hx with rfl | hx
    · exact Nat.lt_add_of_pos_right (Nat.succ_pos n)
    · have := ih hx
      omega

/-- At each depth the walk comes to one generation, in order. -/
lemma filter_preorder (he : e < n) (k : κ) (d : Nat) :
    (P.preorder n k d).filter (fun x => x.2 = d + e) = (P.level k e).map (·, d + e) := by
  induction n generalizing k d e with
  | zero => omega
  | succ n ih =>
    rw [preorder, List.filter_flatMap]
    cases e with
    | zero =>
      have hchild (a : α) : ((a, d) :: P.preorder n (P.key a) (d + 1)).filter (fun x => x.2 = d + 0) =
          [(a, d)] := by
        rw [List.filter_cons_of_pos (by simp), List.filter_eq_nil_iff.2 fun x hx => ?_]
        have := depth_of_mem_preorder hx
        simp only [decide_eq_true_eq]
        omega
      simp only [hchild]
      exact List.flatMap_pure_eq_map _ _
    | succ e =>
      have hchild (a : α) : ((a, d) :: P.preorder n (P.key a) (d + 1)).filter
          (fun x => x.2 = d + (e + 1)) = (P.level (P.key a) e).map (·, d + (e + 1)) := by
        rw [List.filter_cons_of_neg (by simp), ← Nat.add_assoc, Nat.add_right_comm d e 1,
          ih (by omega)]
      simp only [hchild]
      rw [level_succ, List.map_flatMap]

lemma mem_preorder (hd : d ≤ e) (he : e < d + n) :
    (a, e) ∈ P.preorder n k d ↔ a ∈ P.level k (e - d) := by
  have hlevel := filter_preorder (P := P) (e := e - d) (n := n) (by omega) k d
  rw [Nat.add_sub_cancel' hd] at hlevel
  have hmem : (a, e) ∈ (P.preorder n k d).filter (fun x => x.2 = e) ↔ (a, e) ∈ P.preorder n k d := by
    rw [List.mem_filter, decide_eq_true rfl, and_iff_left rfl]
  rw [← hmem, hlevel]
  simp

lemma mem_preorder_root : (a, e) ∈ P.preorder n P.root 0 ↔ e < n ∧ a ∈ P.level P.root e := by
  constructor
  · intro h
    have he : e < n := by
      have := lt_of_mem_preorder h
      omega
    exact ⟨he, (mem_preorder (Nat.zero_le e) (by omega)).1 h⟩
  · rintro ⟨he, ha⟩
    exact (mem_preorder (Nat.zero_le e) (by omega)).2 ha

/-- From the root the walk comes to no element twice. -/
lemma preorder_nodup (n : Nat) : ((P.preorder n P.root 0).map Prod.fst).Nodup := by
  have hnodup : (P.preorder n P.root 0).Nodup := by
    refine List.nodup_iff_sublist.2 fun x hx => ?_
    -- the two would be in one generation
    have hlt := (mem_preorder_root.1 (hx.subset List.mem_cons_self)).1
    have htwice := hx.filter fun y => y.2 = 0 + x.2
    rw [filter_preorder hlt, List.filter_eq_self.2 (by simp)] at htwice
    refine List.nodup_iff_sublist.1 ((level_nodup P.root x.2).map ?_) x htwice
    exact fun a b hab => (Prod.mk.inj hab).1
  refine hnodup.map_on ?_
  rintro ⟨a, d⟩ hd ⟨b, e⟩ he rfl
  rw [level_unique (mem_preorder_root.1 hd).2 (mem_preorder_root.1 he).2]

/-- After an element comes the walk down from it. -/
lemma exists_preorder_infix (h : (a, e) ∈ P.preorder n k d) : ∃ m, e + m + 1 = d + n ∧
    (a, e) :: P.preorder m (P.key a) (e + 1) <:+: P.preorder n k d := by
  induction n generalizing k d with
  | zero => cases h
  | succ n ih =>
    obtain ⟨c, hc, h⟩ := List.mem_flatMap.1 h
    have hwithin : (c, d) :: P.preorder n (P.key c) (d + 1) <:+: P.preorder (n + 1) k d :=
      List.infix_of_mem_flatten (List.mem_map_of_mem hc)
    rcases List.mem_cons.1 h with heq | h
    · obtain ⟨rfl, rfl⟩ := Prod.mk.inj heq
      exact ⟨n, by omega, hwithin⟩
    · obtain ⟨m, hm, hinfix⟩ := ih h
      exact ⟨m, by omega, (List.infix_cons hinfix).trans hwithin⟩

/-! ### The whole forest -/

variable (P) in
/-- The walk from the root, down as many generations as there can be. -/
def depthFirst : List (α × Nat) :=
  P.preorder (P.all.length + 1) P.root 0

lemma mem_depthFirst : (a, e) ∈ P.depthFirst ↔ a ∈ P.level P.root e := by
  refine mem_preorder_root.trans (and_iff_right_of_imp fun ha => ?_)
  have := lt_length_of_level ha
  omega

lemma depthFirst_nodup : (P.depthFirst.map Prod.fst).Nodup :=
  preorder_nodup _

lemma mem_map_depthFirst : a ∈ P.depthFirst.map Prod.fst ↔ ∃ n, a ∈ P.level P.root n := by
  simp only [List.mem_map, Prod.exists, mem_depthFirst, exists_and_right, exists_eq_right]

/-- The walk is one through all elements if all have a generation. -/
lemma depthFirst_perm_iff :
    (P.depthFirst.map Prod.fst).Perm P.all ↔ ∀ a ∈ P.all, ∃ n, a ∈ P.level P.root n := by
  rw [List.perm_ext_iff_of_nodup depthFirst_nodup all_nodup]
  simp only [mem_map_depthFirst]
  exact forall_congr' fun a =>
    ⟨fun h => h.2, fun h => ⟨fun ⟨_, hn⟩ => mem_all_of_level hn, h⟩⟩

/-- The children of an element come after it, one deeper. -/
lemma preorder_infix_depthFirst (h : b ∈ P.level P.root e) : ∃ m,
    (b, e) :: P.preorder (m + 1) (P.key b) (e + 1) <:+: P.depthFirst := by
  obtain ⟨m, hm, hinfix⟩ := exists_preorder_infix (mem_depthFirst.2 h)
  have hlt := lt_length_of_level h
  obtain ⟨m, rfl⟩ : ∃ i, m = i + 1 := ⟨m - 1, by omega⟩
  exact ⟨m, hinfix⟩

lemma children_sublist_preorder (n : Nat) (k : κ) (d : Nat) :
    (P.children k).Sublist ((P.preorder (n + 1) k d).map Prod.fst) := by
  rw [preorder, List.map_flatMap]
  induction P.children k with
  | nil => exact List.nil_sublist _
  | cons a as ih => exact (ih.trans (List.sublist_append_right _ _)).cons_cons a

lemma pair_sublist_depthFirst (ha : a ∈ P.all) (hb : b ∈ P.level P.root e)
    (hparent : P.parent a = P.key b) : [(b, e), (a, e + 1)].Sublist P.depthFirst := by
  obtain ⟨m, hinfix⟩ := preorder_infix_depthFirst hb
  have hchild : (a, e + 1) ∈ P.preorder (m + 1) (P.key b) (e + 1) := by
    refine (mem_preorder le_rfl (by omega)).2 ?_
    rw [Nat.sub_self]
    exact mem_children.2 ⟨ha, hparent⟩
  exact ((List.singleton_sublist.2 hchild).cons_cons _).trans hinfix.sublist

/-- The walk comes to siblings in their order. -/
lemma filter_depthFirst (h : (P.depthFirst.map Prod.fst).Perm P.all) (k : κ) :
    ((P.depthFirst.map Prod.fst).filter fun a => P.parent a = k) = P.children k := by
  have hsub : (P.children k).Sublist (P.depthFirst.map Prod.fst) := by
    cases hchildren : P.children k with
    | nil => exact List.nil_sublist _
    | cons a as =>
      rw [← hchildren]
      have ha := mem_children.1 (hchildren ▸ List.mem_cons_self : a ∈ P.children k)
      obtain ⟨n, hn⟩ := depthFirst_perm_iff.1 h a ha.1
      cases n with
      | zero =>
        rw [← ha.2, (mem_children.1 hn).2]
        exact children_sublist_preorder _ _ _
      | succ n =>
        obtain ⟨-, b, hb, hparent⟩ := mem_level_succ.1 hn
        obtain ⟨m, hinfix⟩ := preorder_infix_depthFirst hb
        rw [← ha.2, hparent]
        refine (children_sublist_preorder m _ (n + 1)).trans ?_
        exact ((List.sublist_cons_self _ _).trans hinfix.sublist).map Prod.fst
  have hfilter := hsub.filter fun a => decide (P.parent a = k)
  simp only [children, List.filter_filter, Bool.and_self] at hfilter
  exact (hfilter.eq_of_length (h.filter _).length_eq.symm).symm

end Parents

end Pulse.Lib
