import Mathlib.Data.List.DropRight
import Mathlib.Data.List.Forall2
import Mathlib.Data.List.Induction
import Mathlib.Data.List.Sort
import Mathlib.Data.List.Nodup
import Mathlib.Tactic.Common

/-!
# Sorted lists, numbered lists and dicts

`sorted lt` puts a list in the order of `lt` and keeps the order of elements that compare equal;
for any comparison at all it is a permutation of the list. `numbers` gives each element the number
it asks for, and its place in the list when it asks for none. A dict is a list of entries in the
order in which their keys came in.
-/

namespace Pulse.Lib

universe u v

variable {α : Type u}

def sorted (lt : α → α → Bool) (as : List α) : List α :=
  as.insertionSort fun a b => lt b a = false

lemma sorted_perm (lt : α → α → Bool) (as : List α) : (sorted lt as).Perm as :=
  List.perm_insertionSort _ as

lemma mem_sorted {lt : α → α → Bool} {as : List α} {a : α} : a ∈ sorted lt as ↔ a ∈ as :=
  (sorted_perm lt as).mem_iff

lemma map_sorted {β : Type v} {lt : α → α → Bool} {lt' : β → β → Bool} {f : α → β}
    (hlt : ∀ a b, lt' (f a) (f b) = lt a b) (as : List α) :
    (sorted lt as).map f = sorted lt' (as.map f) := by
  refine List.map_insertionSort _ _ f as fun a _ b _ => ?_
  rw [hlt]

/-- A list that is sorted by a total order is in order. -/
lemma sorted_pairwise {lt : α → α → Bool} (htotal : ∀ a b, lt b a = false ∨ lt a b = false)
    (htrans : ∀ a b c, lt b a = false → lt c b = false → lt c a = false) (as : List α) :
    (sorted lt as).Pairwise fun a b => lt b a = false := by
  have : Std.Total fun a b => lt b a = false := ⟨htotal⟩
  have : IsTrans α fun a b => lt b a = false := ⟨htrans⟩
  exact List.pairwise_insertionSort _ as

lemma sorted_le {β : Type u} [LinearOrder β] (bs : List β) :
    (sorted (fun a b => decide (a < b)) bs).Pairwise (· ≤ ·) := by
  have hpairwise : (sorted (fun a b => decide (a < b)) bs).Pairwise
      fun a b => decide (b < a) = false := by
    refine sorted_pairwise (fun a b => ?_) (fun a b c hab hbc => ?_) bs
    · simpa only [decide_eq_false_iff_not, not_lt] using le_total a b
    · simp only [decide_eq_false_iff_not, not_lt] at hab hbc ⊢
      exact hab.trans hbc
  exact hpairwise.imp fun h => not_lt.1 (of_decide_eq_false h)

/-- In a sorted list, an element is not below a bound when no more are than stand before it. -/
lemma le_getElem_iff {β : Type u} [LinearOrder β] {bs : List β} (h : bs.Pairwise (· ≤ ·)) {b : β}
    {r : Nat} (hr : r < bs.length) : b ≤ bs[r] ↔ bs.countP (· < b) ≤ r := by
  induction bs generalizing r with
  | nil => simp at hr
  | cons c bs ih =>
    rw [List.pairwise_cons] at h
    have hnone (hle : b ≤ c) : bs.countP (· < b) = 0 := by
      rw [List.countP_eq_zero]
      intro d hd
      simpa using hle.trans (h.1 d hd)
    cases r with
    | zero =>
      rw [List.getElem_cons_zero, List.countP_cons]
      constructor
      · intro hle
        simp [hnone hle, hle]
      · intro hcount
        by_contra hlt
        simp [not_le.1 hlt] at hcount
    | succ r =>
      rw [List.getElem_cons_succ, List.countP_cons, ih h.2 (by simpa using hr)]
      by_cases hlt : c < b
      · simp [hlt]
      · simp [hlt, hnone (not_lt.1 hlt)]

/-- In a sorted list, an element is at most a bound when more are than stand before it. -/
lemma getElem_le_iff {β : Type u} [LinearOrder β] {bs : List β} (h : bs.Pairwise (· ≤ ·)) {b : β}
    {r : Nat} (hr : r < bs.length) : bs[r] ≤ b ↔ r < bs.countP (· ≤ b) := by
  induction bs generalizing r with
  | nil => simp at hr
  | cons c bs ih =>
    rw [List.pairwise_cons] at h
    have hnone (hlt : b < c) : bs.countP (· ≤ b) = 0 := by
      rw [List.countP_eq_zero]
      intro d hd
      simpa using hlt.trans_le (h.1 d hd)
    cases r with
    | zero =>
      rw [List.getElem_cons_zero, List.countP_cons]
      constructor
      · intro hle
        simp [hle]
      · intro hcount
        by_contra hlt
        simp [hlt, hnone (not_le.1 hlt)] at hcount
    | succ r =>
      rw [List.getElem_cons_succ, List.countP_cons, ih h.2 (by simpa using hr)]
      by_cases hle : c ≤ b
      · simp [hle]
      · simp [hle, hnone (not_le.1 hle)]

/-- The smallest element that at least `k` elements are not above. -/
structure LeastAbove {β : Type u} [LinearOrder β] (bs : List β) (k : Nat) (b : β) : Prop where
  mem : b ∈ bs
  le_count : k ≤ bs.countP (· ≤ b)
  least : ∀ c ∈ bs, k ≤ bs.countP (· ≤ c) → b ≤ c

/-- In a sorted list it is the element at that place. -/
lemma leastAbove_getElem_iff {β : Type u} [LinearOrder β] {bs : List β}
    (h : bs.Pairwise (· ≤ ·)) {k : Nat} (hk : k < bs.length) {b : β} :
    LeastAbove bs (k + 1) b ↔ b = bs[k] := by
  have hplace : LeastAbove bs (k + 1) bs[k] :=
    ⟨List.getElem_mem hk, (getElem_le_iff h hk).1 le_rfl, fun c _ hc => (getElem_le_iff h hk).2 hc⟩
  refine ⟨fun hb => le_antisymm ?_ ?_, fun hb => hb ▸ hplace⟩
  · exact hb.least _ hplace.mem hplace.le_count
  · exact hplace.least _ hb.mem hb.le_count

lemma LeastAbove.perm {β : Type u} [LinearOrder β] {bs cs : List β} {k : Nat} {b : β}
    (h : LeastAbove bs k b) (hperm : bs.Perm cs) : LeastAbove cs k b where
  mem := hperm.mem_iff.1 h.mem
  le_count := hperm.countP_eq _ ▸ h.le_count
  least c hc hcount := h.least c (hperm.mem_iff.2 hc) (hperm.countP_eq _ ▸ hcount)

/-! ### Lists side by side -/

lemma exists_of_forall₂ {β : Type v} {R : α → β → Prop} {as : List α} {bs : List β}
    (h : List.Forall₂ R as bs) {a : α} (ha : a ∈ as) : ∃ b ∈ bs, R a b := by
  induction h with
  | nil => cases ha
  | cons hr _ ih =>
    rcases List.mem_cons.1 ha with rfl | ha
    · exact ⟨_, List.mem_cons_self, hr⟩
    · obtain ⟨b, hb, hr⟩ := ih ha
      exact ⟨b, List.mem_cons_of_mem _ hb, hr⟩

lemma exists_forall₂ {β : Type v} {R : α → β → Prop} {as : List α} (h : ∀ a ∈ as, ∃ b, R a b) :
    ∃ bs, List.Forall₂ R as bs := by
  induction as with
  | nil => exact ⟨[], .nil⟩
  | cons a as ih =>
    rw [List.forall_mem_cons] at h
    obtain ⟨b, hb⟩ := h.1
    obtain ⟨bs, hbs⟩ := ih h.2
    exact ⟨b :: bs, .cons hb hbs⟩

lemma forall₂_attach {β : Type v} {R : α → β → Prop} {as : List α} {bs : List β} :
    List.Forall₂ (fun a b => R a.1 b) as.attach bs ↔ List.Forall₂ R as bs := by
  have hmap : List.Forall₂ R (as.attach.map Subtype.val) bs ↔
      List.Forall₂ (fun a b => R a.1 b) as.attach bs := List.forall₂_map_left_iff
  rw [← hmap, List.attach_map_subtype_val]

lemma forall₂_comp {β : Type v} {γ : Type u} {R : α → β → Prop} {S : β → γ → Prop} {as : List α}
    {bs : List β} {cs : List γ} (h : List.Forall₂ R as bs) (h' : List.Forall₂ S bs cs) :
    List.Forall₂ (fun a c => ∃ b, R a b ∧ S b c) as cs := by
  induction h generalizing cs with
  | nil => exact List.forall₂_nil_left_iff.1 h' ▸ .nil
  | cons hr _ ih =>
    obtain ⟨c, cs', hs, htail, rfl⟩ := List.forall₂_cons_left_iff.1 h'
    exact .cons ⟨_, hr, hs⟩ (ih htail)

lemma exists_mem_of_forall₂ {β : Type v} {R : α → β → Prop} {as : List α} {bs : List β}
    (h : List.Forall₂ R as bs) : ∀ a ∈ as, ∃ b ∈ bs, R a b := by
  induction h with
  | nil => nofun
  | cons hab _ ih =>
    rw [List.forall_mem_cons]
    refine ⟨⟨_, List.mem_cons_self, hab⟩, fun a ha => ?_⟩
    obtain ⟨b, hb, hr⟩ := ih a ha
    exact ⟨b, List.mem_cons_of_mem _ hb, hr⟩

/-! ### Sorting what is in another order -/

/-- One turn of the loop of `sorted`. -/
abbrev insertBy (lt : α → α → Bool) (a : α) (as : List α) : List α :=
  as.orderedInsert (fun a b => lt b a = false) a

lemma sorted_append (lt : α → α → Bool) (as bs : List α) :
    sorted lt (as ++ bs) = as.foldr (insertBy lt) (sorted lt bs) :=
  List.foldr_append

/-- A comparison of a strict order. -/
structure StrictOrder (lt : α → α → Bool) : Prop where
  asymm : ∀ a b, lt a b = true → lt b a = false
  trans : ∀ a b c, lt a b = true → lt b c = true → lt a c = true

/-- The comparison tells the elements apart. -/
def Decides (lt : α → α → Bool) (a b : α) : Prop :=
  a = b ∨ lt a b = true ∨ lt b a = true

lemma Decides.symm {lt : α → α → Bool} {a b : α} (h : Decides lt a b) : Decides lt b a := by
  rcases h with h | h | h
  · exact .inl h.symm
  · exact .inr (.inr h)
  · exact .inr (.inl h)

lemma Decides.flip {lt : α → α → Bool} {a b : α} (h : Decides lt a b) :
    Decides (fun a b => lt b a) a b :=
  h.imp_right Or.symm

lemma StrictOrder.irrefl {lt : α → α → Bool} (h : StrictOrder lt) (a : α) : lt a a = false := by
  rw [← Bool.not_eq_true]
  intro hlt
  simp [h.asymm a a hlt] at hlt

lemma StrictOrder.comap {β : Type v} {lt : α → α → Bool} (h : StrictOrder lt) (f : β → α) :
    StrictOrder fun a b => lt (f a) (f b) where
  asymm a b := h.asymm (f a) (f b)
  trans a b c := h.trans (f a) (f b) (f c)

/-- Values in an order, and those that are missing after them. -/
def nullsLast (lt : α → α → Bool) : Option α → Option α → Bool
  | some a, some b => lt a b
  | some _, none => true
  | none, _ => false

lemma StrictOrder.nullsLast {lt : α → α → Bool} (h : StrictOrder lt) :
    StrictOrder (nullsLast lt) where
  asymm a b hab := by
    cases a with
    | none => cases hab
    | some a =>
      cases b with
      | none => rfl
      | some b => exact h.asymm a b hab
  trans a b c hab hbc := by
    cases a with
    | none => cases hab
    | some a =>
      cases b with
      | none => cases hbc
      | some b =>
        cases c with
        | none => rfl
        | some c => exact h.trans a b c hab hbc

/-- A list is sorted in an order that is one among its elements. -/
theorem sorted_pairwise_of_mem {lt : α → α → Bool} {as : List α}
    (htotal : ∀ a ∈ as, ∀ b ∈ as, lt b a = false ∨ lt a b = false)
    (htrans : ∀ a ∈ as, ∀ b ∈ as, ∀ c ∈ as, lt b a = false → lt c b = false → lt c a = false) :
    (sorted lt as).Pairwise fun a b => lt b a = false := by
  let lt' (a b : {a // a ∈ as}) : Bool := lt a b
  have hmap : (sorted lt' as.attach).map Subtype.val = sorted lt as := by
    rw [map_sorted (fun _ _ => rfl), List.attach_map_subtype_val]
  have htotal' (a b : {a // a ∈ as}) : lt' b a = false ∨ lt' a b = false :=
    htotal a a.2 b b.2
  have htrans' (a b c : {a // a ∈ as}) : lt' b a = false → lt' c b = false → lt' c a = false :=
    htrans a a.2 b b.2 c c.2
  rw [← hmap, List.pairwise_map]
  exact sorted_pairwise htotal' htrans' as.attach

/-- A list whose elements a strict order tells apart is sorted in that order. -/
theorem sorted_pairwise_of_decides {lt : α → α → Bool} (hlt : StrictOrder lt) {as : List α}
    (h : ∀ a ∈ as, ∀ b ∈ as, Decides lt a b) :
    (sorted lt as).Pairwise fun a b => lt b a = false := by
  refine sorted_pairwise_of_mem (fun a _ b _ => ?_) fun a _ b hb c hc hab hbc => ?_
  · cases hba : lt b a with
    | false => exact .inl rfl
    | true => exact .inr (hlt.asymm b a hba)
  · rw [← Bool.not_eq_true]
    intro hca
    rcases h b hb c hc with heq | hbc' | hcb
    · rw [heq] at hab
      simp [hab] at hca
    · simp [hlt.trans b c a hbc' hca] at hab
    · simp [hcb] at hbc

lemma filter_insertBy {lt : α → α → Bool} {p : α → Bool} {a : α} {cs : List α}
    (h : p a = true → ∀ c ∈ cs, p c = true → lt c a = false) :
    (insertBy lt a cs).filter p = (a :: cs).filter p := by
  induction cs with
  | nil => rfl
  | cons c cs ih =>
    have ih := ih fun hp c' hc' => h hp c' (List.mem_cons_of_mem c hc')
    by_cases hca : lt c a = false
    · rw [insertBy, List.orderedInsert_cons, if_pos hca]
    · rw [insertBy, List.orderedInsert_cons, if_neg hca, List.filter_cons, ih]
      cases hp : p a with
      | false => simp [hp, List.filter_cons]
      | true =>
        have hc : ¬p c = true := fun hpc => hca (h hp c List.mem_cons_self hpc)
        simp [hp, hc]

/-- Elements of which none is before another stand as they stood. -/
lemma filter_sorted {lt : α → α → Bool} {p : α → Bool} {as : List α}
    (h : ∀ a ∈ as, ∀ b ∈ as, p a = true → p b = true → lt b a = false) :
    (sorted lt as).filter p = as.filter p := by
  induction as with
  | nil => rfl
  | cons a as ih =>
    rw [List.forall_mem_cons] at h
    have ih := ih fun b hb c hc => h.2 b hb c (List.mem_cons_of_mem a hc)
    have hinsert : (insertBy lt a (sorted lt as)).filter p = (a :: sorted lt as).filter p :=
      filter_insertBy fun hp c hc => h.1 c (List.mem_cons_of_mem a (mem_sorted.1 hc)) hp
    rw [List.filter_cons, ih, ← List.filter_cons] at hinsert
    exact hinsert

/-- A list in the order of a key, in which elements with one key stand as they stood. -/
structure StablySorted {κ : Type v} [DecidableEq κ] (key : α → κ) (le : κ → κ → Prop)
    (as bs : List α) : Prop where
  perm : bs.Perm as
  ordered : bs.Pairwise fun a b => le (key a) (key b)
  stable : ∀ k, bs.filter (fun a => key a = k) = as.filter fun a => key a = k

section Lexicographic

variable {β : Type v} {γ : Type u} [DecidableEq β] {lt₁ : β → β → Bool} {lt₂ : γ → γ → Bool}

/-- The order of pairs. -/
def lexLt (lt₁ : β → β → Bool) (lt₂ : γ → γ → Bool) (a b : β × γ) : Bool :=
  lt₁ a.1 b.1 || a.1 = b.1 && lt₂ a.2 b.2

lemma lexLt_iff {a b : β × γ} : lexLt lt₁ lt₂ a b = true ↔
    lt₁ a.1 b.1 = true ∨ a.1 = b.1 ∧ lt₂ a.2 b.2 = true := by
  simp [lexLt]

omit [DecidableEq β] in
lemma StrictOrder.flip (h : StrictOrder lt₁) : StrictOrder fun a b => lt₁ b a where
  asymm a b := h.asymm b a
  trans a b c hab hbc := h.trans c b a hbc hab

lemma StrictOrder.lex (h₁ : StrictOrder lt₁) (h₂ : StrictOrder lt₂) : StrictOrder (lexLt lt₁ lt₂) where
  asymm a b hab := by
    rw [← Bool.not_eq_true, lexLt_iff]
    rintro (hba | ⟨heq, hba⟩) <;> rcases lexLt_iff.1 hab with hab | ⟨heq', hab⟩
    · simp [h₁.asymm _ _ hab] at hba
    · rw [heq'] at hba
      simpa [hba] using h₁.asymm _ _ hba
    · rw [heq] at hab
      simpa [hab] using h₁.asymm _ _ hab
    · simp [h₂.asymm _ _ hab] at hba
  trans a b c hab hbc := by
    rw [lexLt_iff] at hab hbc ⊢
    rcases hab with hab | ⟨heq, hab⟩ <;> rcases hbc with hbc | ⟨heq', hbc⟩
    · exact .inl (h₁.trans _ _ _ hab hbc)
    · exact .inl (heq' ▸ hab)
    · exact .inl (heq ▸ hbc)
    · exact .inr ⟨heq.trans heq', h₂.trans _ _ _ hab hbc⟩

lemma Decides.lex {a b : β × γ} (h₁ : Decides lt₁ a.1 b.1) (h₂ : Decides lt₂ a.2 b.2) :
    Decides (lexLt lt₁ lt₂) a b := by
  simp only [Decides, lexLt_iff]
  rcases h₁ with h₁ | h₁ | h₁
  · rcases h₂ with h₂ | h₂ | h₂
    · exact .inl (Prod.ext h₁ h₂)
    · exact .inr (.inl (.inr ⟨h₁, h₂⟩))
    · exact .inr (.inr (.inr ⟨h₁.symm, h₂⟩))
  · exact .inr (.inl (.inl h₁))
  · exact .inr (.inr (.inl h₁))

end Lexicographic

section Reordered

variable {lt : α → α → Bool} (hlt : StrictOrder lt)

include hlt

lemma insertBy_comm_of_lt {a b : α} (h : lt a b = true) (cs : List α) :
    insertBy lt a (insertBy lt b cs) = insertBy lt b (insertBy lt a cs) := by
  have hnot := hlt.asymm a b h
  induction cs with
  | nil => simp [h, hnot]
  | cons c cs ih =>
    by_cases hbc : lt c b = false
    · have hac : lt c a = false := by
        rw [← Bool.not_eq_true] at hbc ⊢
        exact fun hca => hbc (hlt.trans c a b hca h)
      simp [hbc, hac, h, hnot]
    · by_cases hac : lt c a = false
      · simp [hbc, hac, h]
      · simp [hbc, hac, ih]

lemma insertBy_comm {a b : α} (h : Decides lt a b) (cs : List α) :
    insertBy lt a (insertBy lt b cs) = insertBy lt b (insertBy lt a cs) := by
  rcases h with rfl | h | h
  · rfl
  · exact insertBy_comm_of_lt hlt h cs
  · exact (insertBy_comm_of_lt hlt h cs).symm

lemma insertBy_foldr {a : α} {bs : List α} (h : ∀ b ∈ bs, Decides lt a b) (cs : List α) :
    insertBy lt a (bs.foldr (insertBy lt) cs) = bs.foldr (insertBy lt) (insertBy lt a cs) := by
  induction bs with
  | nil => rfl
  | cons b bs ih =>
    rw [List.forall_mem_cons] at h
    rw [List.foldr_cons, List.foldr_cons, insertBy_comm hlt h.1, ih h.2]

lemma foldr_insertBy_comm {as bs : List α} (h : ∀ a ∈ as, ∀ b ∈ bs, Decides lt a b) (cs : List α) :
    as.foldr (insertBy lt) (bs.foldr (insertBy lt) cs) =
      bs.foldr (insertBy lt) (as.foldr (insertBy lt) cs) := by
  induction as with
  | nil => rfl
  | cons a as ih =>
    rw [List.forall_mem_cons] at h
    rw [List.foldr_cons, List.foldr_cons, ih h.2, insertBy_foldr hlt h.1]

/-- Lists are sorted to the same list in whatever order they come, if the comparison tells the
elements of any two of them apart. -/
theorem sorted_flatMap_perm {β : Type v} {f : β → List α} {xs ys : List β} (hperm : xs.Perm ys)
    (h : xs.Pairwise fun x y => ∀ a ∈ f x, ∀ b ∈ f y, Decides lt a b) :
    sorted lt (xs.flatMap f) = sorted lt (ys.flatMap f) := by
  have hsymm {x y : β} (h : ∀ a ∈ f x, ∀ b ∈ f y, Decides lt a b) :
      ∀ a ∈ f y, ∀ b ∈ f x, Decides lt a b := fun b hb a ha => (h a ha b hb).symm
  induction hperm with
  | nil => rfl
  | cons x _ ih =>
    rw [List.flatMap_cons, List.flatMap_cons, sorted_append, sorted_append,
      ih (List.pairwise_cons.1 h).2]
  | swap x y xs =>
    have hxy : ∀ a ∈ f y, ∀ b ∈ f x, Decides lt a b :=
      (List.pairwise_cons.1 h).1 x List.mem_cons_self
    simp only [List.flatMap_cons, sorted_append]
    exact foldr_insertBy_comm hlt hxy _
  | trans hfirst _ ih₁ ih₂ =>
    exact (ih₁ h).trans (ih₂ ((hfirst.pairwise_iff hsymm).1 h))

/-- Elements that the comparison tells apart are sorted to the same list in whatever order they
come. -/
theorem sorted_eq_of_perm {as bs : List α} (hperm : as.Perm bs) (h : as.Pairwise (Decides lt)) :
    sorted lt as = sorted lt bs := by
  have hflat := sorted_flatMap_perm hlt hperm (f := fun a => [a]) (h.imp fun h => by simpa using h)
  simpa using hflat

/-- A list is sorted to any arrangement of it that is in strict order. -/
lemma sorted_eq_of_pairwise {as bs : List α} (hperm : as.Perm bs)
    (h : bs.Pairwise fun a b => lt a b = true) : sorted lt as = bs := by
  have hdecides : bs.Pairwise (Decides lt) := h.imp fun hab => .inr (.inl hab)
  rw [← sorted_eq_of_perm hlt hperm.symm hdecides]
  exact (h.imp (hlt.asymm _ _)).insertionSort_eq

/-- The one of two elements that the comparison puts first, and the first one when it puts neither. -/
def firstBy (lt : α → α → Bool) (a b : α) : α :=
  if lt b a then b else a

lemma firstBy_comm {a b : α} (h : Decides lt a b) : firstBy lt a b = firstBy lt b a := by
  unfold firstBy
  rcases h with rfl | h | h
  · rfl
  · simp [h, hlt.asymm a b h]
  · simp [h, hlt.asymm b a h]

lemma firstBy_right_comm {a b : α} (h : Decides lt a b) (c : α) :
    firstBy lt (firstBy lt c a) b = firstBy lt (firstBy lt c b) a := by
  have hof {a b : α} (h : lt a b = true) :
      firstBy lt (firstBy lt c a) b = firstBy lt (firstBy lt c b) a := by
    have hnot := hlt.asymm a b h
    unfold firstBy
    by_cases hac : lt a c = true
    · by_cases hbc : lt b c = true <;> simp [hac, hbc, h, hnot]
    · have hbc : ¬lt b c = true := fun hbc => hac (hlt.trans a b c h hbc)
      simp [hac, hbc]
  rcases h with rfl | h | h
  · rfl
  · exact hof h
  · exact (hof h).symm

/-- The first element of a list that is not empty is the same in whatever order the list comes. -/
lemma reduce_firstBy_perm {as bs : List α} (hperm : as.Perm bs)
    (h : ∀ a ∈ as, ∀ b ∈ as, Decides lt a b) :
    as.foldl (fun c a => some (c.elim a (firstBy lt · a))) none =
      bs.foldl (fun c a => some (c.elim a (firstBy lt · a))) none := by
  refine hperm.foldl_eq' (fun a ha b hb c => congrArg some ?_) none
  cases c with
  | none => exact firstBy_comm hlt (h a ha b hb)
  | some c => exact firstBy_right_comm hlt (h a ha b hb) c

end Reordered

/-- The order of a key. -/
def byKey (key : α → Nat) (a b : α) : Bool :=
  decide (key a < key b)

lemma orderedInsert_front {r : α → α → Prop} [DecidableRel r] {a : α} {as : List α}
    (h : ∀ b ∈ as, r a b) : as.orderedInsert r a = a :: as := by
  cases as with
  | nil => rfl
  | cons b as => exact List.orderedInsert_cons_of_le r as (h b List.mem_cons_self)

lemma filter_orderedInsert {r : α → α → Prop} [DecidableRel r]
    (htrans : ∀ a b c, r a b → r b c → r a c) (p : α → Bool) (a : α) {as : List α}
    (hsorted : as.Pairwise r) : (as.orderedInsert r a).filter p =
      if p a then (as.filter p).orderedInsert r a else as.filter p := by
  induction as with
  | nil => by_cases ha : p a <;> simp [ha]
  | cons b as ih =>
    rw [List.pairwise_cons] at hsorted
    by_cases hab : r a b
    · have hfront : ∀ c ∈ (b :: as).filter p, r a c := by
        intro c hc
        rcases List.mem_cons.1 (List.mem_of_mem_filter hc) with rfl | hc
        · exact hab
        · exact htrans a b c hab (hsorted.1 c hc)
      rw [List.orderedInsert_cons_of_le r as hab, orderedInsert_front hfront, List.filter_cons]
    · rw [List.orderedInsert_of_not_le r as hab, List.filter_cons, List.filter_cons,
        ih hsorted.2]
      by_cases hb : p b <;> by_cases ha : p a <;> simp [hb, ha, hab]

/-- Sorting by a key and leaving elements out commute. -/
theorem sorted_filter (key : α → Nat) (p : α → Bool) (as : List α) :
    (sorted (byKey key) as).filter p = sorted (byKey key) (as.filter p) := by
  have hle : ∀ a b, byKey key b a = false ↔ key a ≤ key b := by simp [byKey]
  have htrans : ∀ a b c, byKey key b a = false → byKey key c b = false → byKey key c a = false := by
    simp only [hle]
    exact fun a b c => le_trans
  have hpairwise := sorted_pairwise
    (fun a b => by simpa only [hle] using le_total (key a) (key b)) htrans
  induction as with
  | nil => rfl
  | cons a as ih =>
    have hcons : ∀ bs : List α, sorted (byKey key) (a :: bs) =
        (sorted (byKey key) bs).orderedInsert (fun a b => byKey key b a = false) a := fun _ => rfl
    rw [hcons, filter_orderedInsert htrans p a (hpairwise as), ih, List.filter_cons]
    by_cases ha : p a <;> simp [ha, hcons]

lemma mem_take_iff {as : List α} (h : as.Nodup) {p k : Nat} {a : α}
    (ha : as[p]? = some a) : a ∈ as.take k ↔ p < k := by
  constructor
  · intro hin
    obtain ⟨q, hq⟩ := List.mem_iff_getElem?.1 hin
    rw [List.getElem?_take] at hq
    split at hq
    · have hpq : p = q := by
        obtain ⟨hp, -⟩ := List.getElem?_eq_some_iff.1 ha
        exact (List.getElem?_inj hp h).1 (ha.trans hq.symm)
      omega
    · cases hq
  · intro hp
    apply List.mem_of_getElem? (i := p)
    rw [List.getElem?_take_of_lt hp, ha]

/-- What is left of a list without its first elements, by a mark that tells its elements apart. -/
lemma filter_not_mem_take {β : Type v} [DecidableEq β] {f : α → β} {as : List α}
    (h : (as.map f).Nodup) (n : Nat) :
    as.filter (fun a => f a ∉ (as.take n).map f) = as.drop n := by
  have hsplit : as = as.take n ++ as.drop n := (List.take_append_drop n as).symm
  have hdisjoint : ∀ a ∈ as.drop n, f a ∉ (as.take n).map f := by
    rw [hsplit, List.map_append, List.nodup_append'] at h
    exact fun a ha hm => h.2.2 hm (List.mem_map_of_mem ha)
  conv_lhs => rw [hsplit, List.filter_append]
  have hfirst : (as.take n).filter (fun a => f a ∉ (as.take n).map f) = [] := by
    apply List.filter_eq_nil_iff.2
    intro a ha
    simp only [decide_eq_true_eq, not_not]
    exact List.mem_map_of_mem ha
  have hrest : (as.drop n).filter (fun a => f a ∉ (as.take n).map f) = as.drop n := by
    apply List.filter_eq_self.2
    intro a ha
    rw [decide_eq_true_eq]
    exact hdisjoint a ha
  rw [← hsplit, hfirst, hrest, List.nil_append]

/-- What two lists have in common they have in common without what is missing. -/
lemma filterMap_eq_of_map_eq {β γ : Type u} {f : α → Option γ} {g : β → Option γ} {as : List α}
    {bs : List β} (h : as.map f = bs.map g) : as.filterMap f = bs.filterMap g := by
  have hsome : (as.map f).filterMap id = (bs.map g).filterMap id := by rw [h]
  simpa only [List.filterMap_map, Function.id_comp] using hsome

/-- The number asked for, else the place. -/
def numbers (wish : α → Option Int) (as : List α) : List Int :=
  as.zipIdx.map fun e => (wish e.1).getD e.2

/-- The wishes differ, and none of them is the place of an element without a wish. -/
def Compatible (wish : α → Option Int) (as : List α) : Prop :=
  (as.filterMap wish).Nodup ∧
    ∀ (p : Nat) (a : α), as[p]? = some a → wish a = none → (p : Int) ∉ as.filterMap wish

lemma wishes_nodup_iff (wish : α → Option Int) (as : List α) :
    (as.filterMap wish).Nodup ↔ ∀ (p q : Nat) (a b : α), as[p]? = some a → as[q]? = some b → p < q →
      ∀ n, wish a = some n → wish b ≠ some n := by
  rw [List.Nodup, List.pairwise_filterMap, List.pairwise_iff_getElem]
  constructor
  · intro h p q a b ha hb hpq n hn hn'
    obtain ⟨hp, rfl⟩ := List.getElem?_eq_some_iff.1 ha
    obtain ⟨hq, rfl⟩ := List.getElem?_eq_some_iff.1 hb
    exact h p q hp hq hpq n hn n hn' rfl
  · intro h p q hp hq hpq n hn m hm hnm
    exact h p q _ _ (List.getElem?_eq_getElem hp) (List.getElem?_eq_getElem hq) hpq n hn (hnm ▸ hm)

/-- The numbers are pairwise different exactly when the wishes are compatible with the places. -/
theorem numbers_nodup_iff (wish : α → Option Int) (as : List α) :
    (numbers wish as).Nodup ↔ Compatible wish as := by
  have hplaces : as.zipIdx.Nodup := by
    apply List.Nodup.of_map Prod.snd
    rw [List.zipIdx_map_snd]
    exact List.nodup_range' 1
  rw [numbers, List.nodup_map_iff_inj_on hplaces, Compatible, wishes_nodup_iff]
  simp only [Prod.forall, List.mk_mem_zipIdx_iff_getElem?, List.mem_filterMap, not_exists, not_and]
  constructor
  · intro h
    refine ⟨fun p q a b ha hb hpq n hn hm => ?_, fun p a ha hnone b hb hp => ?_⟩
    · have heq := h a p ha b q hb (by simp [hn, hm])
      simp only [Prod.mk.injEq] at heq
      omega
    · obtain ⟨q, hq⟩ := List.mem_iff_getElem?.1 hb
      have heq := h a p ha b q hq (by simp [hnone, hp])
      simp only [Prod.mk.injEq] at heq
      rw [heq.1, hp] at hnone
      cases hnone
  · rintro ⟨hwishes, hfree⟩ a p ha b q hb heq
    have hsame : p = q := by
      cases hwa : wish a with
      | none =>
        cases hwb : wish b with
        | none =>
          rw [hwa, hwb] at heq
          exact Int.ofNat_inj.1 heq
        | some n =>
          rw [hwa, hwb] at heq
          have hp : wish b = some (p : Int) := by simpa [hwb] using heq.symm
          exact absurd hp (hfree p a ha hwa b (List.mem_of_getElem? hb))
      | some n =>
        cases hwb : wish b with
        | none =>
          rw [hwa, hwb] at heq
          have hq : wish a = some (q : Int) := by simpa [hwa] using heq
          exact absurd hq (hfree q b hb hwb a (List.mem_of_getElem? ha))
        | some m =>
          obtain rfl : n = m := by simpa [hwa, hwb] using heq
          rcases Nat.lt_trichotomy p q with hlt | heq' | hlt
          · exact absurd hwb (hwishes p q a b ha hb hlt n hwa)
          · exact heq'
          · exact absurd hwa (hwishes q p b a hb ha hlt n hwb)
    subst hsame
    rw [ha] at hb
    rw [Option.some.inj hb]

/-! ### Dicts -/

section Dict

variable {κ : Type u} {ν : Type v} [DecidableEq κ]

/-- `d[k] = f(d.get(k))` -/
def upsert (d : List (κ × ν)) (k : κ) (f : Option ν → ν) : List (κ × ν) :=
  match d.lookup k with
  | none => d ++ [(k, f none)]
  | some v => d.map fun e => if e.1 = k then (k, f (some v)) else e

lemma lookup_replace (d : List (κ × ν)) (k k' : κ) (w : ν) :
    (d.map fun e => if e.1 = k then (k, w) else e).lookup k' =
      if k' = k then (d.lookup k).map fun _ => w else d.lookup k' := by
  induction d with
  | nil => simp
  | cons e d ih =>
    rw [List.map_cons, List.lookup_cons, ih, List.lookup_cons, List.lookup_cons]
    by_cases hk : k' = k
    · by_cases he : e.1 = k
      · simp [hk, he]
      · have hne : (k == e.1) = false := by simpa using Ne.symm he
        simp [hk, he, hne]
    · by_cases he : e.1 = k
      · have hne : (k' == k) = false := by simpa using hk
        simp [hk, he, hne]
      · simp [hk, he]

lemma lookup_upsert (d : List (κ × ν)) (k : κ) (f : Option ν → ν) (k' : κ) :
    (upsert d k f).lookup k' = if k' = k then some (f (d.lookup k)) else d.lookup k' := by
  unfold upsert
  cases h : d.lookup k with
  | none =>
    by_cases hk : k' = k
    · simp [hk, h, List.lookup_append]
    · have hne : (k' == k) = false := by simpa using hk
      simp [hk, hne, List.lookup_append, List.lookup_cons]
  | some v =>
    rw [lookup_replace, h]
    rfl

lemma upsert_of_notMem {d : List (κ × ν)} {k : κ} (h : k ∉ d.map Prod.fst) (f : Option ν → ν) :
    upsert d k f = d ++ [(k, f none)] := by
  have hnone : d.lookup k = none := by
    rw [List.lookup_eq_none_iff]
    intro e he
    rw [bne_iff_ne]
    rintro rfl
    exact h (List.mem_map_of_mem he)
  rw [upsert, hnone]

lemma nodup_keys_append {d : List (κ × ν)} (hkeys : (d.map Prod.fst).Nodup) {k : κ}
    (h : d.lookup k = none) (v : ν) : ((d ++ [(k, v)]).map Prod.fst).Nodup := by
  rw [List.map_append, List.map_singleton, List.nodup_append_comm]
  refine List.nodup_cons.2 ⟨fun hm => ?_, hkeys⟩
  obtain ⟨e, he, hek⟩ := List.mem_map.1 hm
  simpa [hek] using List.lookup_eq_none_iff.1 h e he

omit [DecidableEq κ] in
lemma keys_map {d : List (κ × ν)} {g : κ × ν → κ × ν} (hg : ∀ e, (g e).1 = e.1) :
    (d.map g).map Prod.fst = d.map Prod.fst := by
  rw [List.map_map]
  apply List.map_congr_left
  intro e _
  exact hg e

lemma lookup_map_values {μ : Type*} (g : ν → μ) (d : List (κ × ν)) (k : κ) :
    (d.map fun e => (e.1, g e.2)).lookup k = (d.lookup k).map g := by
  induction d with
  | nil => rfl
  | cons e d ih =>
    rw [List.map_cons, List.lookup_cons, List.lookup_cons, ih]
    cases k == e.1 <;> rfl

/-- Values are mapped before or after one of them is set. -/
lemma upsert_map_values {μ : Type*} {g : ν → μ} {f : Option ν → ν} {f' : Option μ → μ}
    (h : ∀ o, g (f o) = f' (o.map g)) (d : List (κ × ν)) (k : κ) :
    (upsert d k f).map (fun e => (e.1, g e.2)) =
      upsert (d.map fun e => (e.1, g e.2)) k f' := by
  unfold upsert
  rw [lookup_map_values]
  cases hd : d.lookup k with
  | none => simp [h]
  | some v =>
    simp only [Option.map_some, List.map_map]
    refine List.map_congr_left fun e _ => ?_
    by_cases hk : e.1 = k
    · simp [hk, h]
    · simp [hk]

lemma upsert_keys_nodup {d : List (κ × ν)} (hkeys : (d.map Prod.fst).Nodup) (k : κ)
    (f : Option ν → ν) : ((upsert d k f).map Prod.fst).Nodup := by
  unfold upsert
  cases h : d.lookup k with
  | none => exact nodup_keys_append hkeys h _
  | some v =>
    dsimp only
    rw [keys_map fun e => by by_cases he : e.1 = k <;> simp [he]]
    exact hkeys

lemma mem_of_lookup {d : List (κ × ν)} {k : κ} {v : ν} (h : d.lookup k = some v) : (k, v) ∈ d := by
  obtain ⟨as, bs, rfl, -⟩ := List.lookup_eq_some_iff.1 h
  simp

lemma lookup_of_mem {d : List (κ × ν)} (hkeys : (d.map Prod.fst).Nodup) {k : κ} {v : ν}
    (h : (k, v) ∈ d) : d.lookup k = some v := by
  induction d with
  | nil => cases h
  | cons e d ih =>
    rw [List.map_cons, List.nodup_cons] at hkeys
    rcases List.mem_cons.1 h with rfl | h
    · exact List.lookup_cons_self
    · have hne : (k == e.1) = false := by
        have : k ≠ e.1 := fun heq => hkeys.1 (heq ▸ List.mem_map_of_mem h)
        simpa using this
      rw [List.lookup_cons, hne]
      exact ih hkeys.2 h

lemma lookup_filter_key (p : κ → Bool) (d : List (κ × ν)) (k : κ) :
    (d.filter fun e => p e.1).lookup k = if p k then d.lookup k else none := by
  induction d with
  | nil => simp
  | cons e d ih =>
    obtain ⟨a, v⟩ := e
    rw [List.filter_cons, List.lookup_cons]
    by_cases hk : k = a
    · subst hk
      cases hp : p k <;> simp [hp, ih]
    · have hne : (k == a) = false := by simpa using hk
      cases p a <;> simp [hne, ih, List.lookup_cons]

lemma lookup_map_value {μ : Type v} (f : ν → μ) (d : List (κ × ν)) (k : κ) :
    (d.map fun e => (e.1, f e.2)).lookup k = (d.lookup k).map f := by
  induction d with
  | nil => simp
  | cons e d ih =>
    rw [List.map_cons, List.lookup_cons, List.lookup_cons, ih]
    cases k == e.1 <;> rfl

/-- `for a in as: d[key(a)] = step(d.get(key(a)), a)` -/
def gather {β : Type*} (key : β → κ) (step : Option ν → β → ν) (as : List β) : List (κ × ν) :=
  as.foldl (fun d a => upsert d (key a) (step · a)) []

section

variable {β : Type*} {key : β → κ} {step : Option ν → β → ν} {as : List β}

lemma gather_snoc (as : List β) (a : β) :
    gather key step (as ++ [a]) = upsert (gather key step as) (key a) (step · a) := by
  simp [gather]

lemma gather_keys_nodup : ((gather key step as).map Prod.fst).Nodup := by
  induction as using List.reverseRecOn with
  | nil => exact List.nodup_nil
  | append_singleton as a ih =>
    rw [gather_snoc]
    exact upsert_keys_nodup ih _ _

/-- Under a key stands what the elements of that key make of it, in their order. -/
lemma lookup_gather (k : κ) : (gather key step as).lookup k =
    (as.filter fun a => key a = k).foldl (fun o a => some (step o a)) none := by
  induction as using List.reverseRecOn with
  | nil => rfl
  | append_singleton as a ih =>
    rw [gather_snoc, lookup_upsert, List.filter_append, List.foldl_append, ← ih]
    by_cases hk : k = key a
    · subst hk
      simp
    · have hne : ¬key a = k := fun h => hk h.symm
      simp [hk, hne]

lemma foldl_of_mem_gather {k : κ} {v : ν} (h : (k, v) ∈ gather key step as) :
    (as.filter fun a => key a = k).foldl (fun o a => some (step o a)) none = some v := by
  rw [← lookup_gather]
  exact lookup_of_mem gather_keys_nodup h

lemma key_mem_gather {a : β} (ha : a ∈ as) : key a ∈ (gather key step as).map Prod.fst := by
  by_contra hnone
  have hlook : (gather key step as).lookup (key a) = none := by
    rw [List.lookup_eq_none_iff]
    intro e he
    rw [bne_iff_ne]
    exact fun heq => hnone (heq ▸ List.mem_map_of_mem he)
  rw [lookup_gather] at hlook
  obtain ⟨bs, b, hbs⟩ := List.eq_nil_or_concat' _ |>.resolve_left
    (List.ne_nil_of_mem (List.mem_filter.2 ⟨ha, decide_eq_true rfl⟩) :
      as.filter (fun b => key b = key a) ≠ [])
  rw [hbs, List.foldl_append] at hlook
  cases hlook

end

/-- `for a in as: d[key(a)] = a` -/
def lastWins (key : ν → κ) (as : List ν) : List (κ × ν) :=
  as.foldl (fun d a => upsert d (key a) fun _ => a) []

lemma lastWins_snoc (key : ν → κ) (as : List ν) (a : ν) :
    lastWins key (as ++ [a]) = upsert (lastWins key as) (key a) fun _ => a := by
  simp [lastWins]

lemma lastWins_keys_nodup (key : ν → κ) (as : List ν) :
    ((lastWins key as).map Prod.fst).Nodup := by
  induction as using List.reverseRecOn with
  | nil => simp [lastWins]
  | append_singleton as a ih =>
    rw [lastWins_snoc]
    exact upsert_keys_nodup ih _ _

/-- Under a key stands the last element that has it. -/
lemma lookup_lastWins (key : ν → κ) (as : List ν) (k : κ) :
    (lastWins key as).lookup k = as.reverse.find? fun a => key a = k := by
  induction as using List.reverseRecOn with
  | nil => simp [lastWins]
  | append_singleton as a ih =>
    rw [lastWins_snoc, lookup_upsert, ih, List.reverse_concat, List.find?_cons]
    by_cases hk : k = key a
    · simp [hk]
    · have hne : ¬key a = k := fun h => hk h.symm
      simp [hk, hne]

lemma mem_lastWins {key : ν → κ} {as : List ν} {k : κ} {a : ν} :
    (k, a) ∈ lastWins key as ↔ (as.reverse.find? fun b => key b = k) = some a := by
  rw [← lookup_lastWins]
  exact ⟨lookup_of_mem (lastWins_keys_nodup key as), mem_of_lookup⟩

end Dict

/-! ### Places -/

/-- Each element has a place among the keys, and no two keys have one place. -/
lemma exists_place {κ : Type v} [DecidableEq κ] {key : α → κ} {keys : List κ} (hkeys : keys.Nodup)
    {as : List α} (h : ∀ a ∈ as, key a ∈ keys) :
    ∃ place : Nat → Nat, (∀ i < as.length, place i < keys.length) ∧
      ∀ r (hr : r < keys.length), (as.zipIdx.filter fun e => place e.2 = r) =
        as.zipIdx.filter fun e => key e.1 = keys[r] := by
  refine ⟨fun i => as[i]?.elim 0 fun a => keys.idxOf (key a), fun i hi => ?_, fun r hr => ?_⟩
  · dsimp only
    rw [List.getElem?_eq_getElem hi, Option.elim_some]
    exact List.idxOf_lt_length_of_mem (h _ (List.getElem_mem hi))
  · refine List.filter_congr fun e he => ?_
    obtain ⟨a, i⟩ := e
    have ha := List.mk_mem_zipIdx_iff_getElem?.1 he
    have hmem := h a (List.mem_of_getElem? ha)
    rw [decide_eq_decide]
    dsimp only
    rw [ha, Option.elim_some]
    constructor
    · rintro rfl
      exact (List.getElem_idxOf hr).symm
    · intro heq
      rw [heq]
      exact hkeys.idxOf_getElem r hr

lemma map_filter_zipIdx {β : Type v} (p : α → Bool) (f : α → β) (as : List α) :
    ((as.zipIdx.filter fun e => p e.1).map fun e => f e.1) = (as.filter p).map f := by
  conv_rhs => rw [← List.zipIdx_map_fst 0 as]
  rw [List.filter_map, List.map_map]
  rfl

/-! ### Trimming -/

section Trim

variable {p : α → Bool}

/-- What is between the leading and the trailing elements with `p`. -/
def trim (p : α → Bool) (as : List α) : List α :=
  (as.dropWhile p).rdropWhile p

lemma getLast?_trim {as : List α} : ∀ a ∈ (trim p as).getLast?, ¬p a := by
  intro a ha
  obtain ⟨hne, rfl⟩ := List.mem_getLast?_eq_getLast ha
  exact List.rdropWhile_last_not _ _ hne

lemma head?_trim {as : List α} : ∀ a ∈ (trim p as).head?, ¬p a := by
  intro a ha
  obtain ⟨after, hafter⟩ := List.rdropWhile_prefix p (l := as.dropWhile p)
  have hdrop := List.head?_dropWhile_not p as
  rw [trim] at ha
  rw [← hafter, List.head?_append, Option.mem_def.1 ha] at hdrop
  simpa using hdrop

lemma infix_dropWhile {as bs : List α} (h : bs <:+: as) (hhead : ∀ b ∈ bs.head?, ¬p b) :
    bs <:+: as.dropWhile p := by
  obtain ⟨before, after, rfl⟩ := h
  cases bs with
  | nil => exact List.nil_infix
  | cons b bs =>
    rw [List.append_assoc, List.dropWhile_append]
    split
    · rw [List.cons_append, List.dropWhile_cons_of_neg (hhead b rfl)]
      exact List.infix_append [] (b :: bs) after
    · rw [← List.append_assoc]
      exact List.infix_append _ (b :: bs) after

/-- Trimming keeps a part that neither starts nor ends with `p`. -/
lemma infix_trim {as bs : List α} (h : bs <:+: as) (hhead : ∀ b ∈ bs.head?, ¬p b)
    (hlast : ∀ b ∈ bs.getLast?, ¬p b) : bs <:+: trim p as := by
  have hfront := infix_dropWhile h hhead
  rw [← List.reverse_infix] at hfront ⊢
  rw [trim, List.rdropWhile, List.reverse_reverse]
  exact infix_dropWhile hfront (by rwa [List.head?_reverse])

end Trim

/-- What each of several predicates selects is what any of them does when no element has two. -/
lemma flatMap_filter_perm {β : Type v} {p : β → α → Bool} {as : List α} {bs : List β}
    (h : bs.Pairwise fun b b' => ∀ a ∈ as, p b a → ¬p b' a) :
    (bs.flatMap fun b => as.filter (p b)).Perm (as.filter fun a => bs.any (p · a)) := by
  induction bs with
  | nil => simp
  | cons b bs ih =>
    rw [List.pairwise_cons] at h
    have hfirst : (as.filter fun a => (b :: bs).any (p · a)).filter (p b) = as.filter (p b) := by
      rw [List.filter_filter]
      exact List.filter_congr fun a _ => by cases hb : p b a <;> simp [hb]
    have hrest : (as.filter fun a => (b :: bs).any (p · a)).filter (!p b ·) =
        as.filter fun a => bs.any (p · a) := by
      rw [List.filter_filter]
      refine List.filter_congr fun a ha => ?_
      by_cases hb : p b a
      · have hnone : bs.any (p · a) = false := by
          rw [List.any_eq_false]
          exact fun b' hb' => h.1 b' hb' a ha hb
        simp [hb, hnone]
      · simp [hb]
    have hsplit := List.filter_append_perm (p b) (as.filter fun a => (b :: bs).any (p · a))
    rw [hfirst, hrest] at hsplit
    rw [List.flatMap_cons]
    exact ((ih h.2).append_left _).trans hsplit

lemma repr_injective : Function.Injective Nat.repr := by
  intro m n h
  have hlist := congrArg String.toList h
  simp only [Nat.toList_repr] at hlist
  have hm := Nat.ofDigitChars_toDigits (n := m) (b := 10) (by decide) (by decide)
  rw [hlist, Nat.ofDigitChars_toDigits (by decide) (by decide)] at hm
  exact hm.symm

/-- An element is found under its key when no other has it. -/
lemma find?_key {α : Type u} {β : Type v} [DecidableEq β] {f : α → β} {l : List α} {a : α}
    (h : (l.map f).Nodup) (ha : a ∈ l) : l.find? (fun b => f b = f a) = some a := by
  induction l with
  | nil => cases ha
  | cons b l ih =>
    rw [List.map_cons, List.nodup_cons] at h
    rcases List.mem_cons.1 ha with rfl | ha
    · exact List.find?_cons_of_pos (by simp)
    · have hne : f b ≠ f a := fun he => h.1 (he ▸ List.mem_map_of_mem ha)
      rw [List.find?_cons_of_neg (by simpa using hne)]
      exact ih h.2 ha

/-- The numbers from one on, in order. -/
def CountsUp (l : List Nat) : Prop := l = List.range' 1 l.length

namespace CountsUp

variable {l : List Nat} {n : Nat}

lemma nil : CountsUp [] := rfl

lemma mem_iff (h : CountsUp l) : n ∈ l ↔ 1 ≤ n ∧ n ≤ l.length := by
  rw [h, List.mem_range'_1, List.length_range']
  omega

lemma concat (h : CountsUp l) : CountsUp (l ++ [l.length + 1]) := by
  rw [CountsUp, List.length_append, List.length_singleton, List.range'_concat, Nat.one_mul,
    Nat.add_comm 1]
  exact congrArg (· ++ _) h

lemma nodup (h : CountsUp l) : l.Nodup := by
  rw [h]
  exact List.nodup_range'

lemma max_eq (h : CountsUp l) : l.max?.getD 0 = l.length := by
  rcases l.eq_nil_or_concat with rfl | ⟨l, n, rfl⟩
  · rfl
  · have hmax : (l.concat n).max? = some (l.concat n).length := by
      rw [List.max?_eq_some_iff]
      refine ⟨h.mem_iff.2 ⟨by simp, le_rfl⟩, fun m hm => (h.mem_iff.1 hm).2⟩
    rw [hmax, Option.getD_some]

/-- A number over one that is there, but not there itself, is the next one. -/
lemma eq_length (h : CountsUp l) (hle : n ≤ l.length) (hnew : n + 1 ∉ l) : n = l.length := by
  rw [h.mem_iff] at hnew
  omega

end CountsUp

end Pulse.Lib
