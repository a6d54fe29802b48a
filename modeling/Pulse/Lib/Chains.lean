import Mathlib.Data.List.Basic
import Mathlib.Logic.Relation
import Mathlib.Tactic.Common

/-!
# Walks along links

Each element of a list may link to one other. `climb` follows the links from an element to the first
one that is looked for, and gives up at an element whose key it has seen: the links may form a cycle.
If the keys tell the elements apart, it finds exactly what the links lead to.
-/

namespace Pulse.Lib

universe u v

variable {α : Type u} {κ : Type v} [DecidableEq κ]

/-- The first element on the way from `a` that `stop` accepts, unless a key comes again before. -/
def climb (as : List α) (key : α → κ) (next : α → Option α)
    (hnext : ∀ a b, next a = some b → b ∈ as) (stop : α → Bool) (seen : List κ) (a : α)
    (_ha : a ∈ as) : Option α :=
  if _hseen : seen.contains (key a) then none
  else if stop a then some a
  else
    match hb : next a with
    | none => none
    | some b => climb as key next hnext stop (key a :: seen) b (hnext a b hb)
termination_by (as.filter fun c => !seen.contains (key c)).length
decreasing_by
  have hsub : (as.filter fun c => !(key a :: seen).contains (key c)) =
      (as.filter fun c => !seen.contains (key c)).filter fun c => key c ≠ key a := by
    rw [List.filter_filter]
    refine List.filter_congr fun c _ => ?_
    by_cases h : key c = key a <;> simp [h]
  rw [hsub]
  refine List.length_filter_lt_length_iff_exists.2 ⟨a, List.mem_filter.2 ⟨_ha, ?_⟩, by simp⟩
  simpa using _hseen

/-- A link that the walk follows. -/
def Link (next : α → Option α) (stop : α → Bool) (a b : α) : Prop :=
  stop a = false ∧ next a = some b

/-- The links lead from `a` to `b`, and `b` is the first element on the way that `stop` accepts. -/
def LeadsTo (next : α → Option α) (stop : α → Bool) (a b : α) : Prop :=
  Relation.ReflTransGen (Link next stop) a b ∧ stop b = true

variable {as : List α} {key : α → κ} {next : α → Option α}
  {hnext : ∀ a b, next a = some b → b ∈ as} {stop : α → Bool} {seen : List κ} {a b c : α}

lemma LeadsTo.stopped (h : stop a = true) : LeadsTo next stop a a := ⟨.refl, h⟩

lemma LeadsTo.linked (hstop : stop a = false) (hb : next a = some b) (h : LeadsTo next stop b c) :
    LeadsTo next stop a c :=
  ⟨.head ⟨hstop, hb⟩ h.1, h.2⟩

lemma leadsTo_cases (h : LeadsTo next stop a c) :
    (stop a = true ∧ c = a) ∨ stop a = false ∧ ∃ b, next a = some b ∧ LeadsTo next stop b c := by
  obtain ⟨hlinks, hc⟩ := h
  rcases Relation.ReflTransGen.cases_head hlinks with rfl | ⟨b, ⟨hstop, hb⟩, hlinks⟩
  · exact .inl ⟨hc, rfl⟩
  · exact .inr ⟨hstop, b, hb, hlinks, hc⟩

/-- The links lead to one element at most. -/
lemma LeadsTo.unique (h : LeadsTo next stop a b) (h' : LeadsTo next stop a c) : b = c := by
  obtain ⟨hlinks, hb⟩ := h
  induction hlinks using Relation.ReflTransGen.head_induction_on with
  | refl =>
    rcases leadsTo_cases h' with ⟨-, rfl⟩ | ⟨hstop, -⟩
    · rfl
    · simp [hstop] at hb
  | head hlink _ ih =>
    rcases leadsTo_cases h' with ⟨hstop, -⟩ | ⟨-, d, hd, h'⟩
    · simp [hlink.1] at hstop
    · rw [hlink.2] at hd
      cases hd
      exact ih h'

/-- Who comes back to itself follows its link and comes back again. -/
lemma cycle_of_link (hlink : Link next stop a b) (h : Relation.TransGen (Link next stop) a a) :
    Relation.TransGen (Link next stop) b b := by
  obtain ⟨c, hc, hback⟩ := Relation.TransGen.head'_iff.1 h
  have heq : b = c := Option.some.inj (hlink.2.symm.trans hc.2)
  exact .tail' (heq ▸ hback) hlink

/-- What is on a cycle leads nowhere. -/
lemma LeadsTo.not_cycle (h : LeadsTo next stop a b) : ¬Relation.TransGen (Link next stop) a a := by
  intro hcycle
  have hend : Relation.TransGen (Link next stop) b b :=
    h.1.rec hcycle fun _ hlink ih => cycle_of_link hlink ih
  obtain ⟨c, hlink, -⟩ := Relation.TransGen.head'_iff.1 hend
  exact Bool.false_ne_true (hlink.1.symm.trans h.2)

lemma climb_leadsTo {ha : a ∈ as} (h : climb as key next hnext stop seen a ha = some b) :
    LeadsTo next stop a b := by
  fun_induction climb as key next hnext stop seen a ha with
  | case1 => cases h
  | case2 seen a ha hseen hstop =>
    cases h
    exact .stopped hstop
  | case3 => cases h
  | case4 seen a ha hseen hstop c hc ih => exact .linked (by simpa using hstop) hc (ih h)

/-- The walk finds what the links lead to, if all it has seen leads to where it is. -/
lemma climb_of_leadsTo (hkey : ∀ c ∈ as, ∀ d ∈ as, key c = key d → c = d) {ha : a ∈ as}
    (hseen : ∀ k ∈ seen, ∃ c ∈ as, key c = k ∧ Relation.TransGen (Link next stop) c a)
    (h : LeadsTo next stop a b) : climb as key next hnext stop seen a ha = some b := by
  fun_induction climb as key next hnext stop seen a ha with
  | case1 seen a ha hin =>
    obtain ⟨c, hc, hck, hcycle⟩ := hseen (key a) (by simpa using hin)
    rw [hkey c hc a ha hck] at hcycle
    exact absurd hcycle h.not_cycle
  | case2 seen a ha hin hstop => rw [LeadsTo.unique (.stopped hstop) h]
  | case3 seen a ha hin hstop hnone =>
    rcases leadsTo_cases h with ⟨hstop', -⟩ | ⟨-, c, hc, -⟩
    · exact absurd hstop' hstop
    · rw [hnone] at hc
      cases hc
  | case4 seen a ha hin hstop c hc ih =>
    have hlink : Link next stop a c := ⟨by simpa using hstop, hc⟩
    rcases leadsTo_cases h with ⟨hstop', -⟩ | ⟨-, d, hd, h⟩
    · exact absurd hstop' hstop
    · rw [hc] at hd
      cases hd
      refine ih (fun k hk => ?_) h
      rcases List.mem_cons.1 hk with rfl | hk
      · exact ⟨a, ha, rfl, .single hlink⟩
      · obtain ⟨e, he, hek, hlinks⟩ := hseen k hk
        exact ⟨e, he, hek, hlinks.tail hlink⟩

/-- If the keys tell the elements apart, the walk finds exactly what the links lead to. -/
theorem climb_eq_some_iff (hkey : ∀ c ∈ as, ∀ d ∈ as, key c = key d → c = d) {ha : a ∈ as} :
    climb as key next hnext stop [] a ha = some b ↔ LeadsTo next stop a b :=
  ⟨climb_leadsTo, climb_of_leadsTo hkey (fun _ hk => absurd hk List.not_mem_nil)⟩

end Pulse.Lib
