import Mathlib.Tactic.Lemma

/-!
# Following a list of operations

A monitor `step : σ → α → Option σ` reads operations one by one and may reject one. `Leads`
is the triple of such a monitor: from every state in `P` the operations are accepted and end
in a state in `Q`. Its rules follow how a list of operations is put together.
-/

namespace Pulse.Lib

universe u v w

variable {σ : Type u} {α : Type v} {β : Type w}

/-- The state of the monitor after the operations, if it accepts them all. -/
def follow (step : σ → α → Option σ) : σ → List α → Option σ
  | s, [] => some s
  | s, a :: as => (step s a).bind fun t => follow step t as

def Leads (step : σ → α → Option σ) (P : σ → Prop) (as : List α) (Q : σ → Prop) : Prop :=
  ∀ s, P s → ∃ t, follow step s as = some t ∧ Q t

namespace Leads

variable {step : σ → α → Option σ} {P Q R : σ → Prop} {as bs : List α}

lemma nil : Leads step P [] P :=
  fun s hs => ⟨s, rfl, hs⟩

lemma cons {a : α} (ha : ∀ s, P s → ∃ t, step s a = some t ∧ Q t) (h : Leads step Q as R) :
    Leads step P (a :: as) R := by
  intro s hs
  obtain ⟨t, hst, ht⟩ := ha s hs
  obtain ⟨u, htu, hu⟩ := h t ht
  exact ⟨u, by simp [follow, hst, htu], hu⟩

lemma append (h : Leads step P as Q) (h' : Leads step Q bs R) : Leads step P (as ++ bs) R := by
  induction as generalizing P with
  | nil =>
    intro s hs
    obtain ⟨t, hst, ht⟩ := h s hs
    cases hst
    exact h' s ht
  | cons a as ih =>
    intro s hs
    obtain ⟨t, hst, ht⟩ := h s hs
    obtain ⟨u, hsu, hut⟩ := Option.bind_eq_some_iff.1 hst
    have hrest : Leads step (· = u) as Q := by
      rintro _ rfl
      exact ⟨t, hut, ht⟩
    obtain ⟨v, huv, hv⟩ := ih hrest u rfl
    exact ⟨v, by simp [follow, hsu, huv], hv⟩

lemma mono {P' Q' : σ → Prop} (h : Leads step P as Q) (hP : ∀ s, P' s → P s)
    (hQ : ∀ s, Q s → Q' s) : Leads step P' as Q' := by
  intro s hs
  obtain ⟨t, hst, ht⟩ := h s (hP s hs)
  exact ⟨t, hst, hQ t ht⟩

/-- What one operation keeps, any number of them keeps. -/
lemma replicate {a : α} (ha : ∀ s, P s → ∃ t, step s a = some t ∧ P t) (n : Nat) :
    Leads step P (List.replicate n a) P := by
  induction n with
  | zero => exact nil
  | succ n ih => exact cons ha ih

/-- What each part keeps, the parts together keep. -/
lemma flatMap {f : β → List α} {xs : List β} (h : ∀ x ∈ xs, Leads step P (f x) P) :
    Leads step P (xs.flatMap f) P := by
  induction xs with
  | nil => exact nil
  | cons x xs ih =>
    rw [List.flatMap_cons]
    exact (h x List.mem_cons_self).append (ih fun y hy => h y (List.mem_cons_of_mem x hy))

/-- A monitor that rejects less accepts the same operations in the same way. -/
lemma of_le {step' : σ → α → Option σ} (hle : ∀ s a t, step s a = some t → step' s a = some t)
    (h : Leads step P as Q) : Leads step' P as Q := by
  have hfollow : ∀ (bs : List α) s t, follow step s bs = some t → follow step' s bs = some t := by
    intro bs
    induction bs with
    | nil => exact fun s t h => h
    | cons b bs ih =>
      intro s t h
      obtain ⟨u, hsu, hut⟩ := Option.bind_eq_some_iff.1 h
      simp [follow, hle s b u hsu, ih u t hut]
  intro s hs
  obtain ⟨t, hst, ht⟩ := h s hs
  exact ⟨t, hfollow as s t hst, ht⟩

end Leads

end Pulse.Lib
