import Mathlib.Data.List.Induction
import Mathlib.Tactic.Lemma

/-!
# Runs of labelled transition systems

A system is a relation `step s a t`: in state `s` the label `a` leads to `t`. A run is
a list of labels with the states it goes through. The rules below turn a fact about one
step into a fact about every state that a run reaches.
-/

namespace Pulse.Lib

universe u v

variable {σ : Type u} {α : Type v}

/-- `Run step s as t`: the labels `as`, taken in order, lead from `s` to `t`. -/
inductive Run (step : σ → α → σ → Prop) : σ → List α → σ → Prop
  | nil (s : σ) : Run step s [] s
  | cons {s t u : σ} {a : α} {as : List α} :
      step s a t → Run step t as u → Run step s (a :: as) u

/-- The steps of a system that meet a condition on the state before them. -/
def guarded (step : σ → α → σ → Prop) (ok : σ → α → Prop) : σ → α → σ → Prop :=
  fun s a t => step s a t ∧ ok s a

namespace Run

variable {step step' : σ → α → σ → Prop}

lemma single {s t : σ} {a : α} (h : step s a t) : Run step s [a] t :=
  .cons h (.nil t)

lemma append {s t u : σ} {as bs : List α} (h : Run step s as t) (h' : Run step t bs u) :
    Run step s (as ++ bs) u := by
  induction h with
  | nil s => exact h'
  | cons hs _ ih => exact .cons hs (ih h')

lemma snoc {s t u : σ} {as : List α} {a : α} (h : Run step s as t) (h' : step t a u) :
    Run step s (as ++ [a]) u :=
  h.append (single h')

lemma mono (himp : ∀ s a t, step s a t → step' s a t) {s t : σ} {as : List α}
    (h : Run step s as t) : Run step' s as t := by
  induction h with
  | nil s => exact .nil s
  | cons hs _ ih => exact .cons (himp _ _ _ hs) ih

/-- What every step preserves, every run preserves. -/
theorem invariant {I : σ → Prop} (hstep : ∀ s a t, I s → step s a t → I t)
    {s t : σ} {as : List α} (h : Run step s as t) (hs : I s) : I t := by
  induction h with
  | nil s => exact hs
  | cons ha _ ih => exact ih (hstep _ _ _ hs ha)

/-- A property carried along a run may speak about the labels taken so far, and its step rule may
use that the label is one of the run's. -/
theorem history_of_mem {I : List α → σ → Prop} {s t : σ} {as : List α} (h : Run step s as t)
    (hstep : ∀ past s a t, a ∈ as → I past s → step s a t → I (past ++ [a]) t) {past : List α}
    (hs : I past s) : I (past ++ as) t := by
  induction h generalizing past with
  | nil s => simpa using hs
  | cons ha _ ih =>
    have := ih (fun past s b t hb => hstep past s b t (List.mem_cons_of_mem _ hb))
      (hstep past _ _ _ List.mem_cons_self hs ha)
    simpa using this

/-- The rule for runs whose steps all meet a condition. -/
theorem invariant_guarded {I : σ → Prop} {ok : σ → α → Prop}
    (hstep : ∀ s a t, I s → ok s a → step s a t → I t)
    {s t : σ} {as : List α} (h : Run (guarded step ok) s as t) (hs : I s) : I t :=
  h.invariant (fun s a t hI ha => hstep s a t hI ha.2 ha.1) hs

lemma of_guarded {ok : σ → α → Prop} {s t : σ} {as : List α}
    (h : Run (guarded step ok) s as t) : Run step s as t :=
  h.mono (fun _ _ _ ha => ha.1)

end Run

/-- A system whose steps are computed can be run. -/
lemma run_of_foldlM {f : σ → α → Option σ} {s t : σ} {as : List α}
    (h : as.foldlM f s = some t) : Run (fun s a t => f s a = some t) s as t := by
  induction as generalizing s with
  | nil =>
    cases h
    exact .nil _
  | cons a as ih =>
    rw [List.foldlM_cons] at h
    obtain ⟨u, hstep, hrest⟩ := Option.bind_eq_some_iff.1 h
    exact .cons hstep (ih hrest)

/-- A run that is computed with its condition. -/
lemma run_guarded_of_foldlM {f : σ → α → Option σ} {ok : σ → α → Prop} [∀ s a, Decidable (ok s a)]
    {s t : σ} {as : List α} (h : as.foldlM (fun s a => if ok s a then f s a else none) s = some t) :
    Run (guarded (fun s a t => f s a = some t) ok) s as t := by
  refine (run_of_foldlM h).mono fun s a t hstep => ?_
  split at hstep
  · next hok => exact ⟨hstep, hok⟩
  · cases hstep

/-- What a run that is computed carries along, by steps that may use where in the run they are. -/
theorem foldlM_history {f : σ → α → Option σ} {I : List α → σ → Prop} {s t : σ} {as : List α}
    (hstep : ∀ past a rest u v, past ++ a :: rest = as → past.foldlM f s = some u → I past u →
      f u a = some v → I (past ++ [a]) v)
    (hs : I [] s) (h : as.foldlM f s = some t) : I as t := by
  induction as using List.reverseRecOn generalizing t with
  | nil =>
    cases h
    exact hs
  | append_singleton past a ih =>
    rw [List.foldlM_append] at h
    obtain ⟨u, hpast, hlast⟩ := Option.bind_eq_some_iff.1 h
    rw [List.foldlM_cons] at hlast
    obtain ⟨v, ha, hnil⟩ := Option.bind_eq_some_iff.1 hlast
    cases hnil
    refine hstep past a [] u _ rfl hpast (ih (fun past' b rest u v he => ?_) hpast) ha
    exact hstep past' b (rest ++ [a]) u v (by simp [← he])

/-- A fold keeps a property that speaks about the elements consumed so far. -/
theorem foldl_history (f : σ → α → σ) (as : List α) (I : List α → σ → Prop)
    (hstep : ∀ past s a, a ∈ as → I past s → I (past ++ [a]) (f s a)) (s : σ) (past : List α)
    (hs : I past s) : I (past ++ as) (as.foldl f s) := by
  induction as generalizing s past with
  | nil => simpa using hs
  | cons a as ih =>
    have h := hstep past s a List.mem_cons_self hs
    have := ih (fun past s b hb => hstep past s b (List.mem_cons_of_mem a hb)) (f s a) _ h
    simpa using this

end Pulse.Lib
