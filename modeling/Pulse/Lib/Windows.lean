import Mathlib.Data.List.Infix
import Mathlib.Tactic.Common

/-!
# Windows of a list

`windows cut as` reads `as` from the left and begins a new window before an element `a` when
`cut w a`, where `w` is the window that is open. The windows make up the list, and a machine that
collects what it reads and puts the collection away at each cut ends with one for each window.
-/

namespace Pulse.Lib

universe u v w

variable {α : Type u}

/-- The windows of a list, the first of which is open and has `w`. -/
def windowsFrom (cut : List α → α → Bool) (w : List α) : List α → List (List α)
  | [] => [w]
  | a :: as => if cut w a then w :: windowsFrom cut [a] as else windowsFrom cut (w ++ [a]) as

def windows (cut : List α → α → Bool) : List α → List (List α)
  | [] => []
  | a :: as => windowsFrom cut [a] as

section

variable (cut : List α → α → Bool)

lemma windowsFrom_flatten (w as : List α) : (windowsFrom cut w as).flatten = w ++ as := by
  induction as generalizing w with
  | nil => simp [windowsFrom]
  | cons a as ih =>
    rw [windowsFrom]
    split
    · rw [List.flatten_cons, ih]
      simp
    · rw [ih]
      simp

/-- The windows make up the list. -/
theorem windows_flatten (as : List α) : (windows cut as).flatten = as := by
  cases as with
  | nil => rfl
  | cons a as => exact windowsFrom_flatten cut [a] as

lemma exists_prefix_windowsFrom (w as : List α) : ∃ w' ∈ windowsFrom cut w as, w <+: w' := by
  induction as generalizing w with
  | nil => exact ⟨w, List.mem_singleton_self w, List.prefix_rfl⟩
  | cons a as ih =>
    rw [windowsFrom]
    split
    · exact ⟨w, List.mem_cons_self, List.prefix_rfl⟩
    · obtain ⟨w', hw', hprefix⟩ := ih (w ++ [a])
      exact ⟨w', hw', (List.prefix_append w [a]).trans hprefix⟩

variable {cut}

lemma infix_of_mem_windows {as w : List α} (h : w ∈ windows cut as) : w <:+: as := by
  obtain ⟨before, after, hsplit⟩ := List.append_of_mem h
  rw [← windows_flatten cut as, hsplit]
  exact ⟨before.flatten, after.flatten, by simp⟩

/-- What holds of the elements of an open window and the one that it takes in holds within all
windows. -/
theorem pairwise_of_mem_windows {R : α → α → Prop}
    (hcut : ∀ w a, cut w a = false → ∀ b ∈ w, R b a) {as w : List α} (h : w ∈ windows cut as) :
    w.Pairwise R := by
  have hfrom : ∀ (as open' : List α), open'.Pairwise R →
      ∀ w ∈ windowsFrom cut open' as, w.Pairwise R := by
    intro as
    induction as with
    | nil =>
      intro open' hopen w hw
      rw [List.mem_singleton.1 hw]
      exact hopen
    | cons a as ih =>
      intro open' hopen w hw
      rw [windowsFrom] at hw
      split at hw
      · rcases List.mem_cons.1 hw with rfl | hw
        · exact hopen
        · exact ih [a] (List.pairwise_singleton R a) w hw
      · next hnot =>
        refine ih (open' ++ [a]) ?_ w hw
        refine List.pairwise_append.2 ⟨hopen, List.pairwise_singleton R a, fun b hb c hc => ?_⟩
        rw [List.mem_singleton.1 hc]
        exact hcut open' a (by simpa using hnot) b hb
  cases as with
  | nil => cases h
  | cons a as => exact hfrom as [a] (List.pairwise_singleton R a) w h

lemma windowsFrom_append {l : List α} (h : ∀ b ∈ l, ∀ w, cut w b = false) (w as : List α) :
    windowsFrom cut w (l ++ as) = windowsFrom cut (w ++ l) as := by
  induction l generalizing w with
  | nil => simp
  | cons b l ih =>
    rw [List.forall_mem_cons] at h
    rw [List.cons_append, windowsFrom, if_neg (by simp [h.1]), ih h.2]
    simp

/-- Elements before which no window is cut are in the window of the element before them. -/
theorem exists_infix_windows {a : α} {l as : List α} (h : ∀ b ∈ l, ∀ w, cut w b = false)
    (has : (a :: l) <:+: as) : ∃ w ∈ windows cut as, (a :: l) <:+: w := by
  obtain ⟨before, after, rfl⟩ := has
  have hopened : ∀ w, ∃ w' ∈ windowsFrom cut (w ++ [a]) (l ++ after), (a :: l) <:+: w' := by
    intro w
    rw [windowsFrom_append h]
    obtain ⟨w', hw', rest, rfl⟩ := exists_prefix_windowsFrom cut (w ++ [a] ++ l) after
    exact ⟨_, hw', w, rest, by simp⟩
  have hfrom : ∀ before w,
      ∃ w' ∈ windowsFrom cut w (before ++ a :: l ++ after), (a :: l) <:+: w' := by
    intro before
    induction before with
    | nil =>
      intro w
      rw [List.nil_append, List.cons_append, windowsFrom]
      split
      · obtain ⟨w', hw', hin⟩ := hopened []
        exact ⟨w', List.mem_cons_of_mem w hw', hin⟩
      · exact hopened w
    | cons b before ih =>
      intro w
      rw [List.cons_append, List.cons_append, windowsFrom]
      split
      · obtain ⟨w', hw', hin⟩ := ih [b]
        exact ⟨w', List.mem_cons_of_mem w hw', hin⟩
      · exact ih (w ++ [b])
  cases before with
  | nil => exact hopened []
  | cons b before => exact hfrom before [b]

end

/-- A machine that adds what it reads to an open state, and puts that state away and opens another
before an element that asks for it, has put away the states of the windows in the end. -/
theorem foldl_windows {σ : Type v} {τ : Type w} {cut : List α → α → Bool}
    (step : τ × Option σ → α → τ × Option σ) (opens : σ → α → Bool) {add : σ → α → σ} {init : σ}
    (close : τ → σ → τ) (hnone : ∀ t a, step (t, none) a = (t, some (add init a)))
    (hsome : ∀ t s a, step (t, some s) a =
      if opens s a then (close t s, some (add init a)) else (t, some (add s a)))
    (hcut : ∀ w a, cut w a = opens (w.foldl add init) a) (as : List α) (t : τ) :
    ∃ t' s, as.foldl step (t, none) = (t', s) ∧
      s.elim t' (close t') = ((windows cut as).map (·.foldl add init)).foldl close t := by
  have hfrom : ∀ (as w : List α) (t : τ),
      ∃ t' s, as.foldl step (t, some (w.foldl add init)) = (t', some s) ∧
        close t' s = ((windowsFrom cut w as).map (·.foldl add init)).foldl close t := by
    intro as
    induction as with
    | nil => exact fun w t => ⟨t, w.foldl add init, rfl, rfl⟩
    | cons a as ih =>
      intro w t
      rw [List.foldl_cons, hsome, ← hcut, windowsFrom]
      split
      · exact ih [a] (close t (w.foldl add init))
      · have hadd : add (w.foldl add init) a = (w ++ [a]).foldl add init := by simp
        rw [hadd]
        exact ih (w ++ [a]) t
  cases as with
  | nil => exact ⟨t, none, rfl, rfl⟩
  | cons a as =>
    obtain ⟨t', s, hfold, hclose⟩ := hfrom as [a] t
    rw [List.foldl_cons, hnone]
    exact ⟨t', some s, hfold, hclose⟩

end Pulse.Lib
