import Mathlib.Data.List.Forall2
import Mathlib.Tactic.Lemma

/-!
# Inverting `Except` computations

A computation that ends in `ok` has gone through each of its steps.
-/

namespace Pulse.Lib

universe u v

variable {ε ε' : Type u} {α β : Type v}

@[simp] lemma ok_bind {a : α} {f : α → Except ε β} : (.ok a >>= f) = f a := rfl

lemma bind_eq_ok {x : Except ε α} {f : α → Except ε β} {b : β} :
    (x >>= f) = .ok b ↔ ∃ a, x = .ok a ∧ f a = .ok b := by
  cases x with
  | error e => simp [bind, Except.bind]
  | ok a => simp [bind, Except.bind]

lemma bind_congr_ok {x y : Except ε α} {f g : α → Except ε β} (hx : x = y)
    (hf : ∀ a, y = .ok a → f a = g a) : (x >>= f) = (y >>= g) := by
  subst hx
  cases x with
  | error e => rfl
  | ok a => exact hf a rfl

@[simp] lemma mapError_ok {f : ε → ε'} {a : α} : (.ok a : Except ε α).mapError f = .ok a := rfl

@[simp] lemma mapError_error {f : ε → ε'} {e : ε} :
    (.error e : Except ε α).mapError f = .error (f e) := rfl

lemma mapError_eq_ok {x : Except ε α} {f : ε → ε'} {a : α} :
    x.mapError f = .ok a ↔ x = .ok a := by
  cases x with
  | error e => simp
  | ok b => simp

lemma map_eq_ok {x : Except ε α} {f : α → β} {b : β} :
    x.map f = .ok b ↔ ∃ a, x = .ok a ∧ f a = b := by
  cases x with
  | error e => simp [Except.map]
  | ok a => simp [Except.map]

lemma throw_bind_ne_ok {e : ε} {f : α → Except ε β} {b : β} :
    (throw e >>= f) ≠ .ok b := by
  simp [throw, throwThe, MonadExceptOf.throw, bind, Except.bind]

/-- What each step of a fold preserves holds at its end. -/
lemma foldlM_ok {σ : Type v} {f : σ → α → Except ε σ} {I : σ → Prop} {as : List α}
    (hstep : ∀ s a t, a ∈ as → I s → f s a = .ok t → I t) {s t : σ} (hs : I s)
    (h : as.foldlM f s = .ok t) : I t := by
  induction as generalizing s with
  | nil =>
    cases h
    exact hs
  | cons a as ih =>
    rw [List.foldlM_cons] at h
    obtain ⟨u, hu, h⟩ := bind_eq_ok.1 h
    exact ih (fun s b t hb => hstep s b t (List.mem_cons_of_mem a hb))
      (hstep s a u List.mem_cons_self hs hu) h

/-- What each element's result has in common with it, the results have with the elements. -/
lemma map_of_mapM_ok {γ : Type v} {f : α → Except ε β} {g : β → γ} {g' : α → γ}
    (hg : ∀ a b, f a = .ok b → g b = g' a) {as : List α} {bs : List β} (h : as.mapM f = .ok bs) :
    bs.map g = as.map g' := by
  induction as generalizing bs with
  | nil =>
    cases h
    rfl
  | cons a as ih =>
    rw [List.mapM_cons] at h
    obtain ⟨b, hb, h⟩ := bind_eq_ok.1 h
    obtain ⟨bs', hbs, h⟩ := bind_eq_ok.1 h
    cases h
    rw [List.map_cons, List.map_cons, hg a b hb, ih hbs]

/-- What holds of a result exactly when it does of its element holds of all of them together. -/
lemma forall_of_mapM_ok {f : α → Except ε β} {p : β → Prop} {q : α → Prop}
    (hpq : ∀ a b, f a = .ok b → (p b ↔ q a)) {as : List α} {bs : List β} (h : as.mapM f = .ok bs) :
    (∀ b ∈ bs, p b) ↔ ∀ a ∈ as, q a := by
  induction as generalizing bs with
  | nil =>
    cases h
    simp
  | cons a as ih =>
    rw [List.mapM_cons] at h
    obtain ⟨b, hb, h⟩ := bind_eq_ok.1 h
    obtain ⟨bs', hbs, h⟩ := bind_eq_ok.1 h
    cases h
    rw [List.forall_mem_cons, List.forall_mem_cons, hpq a b hb, ih hbs]

/-- The elements of a list and their results, side by side. -/
lemma mapM_eq_ok_iff {f : α → Except ε β} {as : List α} {bs : List β} :
    as.mapM f = .ok bs ↔ List.Forall₂ (fun a b => f a = .ok b) as bs := by
  induction as generalizing bs with
  | nil =>
    rw [List.forall₂_nil_left_iff]
    exact ⟨fun h => (Except.ok.inj h).symm, fun h => h ▸ rfl⟩
  | cons a as ih =>
    rw [List.mapM_cons, List.forall₂_cons_left_iff]
    constructor
    · intro h
      obtain ⟨b, hb, h⟩ := bind_eq_ok.1 h
      obtain ⟨bs', hbs, h⟩ := bind_eq_ok.1 h
      cases h
      exact ⟨b, bs', hb, ih.1 hbs, rfl⟩
    · rintro ⟨b, bs', hb, hbs, rfl⟩
      rw [hb, ok_bind, ih.2 hbs]
      rfl

lemma mapM_congr {f g : α → Except ε β} {as : List α} (h : ∀ a ∈ as, f a = g a) :
    as.mapM f = as.mapM g := by
  induction as with
  | nil => rfl
  | cons a as ih =>
    rw [List.forall_mem_cons] at h
    rw [List.mapM_cons, List.mapM_cons, h.1, ih h.2]

/-- Each result is that of an element. -/
lemma mem_of_mapM_ok {f : α → Except ε β} {as : List α} {bs : List β} (h : as.mapM f = .ok bs) :
    ∀ b ∈ bs, ∃ a ∈ as, f a = .ok b := by
  induction as generalizing bs with
  | nil =>
    cases h
    simp
  | cons a as ih =>
    rw [List.mapM_cons] at h
    obtain ⟨b, hb, h⟩ := bind_eq_ok.1 h
    obtain ⟨bs', hbs, h⟩ := bind_eq_ok.1 h
    cases h
    rw [List.forall_mem_cons]
    refine ⟨⟨a, List.mem_cons_self, hb⟩, fun c hc => ?_⟩
    obtain ⟨a', ha', hf⟩ := ih hbs c hc
    exact ⟨a', List.mem_cons_of_mem a ha', hf⟩

/-- The results of elements in another order are the results in another order. -/
lemma mapM_perm {f : α → Except ε β} {as as' : List α} (hperm : as.Perm as') {bs : List β}
    (h : as.mapM f = .ok bs) : ∃ bs', as'.mapM f = .ok bs' ∧ bs.Perm bs' := by
  induction hperm generalizing bs with
  | nil => exact ⟨bs, h, .refl bs⟩
  | cons a _ ih =>
    rw [List.mapM_cons] at h
    obtain ⟨b, hb, h⟩ := bind_eq_ok.1 h
    obtain ⟨cs, hcs, h⟩ := bind_eq_ok.1 h
    cases h
    obtain ⟨cs', hcs', hperm⟩ := ih hcs
    exact ⟨b :: cs', by rw [List.mapM_cons, hb, hcs']; rfl, hperm.cons b⟩
  | swap a a' as =>
    rw [List.mapM_cons, List.mapM_cons] at h
    obtain ⟨b', hb', h⟩ := bind_eq_ok.1 h
    obtain ⟨cs, hcs, h⟩ := bind_eq_ok.1 h
    cases h
    obtain ⟨b, hb, hcs⟩ := bind_eq_ok.1 hcs
    obtain ⟨ds, hds, hcs⟩ := bind_eq_ok.1 hcs
    cases hcs
    exact ⟨b :: b' :: ds, by rw [List.mapM_cons, List.mapM_cons, hb, hb', hds]; rfl, .swap b b' ds⟩
  | trans _ _ ih₁ ih₂ =>
    obtain ⟨bs', hbs', hperm₁⟩ := ih₁ h
    obtain ⟨bs'', hbs'', hperm₂⟩ := ih₂ hbs'
    exact ⟨bs'', hbs'', hperm₁.trans hperm₂⟩

/-- A map on the state and a map on the elements, that each step of a fold carries over. -/
lemma foldlM_map {σ : Type v} {γ : Type v} {f : σ → α → Except ε σ} {f' : σ → γ → Except ε σ}
    {g : σ → σ} {k : α → γ} (hstep : ∀ s a, f' (g s) (k a) = (f s a).map g) (as : List α) (s : σ) :
    (as.map k).foldlM f' (g s) = (as.foldlM f s).map g := by
  induction as generalizing s with
  | nil => rfl
  | cons a as ih =>
    rw [List.map_cons, List.foldlM_cons, List.foldlM_cons, hstep]
    cases f s a with
    | error e => rfl
    | ok t => exact ih t

/-- A map on the elements, and one on the results, that each element's computation carries over. -/
lemma mapM_map {γ δ : Type v} {f : α → Except ε β} {f' : γ → Except ε δ} {k : α → γ} {g : β → δ}
    (hstep : ∀ a, f' (k a) = (f a).map g) (as : List α) :
    (as.map k).mapM f' = (as.mapM f).map (List.map g) := by
  induction as with
  | nil => rfl
  | cons a as ih =>
    rw [List.map_cons, List.mapM_cons, List.mapM_cons, hstep, ih]
    cases f a with
    | error e => rfl
    | ok b =>
      cases as.mapM f with
      | error e => rfl
      | ok bs => rfl

/-! ### Success -/

/-- The computation ends in a result. -/
def Succeeds (x : Except ε α) : Prop :=
  ∃ a, x = .ok a

@[simp] lemma succeeds_ok (a : α) : Succeeds (.ok a : Except ε α) := ⟨a, rfl⟩

@[simp] lemma not_succeeds_error (e : ε) : ¬Succeeds (.error e : Except ε α) := by
  rintro ⟨a, h⟩
  cases h

lemma Succeeds.bind {x : Except ε α} {f : α → Except ε β} (hx : Succeeds x)
    (hf : ∀ a, x = .ok a → Succeeds (f a)) : Succeeds (x >>= f) := by
  obtain ⟨a, rfl⟩ := hx
  exact hf a rfl

lemma succeeds_bind {x : Except ε α} {f : α → Except ε β} :
    Succeeds (x >>= f) ↔ ∃ a, x = .ok a ∧ Succeeds (f a) := by
  cases x with
  | error e => simp [Succeeds, Bind.bind, Except.bind]
  | ok a => simp [Succeeds, Bind.bind, Except.bind]

@[simp] lemma succeeds_map {x : Except ε α} {f : α → β} : Succeeds (x.map f) ↔ Succeeds x := by
  cases x with
  | error e => simp [Except.map]
  | ok a => simp [Except.map]

/-- All elements are computed, with results of a kind, when each of them is. -/
lemma mapM_all {f : α → Except ε β} {p : β → Prop} {as : List α} :
    (∃ bs, as.mapM f = .ok bs ∧ ∀ b ∈ bs, p b) ↔ ∀ a ∈ as, ∃ b, f a = .ok b ∧ p b := by
  induction as with
  | nil => exact ⟨fun _ a ha => absurd ha List.not_mem_nil, fun _ => ⟨[], rfl, by simp⟩⟩
  | cons a as ih =>
    rw [List.mapM_cons, List.forall_mem_cons, ← ih]
    constructor
    · rintro ⟨bs, h, hp⟩
      obtain ⟨b, hb, h⟩ := bind_eq_ok.1 h
      obtain ⟨bs', hbs, h⟩ := bind_eq_ok.1 h
      cases h
      rw [List.forall_mem_cons] at hp
      exact ⟨⟨b, hb, hp.1⟩, ⟨bs', hbs, hp.2⟩⟩
    · rintro ⟨⟨b, hb, hpb⟩, ⟨bs, hbs, hpbs⟩⟩
      exact ⟨b :: bs, by rw [hb, hbs]; rfl, List.forall_mem_cons.2 ⟨hpb, hpbs⟩⟩

lemma succeeds_mapM {f : α → Except ε β} {as : List α} :
    Succeeds (as.mapM f) ↔ ∀ a ∈ as, Succeeds (f a) := by
  have h : (∃ bs, as.mapM f = .ok bs ∧ ∀ b ∈ bs, True) ↔ ∀ a ∈ as, ∃ b, f a = .ok b ∧ True :=
    mapM_all
  simpa [Succeeds] using h

/-- A fold ends in a result when each of its steps does, from any state that the earlier steps can
leave. -/
lemma succeeds_foldlM {σ : Type v} {f : σ → α → Except ε σ} {I : σ → Prop} {as : List α}
    (hkeep : ∀ s a t, a ∈ as → I s → f s a = .ok t → I t)
    (hstep : ∀ s, ∀ a ∈ as, I s → Succeeds (f s a)) {s : σ} (hs : I s) :
    Succeeds (as.foldlM f s) := by
  induction as generalizing s with
  | nil => exact ⟨s, rfl⟩
  | cons a as ih =>
    rw [List.foldlM_cons]
    refine (hstep s a List.mem_cons_self hs).bind fun t ht => ?_
    exact ih (fun s b t hb => hkeep s b t (List.mem_cons_of_mem a hb))
      (fun s b hb => hstep s b (List.mem_cons_of_mem a hb)) (hkeep s a t List.mem_cons_self hs ht)

/-- How a computation ends: a result satisfies `Q`, an error satisfies `E`. -/
def Ends (Q : α → Prop) (E : ε → Prop) : Except ε α → Prop
  | .ok a => Q a
  | .error e => E e

namespace Ends

variable {Q Q' : α → Prop} {R : β → Prop} {E : ε → Prop} {x : Except ε α}

lemma pure {a : α} (h : Q a) : Ends Q E (Pure.pure a : Except ε α) := h

lemma bind {f : α → Except ε β} (hx : Ends Q E x) (hf : ∀ a, Q a → Ends R E (f a)) :
    Ends R E (x >>= f) := by
  cases x with
  | error e => exact hx
  | ok a => exact hf a hx

lemma mono {E' : ε → Prop} (hx : Ends Q E x) (hQ : ∀ a, Q a → Q' a) (hE : ∀ e, E e → E' e) :
    Ends Q' E' x := by
  cases x with
  | error e => exact hE e hx
  | ok a => exact hQ a hx

/-- A fold of computations carries along what each step, which may use its place, carries along. -/
lemma foldlM {σ : Type v} {f : σ → α → Except ε σ} {I : List α → σ → Prop} {as : List α} {s : σ}
    (hstep : ∀ past a rest s, past ++ a :: rest = as → I past s → Ends (I (past ++ [a])) E (f s a))
    (hs : I [] s) : Ends (I as) E (as.foldlM f s) := by
  suffices h : ∀ past rest s, past ++ rest = as → I past s → Ends (I as) E (rest.foldlM f s) from
    h [] as s rfl hs
  intro past rest s has hI
  induction rest generalizing past s with
  | nil =>
    rw [List.append_nil] at has
    exact has ▸ hI
  | cons a rest ih =>
    rw [List.foldlM_cons]
    refine (hstep past a rest s has hI).bind fun t ht => ?_
    exact ih (past ++ [a]) t (by rw [← has, List.append_assoc]; rfl) ht

end Ends

end Pulse.Lib
