import Mathlib.Logic.Function.Basic
import Mathlib.Tactic.Lemma

/-!
# Sessions

The transactions of a system by the number of their session. A step that changes one session keeps
every fact about transactions of another kind. With the committed store and the keys that sessions
hold they make up a shared state, whose invariants are facts about the store and about each open
transaction.
-/

namespace Pulse.Lib

universe u v w

abbrev Sessions (τ : Type u) := Nat → Option τ

variable {τ : Type u} {f : Sessions τ} {i j : Nat} {v : Option τ} {tx : τ}

/-- A transaction that a session neither had nor gets is had by the same sessions as before. -/
lemma session_iff (hold : f i ≠ some tx) (hnew : v ≠ some tx) :
    Function.update f i v j = some tx ↔ f j = some tx := by
  rw [Function.update_apply]
  split
  · next hj => simp [hj, hold, hnew]
  · rfl

/-- A transaction is the one that the session gets, or was there before. -/
lemma session_cases (h : Function.update f i v j = some tx) :
    (j = i ∧ v = some tx) ∨ (j ≠ i ∧ f j = some tx) := by
  rw [Function.update_apply] at h
  split at h
  · next hj => exact .inl ⟨hj, h⟩
  · next hj => exact .inr ⟨hj, h⟩

/-- The committed store, the transaction of each session and the session that holds each key. -/
structure Shared (σ : Type u) (τ : Type v) (κ : Type w) where
  store : σ
  session : Sessions τ := fun _ => none
  holder : κ → Option Nat := fun _ => none

namespace Shared

variable {σ : Type u} {τ : Type v} {κ : Type w} [DecidableEq κ] (s : Shared σ τ κ)

def put (i : Nat) (tx : τ) : Shared σ τ κ :=
  { s with session := Function.update s.session i (some tx) }

def lock (i : Nat) (key : κ) : Shared σ τ κ :=
  { s with holder := Function.update s.holder key (some i) }

/-- The end of a transaction releases its keys. -/
def release (i : Nat) : Shared σ τ κ :=
  { s with
    session := Function.update s.session i none
    holder := fun key => if s.holder key = some i then none else s.holder key }

/-- A transaction ends and leaves a store. -/
def commit (i : Nat) (store : σ) : Shared σ τ κ := { s.release i with store }

variable {s} {t : Shared σ τ κ} {i j : Nat} {tx : τ} {key : κ}

omit [DecidableEq κ] in
@[simp]
lemma put_self : (s.put i tx).session i = some tx := Function.update_self ..

omit [DecidableEq κ] in
@[simp]
lemma commit_store {store : σ} : (s.commit i store).store = store := rfl

lemma lock_self : (s.lock i key).holder key = some i := Function.update_self ..

/-- What a session holds it still holds. -/
def Keeps (i : Nat) (s t : Shared σ τ κ) : Prop :=
  ∀ key, s.holder key = some i → t.holder key = some i

omit [DecidableEq κ] in
lemma keeps_put : Keeps i s (s.put j tx) := fun _ h => h

lemma keeps_lock (hfree : (s.holder key).isNone = true) : Keeps i s ((s.lock j key).put j tx) := by
  intro key' h
  refine (Function.update_of_ne ?_ _ _).trans h
  rintro rfl
  simp [h] at hfree

omit [DecidableEq κ] in
lemma keeps_release (hne : j ≠ i) : Keeps j s (s.release i) := by
  intro key h
  have hother : s.holder key ≠ some i := fun he => hne (Option.some.inj (h.symm.trans he))
  exact (if_neg hother).trans h

/-- A fact about every open transaction. -/
def EachTx (P : Shared σ τ κ → Nat → τ → Prop) (s : Shared σ τ κ) : Prop :=
  ∀ i tx, s.session i = some tx → P s i tx

variable {P : Shared σ τ κ → Nat → τ → Prop}

omit [DecidableEq κ] in
/-- A session goes on without a key. -/
lemma EachTx.put (h : EachTx P s)
    (hframe : ∀ j tx', j ≠ i → P s j tx' → P (s.put i tx) j tx') (htx : P (s.put i tx) i tx) :
    EachTx P (s.put i tx) := by
  intro j tx' hj
  rcases session_cases hj with ⟨rfl, heq⟩ | ⟨hne, hj⟩
  · cases heq
    exact htx
  · exact hframe j tx' hne (h j tx' hj)

/-- A session takes a key. -/
lemma EachTx.lock (h : EachTx P s)
    (hframe : ∀ j tx', j ≠ i → P s j tx' → P ((s.lock i key).put i tx) j tx')
    (htx : P ((s.lock i key).put i tx) i tx) : EachTx P ((s.lock i key).put i tx) := by
  intro j tx' hj
  rcases session_cases hj with ⟨rfl, heq⟩ | ⟨hne, hj⟩
  · cases heq
    exact htx
  · exact hframe j tx' hne (h j tx' hj)

omit [DecidableEq κ] in
/-- A transaction ends. -/
lemma EachTx.commit (h : EachTx P s) {store : σ}
    (hframe : ∀ j tx', j ≠ i → s.session j = some tx' → P s j tx' → P (s.commit i store) j tx') :
    EachTx P (s.commit i store) := by
  intro j tx' hj
  rcases session_cases hj with ⟨-, heq⟩ | ⟨hne, hj⟩
  · cases heq
  · exact hframe j tx' hne hj (h j tx' hj)

omit [DecidableEq κ] in
lemma EachTx.release (h : EachTx P s)
    (hframe : ∀ j tx', j ≠ i → s.session j = some tx' → P s j tx' → P (s.release i) j tx') :
    EachTx P (s.release i) :=
  h.commit hframe

end Shared

end Pulse.Lib
