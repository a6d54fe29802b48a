import Mathlib.Logic.Function.Basic
import Pulse.Auth.Refresh
import Pulse.Lib.Run

/-!
# Concurrent token transactions

The functions of `auth/refresh.py` as transactions of a database under READ COMMITTED, one
action a statement. A statement reads the committed rows. An update takes the lock of each
row it writes, waits while another session holds it, and is seen by others from the commit
on, when the locks are released; an inserted row is seen from the commit on.
-/

namespace Pulse.Auth

/-- How far a session is in its transaction. -/
inductive Tx
  /-- `mint_refresh` for a login has inserted its row. -/
  | login (row : RefreshToken)
  /-- `rotate_refresh` has read the token's row and found it good. -/
  | selected (presented : String) (row : RefreshToken)
  /-- The flush has updated the row that was read. -/
  | updated (presented : String) (row : RefreshToken) (now : Time)
  /-- The flush has inserted the new token. -/
  | inserted (presented : String) (row : RefreshToken) (now : Time) (new : RefreshToken)
  /-- `rotate_refresh` has read a revoked row of the family. -/
  | reuse (familyId : String)
  /-- `revoke_refresh` has read the token's row and found it live. -/
  | logout (row : RefreshToken)
  | loggedOut (now : Time)
  /-- An update of many rows is running. It was promised the families, and the candidates
  are the rows its snapshot gave it that it has not come to yet. -/
  | revoking (families candidates : List String) (now : Time)
  deriving DecidableEq

/-- The row that the transaction has inserted. -/
def Tx.new : Tx → Option RefreshToken
  | .login row => some row
  | .inserted _ _ _ new => some new
  | _ => none

/-- What the transaction writes to a row that it holds. -/
def Tx.write : Tx → RefreshToken → RefreshToken
  | .updated _ _ now | .inserted _ _ now _ =>
    fun r => { r with revokedAt := some now, lastUsedAt := some now }
  | .loggedOut now | .revoking _ _ now => revoke now
  | _ => id

/-- The token value that the transaction exchanges. -/
def Tx.exchanges : Tx → List String
  | .inserted presented _ _ _ => [presented]
  | _ => []

/-- The families that the transaction leaves without a live token. -/
def Tx.kills : Tx → List String
  | .revoking families _ _ => families
  | _ => []

/-- All statements of the transaction have run. -/
def Tx.done : Tx → Bool
  | .login _ | .inserted _ _ _ _ | .loggedOut _ => true
  | .revoking _ candidates _ => candidates.isEmpty
  | _ => false

/-- The committed rows, the transaction of each session and the session that holds each row's
lock. Beside them the run's history: what was drawn, the token values exchanged and the
families that a `revoke_all` found. -/
structure Tables where
  rows : List RefreshToken := []
  session : Nat → Option Tx := fun _ => none
  holder : String → Option Nat := fun _ => none
  drawn : List Minted := []
  exchanged : List String := []
  dead : List String := []

namespace Tables

def put (s : Tables) (i : Nat) (tx : Tx) : Tables :=
  { s with session := Function.update s.session i (some tx) }

def lock (s : Tables) (i : Nat) (id : String) : Tables :=
  { s with holder := Function.update s.holder id (some i) }

def draw (s : Tables) (m : Minted) : Tables :=
  { s with drawn := m :: s.drawn }

/-- The end of a transaction releases its locks. -/
def release (s : Tables) (i : Nat) : Tables :=
  { s with
    session := Function.update s.session i none
    holder := fun id => if s.holder id = some i then none else s.holder id }

/-- The rows once the transaction of a session is committed. -/
def written (s : Tables) (i : Nat) (tx : Tx) : List RefreshToken :=
  updateWhere (s.holder ·.id = some i) tx.write s.rows ++ tx.new.toList

def commit (s : Tables) (i : Nat) (tx : Tx) : Tables :=
  { s.release i with
    rows := s.written i tx
    exchanged := tx.exchanges ++ s.exchanged
    dead := tx.kills ++ s.dead }

/-- The keys of the live rows that meet a condition. -/
def liveIds (s : Tables) (p : RefreshToken → Bool) : List String :=
  (s.rows.filter fun r => r.revokedAt = none ∧ p r).map (·.id)

end Tables

/-- One statement of a session. -/
inductive Action
  | login (i : Nat) (now : Time) (m : Minted) (userId : String) (userAgent : Option String)
  | selectRotate (i : Nat) (now : Time) (presented : String)
  | updateRotate (i : Nat) (now : Time)
  | insertRotate (i : Nat) (now : Time) (m : Minted) (userAgent : Option String)
  | selectLogout (i : Nat) (presented : String)
  | updateLogout (i : Nat) (now : Time)
  | revokeFamily (i : Nat) (now : Time)
  | revokeAll (i : Nat) (now : Time) (userId : String)
  | revokeRow (i : Nat) (id : String)
  | commit (i : Nat)
  | abort (i : Nat)

/-- The tables after an action, if the session can take it now. -/
def act (H : Hasher) (ttl : Time) (s : Tables) : Action → Option Tables
  | .login i now m userId userAgent =>
    match s.session i with
    | none => some ((s.draw m).put i (.login (mintRefresh H ttl now m userId none userAgent).2))
    | some _ => none
  | .selectRotate i now presented =>
    match s.session i with
    | none =>
      match find H s.rows (some presented) with
      | none => some s
      | some row =>
        if row.revokedAt ≠ none then some (s.put i (.reuse row.familyId))
        else if row.expiresAt ≤ now then some s
        else some (s.put i (.selected presented row))
    | some _ => none
  | .updateRotate i now =>
    match s.session i with
    | some (.selected presented row) =>
      -- The flush updates by primary key, whatever the row says by now.
      if s.holder row.id = none then
        some ((s.lock i row.id).put i (.updated presented row now))
      else none
    | _ => none
  | .insertRotate i now m userAgent =>
    match s.session i with
    | some (.updated presented row used) =>
      some ((s.draw m).put i (.inserted presented row used
        (mintRefresh H ttl now m row.userId (some row.familyId) userAgent).2))
    | _ => none
  | .selectLogout i presented =>
    match s.session i with
    | none =>
      match find H s.rows (some presented) with
      | none => some s
      | some row => if row.revokedAt = none then some (s.put i (.logout row)) else some s
    | some _ => none
  | .updateLogout i now =>
    match s.session i with
    | some (.logout row) =>
      if s.holder row.id = none then some ((s.lock i row.id).put i (.loggedOut now)) else none
    | _ => none
  | .revokeFamily i now =>
    match s.session i with
    | some (.reuse familyId) =>
      some (s.put i (.revoking [] (s.liveIds (·.familyId = familyId)) now))
    | _ => none
  | .revokeAll i now userId =>
    match s.session i with
    | none =>
      let families := (s.rows.filter (·.userId = userId)).map (·.familyId)
      some (s.put i (.revoking families (s.liveIds (·.userId = userId)) now))
    | some _ => none
  | .revokeRow i id =>
    match s.session i with
    | some (.revoking families candidates now) =>
      if id ∈ candidates ∧ s.holder id = none then
        let s' := s.put i (.revoking families (candidates.filter (· ≠ id)) now)
        -- A row that changed since the snapshot is checked again.
        if id ∈ s.liveIds (fun _ => true) then some (s'.lock i id) else some s'
      else none
    | _ => none
  | .commit i =>
    match s.session i with
    | some tx => if tx.done then some (s.commit i tx) else none
    | none => none
  | .abort i =>
    match s.session i with
    | some _ => some (s.release i)
    | none => none

def Action.draws : Action → List Minted
  | .login _ _ m _ _ | .insertRotate _ _ m _ => [m]
  | _ => []

/-- What an action draws is new. -/
def Draws (s : Tables) (a : Action) : Prop :=
  ∀ m ∈ a.draws, ∀ d ∈ s.drawn,
    d.id ≠ m.id ∧ d.plaintext ≠ m.plaintext ∧ d.familyId ≠ m.familyId

instance (s : Tables) (a : Action) : Decidable (Draws s a) :=
  inferInstanceAs (Decidable (∀ m ∈ a.draws, ∀ d ∈ s.drawn,
    d.id ≠ m.id ∧ d.plaintext ≠ m.plaintext ∧ d.familyId ≠ m.familyId))

/-- The steps of the sessions, in any order. -/
def Acts (H : Hasher) (ttl : Time) (s : Tables) (a : Action) (t : Tables) : Prop :=
  act H ttl s a = some t ∧ Draws s a

/-- Take the actions of a list in order. -/
def play (H : Hasher) (ttl : Time) (s : Tables) : List Action → Option Tables
  | [] => some s
  | a :: as => if Draws s a then (act H ttl s a).bind fun t => play H ttl t as else none

lemma run_of_play {H : Hasher} {ttl : Time} {s t : Tables} {as : List Action}
    (h : play H ttl s as = some t) : Lib.Run (Acts H ttl) s as t := by
  induction as generalizing s with
  | nil =>
    cases h
    exact .nil _
  | cons a as ih =>
    simp only [play] at h
    split at h
    · rename_i hdraws
      obtain ⟨u, hact, hrest⟩ := Option.bind_eq_some_iff.1 h
      exact .cons ⟨hact, hdraws⟩ (ih hrest)
    · cases h

/-! ### A transaction that runs alone -/

section

variable {H : Hasher} {ttl now : Time} {s : Tables} {i : Nat} {m : Minted} {presented : String}
  {row : RefreshToken}

/-- With no lock taken before, a session that takes one lock writes that row. -/
lemma updateWhere_lock (hfree : s.holder = fun _ => none) (f : RefreshToken → RefreshToken)
    (rows : List RefreshToken) :
    updateWhere ((s.lock i row.id).holder ·.id = some i) f rows =
      updateWhere (·.id = row.id) f rows := by
  have hheld : ∀ id, (s.lock i row.id).holder id = some i ↔ id = row.id := by
    intro id
    by_cases hid : id = row.id
    · simp [Tables.lock, hid]
    · simp [Tables.lock, hfree, hid]
  simp [updateWhere, hheld]

lemma draws_of_nil {a : Action} (h : a.draws = []) : Draws s a := by
  intro m hm
  rw [h] at hm
  cases hm

/-- The statements of a rotation that nothing interrupts do what `rotate_refresh` does. -/
theorem rotateRefresh_alone {userAgent : Option String} (hidle : s.session i = none)
    (hfree : s.holder = fun _ => none) (hdraws : Draws s (.insertRotate i now m userAgent))
    (hfind : find H s.rows (some presented) = some row) (hlive : row.revokedAt = none)
    (hunexpired : now < row.expiresAt) :
    ∃ t, Lib.Run (Acts H ttl) s [.selectRotate i now presented, .updateRotate i now,
        .insertRotate i now m userAgent, .commit i] t ∧
      t.rows = (rotateRefresh H ttl now m s.rows (some presented) userAgent).1 := by
  let new := (mintRefresh H ttl now m row.userId (some row.familyId) userAgent).2
  let selected := s.put i (.selected presented row)
  let updated := (selected.lock i row.id).put i (.updated presented row now)
  let inserted := (updated.draw m).put i (.inserted presented row now new)
  have hselect : act H ttl s (.selectRotate i now presented) = some selected := by
    simp [act, hidle, hfind, hlive, Nat.not_le.2 hunexpired, selected]
  have hupdate : act H ttl selected (.updateRotate i now) = some updated := by
    simp [act, Tables.put, hfree, selected, updated]
  have hinsert : act H ttl updated (.insertRotate i now m userAgent) = some inserted := by
    simp [act, Tables.put, updated, inserted, new]
  have hcommit : act H ttl inserted (.commit i) =
      some (inserted.commit i (.inserted presented row now new)) := by
    simp [act, Tables.put, Tx.done, inserted]
  refine ⟨_, .cons ⟨hselect, draws_of_nil rfl⟩ (.cons ⟨hupdate, draws_of_nil rfl⟩
    (.cons ⟨hinsert, hdraws⟩ (.single ⟨hcommit, draws_of_nil rfl⟩))), ?_⟩
  simp only [rotateRefresh, hfind, hlive, ne_eq, not_true_eq_false, if_false,
    if_neg (Nat.not_le.2 hunexpired)]
  exact congrArg (· ++ [new]) (updateWhere_lock hfree _ s.rows)

/-- A logout that nothing interrupts does what `revoke_refresh` does. -/
theorem revokeRefresh_alone (hidle : s.session i = none) (hfree : s.holder = fun _ => none)
    (hfind : find H s.rows (some presented) = some row) (hlive : row.revokedAt = none) :
    ∃ t, Lib.Run (Acts H ttl) s
        [.selectLogout i presented, .updateLogout i now, .commit i] t ∧
      t.rows = revokeRefresh H now s.rows (some presented) := by
  let selected := s.put i (.logout row)
  let updated := (selected.lock i row.id).put i (.loggedOut now)
  have hselect : act H ttl s (.selectLogout i presented) = some selected := by
    simp [act, hidle, hfind, hlive, selected]
  have hupdate : act H ttl selected (.updateLogout i now) = some updated := by
    simp [act, Tables.put, hfree, selected, updated]
  have hcommit : act H ttl updated (.commit i) = some (updated.commit i (.loggedOut now)) := by
    simp [act, Tables.put, Tx.done, updated]
  refine ⟨_, .cons ⟨hselect, draws_of_nil rfl⟩ (.cons ⟨hupdate, draws_of_nil rfl⟩
    (.single ⟨hcommit, draws_of_nil rfl⟩)), ?_⟩
  simp only [revokeRefresh, hfind, hlive, if_true]
  exact (List.append_nil _).trans (updateWhere_lock hfree _ s.rows)

end

end Pulse.Auth
