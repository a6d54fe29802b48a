import Pulse.Auth.Transactions

/-!
# What the token transactions keep

The invariant of the interleaved transactions, with one lemma for each thing that a statement
does to the tables: it puts a session's transaction one statement further, takes a free lock,
draws a new token, or ends the transaction.
-/

namespace Pulse.Auth

/-- The condition on a step: a rotation's update finds its row still live, and a rotation does
not commit into a family that a `revoke_all` in flight has to clear. -/
def Guarded (s : Tables) : Action → Prop
  | .updateRotate i _ => ∀ presented row, s.session i = some (.selected presented row) →
      ∀ r ∈ s.rows, r.id = row.id → r.revokedAt = none
  | .commit i => ∀ presented row now new, s.session i = some (.inserted presented row now new) →
      ∀ j families candidates later, s.session j = some (.revoking families candidates later) →
        row.familyId ∉ families
  | _ => True

/-! ### The invariant -/

def HasFamily (rows : List RefreshToken) (f : String) : Prop :=
  ∃ r ∈ rows, r.familyId = f

/-- The row that the session has inserted and not committed. -/
def Tables.Pending (s : Tables) (i : Nat) (new : RefreshToken) : Prop :=
  ∃ tx, s.session i = some tx ∧ tx.new = some new

/-- The row in the table whose earlier version was read. -/
structure Current (rows : List RefreshToken) (row r : RefreshToken) : Prop where
  mem : r ∈ rows
  id : r.id = row.id
  userId : r.userId = row.userId
  familyId : r.familyId = row.familyId
  tokenHash : r.tokenHash = row.tokenHash

/-- The row that an update of the session has taken is still live. -/
def Takes (rows : List RefreshToken) (holder : String → Option Nat) (i : Nat)
    (row : RefreshToken) : Prop :=
  holder row.id = some i ∧ ∃ r, Current rows row r ∧ r.revokedAt = none

/-- The row comes from what was drawn. -/
structure Known (H : Hasher) (drawn : List Minted) (r : RefreshToken) : Prop where
  plaintext : ∀ p, H.verify r.tokenHash p = true → ∃ d ∈ drawn, d.plaintext = p
  family : ∃ d ∈ drawn, d.familyId = r.familyId
  family_ne : r.familyId ≠ ""

/-- What holds of a session's transaction. -/
def TxInv (H : Hasher) (rows : List RefreshToken) (holder : String → Option Nat) (i : Nat) :
    Tx → Prop
  | .login new => ¬HasFamily rows new.familyId
  | .selected presented row =>
    H.verify row.tokenHash presented = true ∧ ∃ r, Current rows row r
  | .updated presented row _ => H.verify row.tokenHash presented = true ∧ Takes rows holder i row
  | .inserted presented row _ new => H.verify row.tokenHash presented = true ∧
      Takes rows holder i row ∧ new.familyId = row.familyId ∧ new.userId = row.userId
  | .revoking families candidates _ => (∀ f ∈ families, HasFamily rows f) ∧
      ∀ r ∈ rows, r.familyId ∈ families → r.revokedAt = none →
        r.id ∈ candidates ∨ holder r.id = some i
  | _ => True

structure Inv (H : Hasher) (s : Tables) : Prop where
  known : ∀ r ∈ s.rows, Known H s.drawn r
  known_new : ∀ i new, s.Pending i new → Known H s.drawn new
  apart : s.rows.Pairwise (Apart H)
  apart_new : ∀ i new, s.Pending i new → ∀ r ∈ s.rows, Apart H r new
  apart_news : ∀ i j new new', i ≠ j → s.Pending i new → s.Pending j new' → Apart H new new'
  founds : ∀ i j new new', i ≠ j → s.session i = some (.login new) →
    s.session j = some (.login new') → new.familyId ≠ new'.familyId
  one_user : ∀ r ∈ s.rows, ∀ r' ∈ s.rows, r.familyId = r'.familyId → r.userId = r'.userId
  one_live : s.rows.Pairwise fun a b =>
    a.familyId = b.familyId → a.revokedAt ≠ none ∨ b.revokedAt ≠ none
  exchanged : ∀ v ∈ s.exchanged, ∃ r ∈ s.rows,
    H.verify r.tokenHash v = true ∧ r.revokedAt ≠ none
  exchanged_once : s.exchanged.Nodup
  dead : ∀ f ∈ s.dead, HasFamily s.rows f ∧ ∀ r ∈ s.rows, r.familyId = f → r.revokedAt ≠ none
  tx : ∀ i tx, s.session i = some tx → TxInv H s.rows s.holder i tx

namespace Tables

variable {s : Tables} {i j : Nat} {tx tx' : Tx}

@[simp] lemma put_rows : (s.put i tx).rows = s.rows := rfl
@[simp] lemma put_holder : (s.put i tx).holder = s.holder := rfl
@[simp] lemma put_drawn : (s.put i tx).drawn = s.drawn := rfl
@[simp] lemma lock_rows {id : String} : (s.lock i id).rows = s.rows := rfl
@[simp] lemma lock_session {id : String} : (s.lock i id).session = s.session := rfl
@[simp] lemma draw_rows {m : Minted} : (s.draw m).rows = s.rows := rfl
@[simp] lemma draw_session {m : Minted} : (s.draw m).session = s.session := rfl
lemma put_session (h : (s.put i tx).session j = some tx') :
    j = i ∧ tx' = tx ∨ j ≠ i ∧ s.session j = some tx' := by
  by_cases hji : j = i
  · subst hji
    simp only [put, Function.update_self, Option.some.injEq] at h
    exact .inl ⟨rfl, h.symm⟩
  · simp only [put, Function.update_of_ne hji] at h
    exact .inr ⟨hji, h⟩

lemma put_pending {new : RefreshToken} (h : (s.put i tx).Pending j new) :
    j = i ∧ tx.new = some new ∨ j ≠ i ∧ s.Pending j new := by
  obtain ⟨tx', hj, hnew⟩ := h
  rcases put_session hj with ⟨rfl, rfl⟩ | ⟨hji, hj⟩
  · exact .inl ⟨rfl, hnew⟩
  · exact .inr ⟨hji, tx', hj, hnew⟩

lemma release_session (h : (s.release i).session j = some tx) :
    j ≠ i ∧ s.session j = some tx := by
  by_cases hji : j = i
  · subst hji
    simp [release] at h
  · simp only [release, Function.update_of_ne hji] at h
    exact ⟨hji, h⟩

lemma release_holder {id : String} (hji : j ≠ i) :
    (s.release i).holder id = some j ↔ s.holder id = some j := by
  simp only [release]
  split
  · rename_i hi
    simp [hi, Ne.symm hji]
  · rfl

lemma lock_holder {id id' : String} (hfree : s.holder id = none) (h : s.holder id' = some j) :
    (s.lock i id).holder id' = some j := by
  have hne : id' ≠ id := by
    rintro rfl
    rw [hfree] at h
    cases h
  simp only [lock, Function.update_of_ne hne]
  exact h

lemma lock_self {id : String} : (s.lock i id).holder id = some i := by
  simp [lock]

end Tables

section

variable {H : Hasher} {ttl : Time} {s : Tables} {i : Nat}

/-! ### Statements -/

/-- What a transaction must bring when it inserts its row. -/
structure NewRow (H : Hasher) (s : Tables) (i : Nat) (new : RefreshToken) : Prop where
  known : Known H s.drawn new
  apart : ∀ r ∈ s.rows, Apart H r new
  apart_news : ∀ j new', j ≠ i → s.Pending j new' → Apart H new' new
  founds : ∀ j new', j ≠ i → s.session j = some (.login new') → new'.familyId ≠ new.familyId

/-- A statement of one session leaves the transactions of the others alone. -/
lemma Inv.put {tx : Tx} (h : Inv H s) (htx : TxInv H s.rows s.holder i tx)
    (hnew : ∀ new, tx.new = some new → NewRow H s i new) : Inv H (s.put i tx) where
  known := h.known
  known_new j new hj := by
    rcases Tables.put_pending hj with ⟨-, hi⟩ | ⟨-, hj⟩
    · exact (hnew new hi).known
    · exact h.known_new j new hj
  apart := h.apart
  apart_new j new hj := by
    rcases Tables.put_pending hj with ⟨-, hi⟩ | ⟨-, hj⟩
    · exact (hnew new hi).apart
    · exact h.apart_new j new hj
  apart_news j k new new' hjk hj hk := by
    rcases Tables.put_pending hj with ⟨hji, hi⟩ | ⟨hji, hj'⟩
    · rcases Tables.put_pending hk with ⟨hki, -⟩ | ⟨hki, hk'⟩
      · exact absurd (hji.trans hki.symm) hjk
      · exact ((hnew new hi).apart_news k new' hki hk').symm
    · rcases Tables.put_pending hk with ⟨-, hi⟩ | ⟨-, hk'⟩
      · exact (hnew new' hi).apart_news j new hji hj'
      · exact h.apart_news j k new new' hjk hj' hk'
  founds j k new new' hjk hj hk := by
    rcases Tables.put_session hj with ⟨hji, hi⟩ | ⟨hji, hj'⟩
    · rcases Tables.put_session hk with ⟨hki, -⟩ | ⟨hki, hk'⟩
      · exact absurd (hji.trans hki.symm) hjk
      · exact ((hnew new (by rw [← hi]; rfl)).founds k new' hki hk').symm
    · rcases Tables.put_session hk with ⟨-, hi⟩ | ⟨-, hk'⟩
      · exact (hnew new' (by rw [← hi]; rfl)).founds j new hji hj'
      · exact h.founds j k new new' hjk hj' hk'
  one_user := h.one_user
  one_live := h.one_live
  exchanged := h.exchanged
  exchanged_once := h.exchanged_once
  dead := h.dead
  tx j tx' hj := by
    rcases Tables.put_session hj with ⟨rfl, rfl⟩ | ⟨-, hj⟩
    · exact htx
    · exact h.tx j tx' hj

lemma Inv.put_of_none {tx : Tx} (h : Inv H s) (htx : TxInv H s.rows s.holder i tx) (hnone : tx.new = none) :
    Inv H (s.put i tx) :=
  h.put htx fun new hnew => by rw [hnone] at hnew; cases hnew

/-- What other sessions do to the rows keeps a transaction's own facts: they change no row that
it holds, and no row of theirs falls into a family that it relies on. -/
lemma TxInv.of_kept {rows rows' : List RefreshToken} {holder holder' : String → Option Nat}
    {tx : Tx} (h : TxInv H rows holder i tx)
    (hholder : ∀ id, holder id = some i → holder' id = some i)
    (hkept : ∀ r ∈ rows, ∃ r' ∈ rows', Kept r r' ∧ (holder r.id = some i → r' = r))
    (hback : ∀ r' ∈ rows', (∃ r ∈ rows, Kept r r') ∨
      (∀ new, tx = .login new → new.familyId ≠ r'.familyId) ∧
        ∀ families candidates now, tx = .revoking families candidates now →
          r'.familyId ∉ families) :
    TxInv H rows' holder' i tx := by
  have htakes : ∀ row, Takes rows holder i row → Takes rows' holder' i row := by
    rintro row ⟨hheld, r, hr, hlive⟩
    obtain ⟨r', hr', hk, hsame⟩ := hkept r hr.mem
    obtain rfl := hsame (hr.id ▸ hheld)
    exact ⟨hholder _ hheld, r', ⟨hr', hr.id, hr.userId, hr.familyId, hr.tokenHash⟩, hlive⟩
  cases tx with
  | login new =>
    rintro ⟨r', hr', hfamily⟩
    rcases hback r' hr' with ⟨r, hr, hk⟩ | ⟨hforeign, -⟩
    · exact h ⟨r, hr, hk.familyId.symm.trans hfamily⟩
    · exact hforeign new rfl hfamily.symm
  | selected presented row =>
    obtain ⟨hopen, r, hr⟩ := h
    obtain ⟨r', hr', hk, -⟩ := hkept r hr.mem
    exact ⟨hopen, r', hr', hk.id.trans hr.id, hk.userId.trans hr.userId,
      hk.familyId.trans hr.familyId, hk.tokenHash.trans hr.tokenHash⟩
  | updated presented row now => exact h.imp_right (htakes row)
  | inserted presented row now new => exact h.imp_right fun hrest => hrest.imp_left (htakes row)
  | revoking families candidates now =>
    obtain ⟨hfamilies, hlive⟩ := h
    refine ⟨fun f hf => ?_, fun r' hr' hfamily hlive' => ?_⟩
    · obtain ⟨r, hr, rfl⟩ := hfamilies f hf
      obtain ⟨r', hr', hk, -⟩ := hkept r hr
      exact ⟨r', hr', hk.familyId⟩
    · rcases hback r' hr' with ⟨r, hr, hk⟩ | ⟨-, hforeign⟩
      · have hr_live : r.revokedAt = none := by
          by_contra hrevoked
          exact hk.revoked hrevoked hlive'
        rw [hk.id]
        exact (hlive r hr (hk.familyId ▸ hfamily) hr_live).imp_right (hholder r.id)
      · exact absurd hfamily (hforeign families candidates now rfl)
  | _ => trivial

lemma Inv.lock {id : String} (h : Inv H s) (hfree : s.holder id = none) :
    Inv H (s.lock i id) where
  known := h.known
  known_new := h.known_new
  apart := h.apart
  apart_new := h.apart_new
  apart_news := h.apart_news
  founds := h.founds
  one_user := h.one_user
  one_live := h.one_live
  exchanged := h.exchanged
  exchanged_once := h.exchanged_once
  dead := h.dead
  tx j tx hj := by
    exact (h.tx j tx hj).of_kept (fun _ => Tables.lock_holder hfree)
      (fun r hr => ⟨r, hr, Kept.refl r, fun _ => rfl⟩) (fun r hr => .inl ⟨r, hr, Kept.refl r⟩)

lemma Known.cons {drawn : List Minted} {m : Minted} {r : RefreshToken} (h : Known H drawn r) :
    Known H (m :: drawn) r where
  plaintext p hp := by
    obtain ⟨d, hd, hdp⟩ := h.plaintext p hp
    exact ⟨d, List.mem_cons_of_mem m hd, hdp⟩
  family := by
    obtain ⟨d, hd, hdf⟩ := h.family
    exact ⟨d, List.mem_cons_of_mem m hd, hdf⟩
  family_ne := h.family_ne

lemma Inv.draw {m : Minted} (h : Inv H s) : Inv H (s.draw m) where
  known r hr := (h.known r hr).cons
  known_new j new hj := (h.known_new j new hj).cons
  apart := h.apart
  apart_new := h.apart_new
  apart_news := h.apart_news
  founds := h.founds
  one_user := h.one_user
  one_live := h.one_live
  exchanged := h.exchanged
  exchanged_once := h.exchanged_once
  dead := h.dead
  tx := h.tx

lemma Inv.newRow {m : Minted} {user : String} {familyId userAgent : Option String} {now : Time}
    (h : Inv H s) (hplain : ∀ d ∈ s.drawn, d.plaintext ≠ m.plaintext)
    (hfamily : ∃ d ∈ m :: s.drawn, d.familyId = familyOr familyId m)
    (hfounds : ∀ j new', j ≠ i → s.session j = some (.login new') →
      new'.familyId ≠ familyOr familyId m) :
    NewRow H (s.draw m) i (mintRefresh H ttl now m user familyId userAgent).2 := by
  have hfresh : ∀ r, Known H s.drawn r → H.verify r.tokenHash m.plaintext = false := by
    intro r hr
    by_contra hopen
    obtain ⟨d, hd, hdp⟩ := hr.plaintext m.plaintext (Bool.not_eq_false _ ▸ hopen)
    exact hplain d hd hdp
  refine ⟨⟨?_, hfamily, familyOr_ne familyId m⟩, ?_, ?_, hfounds⟩
  · intro p hp
    exact ⟨m, List.mem_cons_self, (H.verify_hash m.salt m.plaintext p).1 hp⟩
  · exact fun r hr => apart_mintRefresh (hfresh r (h.known r hr))
  · exact fun j new' _ hj => apart_mintRefresh (hfresh new' (h.known_new j new' hj))

/-! ### The end of a transaction -/

lemma Tables.release_pending {j : Nat} {new : RefreshToken} (h : (s.release i).Pending j new) :
    j ≠ i ∧ s.Pending j new := by
  obtain ⟨tx, hj, hnew⟩ := h
  obtain ⟨hji, hj⟩ := Tables.release_session hj
  exact ⟨hji, tx, hj, hnew⟩

lemma Inv.release (h : Inv H s) : Inv H (s.release i) where
  known := h.known
  known_new j new hj := h.known_new j new (Tables.release_pending hj).2
  apart := h.apart
  apart_new j new hj := h.apart_new j new (Tables.release_pending hj).2
  apart_news j k new new' hjk hj hk :=
    h.apart_news j k new new' hjk (Tables.release_pending hj).2 (Tables.release_pending hk).2
  founds j k new new' hjk hj hk :=
    h.founds j k new new' hjk (Tables.release_session hj).2 (Tables.release_session hk).2
  one_user := h.one_user
  one_live := h.one_live
  exchanged := h.exchanged
  exchanged_once := h.exchanged_once
  dead := h.dead
  tx j tx hj := by
    obtain ⟨hji, hj⟩ := Tables.release_session hj
    exact (h.tx j tx hj).of_kept (fun _ => (Tables.release_holder hji).2)
      (fun r hr => ⟨r, hr, Kept.refl r, fun _ => rfl⟩) (fun r hr => .inl ⟨r, hr, Kept.refl r⟩)

/-- The row that a rotation replaces by its new one. -/
structure Replaces (H : Hasher) (s : Tables) (i : Nat) (presented : String)
    (new r : RefreshToken) : Prop where
  mem : r ∈ s.rows
  held : s.holder r.id = some i
  live : r.revokedAt = none
  familyId : r.familyId = new.familyId
  userId : r.userId = new.userId
  opens : H.verify r.tokenHash presented = true

lemma Inv.replaces {presented : String} {row new : RefreshToken} {now : Time} (h : Inv H s)
    (hs : s.session i = some (.inserted presented row now new)) :
    ∃ r, Replaces H s i presented new r := by
  obtain ⟨hopen, ⟨hheld, r, hr, hlive⟩, hfamily, huser⟩ := h.tx i _ hs
  exact ⟨r, hr.mem, hr.id ▸ hheld, hlive, hr.familyId.trans hfamily.symm,
    hr.userId.trans huser.symm, hr.tokenHash ▸ hopen⟩

/-- A new row opens a family, or follows the live row of one. -/
lemma Inv.new_cases {tx : Tx} {new : RefreshToken} (h : Inv H s) (hs : s.session i = some tx)
    (hnew : tx.new = some new) :
    tx = .login new ∧ ¬HasFamily s.rows new.familyId ∨
      ∃ presented row now r, tx = .inserted presented row now new ∧
        Replaces H s i presented new r := by
  cases tx with
  | login row =>
    cases hnew
    exact .inl ⟨rfl, h.tx i _ hs⟩
  | inserted presented row now row' =>
    cases hnew
    obtain ⟨r, hr⟩ := h.replaces hs
    exact .inr ⟨presented, row, now, r, rfl, hr⟩
  | _ => cases hnew

lemma Tx.write_kept (tx : Tx) (r : RefreshToken) : Kept r (tx.write r) := by
  cases tx with
  | updated presented row now => exact kept_use now r
  | inserted presented row now new => exact kept_use now r
  | loggedOut now => exact kept_revoke now r
  | revoking families candidates now => exact kept_revoke now r
  | _ => exact Kept.refl r

/-- A row as the commit leaves it. -/
def Tables.shown (s : Tables) (i : Nat) (tx : Tx) (r : RefreshToken) : RefreshToken :=
  if s.holder r.id = some i then tx.write r else r

lemma Tables.written_eq {tx : Tx} :
    s.written i tx = s.rows.map (s.shown i tx) ++ tx.new.toList := by
  simp [Tables.written, updateWhere, Tables.shown]

lemma Tables.shown_kept (tx : Tx) (r : RefreshToken) : Kept r (s.shown i tx r) := by
  unfold Tables.shown
  split
  · exact tx.write_kept r
  · exact Kept.refl r

lemma Tables.shown_of_ne {tx : Tx} {j : Nat} {r : RefreshToken} (hji : j ≠ i)
    (h : s.holder r.id = some j) : s.shown i tx r = r := by
  have hne : s.holder r.id ≠ some i := by
    rw [h]
    simpa using hji
  rw [Tables.shown, if_neg hne]

lemma Tables.mem_written {tx : Tx} {r' : RefreshToken} :
    r' ∈ s.written i tx ↔ (∃ r ∈ s.rows, s.shown i tx r = r') ∨ tx.new = some r' := by
  rw [Tables.written_eq, List.mem_append, List.mem_map, Option.mem_toList]

/-- The rows of other sessions are as they were. -/
lemma Inv.tx_commit {tx : Tx} (h : Inv H s) (hs : s.session i = some tx)
    (hguard : Guarded s (.commit i)) {j : Nat} {tx' : Tx} (hji : j ≠ i)
    (hj : s.session j = some tx') : TxInv H (s.written i tx) (s.release i).holder j tx' := by
  apply (h.tx j tx' hj).of_kept (fun _ => (Tables.release_holder hji).2)
  · intro r hr
    exact ⟨s.shown i tx r, Tables.mem_written.2 (.inl ⟨r, hr, rfl⟩), Tables.shown_kept tx r,
      Tables.shown_of_ne hji⟩
  · intro r' hr'
    rcases Tables.mem_written.1 hr' with ⟨r, hr, rfl⟩ | hnew
    · exact .inl ⟨r, hr, Tables.shown_kept tx r⟩
    · refine .inr ?_
      rcases h.new_cases hs hnew with ⟨rfl, hfresh⟩ | ⟨presented, row, now, r, rfl, hr⟩
      · refine ⟨fun new hlogin => ?_, fun families candidates now hrev hmem => ?_⟩
        · exact h.founds j i new r' hji (hlogin ▸ hj) hs
        · subst hrev
          exact hfresh ((h.tx j _ hj).1 _ hmem)
      · refine ⟨fun new hlogin hfamily => ?_, fun families candidates later hrev => ?_⟩
        · subst hlogin
          exact h.tx j _ hj ⟨r, hr.mem, hr.familyId.trans hfamily.symm⟩
        · subst hrev
          have hfamily := (h.tx i _ hs).2.2.1
          rw [hfamily]
          exact hguard presented row now r' hs j families candidates later hj

/-- The row that a rotation replaces is the only live one of its family. -/
lemma Inv.revoked_of_replaces {presented : String} {new r r' : RefreshToken} {tx : Tx}
    (h : Inv H s) (hr : Replaces H s i presented new r) (hr' : r' ∈ s.rows)
    (hfamily : r'.familyId = r.familyId) (hwrite : (tx.write r).revokedAt ≠ none) :
    (s.shown i tx r').revokedAt ≠ none := by
  by_cases hsame : r' = r
  · subst hsame
    rw [Tables.shown, if_pos hr.held]
    exact hwrite
  · have : Std.Symm fun a b : RefreshToken =>
        a.familyId = b.familyId → a.revokedAt ≠ none ∨ b.revokedAt ≠ none :=
      ⟨fun a b hab hba => (hab hba.symm).symm⟩
    rcases h.one_live.forall hr' hr.mem hsame hfamily with hrevoked | hrevoked
    · exact (Tables.shown_kept tx r').revoked hrevoked
    · exact absurd hr.live hrevoked

lemma Inv.one_live_commit {tx : Tx} (h : Inv H s) (hs : s.session i = some tx) :
    (s.written i tx).Pairwise fun a b =>
      a.familyId = b.familyId → a.revokedAt ≠ none ∨ b.revokedAt ≠ none := by
  rw [Tables.written_eq, List.pairwise_append, List.pairwise_map]
  refine ⟨?_, ?_, ?_⟩
  · apply h.one_live.imp
    intro a b hab hfamily
    rw [(Tables.shown_kept tx a).familyId, (Tables.shown_kept tx b).familyId] at hfamily
    exact (hab hfamily).imp (Tables.shown_kept tx a).revoked (Tables.shown_kept tx b).revoked
  · cases tx.new <;> simp
  · intro a ha new hnew hfamily
    obtain ⟨r', hr', rfl⟩ := List.mem_map.1 ha
    rw [(Tables.shown_kept tx r').familyId] at hfamily
    rcases h.new_cases hs (Option.mem_toList.1 hnew) with
      ⟨-, hfresh⟩ | ⟨presented, row, now, r, rfl, hr⟩
    · exact absurd ⟨r', hr', hfamily⟩ hfresh
    · exact .inl (h.revoked_of_replaces hr hr' (hfamily.trans hr.familyId.symm)
        (by simp [Tx.write]))

lemma Inv.one_user_commit {tx : Tx} (h : Inv H s) (hs : s.session i = some tx) :
    ∀ a ∈ s.written i tx, ∀ b ∈ s.written i tx, a.familyId = b.familyId →
      a.userId = b.userId := by
  have hnewest : ∀ r ∈ s.rows, ∀ new, tx.new = some new → r.familyId = new.familyId →
      r.userId = new.userId := by
    intro r hr new hnew hfamily
    rcases h.new_cases hs hnew with ⟨-, hfresh⟩ | ⟨presented, row, now, r₀, -, hr₀⟩
    · exact absurd ⟨r, hr, hfamily⟩ hfresh
    · exact (h.one_user r hr r₀ hr₀.mem (hfamily.trans hr₀.familyId.symm)).trans hr₀.userId
  intro a ha b hb hfamily
  rcases Tables.mem_written.1 ha with ⟨ra, hra, rfl⟩ | hna <;>
    rcases Tables.mem_written.1 hb with ⟨rb, hrb, rfl⟩ | hnb
  · have hka := Tables.shown_kept (s := s) (i := i) tx ra
    have hkb := Tables.shown_kept (s := s) (i := i) tx rb
    rw [hka.familyId, hkb.familyId] at hfamily
    rw [hka.userId, hkb.userId]
    exact h.one_user ra hra rb hrb hfamily
  · have hka := Tables.shown_kept (s := s) (i := i) tx ra
    rw [hka.familyId] at hfamily
    rw [hka.userId]
    exact hnewest ra hra b hnb hfamily
  · have hkb := Tables.shown_kept (s := s) (i := i) tx rb
    rw [hkb.familyId] at hfamily
    rw [hkb.userId]
    exact (hnewest rb hrb a hna hfamily.symm).symm
  · rw [Option.some.inj (hna.symm.trans hnb)]

/-- An exchanged value opens a revoked row, so it is not exchanged again. -/
lemma Inv.exchanged_commit {tx : Tx} (h : Inv H s) (hs : s.session i = some tx) :
    (∀ v ∈ tx.exchanges ++ s.exchanged, ∃ r ∈ s.written i tx,
      H.verify r.tokenHash v = true ∧ r.revokedAt ≠ none) ∧
    (tx.exchanges ++ s.exchanged).Nodup := by
  have hold : ∀ v ∈ s.exchanged, ∃ r ∈ s.written i tx,
      H.verify r.tokenHash v = true ∧ r.revokedAt ≠ none := by
    intro v hv
    obtain ⟨r, hr, hopen, hrevoked⟩ := h.exchanged v hv
    have hk := Tables.shown_kept (s := s) (i := i) tx r
    exact ⟨_, Tables.mem_written.2 (.inl ⟨r, hr, rfl⟩), hk.tokenHash.symm ▸ hopen,
      hk.revoked hrevoked⟩
  cases tx with
  | inserted presented row now new =>
    obtain ⟨r, hr⟩ := h.replaces hs
    refine ⟨fun v hv => ?_, List.nodup_cons.2 ⟨fun hmem => ?_, h.exchanged_once⟩⟩
    · rcases List.mem_cons.1 hv with rfl | hv
      · have hk := Tables.shown_kept (s := s) (i := i) (.inserted v row now new) r
        refine ⟨_, Tables.mem_written.2 (.inl ⟨r, hr.mem, rfl⟩), hk.tokenHash.symm ▸ hr.opens, ?_⟩
        exact h.revoked_of_replaces hr hr.mem rfl (by simp [Tx.write])
      · exact hold v hv
    · obtain ⟨r', hr', hopen, hrevoked⟩ := h.exchanged presented hmem
      obtain rfl := eq_of_opens h.apart hr' hr.mem hopen hr.opens
      exact hrevoked hr.live
  | _ => exact ⟨hold, h.exchanged_once⟩

lemma Inv.dead_commit {tx : Tx} (h : Inv H s) (hs : s.session i = some tx)
    (hdone : tx.done = true) : ∀ f ∈ tx.kills ++ s.dead, HasFamily (s.written i tx) f ∧
      ∀ r ∈ s.written i tx, r.familyId = f → r.revokedAt ≠ none := by
  have hfamily : ∀ f, HasFamily s.rows f → HasFamily (s.written i tx) f := by
    rintro f ⟨r, hr, rfl⟩
    exact ⟨_, Tables.mem_written.2 (.inl ⟨r, hr, rfl⟩), (Tables.shown_kept tx r).familyId⟩
  intro f hf
  rcases List.mem_append.1 hf with hf | hf
  · -- The revocation has come to each live row of its families and holds it.
    cases tx with
    | revoking families candidates now =>
      obtain ⟨hfamilies, hlive⟩ := h.tx i _ hs
      refine ⟨hfamily f (hfamilies f hf), fun r' hr' hr'f => ?_⟩
      rcases Tables.mem_written.1 hr' with ⟨r, hr, rfl⟩ | hnew
      · have hk := Tables.shown_kept (s := s) (i := i) (.revoking families candidates now) r
        by_cases hrevoked : r.revokedAt = none
        · have hheld : s.holder r.id = some i := by
            have hempty : candidates = [] := by simpa [Tx.done] using hdone
            have := hlive r hr (by rw [← hk.familyId, hr'f]; exact hf) hrevoked
            simpa [hempty] using this
          simp [Tables.shown, hheld, Tx.write, revoke]
        · exact hk.revoked hrevoked
      · cases hnew
    | _ => cases hf
  · obtain ⟨hhas, hrevoked⟩ := h.dead f hf
    refine ⟨hfamily f hhas, fun r' hr' hr'f => ?_⟩
    rcases Tables.mem_written.1 hr' with ⟨r, hr, rfl⟩ | hnew
    · have hk := Tables.shown_kept (s := s) (i := i) tx r
      exact hk.revoked (hrevoked r hr (hk.familyId.symm.trans hr'f))
    · rcases h.new_cases hs hnew with ⟨-, hfresh⟩ | ⟨presented, row, now, r, -, hr⟩
      · exact absurd (hr'f ▸ hhas) hfresh
      · exact absurd hr.live (hrevoked r hr.mem (hr.familyId.trans hr'f))

lemma Inv.commit {tx : Tx} (h : Inv H s) (hs : s.session i = some tx) (hdone : tx.done = true)
    (hguard : Guarded s (.commit i)) : Inv H (s.commit i tx) where
  known r' hr' := by
    rcases Tables.mem_written.1 hr' with ⟨r, hr, rfl⟩ | hnew
    · have hk := Tables.shown_kept (s := s) (i := i) tx r
      have hr := h.known r hr
      exact ⟨hk.tokenHash.symm ▸ hr.plaintext, hk.familyId.symm ▸ hr.family,
        hk.familyId.symm ▸ hr.family_ne⟩
    · exact h.known_new i r' ⟨tx, hs, hnew⟩
  known_new j new hj := h.known_new j new (Tables.release_pending hj).2
  apart := by
    show (s.written i tx).Pairwise (Apart H)
    rw [Tables.written_eq, List.pairwise_append, List.pairwise_map]
    refine ⟨?_, ?_, ?_⟩
    · apply h.apart.imp
      intro a b hab
      rw [Apart, (Tables.shown_kept tx a).tokenHash, (Tables.shown_kept tx b).tokenHash]
      exact hab
    · cases tx.new <;> simp
    · intro a ha new hnew
      obtain ⟨r, hr, rfl⟩ := List.mem_map.1 ha
      rw [Apart, (Tables.shown_kept tx r).tokenHash]
      exact h.apart_new i new ⟨tx, hs, Option.mem_toList.1 hnew⟩ r hr
  apart_new j new hj r' hr' := by
    obtain ⟨hji, hj⟩ := Tables.release_pending hj
    rcases Tables.mem_written.1 hr' with ⟨r, hr, rfl⟩ | hnew
    · rw [Apart, (Tables.shown_kept tx r).tokenHash]
      exact h.apart_new j new hj r hr
    · exact h.apart_news i j r' new hji.symm ⟨tx, hs, hnew⟩ hj
  apart_news := h.release.apart_news
  founds := h.release.founds
  one_user := h.one_user_commit hs
  one_live := h.one_live_commit hs
  exchanged := (h.exchanged_commit hs).1
  exchanged_once := (h.exchanged_commit hs).2
  dead := h.dead_commit hs hdone
  tx j tx' hj := by
    obtain ⟨hji, hj⟩ := Tables.release_session hj
    exact h.tx_commit hs hguard hji hj

end

end Pulse.Auth
