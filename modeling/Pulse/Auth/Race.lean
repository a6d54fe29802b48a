import Pulse.Auth.Invariant

/-!
# One live token in a family

What concurrent logins, rotations, logouts and revocations keep of the refresh tokens. A
rotation updates the row it has read without looking at it again, and a revocation does not
see the row that a rotation has not committed yet. Where neither happens, a family has at
most one live token, a token is exchanged once, and `revoke_all` is final.
-/

namespace Pulse.Auth

/-- What is asked of every committed state. -/
structure Single (s : Tables) : Prop where
  one_live : ∀ f, (s.rows.filter fun r => r.familyId = f ∧ r.revokedAt = none).length ≤ 1
  exchanged_once : s.exchanged.Nodup
  revoked_all : ∀ r ∈ s.rows, r.familyId ∈ s.dead → r.revokedAt ≠ none

/-! ### The statements -/

section

variable {H : Hasher} {ttl : Time} {s : Tables} {i : Nat}

lemma Tables.mem_liveIds {p : RefreshToken → Bool} {id : String} :
    id ∈ s.liveIds p ↔ ∃ r ∈ s.rows, (r.revokedAt = none ∧ p r = true) ∧ r.id = id := by
  simp [Tables.liveIds, and_assoc]

lemma find_current {presented : String} {row : RefreshToken}
    (h : find H s.rows (some presented) = some row) :
    H.verify row.tokenHash presented = true ∧ ∃ r, Current s.rows row r := by
  obtain ⟨p, hp, hmem, hopen⟩ := find_eq_some h
  cases hp
  exact ⟨hopen, row, hmem, rfl, rfl, rfl, rfl⟩

lemma Inv.login {m : Minted} {now : Time} {user : String} {userAgent : Option String}
    (h : Inv H s)
    (hdraw : ∀ d ∈ s.drawn, d.id ≠ m.id ∧ d.plaintext ≠ m.plaintext ∧ d.familyId ≠ m.familyId) :
    Inv H ((s.draw m).put i (.login (mintRefresh H ttl now m user none userAgent).2)) := by
  have hfresh : ∀ r, Known H s.drawn r → r.familyId ≠ m.familyId := by
    intro r hr hfamily
    obtain ⟨d, hd, hdf⟩ := hr.family
    exact (hdraw d hd).2.2 (hdf.trans hfamily)
  apply h.draw.put
  · rintro ⟨r, hr, hfamily⟩
    exact hfresh r (h.known r hr) hfamily
  · rintro new ⟨⟩
    exact h.newRow (fun d hd => (hdraw d hd).2.1) ⟨m, List.mem_cons_self, rfl⟩
      (fun j new' _ hj => hfresh new' (h.known_new j new' ⟨_, hj, rfl⟩))

lemma Inv.updateRotate {presented : String} {row : RefreshToken} {now : Time} (h : Inv H s)
    (hs : s.session i = some (.selected presented row)) (hfree : s.holder row.id = none)
    (hguard : ∀ r ∈ s.rows, r.id = row.id → r.revokedAt = none) :
    Inv H ((s.lock i row.id).put i (.updated presented row now)) := by
  obtain ⟨hopen, r, hr⟩ := h.tx i _ hs
  exact (h.lock hfree).put_of_none
    ⟨hopen, Tables.lock_self, r, hr, hguard r hr.mem hr.id⟩ rfl

lemma Inv.insertRotate {presented : String} {row : RefreshToken} {used now : Time} {m : Minted}
    {userAgent : Option String} (h : Inv H s)
    (hs : s.session i = some (.updated presented row used))
    (hdraw : ∀ d ∈ s.drawn, d.id ≠ m.id ∧ d.plaintext ≠ m.plaintext ∧ d.familyId ≠ m.familyId) :
    Inv H ((s.draw m).put i (.inserted presented row used
      (mintRefresh H ttl now m row.userId (some row.familyId) userAgent).2)) := by
  obtain ⟨hopen, htakes⟩ := h.tx i _ hs
  obtain ⟨-, r, hr, -⟩ := id htakes
  have hknown := h.known r hr.mem
  have hfamily : familyOr (some row.familyId) m = row.familyId :=
    familyOr_some (hr.familyId ▸ hknown.family_ne)
  refine h.draw.put (show TxInv H s.rows s.holder i _ from ⟨hopen, htakes, hfamily, rfl⟩) ?_
  rintro new ⟨⟩
  apply h.newRow (fun d hd => (hdraw d hd).2.1)
  · rw [hfamily, ← hr.familyId]
    exact hknown.cons.family
  · intro j new' _ hj hsame
    exact h.tx j _ hj ⟨r, hr.mem, hr.familyId.trans (hfamily.symm.trans hsame.symm)⟩

lemma Inv.revokeAll {now : Time} {userId : String} (h : Inv H s) :
    Inv H (s.put i (.revoking ((s.rows.filter (·.userId = userId)).map (·.familyId))
      (s.liveIds (·.userId = userId)) now)) := by
  have hfamilies : ∀ f ∈ (s.rows.filter (·.userId = userId)).map (·.familyId),
      ∃ r ∈ s.rows, r.userId = userId ∧ r.familyId = f := by
    intro f hf
    obtain ⟨r, hr, rfl⟩ := List.mem_map.1 hf
    obtain ⟨hr, huser⟩ := List.mem_filter.1 hr
    exact ⟨r, hr, by simpa using huser, rfl⟩
  refine h.put_of_none ⟨fun f hf => ?_, fun r hr hfamily hlive => ?_⟩ rfl
  · obtain ⟨r, hr, -, hrf⟩ := hfamilies f hf
    exact ⟨r, hr, hrf⟩
  · obtain ⟨r₀, hr₀, huser, hr₀f⟩ := hfamilies _ hfamily
    have huser' : r.userId = userId := (h.one_user r hr r₀ hr₀ hr₀f.symm).trans huser
    exact .inl (Tables.mem_liveIds.2 ⟨r, hr, ⟨hlive, by simpa using huser'⟩, rfl⟩)

lemma Inv.revokeRow {families candidates : List String} {now : Time} {id : String} (h : Inv H s)
    (hs : s.session i = some (.revoking families candidates now)) (hfree : s.holder id = none) :
    let s' := s.put i (.revoking families (candidates.filter (· ≠ id)) now)
    Inv H (if id ∈ s.liveIds (fun _ => true) then s'.lock i id else s') := by
  obtain ⟨hfamilies, hlive⟩ := h.tx i _ hs
  split
  · refine (h.lock hfree).put_of_none ⟨hfamilies, fun r hr hfamily hr_live => ?_⟩ rfl
    by_cases hid : r.id = id
    · exact .inr (hid ▸ Tables.lock_self)
    · rcases hlive r hr hfamily hr_live with hmem | hheld
      · exact .inl (List.mem_filter.2 ⟨hmem, by simpa using hid⟩)
      · exact .inr (Tables.lock_holder hfree hheld)
  · rename_i hgone
    refine h.put_of_none ⟨hfamilies, fun r hr hfamily hr_live => ?_⟩ rfl
    have hid : r.id ≠ id := by
      rintro rfl
      exact hgone (Tables.mem_liveIds.2 ⟨r, hr, ⟨hr_live, rfl⟩, rfl⟩)
    exact (hlive r hr hfamily hr_live).imp_left
      fun hmem => List.mem_filter.2 ⟨hmem, by simpa using hid⟩

/-- A step that meets the condition keeps the invariant. -/
theorem Inv.step {a : Action} {t : Tables} (h : Inv H s) (hguard : Guarded s a)
    (hstep : Acts H ttl s a t) : Inv H t := by
  obtain ⟨hact, hdraws⟩ := hstep
  cases a with
  | login i now m userId userAgent =>
    simp only [act] at hact
    split at hact <;> cases hact
    exact h.login (hdraws m List.mem_cons_self)
  | selectRotate i now presented =>
    simp only [act] at hact
    split at hact
    · split at hact
      · cases hact
        exact h
      · rename_i row hfind
        split at hact
        · cases hact
          exact h.put_of_none trivial rfl
        · split at hact <;> cases hact
          · exact h
          · exact h.put_of_none (find_current hfind) rfl
    · cases hact
  | updateRotate i now =>
    simp only [act] at hact
    split at hact
    · rename_i presented row hs
      split at hact
      · rename_i hfree
        cases hact
        exact h.updateRotate hs hfree (hguard presented row hs)
      · cases hact
    · cases hact
  | insertRotate i now m userAgent =>
    simp only [act] at hact
    split at hact <;> cases hact
    rename_i presented row used hs
    exact h.insertRotate hs (hdraws m List.mem_cons_self)
  | selectLogout i presented =>
    simp only [act] at hact
    split at hact
    · split at hact
      · cases hact
        exact h
      · split at hact <;> cases hact
        · exact h.put_of_none trivial rfl
        · exact h
    · cases hact
  | updateLogout i now =>
    simp only [act] at hact
    split at hact
    · split at hact
      · rename_i hfree
        cases hact
        exact (h.lock hfree).put_of_none trivial rfl
      · cases hact
    · cases hact
  | revokeFamily i now =>
    simp only [act] at hact
    split at hact <;> cases hact
    exact h.put_of_none ⟨by simp, by simp⟩ rfl
  | revokeAll i now userId =>
    simp only [act] at hact
    split at hact <;> cases hact
    exact h.revokeAll
  | revokeRow i id =>
    simp only [act] at hact
    split at hact
    · rename_i families candidates now hs
      split at hact
      · rename_i hcan
        have hinv := h.revokeRow hs hcan.2
        split at hact
        · rename_i hlive
          cases hact
          simpa only [if_pos hlive] using hinv
        · rename_i hgone
          cases hact
          simpa only [if_neg hgone] using hinv
      · cases hact
    · cases hact
  | commit i =>
    simp only [act] at hact
    split at hact
    · rename_i tx hs
      split at hact
      · rename_i hdone
        cases hact
        exact h.commit hs hdone hguard
      · cases hact
    · cases hact
  | abort i =>
    simp only [act] at hact
    split at hact <;> cases hact
    exact h.release

/-! ### Runs -/

lemma Inv.empty : Inv H {} where
  known := by simp
  known_new := by simp [Tables.Pending]
  apart := .nil
  apart_new := by simp
  apart_news := by simp [Tables.Pending]
  founds := by simp
  one_user := by simp
  one_live := .nil
  exchanged := by simp
  exchanged_once := .nil
  dead := by simp
  tx := by simp

lemma length_le_one {α : Type} {R : α → α → Prop} {as : List α} (h : as.Pairwise R)
    (hR : ∀ a ∈ as, ∀ b ∈ as, ¬R a b) : as.length ≤ 1 := by
  match as with
  | [] => simp
  | [a] => simp
  | a :: b :: rest =>
    have hab : R a b := (List.pairwise_cons.1 h).1 b List.mem_cons_self
    exact absurd hab (hR a List.mem_cons_self b (by simp))

lemma Inv.single (h : Inv H s) : Single s where
  one_live f := by
    apply length_le_one (h.one_live.filter _)
    intro a ha b hb hab
    simp only [List.mem_filter, decide_eq_true_eq] at ha hb
    rcases hab (ha.2.1.trans hb.2.1.symm) with hrevoked | hrevoked
    · exact hrevoked ha.2.2
    · exact hrevoked hb.2.2
  exchanged_once := h.exchanged_once
  revoked_all r hr hdead := (h.dead _ hdead).2 r hr rfl

/-- However logins, rotations, logouts and revocations interleave, a family has at most one live
token, a token value is exchanged once and a committed `revoke_all` is final, as long as every
step meets the condition. -/
theorem single_of_guarded {as : List Action} {t : Tables}
    (h : Lib.Run (Lib.guarded (Acts H ttl) Guarded) {} as t) : Single t :=
  (h.invariant_guarded (fun _ _ _ hinv hguard hstep => hinv.step hguard hstep) Inv.empty).single

end

section

def afterActs (as : List Action) : Tables :=
  (play plainHasher 30 {} as).getD {}

/-- A token is exchanged and its user then logs out everywhere. -/
def rotateThenRevoke : List Action :=
  [.login 0 0 firstToken "u9" none, .commit 0,
    .selectRotate 0 1 firstToken.plaintext, .updateRotate 0 1,
    .insertRotate 0 1 secondToken none, .commit 0,
    .revokeAll 1 2 "u9", .revokeRow 1 "2", .commit 1]

theorem single_of_guarded_rotateThenRevoke : Single (afterActs rotateThenRevoke) := by
  have halone : Guarded (afterActs (rotateThenRevoke.take 5)) (.commit 0) := by
    rintro presented row now new ⟨⟩ j families candidates later hj
    cases j <;> cases hj
  have hrotation : Lib.Run (Lib.guarded (Acts plainHasher 30) Guarded) {}
      (rotateThenRevoke.take 6) (afterActs (rotateThenRevoke.take 6)) := by
    refine .cons (t := afterActs (rotateThenRevoke.take 1)) ⟨⟨rfl, by decide⟩, trivial⟩ ?_
    refine .cons (t := afterActs (rotateThenRevoke.take 2)) ⟨⟨rfl, by decide⟩, ?_⟩ ?_
    · rintro presented row now new ⟨⟩
    refine .cons (t := afterActs (rotateThenRevoke.take 3)) ⟨⟨rfl, by decide⟩, trivial⟩ ?_
    refine .cons (t := afterActs (rotateThenRevoke.take 4)) ⟨⟨rfl, by decide⟩, ?_⟩ ?_
    · rintro presented row ⟨⟩
      decide +kernel
    refine .cons (t := afterActs (rotateThenRevoke.take 5))
      ⟨⟨rfl, by decide +kernel⟩, trivial⟩ ?_
    exact .single ⟨⟨rfl, by decide⟩, halone⟩
  have hrevocation : Lib.Run (Lib.guarded (Acts plainHasher 30) Guarded)
      (afterActs (rotateThenRevoke.take 6)) (rotateThenRevoke.drop 6)
      (afterActs rotateThenRevoke) := by
    refine .cons (t := afterActs (rotateThenRevoke.take 7)) ⟨⟨rfl, by decide⟩, trivial⟩ ?_
    refine .cons (t := afterActs (rotateThenRevoke.take 8)) ⟨⟨rfl, by decide⟩, trivial⟩ ?_
    refine .single ⟨⟨rfl, by decide⟩, ?_⟩
    rintro presented row now new ⟨⟩
  exact single_of_guarded (hrotation.append hrevocation)

/-- Two sessions read the same live token, and both exchange it. -/
def bothRotate : List Action :=
  [.login 0 0 firstToken "u9" none, .commit 0,
    .selectRotate 0 1 firstToken.plaintext, .selectRotate 1 1 firstToken.plaintext,
    .updateRotate 0 1, .insertRotate 0 1 secondToken none, .commit 0,
    .updateRotate 1 1, .insertRotate 1 1 thirdToken none, .commit 1]

/-- The family is left with two live tokens, and the token value was exchanged twice. -/
theorem bothRotate_not_single :
    ¬ ∀ (H : Hasher) (ttl : Time) (as : List Action) (t : Tables),
      Lib.Run (Acts H ttl) {} as t → Single t := by
  intro h
  have hrun : Lib.Run (Acts plainHasher 30) {} bothRotate (afterActs bothRotate) :=
    run_of_play rfl
  have hlive := (h _ _ _ _ hrun).one_live "f1"
  revert hlive
  decide +kernel

/-- A row that a rotation has not committed yet escapes `revoke_all`. -/
example : (afterActs
    [.login 0 0 firstToken "u9" none, .commit 0,
      .selectRotate 0 1 firstToken.plaintext, .updateRotate 0 1,
      .insertRotate 0 1 secondToken none, .revokeAll 1 2 "u9", .commit 0,
      .revokeRow 1 "1", .commit 1]).rows.map
        (fun r => (r.id, r.revokedAt)) = [("1", some 1), ("2", none)] := by
  decide +kernel

end

end Pulse.Auth
