import Pulse.Auth.Refresh
import Pulse.Lib.Run

/-!
# The response to a stolen refresh token

The session endpoints of `api/auth.py` on one organisation's tokens, each in the session
that `get_session` opens for it. `refresh` answers a revoked token with an exception, and
the wrapper rolls the family's revocation back with it.
-/

namespace Pulse.Auth

structure HTTPException where
  status : Nat
  detail : String
  deriving DecidableEq, Repr

/-- An answer, with the refresh cookie it sets. -/
inductive Response
  | session (userId refreshCookie : String)
  | loggedOut
  | loggedOutAll (revoked : Nat)
  deriving DecidableEq, Repr

/-- What an endpoint leaves in its session and how it ends. -/
structure Ended where
  tokens : List RefreshToken
  result : Except HTTPException Response

/-- `get_session`: commit on a clean exit, roll back on an exception. -/
def getSession (committed : List RefreshToken) (body : List RefreshToken → Ended) : Ended :=
  let ended := body committed
  match ended.result with
  | .ok _ => ended
  | .error e => ⟨committed, .error e⟩

inductive Request
  /-- With the user that the password provider found, if any. -/
  | login (user userAgent : Option String)
  | refresh (presented userAgent : Option String)
  | logout (presented : Option String)
  | logoutAll (userId : String)
  deriving DecidableEq, Repr

/-- A request as it is served. `refused` is what a dependency raised before the endpoint
ran: `require_csrf`, `limit_auth` or `current_user`. -/
structure Event where
  now : Time
  minted : Minted
  refused : Option HTTPException
  request : Request

def endpoint (H : Hasher) (ttl now : Time) (m : Minted) (request : Request)
    (tokens : List RefreshToken) : Ended :=
  match request with
  | .login none _ => ⟨tokens, .error ⟨401, "invalid credentials"⟩⟩
  | .login (some user) userAgent =>
    let minted := mintRefresh H ttl now m user none userAgent
    ⟨tokens ++ [minted.2], .ok (.session user minted.1)⟩
  | .refresh presented userAgent =>
    match rotateRefresh H ttl now m tokens presented userAgent with
    | (pending, none) => ⟨pending, .error ⟨401, "invalid or expired session"⟩⟩
    | (pending, some (plaintext, user)) => ⟨pending, .ok (.session user plaintext)⟩
  | .logout presented => ⟨revokeRefresh H now tokens presented, .ok .loggedOut⟩
  | .logoutAll userId =>
    let (pending, n) := revokeAll now tokens userId
    ⟨pending, .ok (.loggedOutAll n)⟩

def serve (H : Hasher) (ttl : Time) (e : Event) (tokens : List RefreshToken) : Ended :=
  getSession tokens fun rows =>
    match e.refused with
    | some x => ⟨rows, .error x⟩
    | none => endpoint H ttl e.now e.minted e.request rows

structure AuthState where
  tokens : List RefreshToken
  clock : Time

/-- What is drawn for a new token is not in use. -/
structure Minted.Fresh (H : Hasher) (m : Minted) (tokens : List RefreshToken) : Prop where
  id : ∀ r ∈ tokens, r.id ≠ m.id
  family : ∀ r ∈ tokens, r.familyId ≠ m.familyId
  plaintext : ∀ r ∈ tokens, H.verify r.tokenHash m.plaintext = false

structure Step (H : Hasher) (ttl : Time) (s : AuthState) (e : Event) (t : AuthState) : Prop where
  clock_le : s.clock ≤ e.now
  fresh : e.minted.Fresh H s.tokens
  next : t = ⟨(serve H ttl e s.tokens).tokens, e.now⟩

/-- The states of the table from its creation on. -/
def Reachable (H : Hasher) (ttl : Time) (s : AuthState) : Prop :=
  ∃ es, Lib.Run (Step H ttl) ⟨[], 0⟩ es s

/-- The request presents the token of this row. -/
def Presents (H : Hasher) (s : AuthState) (e : Event) (row : RefreshToken) : Prop :=
  ∃ presented userAgent, e.request = .refresh presented userAgent ∧
    find H s.tokens presented = some row

/-- The request exchanges the token of this row for a new one. -/
def Rotates (H : Hasher) (ttl : Time) (s : AuthState) (e : Event) (row : RefreshToken) : Prop :=
  Presents H s e row ∧ ∃ answer, (serve H ttl e s.tokens).result = .ok answer

/-- In no later run of requests is a token of the family rotated. -/
def NeverRotatesAgain (H : Hasher) (ttl : Time) (familyId : String) (s : AuthState) : Prop :=
  ∀ es t e u row, Lib.Run (Step H ttl) s es t → Step H ttl t e u →
    Rotates H ttl t e row → row.familyId ≠ familyId

/-- No token of the family is good at this time: each is revoked or expired. -/
def Spent (familyId : String) (now : Time) (tokens : List RefreshToken) : Prop :=
  ∀ r ∈ tokens, r.familyId = familyId → r.revokedAt ≠ none ∨ r.expiresAt ≤ now

/-! ### What a request does to the rows -/

/-- The rows that a request may leave. -/
inductive Effect (H : Hasher) (ttl : Time) (tokens : List RefreshToken) (e : Event) :
    List RefreshToken → Prop
  | update (f : RefreshToken → RefreshToken) (hf : ∀ r, Kept r (f r)) :
      Effect H ttl tokens e (tokens.map f)
  | login (user : String) (userAgent : Option String) :
      Effect H ttl tokens e
        (tokens ++ [(mintRefresh H ttl e.now e.minted user none userAgent).2])
  | rotate (f : RefreshToken → RefreshToken) (hf : ∀ r, Kept r (f r)) (row : RefreshToken)
      (userAgent : Option String) (hmem : row ∈ tokens) (hlive : row.revokedAt = none)
      (hunexpired : e.now < row.expiresAt) :
      Effect H ttl tokens e (tokens.map f ++
        [(mintRefresh H ttl e.now e.minted row.userId (some row.familyId) userAgent).2])

lemma Effect.unchanged {H : Hasher} {ttl : Time} {tokens : List RefreshToken} {e : Event} :
    Effect H ttl tokens e tokens := by
  have h : Effect H ttl tokens e (tokens.map id) := .update id Kept.refl
  simpa using h

section

variable {H : Hasher} {ttl : Time} {e : Event} {tokens : List RefreshToken}

lemma rotateRefresh_effect {presented userAgent : Option String} {pending : List RefreshToken}
    {answer : String × String}
    (h : rotateRefresh H ttl e.now e.minted tokens presented userAgent =
      (pending, some answer)) :
    Effect H ttl tokens e pending ∧
      ∃ row, find H tokens presented = some row ∧ row.revokedAt = none ∧
        e.now < row.expiresAt := by
  unfold rotateRefresh at h
  split at h
  · cases h
  · rename_i row hfind
    by_cases hrevoked : row.revokedAt = none
    · rw [if_neg (not_not.2 hrevoked)] at h
      by_cases hexpired : row.expiresAt ≤ e.now
      · rw [if_pos hexpired] at h
        cases h
      · rw [if_neg hexpired] at h
        cases h
        obtain ⟨p, -, hmem, -⟩ := find_eq_some hfind
        have hunexpired : e.now < row.expiresAt := Nat.lt_of_not_le hexpired
        exact ⟨.rotate _ (Kept.ite (kept_use _) _) row userAgent hmem hrevoked hunexpired,
          row, hfind, hrevoked, hunexpired⟩
    · rw [if_pos hrevoked] at h
      cases h

lemma endpoint_effect {pending : List RefreshToken} {answer : Response}
    (h : endpoint H ttl e.now e.minted e.request tokens = ⟨pending, .ok answer⟩) :
    Effect H ttl tokens e pending := by
  unfold endpoint at h
  split at h
  · cases h
  · cases h
    exact .login _ _
  · split at h
    · cases h
    · rename_i hrotate
      cases h
      exact (rotateRefresh_effect hrotate).1
  · cases h
    unfold revokeRefresh
    split
    · exact .unchanged
    · split
      · exact .update _ (Kept.ite (kept_revoke _) _)
      · exact .unchanged
  · cases h
    exact .update _ (Kept.ite (kept_revoke _) _)

lemma serve_error {x : HTTPException} (h : (serve H ttl e tokens).result = .error x) :
    (serve H ttl e tokens).tokens = tokens := by
  unfold serve getSession at h ⊢
  dsimp only at h ⊢
  split at h
  · rename_i hok
    rw [hok] at h
    cases h
  · simp [*]

lemma serve_ok {answer : Response} (h : (serve H ttl e tokens).result = .ok answer) :
    e.refused = none ∧
      serve H ttl e tokens = endpoint H ttl e.now e.minted e.request tokens := by
  cases hrefused : e.refused with
  | some x => simp [serve, getSession, hrefused] at h
  | none =>
    refine ⟨rfl, ?_⟩
    simp only [serve, getSession, hrefused] at h ⊢
    split
    · rfl
    · rename_i herror
      simp [herror] at h

theorem serve_effect : Effect H ttl tokens e (serve H ttl e tokens).tokens := by
  cases h : (serve H ttl e tokens).result with
  | error x =>
    rw [serve_error h]
    exact .unchanged
  | ok answer =>
    obtain ⟨-, hserve⟩ := serve_ok h
    rw [hserve] at h ⊢
    have hend : endpoint H ttl e.now e.minted e.request tokens =
        ⟨(endpoint H ttl e.now e.minted e.request tokens).tokens, .ok answer⟩ := by rw [← h]
    exact endpoint_effect hend

lemma Step.effect {s t : AuthState} (h : Step H ttl s e t) :
    Effect H ttl s.tokens e t.tokens := by
  rw [h.next]
  exact serve_effect

lemma Rotates.live {s : AuthState} {row : RefreshToken} (h : Rotates H ttl s e row) :
    row ∈ s.tokens ∧ row.revokedAt = none ∧ e.now < row.expiresAt := by
  obtain ⟨⟨presented, userAgent, hrequest, hfind⟩, answer, hok⟩ := h
  obtain ⟨-, hserve⟩ := serve_ok hok
  rw [hserve, hrequest] at hok
  simp only [endpoint] at hok
  split at hok
  · cases hok
  · rename_i hrotate
    obtain ⟨-, row', hfind', hlive, hunexpired⟩ := rotateRefresh_effect hrotate
    cases hfind.symm.trans hfind'
    obtain ⟨p, -, hmem, -⟩ := find_eq_some hfind
    exact ⟨hmem, hlive, hunexpired⟩

/-- A revoked token is answered with an exception, which rolls back what was written. -/
lemma serve_presents_revoked {s : AuthState} {row : RefreshToken} (h : Presents H s e row)
    (hrevoked : row.revokedAt ≠ none) : (serve H ttl e s.tokens).tokens = s.tokens := by
  cases hres : (serve H ttl e s.tokens).result with
  | error x => exact serve_error hres
  | ok answer => exact absurd (Rotates.live ⟨h, answer, hres⟩).2.1 hrevoked

end

/-! ### Reachable tables -/

/-- Every row answers to one plaintext, which starts with its token prefix; no plaintext
opens two rows. -/
structure Sound (H : Hasher) (tokens : List RefreshToken) : Prop where
  owner : ∀ r ∈ tokens, ∃ p, prefixOf p = some r.tokenPrefix ∧
    ∀ q, H.verify r.tokenHash q = true ↔ p = q
  distinct : tokens.Pairwise (Apart H)
  family_ne : ∀ r ∈ tokens, r.familyId ≠ ""

namespace Sound

variable {H : Hasher} {ttl : Time} {tokens : List RefreshToken}

lemma map (h : Sound H tokens) {f : RefreshToken → RefreshToken} (hf : ∀ r, Kept r (f r)) :
    Sound H (tokens.map f) := by
  refine ⟨?_, ?_, ?_⟩
  · intro r hr
    obtain ⟨r₀, hr₀, rfl⟩ := List.mem_map.1 hr
    rw [(hf r₀).tokenPrefix, (hf r₀).tokenHash]
    exact h.owner r₀ hr₀
  · rw [List.pairwise_map]
    apply h.distinct.imp
    intro a b hab
    rw [Apart, (hf a).tokenHash, (hf b).tokenHash]
    exact hab
  · intro r hr
    obtain ⟨r₀, hr₀, rfl⟩ := List.mem_map.1 hr
    rw [(hf r₀).familyId]
    exact h.family_ne r₀ hr₀

lemma mint (h : Sound H tokens) {now : Time} {m : Minted} {user : String}
    {familyId userAgent : Option String}
    (hfresh : ∀ r ∈ tokens, H.verify r.tokenHash m.plaintext = false) :
    Sound H (tokens ++ [(mintRefresh H ttl now m user familyId userAgent).2]) := by
  refine ⟨?_, ?_, ?_⟩
  · intro r hr
    rcases List.mem_append.1 hr with hr | hr
    · exact h.owner r hr
    · cases List.mem_singleton.1 hr
      exact ⟨m.plaintext, m.prefixOf_plaintext, fun q => H.verify_hash _ _ q⟩
  · rw [List.pairwise_append]
    refine ⟨h.distinct, by simp, ?_⟩
    intro a ha b hb
    cases List.mem_singleton.1 hb
    exact apart_mintRefresh (hfresh a ha)
  · intro r hr
    rcases List.mem_append.1 hr with hr | hr
    · exact h.family_ne r hr
    · cases List.mem_singleton.1 hr
      exact familyOr_ne familyId m

lemma find_owner (h : Sound H tokens) {r : RefreshToken} {p : String} (hr : r ∈ tokens)
    (hpre : prefixOf p = some r.tokenPrefix) (hopen : H.verify r.tokenHash p = true) :
    find H tokens (some p) = some r := by
  have hfilter : r ∈ tokens.filter (·.tokenPrefix = r.tokenPrefix) := by simpa using hr
  have hsome : ((tokens.filter (·.tokenPrefix = r.tokenPrefix)).find?
      (H.verify ·.tokenHash p)).isSome :=
    List.find?_isSome.2 ⟨r, hfilter, hopen⟩
  obtain ⟨r', hfind⟩ := Option.isSome_iff_exists.1 hsome
  have hr' := (List.mem_filter.1 (List.mem_of_find?_eq_some hfind)).1
  have hopen' := List.find?_some hfind
  have hsame : r' = r := eq_of_opens h.distinct hr' hr hopen' hopen
  simp only [find, hpre, bind, Option.bind]
  rw [hfind, hsame]

end Sound

section

variable {H : Hasher} {ttl : Time} {s t : AuthState} {e : Event}

lemma sound_step (h : Sound H s.tokens) (hstep : Step H ttl s e t) : Sound H t.tokens := by
  have hfresh := hstep.fresh.plaintext
  obtain ⟨after, clock⟩ := t
  cases hstep.effect with
  | update f hf => exact h.map hf
  | login user userAgent => exact h.mint hfresh
  | rotate f hf row userAgent hmem hlive hunexpired =>
    apply (h.map hf).mint
    intro r hr
    obtain ⟨r₀, hr₀, rfl⟩ := List.mem_map.1 hr
    rw [(hf r₀).tokenHash]
    exact hfresh r₀ hr₀

theorem Reachable.sound (h : Reachable H ttl s) : Sound H s.tokens := by
  obtain ⟨es, hrun⟩ := h
  exact hrun.invariant (I := fun s => Sound H s.tokens) (fun s e t => sound_step)
    ⟨by simp, by simp, by simp⟩

/-! ### A family without a good token -/

/-- The family is in the table and none of its tokens is good. -/
def Dead (familyId : String) (s : AuthState) : Prop :=
  (∃ r ∈ s.tokens, r.familyId = familyId) ∧ Spent familyId s.clock s.tokens

lemma Rotates.family_ne {familyId : String} {row : RefreshToken}
    (hspent : Spent familyId s.clock s.tokens) (hclock : s.clock ≤ e.now)
    (h : Rotates H ttl s e row) : row.familyId ≠ familyId := by
  obtain ⟨hmem, hlive, hunexpired⟩ := h.live
  intro hfamily
  rcases hspent row hmem hfamily with hrevoked | hexpired
  · exact hrevoked hlive
  · exact absurd (Nat.le_trans hexpired hclock) (Nat.not_le.2 hunexpired)

lemma Spent.map {familyId : String} {now later : Time} {tokens : List RefreshToken}
    {f : RefreshToken → RefreshToken} (h : Spent familyId now tokens) (hlater : now ≤ later)
    (hf : ∀ r, Kept r (f r)) : Spent familyId later (tokens.map f) := by
  intro r hr hfamily
  obtain ⟨r₀, hr₀, rfl⟩ := List.mem_map.1 hr
  rw [(hf r₀).familyId] at hfamily
  rw [(hf r₀).expiresAt]
  exact (h r₀ hr₀ hfamily).imp (hf r₀).revoked (fun hexpired => Nat.le_trans hexpired hlater)

lemma Spent.snoc {familyId : String} {now : Time} {tokens : List RefreshToken}
    {r : RefreshToken} (h : Spent familyId now tokens) (hr : r.familyId ≠ familyId) :
    Spent familyId now (tokens ++ [r]) := by
  intro r' hr' hfamily
  rcases List.mem_append.1 hr' with hr' | hr'
  · exact h r' hr' hfamily
  · cases List.mem_singleton.1 hr'
    exact absurd hfamily hr

/-- A login opens a family of its own, and a rotation needs a good token in its family. -/
lemma Dead.step {familyId : String} (hsound : Sound H s.tokens) (h : Dead familyId s)
    (hstep : Step H ttl s e t) : Dead familyId t := by
  obtain ⟨⟨r, hr, hfamily⟩, hspent⟩ := h
  have hfresh := hstep.fresh.family r hr
  have hclock := hstep.clock_le
  have hnow : t.clock = e.now := by rw [hstep.next]
  have heffect := hstep.effect
  obtain ⟨after, clock⟩ := t
  obtain rfl : clock = e.now := hnow
  cases heffect with
  | update f hf =>
    exact ⟨⟨f r, List.mem_map_of_mem hr, (hf r).familyId.trans hfamily⟩, hspent.map hclock hf⟩
  | login user userAgent =>
    refine ⟨⟨r, List.mem_append_left _ hr, hfamily⟩, Spent.snoc ?_ ?_⟩
    · simpa using hspent.map hclock Kept.refl
    · exact fun h => hfresh (hfamily.trans h.symm)
  | rotate f hf row userAgent hmem hlive hunexpired =>
    refine ⟨⟨f r, List.mem_append_left _ (List.mem_map_of_mem hr),
      (hf r).familyId.trans hfamily⟩, (hspent.map hclock hf).snoc ?_⟩
    simp only [mintRefresh, familyOr_some (hsound.family_ne row hmem)]
    intro hrow
    rcases hspent row hmem hrow with hrevoked | hexpired
    · exact hrevoked hlive
    · exact absurd (Nat.le_trans hexpired hclock) (Nat.not_le.2 hunexpired)

/-- A family without a good token never gets one again. -/
theorem Dead.neverRotatesAgain {familyId : String} (hsound : Sound H s.tokens)
    (h : Dead familyId s) : NeverRotatesAgain H ttl familyId s := by
  intro es u e v row hrun hstep hrotates
  have hu := hrun.invariant (I := fun s => Sound H s.tokens ∧ Dead familyId s)
    (fun s e t hI ha => ⟨sound_step hI.1 ha, hI.2.step hI.1 ha⟩) ⟨hsound, h⟩
  exact hrotates.family_ne hu.2.2 hstep.clock_le

/-! ### The next draw -/

lemma exists_bound {α : Type} {P : α → Nat → Prop}
    (hmono : ∀ a m n, m ≤ n → P a m → P a n) (as : List α) (h : ∀ a ∈ as, ∃ n, P a n) :
    ∃ n, ∀ a ∈ as, P a n := by
  induction as with
  | nil => exact ⟨0, by simp⟩
  | cons a as ih =>
    obtain ⟨m, hm⟩ := h a List.mem_cons_self
    obtain ⟨n, hn⟩ := ih fun b hb => h b (List.mem_cons_of_mem a hb)
    refine ⟨max m n, ?_⟩
    intro b hb
    rcases List.mem_cons.1 hb with rfl | hb
    · exact hmono b m _ (Nat.le_max_left m n) hm
    · exact hmono b n _ (Nat.le_max_right m n) (hn b hb)

/-- The random sources never run out of unused values. -/
lemma exists_fresh {tokens : List RefreshToken} (h : Sound H tokens) :
    ∃ m : Minted, m.Fresh H tokens := by
  have hbound : ∀ r ∈ tokens, ∃ n, r.id.length < n ∧ r.familyId.length < n ∧
      ∀ p, H.verify r.tokenHash p = true → p.length < n := by
    intro r hr
    obtain ⟨p, -, hp⟩ := h.owner r hr
    refine ⟨r.id.length + r.familyId.length + p.length + 1, by omega, by omega, ?_⟩
    intro q hq
    obtain rfl := (hp q).1 hq
    omega
  obtain ⟨n, hn⟩ := exists_bound
    (fun r m n hle ⟨hid, hfamily, hopen⟩ =>
      ⟨by omega, by omega, fun p hp => Nat.lt_of_lt_of_le (hopen p hp) hle⟩)
    tokens hbound
  obtain ⟨long, hlong⟩ : ∃ long : String, long.length = n + 1 :=
    ⟨String.ofList (List.replicate (n + 1) '0'), by simp⟩
  have hne : long ≠ "" := by
    rintro rfl
    simp at hlong
  refine ⟨⟨long, long, "00000000", long, "", by simp, hne⟩, ?_, ?_, ?_⟩
  · intro r hr heq
    have := (hn r hr).1
    rw [heq, hlong] at this
    omega
  · intro r hr heq
    have := (hn r hr).2.1
    rw [heq, hlong] at this
    omega
  · intro r hr
    by_contra hopen
    have hlt := (hn r hr).2.2 _ (Bool.not_eq_false _ ▸ hopen)
    simp only [Minted.plaintext, String.length_append, hlong] at hlt
    omega

/-- A good token can be exchanged, by whoever holds its plaintext. -/
lemma exists_rotates {r : RefreshToken} (h : Sound H s.tokens) (hr : r ∈ s.tokens)
    (hlive : r.revokedAt = none) (hunexpired : s.clock < r.expiresAt) :
    ∃ e t, Step H ttl s e t ∧ Rotates H ttl s e r := by
  obtain ⟨p, hpre, hp⟩ := h.owner r hr
  obtain ⟨m, hfresh⟩ := exists_fresh h
  have hfind := h.find_owner hr hpre ((hp p).2 rfl)
  refine ⟨⟨s.clock, m, none, .refresh (some p) none⟩, _, ⟨Nat.le_refl _, hfresh, rfl⟩,
    ⟨some p, none, rfl, hfind⟩, ?_⟩
  simp [serve, getSession, endpoint, rotateRefresh, hfind, hlive, Nat.not_le.2 hunexpired]

/-- The response to a presented revoked token is rolled back with the request: it keeps the
family from being rotated again exactly when no token of the family was good any more. -/
theorem theft_response_durable_iff {row : RefreshToken} (hs : Reachable H ttl s)
    (he : Step H ttl s e t) (hpresents : Presents H s e row) (hrevoked : row.revokedAt ≠ none) :
    NeverRotatesAgain H ttl row.familyId t ↔ Spent row.familyId e.now s.tokens := by
  have htokens : t.tokens = s.tokens := by
    rw [he.next]
    exact serve_presents_revoked hpresents hrevoked
  have hclock : t.clock = e.now := by rw [he.next]
  have hsound : Sound H t.tokens := sound_step hs.sound he
  constructor
  · intro hnever r hr hfamily
    by_contra hgood
    rw [not_or, not_not, Nat.not_le] at hgood
    rw [← htokens] at hr
    rw [← hclock] at hgood
    obtain ⟨e', u, hstep, hrotates⟩ : ∃ e' u, Step H ttl t e' u ∧ Rotates H ttl t e' r :=
      exists_rotates hsound hr hgood.1 hgood.2
    exact hnever [] t e' u r (.nil t) hstep hrotates hfamily
  · intro hspent
    obtain ⟨presented, userAgent, -, hfind⟩ := hpresents
    obtain ⟨p, -, hmem, -⟩ := find_eq_some hfind
    refine Dead.neverRotatesAgain hsound ⟨⟨row, htokens ▸ hmem, rfl⟩, ?_⟩
    rw [hclock, htokens]
    exact hspent

end

section

def signIn : Event := ⟨0, firstToken, none, .login (some "u9") none⟩

def firstRotation : Event := ⟨1, secondToken, none, .refresh (some firstToken.plaintext) none⟩

def reuse : Event := ⟨2, thirdToken, none, .refresh (some firstToken.plaintext) none⟩

def secondRotation : Event := ⟨3, thirdToken, none, .refresh (some secondToken.plaintext) none⟩

def afterEvents (es : List Event) : AuthState :=
  es.foldl (fun s e => ⟨(serve plainHasher 30 e s.tokens).tokens, e.now⟩) ⟨[], 0⟩

/-- The row of the first token once it is rotated. -/
def firstRow : RefreshToken :=
  { id := "1", userId := "u9", familyId := "f1", tokenPrefix := "0a", tokenHash := "vor_0a_s1"
    expiresAt := 30, revokedAt := some 1, lastUsedAt := some 1 }

def secondRow : RefreshToken :=
  { id := "2", userId := "u9", familyId := "f1", tokenPrefix := "0b", tokenHash := "vor_0b_s2"
    expiresAt := 31 }

def signOut : Event := ⟨1, secondToken, none, .logout (some firstToken.plaintext)⟩

/-- After a logout the family has no good token, and the response has nothing to revoke. -/
theorem theft_response_durable_signOut :
    NeverRotatesAgain plainHasher 30 "f1" (afterEvents [signIn, signOut, reuse]) := by
  have hsignIn : Step plainHasher 30 ⟨[], 0⟩ signIn (afterEvents [signIn]) :=
    ⟨by decide, ⟨by simp, by simp, by simp⟩, rfl⟩
  have hsignOut : Step plainHasher 30 (afterEvents [signIn]) signOut
      (afterEvents [signIn, signOut]) :=
    ⟨by decide +kernel, ⟨by decide +kernel, by decide +kernel, by decide +kernel⟩, rfl⟩
  have hreuse : Step plainHasher 30 (afterEvents [signIn, signOut]) reuse
      (afterEvents [signIn, signOut, reuse]) :=
    ⟨by decide +kernel, ⟨by decide +kernel, by decide +kernel, by decide +kernel⟩, rfl⟩
  have hpresents : Presents plainHasher (afterEvents [signIn, signOut]) reuse
      { firstRow with lastUsedAt := none } :=
    ⟨_, _, rfl, by decide +kernel⟩
  exact (theft_response_durable_iff ⟨_, .cons hsignIn (.cons hsignOut (.nil _))⟩ hreuse
    hpresents (by decide)).2 (by unfold Spent; decide +kernel)

/-- The first token is rotated and presented again. The answer is 401, but the revocation is
rolled back and the second token is still good. -/
theorem theft_response_rolled_back :
    ¬ ∀ (H : Hasher) (ttl : Time) (s t : AuthState) (e : Event) (row : RefreshToken),
      Reachable H ttl s → Step H ttl s e t → Presents H s e row → row.revokedAt ≠ none →
        NeverRotatesAgain H ttl row.familyId t := by
  intro h
  have hsignIn : Step plainHasher 30 ⟨[], 0⟩ signIn (afterEvents [signIn]) :=
    ⟨by decide, ⟨by simp, by simp, by simp⟩, rfl⟩
  have hfirst : Step plainHasher 30 (afterEvents [signIn]) firstRotation
      (afterEvents [signIn, firstRotation]) :=
    ⟨by decide +kernel, ⟨by decide +kernel, by decide +kernel, by decide +kernel⟩, rfl⟩
  have hreuse : Step plainHasher 30 (afterEvents [signIn, firstRotation]) reuse
      (afterEvents [signIn, firstRotation, reuse]) :=
    ⟨by decide +kernel, ⟨by decide +kernel, by decide +kernel, by decide +kernel⟩, rfl⟩
  have hsecond : Step plainHasher 30 (afterEvents [signIn, firstRotation, reuse])
      secondRotation (afterEvents [signIn, firstRotation, reuse, secondRotation]) :=
    ⟨by decide +kernel, ⟨by decide +kernel, by decide +kernel, by decide +kernel⟩, rfl⟩
  have hnever := h plainHasher 30 _ _ reuse firstRow
    ⟨_, .cons hsignIn (.cons hfirst (.nil _))⟩ hreuse
    ⟨_, _, rfl, by decide +kernel⟩ (by decide)
  exact hnever [] _ secondRotation _ secondRow (.nil _) hsecond
    ⟨⟨_, _, rfl, by decide +kernel⟩, .session "u9" "vor_0c_s3", rfl⟩ rfl

end

end Pulse.Auth
