import Pulse.Auth.Invariant
import Pulse.Db.Session

/-!
# Access tokens

The stateless half of a login session: `auth/jwt.py`, and `current_user` of `auth/deps.py`. An
access token is signed and stored nowhere, so nothing revokes it before it expires. New ones are
issued by the transactions on the refresh tokens, and those of all tenants run at the same time.
-/

namespace Pulse.Auth.Access

open Db (Casing Ident defaultOrg orDefault tableSchema)
open Lib (Run)

/-! ### Tokens -/

inductive TokenType
  | access | invite
  deriving DecidableEq

/-- The claims of a token. The times are in seconds. -/
structure Claims where
  sub : String
  org : String
  type : TokenType
  iat : Nat
  exp : Nat
  jti : String
  deriving DecidableEq

/-- A row of `app_user`, by the columns that decide who signs in. -/
structure AppUser where
  id : String
  email : String
  passwordHash : Option String := none
  isActive : Bool := true

/-- The configuration, and what is not in the repository: `jwt.decode` gives the claims of a text
whose signature fits the secret. -/
structure Setting where
  hasher : Hasher
  py : Casing
  normalizeEmail : String → String
  jwtDecode : String → Option Claims
  accessTtl : Time
  inviteTtl : Time
  refreshTtl : Time

/-- A second in the unit of the clock. -/
def second : Time := 1000000

/-- The claims of `_encode`; a time is cut off to its second. -/
def encode (now ttl : Time) (type : TokenType) (userId org jti : String) : Claims where
  sub := userId
  org := org
  type := type
  iat := now / second
  exp := (now + ttl) / second
  jti := jti

/-- `_decode` -/
def decode (S : Setting) (now : Time) (type : TokenType) (token : Option String) :
    Option Claims := do
  let token ← token.filter (· ≠ "")
  let c ← S.jwtDecode token
  if now < c.iat * second ∨ c.exp * second ≤ now then none
  else if c.type = type then some c else none

/-- The user id of a token, and then its org; the clock is read for each of them, and a token that
has expired in between names the default org. -/
def readToken (S : Setting) (now later : Time) (type : TokenType) (token : Option String) :
    Option (String × String) := do
  let c ← decode S now type token
  if c.sub = "" then none
  else return (c.sub, ((decode S later type token).map (orDefault ·.org)).getD defaultOrg)

/-- `current_user`: the schema that the request is pinned to, and the user. -/
def currentUser (S : Setting) (users : Ident → List AppUser) (now later : Time)
    (cookie : Option String) : Option (Ident × String) := do
  let (uid, org) ← readToken S now later .access cookie
  let user ← (users (tableSchema S.py org)).find? (·.id = uid)
  if user.isActive then some (tableSchema S.py org, user.id) else none

/-! ### Runs -/

/-- By what somebody signs in. -/
inductive Credential
  | signup
  | password (email password : String)
  | invite (token : Option String) (now later : Time)

/-- The tenants' tables, their users, and the claims that were signed. -/
structure World where
  clock : Time := 0
  tables : Ident → Tables := fun _ => {}
  users : Ident → List AppUser := fun _ => []
  signed : List Claims := []

/-- Nobody else knows the secret: what a token says was signed. -/
def Genuine (S : Setting) (w : World) (token : Option String) : Prop :=
  ∀ t ∈ token, ∀ c, S.jwtDecode t = some c → c ∈ w.signed

/-- The credential opens the account in the schema. -/
def Credential.Opens (S : Setting) (w : World) (schema : Ident) (userId : String) :
    Credential → Prop
  | .signup => schema = tableSchema S.py defaultOrg ∧ w.users schema = []
  | .password email presented => ∃ user,
      (w.users schema).find? (·.email = S.normalizeEmail email) = some user ∧
        user.isActive = true ∧ user.id = userId ∧ ∃ hash, user.passwordHash = some hash ∧
          S.hasher.verify hash presented = true
  | .invite token now later => Genuine S w token ∧ w.clock ≤ now ∧ now ≤ later ∧ ∃ org,
      readToken S now later .invite token = some (userId, org) ∧ tableSchema S.py org = schema ∧
        ∃ user ∈ w.users schema, user.id = userId

/-- The user for whom a transaction mints tokens. -/
def userOf : Tx → Option String
  | .login row => some row.userId
  | .selected _ row => some row.userId
  | .updated _ row _ => some row.userId
  | .inserted _ _ _ new => some new.userId
  | _ => none

/-- The statement inserts the first token of a session. -/
def isLogin : Action → Bool
  | .login _ _ _ _ _ => true
  | _ => false

inductive Event
  | signedIn (schema : Ident) (userId : String) (credential : Credential)
  | token (schema : Ident) (a : Action)
  | issued (schema : Ident) (userId : String) (now : Time)
  | invited (userId org : String)
  | users
  | asked (now : Time) (user : Option (Ident × String))

/-- One step: a statement on the tokens of a tenant, a token that is signed, a change of the users,
or a request with any cookie. -/
inductive Acts (S : Setting) : World → Event → World → Prop
  | signedIn {w : World} {schema : Ident} {i : Nat} {now : Time} {m : Minted} {userId : String}
      {userAgent : Option String} {credential : Credential} {t : Tables}
      (hopens : credential.Opens S w schema userId)
      (hact : Auth.Acts S.hasher S.refreshTtl (w.tables schema) (.login i now m userId userAgent)
        t) :
      Acts S w (.signedIn schema userId credential)
        { w with tables := Function.update w.tables schema t }
  | token {w : World} {schema : Ident} {a : Action} {t : Tables} (hother : isLogin a = false)
      (hact : Auth.Acts S.hasher S.refreshTtl (w.tables schema) a t) :
      Acts S w (.token schema a) { w with tables := Function.update w.tables schema t }
  /-- `issue_access`, after `mint_refresh` or `rotate_refresh` and before the commit -/
  | issued {w : World} {now : Time} {i : Nat} {tx : Tx} {userId org jti : String}
      (hclock : w.clock ≤ now) (htx : (w.tables (tableSchema S.py org)).session i = some tx)
      (huser : userOf tx = some userId) :
      Acts S w (.issued (tableSchema S.py org) userId now)
        { w with
          clock := now
          signed := w.signed ++ [encode now S.accessTtl .access userId org jti] }
  | invited {w : World} {now : Time} {userId org jti : String} (hclock : w.clock ≤ now) :
      Acts S w (.invited userId org)
        { w with
          clock := now
          signed := w.signed ++ [encode now S.inviteTtl .invite userId org jti] }
  | users {w : World} (users : Ident → List AppUser) : Acts S w .users { w with users }
  | asked {w : World} {now later : Time} {cookie : Option String} (hclock : w.clock ≤ now)
      (hlater : now ≤ later) (hgenuine : Genuine S w cookie) :
      Acts S w (.asked now (currentUser S w.users now later cookie)) { w with clock := later }

/-! ### Whose tokens a tenant's transactions mint -/

/-- The users of the live tokens, and of the transactions that mint one, meet the condition. -/
structure Users (P : String → Prop) (s : Tables) : Prop where
  live : ∀ r ∈ s.rows, r.revokedAt = none → P r.userId
  minting : ∀ i tx, s.session i = some tx → ∀ u ∈ userOf tx, P u

lemma userOf_of_new {tx : Tx} {new : RefreshToken} (h : tx.new = some new) :
    userOf tx = some new.userId := by
  cases tx <;> cases h <;> rfl

namespace Users

variable {H : Hasher} {ttl : Time} {P Q : String → Prop} {s t : Tables} {i : Nat} {tx : Tx}

lemma empty : Users P {} where
  live _ hr := nomatch hr
  minting _ _ htx := nomatch htx

lemma mono (h : Users P s) (hPQ : ∀ u, P u → Q u) : Users Q s where
  live r hr hlive := hPQ _ (h.live r hr hlive)
  minting i tx htx u hu := hPQ u (h.minting i tx htx u hu)

lemma put (h : Users P s) (htx : ∀ u ∈ userOf tx, P u) : Users P (s.put i tx) where
  live := h.live
  minting j tx' hj := by
    obtain ⟨-, rfl⟩ | ⟨-, hj⟩ := Tables.put_session hj
    · exact htx
    · exact h.minting j tx' hj

lemma put_of_none (h : Users P s) (htx : userOf tx = none) : Users P (s.put i tx) :=
  h.put (by simp [htx])

lemma lock (h : Users P s) (id : String) : Users P (s.lock i id) := ⟨h.live, h.minting⟩

lemma draw (h : Users P s) (m : Minted) : Users P (s.draw m) := ⟨h.live, h.minting⟩

lemma release (h : Users P s) : Users P (s.release i) where
  live := h.live
  minting j tx' hj := h.minting j tx' (Tables.release_session hj).2

lemma commit (h : Users P s) (htx : s.session i = some tx) : Users P (s.commit i tx) where
  live r hr hlive := by
    obtain ⟨r₀, hr₀, rfl⟩ | hnew := Tables.mem_written.1 hr
    · have hkept := Tables.shown_kept (s := s) (i := i) tx r₀
      rw [hkept.userId]
      refine h.live r₀ hr₀ ?_
      by_contra hrevoked
      exact hkept.revoked hrevoked hlive
    · exact h.minting i tx htx _ (userOf_of_new hnew)
  minting := h.release.minting

/-- A statement mints no token for a user without a live one, but a login's. -/
lemma acts (h : Users P s) {a : Action} (hact : Auth.Acts H ttl s a t)
    (hlogin : ∀ j now m u userAgent, a = .login j now m u userAgent → P u) : Users P t := by
  obtain ⟨hact, -⟩ := hact
  cases a with
  | login j now m u userAgent =>
    simp only [act] at hact
    split at hact <;> cases hact
    refine (h.draw m).put fun v hv => ?_
    cases hv
    exact hlogin j now m u userAgent rfl
  | selectRotate j now presented =>
    simp only [act] at hact
    split at hact
    · split at hact
      · cases hact
        exact h
      · next row hfind =>
        obtain ⟨-, -, hrow, -⟩ := find_eq_some hfind
        split at hact
        · cases hact
          exact h.put_of_none rfl
        · next hlive =>
          split at hact <;> cases hact
          · exact h
          · refine h.put fun v hv => ?_
            cases hv
            exact h.live row hrow (not_not.1 hlive)
    · cases hact
  | updateRotate j now =>
    simp only [act] at hact
    split at hact
    · next presented row htx =>
      split at hact <;> cases hact
      exact (h.lock row.id).put fun v hv => h.minting j _ htx v hv
    · cases hact
  | insertRotate j now m userAgent =>
    simp only [act] at hact
    split at hact <;> cases hact
    next presented row used htx =>
      exact (h.draw m).put fun v hv => h.minting j _ htx v hv
  | selectLogout j presented =>
    simp only [act] at hact
    split at hact
    · split at hact
      · cases hact
        exact h
      · split at hact <;> cases hact
        · exact h.put_of_none rfl
        · exact h
    · cases hact
  | updateLogout j now =>
    simp only [act] at hact
    split at hact
    · next row htx =>
      split at hact <;> cases hact
      exact (h.lock row.id).put_of_none rfl
    · cases hact
  | revokeFamily j now =>
    simp only [act] at hact
    split at hact <;> cases hact
    exact h.put_of_none rfl
  | revokeAll j now userId =>
    simp only [act] at hact
    split at hact <;> cases hact
    exact h.put_of_none rfl
  | revokeRow j id =>
    simp only [act] at hact
    split at hact
    · split at hact
      · split at hact <;> cases hact
        · exact (h.put_of_none rfl).lock id
        · exact h.put_of_none rfl
      · cases hact
    · cases hact
  | commit j =>
    simp only [act] at hact
    split at hact
    · next tx htx =>
      split at hact <;> cases hact
      exact h.commit htx
    · cases hact
  | abort j =>
    simp only [act] at hact
    split at hact <;> cases hact
    exact h.release

end Users

/-! ### What a request is answered by -/

section

variable {S : Setting} {w w' : World}

lemma decode_eq_some {now : Time} {type : TokenType} {token : Option String} {c : Claims}
    (h : decode S now type token = some c) : (∃ t ∈ token, S.jwtDecode t = some c) ∧
      c.iat * second ≤ now ∧ now < c.exp * second ∧ c.type = type := by
  obtain ⟨t, ht, h⟩ := Option.bind_eq_some_iff.1 h
  obtain ⟨c', hc', h⟩ := Option.bind_eq_some_iff.1 h
  split at h
  · cases h
  · next htime =>
    split at h <;> cases h
    next htype =>
      rw [not_or, Nat.not_lt, Nat.not_le] at htime
      exact ⟨⟨t, (Option.mem_filter_iff.1 ht).1, hc'⟩, htime.1, htime.2, htype⟩

/-- A user id comes from a token of the type that was signed and has not expired. Its org comes from
the same token, or is the default one. -/
lemma readToken_eq_some {now later : Time} {type : TokenType} {token : Option String}
    {userId org : String} (hgenuine : Genuine S w token)
    (h : readToken S now later type token = some (userId, org)) :
    ∃ c ∈ w.signed, c.type = type ∧ c.sub = userId ∧ now < c.exp * second ∧
      (org = orDefault c.org ∨ org = defaultOrg) := by
  obtain ⟨c, hc, h⟩ := Option.bind_eq_some_iff.1 h
  obtain ⟨⟨t, ht, hdecode⟩, -, hexp, htype⟩ := decode_eq_some hc
  split at h
  · cases h
  · cases h
    refine ⟨c, hgenuine t ht c hdecode, htype, rfl, hexp, ?_⟩
    cases hlater : decode S later type token with
    | none => exact .inr rfl
    | some c' =>
      obtain ⟨⟨t', ht', hdecode'⟩, -⟩ := decode_eq_some hlater
      obtain rfl := Option.some.inj (ht.symm.trans ht')
      cases hdecode.symm.trans hdecode'
      exact .inl rfl

lemma tableSchema_orDefault (org : String) :
    tableSchema S.py (orDefault org) = tableSchema S.py org := by
  have hidem : orDefault (orDefault org) = orDefault org := by
    by_cases horg : org = ""
    · rw [horg]
      rfl
    · have hsame : orDefault org = org := if_neg horg
      rw [hsame, hsame]
  simp only [tableSchema, Db.orgSchema, Db.sanitize, hidem]

lemma currentUser_eq_some {now later : Time} {cookie : Option String} {schema : Ident}
    {userId : String} (hgenuine : Genuine S w cookie)
    (h : currentUser S w.users now later cookie = some (schema, userId)) :
    ∃ c ∈ w.signed, c.type = .access ∧ c.sub = userId ∧ now < c.exp * second ∧
      (schema = tableSchema S.py c.org ∨ schema = tableSchema S.py defaultOrg) := by
  obtain ⟨⟨uid, org⟩, hread, h⟩ := Option.bind_eq_some_iff.1 h
  obtain ⟨user, huser, h⟩ := Option.bind_eq_some_iff.1 h
  have hid : user.id = uid := by simpa using List.find?_some huser
  split at h <;> cases h
  obtain ⟨c, hc, htype, hsub, hexp, horg⟩ := readToken_eq_some hgenuine hread
  refine ⟨c, hc, htype, hsub.trans hid.symm, hexp, ?_⟩
  obtain rfl | rfl := horg
  · exact .inl (tableSchema_orDefault _)
  · exact .inr rfl

/-! ### After a logout everywhere -/

lemma exp_encode_le (now ttl : Time) (type : TokenType) (userId org jti : String) :
    (encode now ttl type userId org jti).exp * second ≤ now + ttl :=
  Nat.div_mul_le_self _ _

/-- No access token outlives the configured time. -/
def ShortLived (S : Setting) (w : World) : Prop :=
  ∀ c ∈ w.signed, c.type = .access → c.exp * second ≤ w.clock + S.accessTtl

lemma ShortLived.acts {e : Event} (h : ShortLived S w) (hacts : Acts S w e w') :
    ShortLived S w' := by
  have hlater : ∀ now, w.clock ≤ now → ∀ c ∈ w.signed, c.type = .access →
      c.exp * second ≤ now + S.accessTtl :=
    fun now hclock c hc htype => Nat.le_trans (h c hc htype) (Nat.add_le_add_right hclock _)
  cases hacts with
  | signedIn hopens hact => exact h
  | token hother hact => exact h
  | @issued now i tx userId org jti hclock htx huser =>
    intro c hc htype
    obtain hc | hc := List.mem_append.1 hc
    · exact hlater now hclock c hc htype
    · rw [List.mem_singleton.1 hc]
      exact exp_encode_le ..
  | @invited now userId org jti hclock =>
    intro c hc htype
    obtain hc | hc := List.mem_append.1 hc
    · exact hlater now hclock c hc htype
    · rw [List.mem_singleton.1 hc] at htype
      cases htype
  | users users => exact h
  | @asked now later cookie hclock hle hgenuine => exact hlater later (Nat.le_trans hclock hle)

/-- The user has no live refresh token and no transaction that mints one, and what was signed for
the user expires within the configured time. -/
structure SignedOut (S : Setting) (userId : String) (time : Time) (w : World) : Prop where
  users : ∀ schema, Users (· ≠ userId) (w.tables schema)
  expires : ∀ c ∈ w.signed, c.type = .access → c.sub = userId → c.exp * second ≤ time + S.accessTtl

lemma users_update {P : Ident → String → Prop} {schema : Ident} {t : Tables}
    (h : ∀ schema, Users (P schema) (w.tables schema)) (ht : Users (P schema) t) :
    ∀ schema', Users (P schema') (Function.update w.tables schema t schema') := by
  intro schema'
  by_cases hschema : schema' = schema
  · subst hschema
    rwa [Function.update_self]
  · rw [Function.update_of_ne hschema]
    exact h schema'

lemma SignedOut.acts {e : Event} {userId : String} {time : Time} (h : SignedOut S userId time w)
    (hacts : Acts S w e w') (hlogin : ∀ schema credential, e ≠ .signedIn schema userId credential) :
    SignedOut S userId time w' := by
  cases hacts with
  | @signedIn schema i now m u userAgent credential t hopens hact =>
    refine ⟨users_update h.users ((h.users schema).acts hact fun j now' m' v ua heq => ?_),
      h.expires⟩
    cases heq
    rintro rfl
    exact hlogin schema credential rfl
  | @token schema a t hother hact =>
    refine ⟨users_update h.users ((h.users schema).acts hact fun j now' m' v ua heq => ?_),
      h.expires⟩
    subst heq
    cases hother
  | @issued now i tx u org jti hclock htx huser =>
    refine ⟨h.users, fun c hc htype hsub => ?_⟩
    obtain hc | hc := List.mem_append.1 hc
    · exact h.expires c hc htype hsub
    · rw [List.mem_singleton.1 hc] at hsub
      exact absurd hsub ((h.users _).minting i tx htx u huser)
  | @invited now u org jti hclock =>
    refine ⟨h.users, fun c hc htype hsub => ?_⟩
    obtain hc | hc := List.mem_append.1 hc
    · exact h.expires c hc htype hsub
    · rw [List.mem_singleton.1 hc] at htype
      cases htype
  | users users => exact ⟨h.users, h.expires⟩
  | asked hclock hle hgenuine => exact ⟨h.users, h.expires⟩

/-- A user whose refresh tokens are all revoked, while none of the user's logins and rotations is in
flight, is let in for as long as an access token lives, and no longer: whatever happens in any
tenant, unless the user signs in again. -/
theorem signedOut_expires {w₀ : World} {es es' : List Event} {userId : String} {schema : Ident}
    {now : Time} (hrun : Run (Acts S) {} es w₀)
    (hrevoked : ∀ schema, ∀ r ∈ (w₀.tables schema).rows, r.userId = userId → r.revokedAt ≠ none)
    (hquiet : ∀ schema i tx, (w₀.tables schema).session i = some tx → userOf tx ≠ some userId)
    (hrun' : Run (Acts S) w₀ es' w)
    (hlogin : ∀ schema credential, Event.signedIn schema userId credential ∉ es')
    (hasked : Acts S w (.asked now (some (schema, userId))) w') : now < w₀.clock + S.accessTtl := by
  have hshort : ShortLived S w₀ := hrun.invariant (fun _ _ _ h hacts => h.acts hacts) nofun
  have hstart : SignedOut S userId w₀.clock w₀ := {
    users := fun schema => {
      live := fun r hr hlive huser => hrevoked schema r hr huser hlive
      minting := fun i tx htx u hu huser => hquiet schema i tx htx (huser ▸ hu) }
    expires := fun c hc htype _ => hshort c hc htype }
  have hout : SignedOut S userId w₀.clock w := by
    refine @Run.history_of_mem _ _ _ (fun _ => SignedOut S userId w₀.clock) _ _ _ hrun' ?_ [] hstart
    intro _ _ e _ he h hacts
    exact h.acts hacts fun schema credential heq => hlogin schema credential (heq ▸ he)
  generalize hanswer : some (schema, userId) = answer at hasked
  cases hasked with
  | asked hclock hle hgenuine =>
    obtain ⟨c, hc, htype, hsub, hexp, -⟩ := currentUser_eq_some hgenuine hanswer.symm
    exact Nat.lt_of_lt_of_le hexp (hout.expires c hc htype hsub)

/-! ### Where an identity comes from -/

/-- The user has signed in with a credential in the schema. -/
def HasSignedIn (past : List Event) (schema : Ident) (userId : String) : Prop :=
  ∃ credential, Event.signedIn schema userId credential ∈ past

/-- An access token of a user was issued at the time, after the user had signed in. -/
structure IssuedAt (S : Setting) (past : List Event) (c : Claims) (time : Time) : Prop where
  issued : .issued (tableSchema S.py c.org) c.sub time ∈ past
  signedIn : HasSignedIn past (tableSchema S.py c.org) c.sub
  expires : c.exp * second ≤ time + S.accessTtl

structure Identified (S : Setting) (past : List Event) (w : World) : Prop where
  users : ∀ schema, Users (HasSignedIn past schema) (w.tables schema)
  signed : ∀ c ∈ w.signed, c.type = .access → ∃ time ≤ w.clock, IssuedAt S past c time

lemma HasSignedIn.snoc {past : List Event} {schema : Ident} {userId : String}
    (h : HasSignedIn past schema userId) (e : Event) : HasSignedIn (past ++ [e]) schema userId := by
  obtain ⟨credential, hmem⟩ := h
  exact ⟨credential, List.mem_append_left _ hmem⟩

lemma Identified.acts {past : List Event} {e : Event} (h : Identified S past w)
    (hacts : Acts S w e w') : Identified S (past ++ [e]) w' := by
  have husers : ∀ schema, Users (HasSignedIn (past ++ [e]) schema) (w.tables schema) :=
    fun schema => (h.users schema).mono fun _ hu => hu.snoc e
  have hsigned : ∀ now, w.clock ≤ now → ∀ c ∈ w.signed, c.type = .access →
      ∃ time ≤ now, IssuedAt S (past ++ [e]) c time := by
    intro now hclock c hc htype
    obtain ⟨time, htime, hissued⟩ := h.signed c hc htype
    exact ⟨time, Nat.le_trans htime hclock, List.mem_append_left _ hissued.issued,
      hissued.signedIn.snoc e, hissued.expires⟩
  cases hacts with
  | @signedIn schema i now m u userAgent credential t hopens hact =>
    refine ⟨users_update husers ((husers schema).acts hact fun j now' m' v ua heq => ?_),
      hsigned _ (Nat.le_refl _)⟩
    cases heq
    exact ⟨credential, List.mem_append_right _ List.mem_cons_self⟩
  | @token schema a t hother hact =>
    refine ⟨users_update husers ((husers schema).acts hact fun j now' m' v ua heq => ?_),
      hsigned _ (Nat.le_refl _)⟩
    subst heq
    cases hother
  | @issued now i tx u org jti hclock htx huser =>
    refine ⟨husers, fun c hc htype => ?_⟩
    obtain hc | hc := List.mem_append.1 hc
    · exact hsigned now hclock c hc htype
    · rw [List.mem_singleton.1 hc]
      exact ⟨now, Nat.le_refl _, List.mem_append_right _ List.mem_cons_self,
        (husers _).minting i tx htx u huser, exp_encode_le ..⟩
  | @invited now u org jti hclock =>
    refine ⟨husers, fun c hc htype => ?_⟩
    obtain hc | hc := List.mem_append.1 hc
    · exact hsigned now hclock c hc htype
    · rw [List.mem_singleton.1 hc] at htype
      cases htype
  | users users => exact ⟨husers, hsigned _ (Nat.le_refl _)⟩
  | @asked now later cookie hclock hle hgenuine =>
    exact ⟨husers, hsigned later (Nat.le_trans hclock hle)⟩

end

/-! ### One session -/

/-- The access token that the account is issued at time five. -/
def issuedClaims : Claims := encode 5 (900 * second) .access "u9" "default" "j1"

def deployment : Setting where
  hasher := plainHasher
  py := Db.asciiCasing
  normalizeEmail := id
  jwtDecode token := if token = "access" then some issuedClaims else none
  accessTtl := 900 * second
  inviteTtl := 604800 * second
  refreshTtl := 2592000 * second

def home : Ident := tableSchema deployment.py defaultOrg

def ceo : AppUser where
  id := "u9"
  email := "ceo@acme"
  passwordHash := some "pw"

def firstRow : RefreshToken :=
  (mintRefresh plainHasher deployment.refreshTtl 0 firstToken "u9" none none).2

/-- The login has inserted its row. -/
def loggedIn : Tables := (Tables.draw {} firstToken).put 0 (.login firstRow)

def committed : Tables := loggedIn.commit 0 (.login firstRow)

/-- `revoke_all` has come to the row. -/
def revoking : Tables :=
  ((committed.put 1 (.revoking ["f1"] ["1"] 10)).put 1 (.revoking ["f1"] [] 10)).lock 1 "1"

def loggedOut : Tables := revoking.commit 1 (.revoking ["f1"] [] 10)

/-- The access token is out, and the tables of the tenant are as given. -/
def sessionWorld (t : Tables) : World where
  clock := 5
  tables := Function.update (fun _ => {}) home t
  users _ := [ceo]
  signed := [issuedClaims]

lemma sessionWorld_home (t : Tables) : (sessionWorld t).tables home = t := by
  simp [sessionWorld]

lemma sessionWorld_of_ne (t : Tables) {schema : Ident} (h : schema ≠ home) :
    (sessionWorld t).tables schema = {} := by
  simp [sessionWorld, h]

/-- The logout leaves no transaction open. -/
lemma loggedOut_session (i : Nat) : loggedOut.session i = none := by
  simp [loggedOut, revoking, committed, loggedIn, Tables.commit, Tables.release, Tables.put,
    Tables.lock, Tables.draw, Function.update_apply]

lemma run_loggedIn : Run (Acts deployment) {}
    [.users, .signedIn home "u9" (.password "ceo@acme" "pw"), .issued home "u9" 5]
    (sessionWorld loggedIn) := by
  refine .cons (t := { users := fun _ => [ceo] }) (.users _) ?_
  let signedIn : World :=
    { users := fun _ => [ceo], tables := Function.update (fun _ => {}) home loggedIn }
  refine .cons (t := signedIn) ?_ (.single ?_)
  · have hopens : Credential.Opens deployment { users := fun _ => [ceo] } home "u9"
        (.password "ceo@acme" "pw") := ⟨ceo, rfl, rfl, rfl, "pw", rfl, rfl⟩
    exact @Acts.signedIn deployment _ home 0 0 firstToken "u9" none _ loggedIn hopens ⟨rfl, nofun⟩
  · exact @Acts.issued deployment _ 5 0 (.login firstRow) "u9" defaultOrg "j1" (by decide) rfl rfl

lemma acts_sessionWorld {t t' : Tables} {a : Action} (hother : isLogin a = false)
    (hact : act plainHasher deployment.refreshTtl t a = some t') (hdraws : a.draws = []) :
    Acts deployment (sessionWorld t) (.token home a) (sessionWorld t') := by
  have hstep := @Acts.token deployment (sessionWorld t) home a t' hother
    ((sessionWorld_home t).symm ▸ ⟨hact, draws_of_nil hdraws⟩)
  simp only [sessionWorld, Function.update_idem] at hstep
  exact hstep

lemma run_loggedOut : Run (Acts deployment) (sessionWorld loggedIn)
    [.token home (.commit 0), .token home (.revokeAll 1 10 "u9"), .token home (.revokeRow 1 "1"),
      .token home (.commit 1)] (sessionWorld loggedOut) := by
  have hcommit : Acts deployment (sessionWorld loggedIn) (.token home (.commit 0))
      (sessionWorld committed) := acts_sessionWorld rfl rfl rfl
  have hfound : Acts deployment (sessionWorld committed) (.token home (.revokeAll 1 10 "u9"))
      (sessionWorld (committed.put 1 (.revoking ["f1"] ["1"] 10))) := acts_sessionWorld rfl rfl rfl
  have hrevoked : Acts deployment
      (sessionWorld (committed.put 1 (.revoking ["f1"] ["1"] 10))) (.token home (.revokeRow 1 "1"))
      (sessionWorld revoking) := acts_sessionWorld rfl rfl rfl
  have hdone : Acts deployment (sessionWorld revoking) (.token home (.commit 1))
      (sessionWorld loggedOut) := acts_sessionWorld rfl rfl rfl
  exact .cons hcommit (.cons hfound (.cons hrevoked (.single hdone)))

/-- The cookie of the session is let in a second later. -/
lemma asked_sessionWorld (t : Tables) : ∃ w, Acts deployment (sessionWorld t)
    (.asked second (some (home, "u9"))) w := by
  have hgenuine : Genuine deployment (sessionWorld t) (some "access") := by
    intro token htoken c hc
    cases htoken
    cases hc
    exact List.mem_cons_self
  have hclock : (sessionWorld t).clock ≤ second := show 5 ≤ second by decide
  exact ⟨_, .asked hclock (Nat.le_refl _) hgenuine⟩

/-- After the logout the cookie is let in for a while. -/
theorem signedOut_expires_ceo : ∃ w,
    Acts deployment (sessionWorld loggedOut) (.asked second (some (home, "u9"))) w ∧
      second < (sessionWorld loggedOut).clock + deployment.accessTtl := by
  obtain ⟨w, hasked⟩ := asked_sessionWorld loggedOut
  refine ⟨w, hasked, signedOut_expires (run_loggedIn.append run_loggedOut) (fun schema r hr _ => ?_)
    (fun schema i tx htx => ?_) (.nil _) nofun hasked⟩
  · have hrows : ∀ r ∈ loggedOut.rows, r.revokedAt ≠ none := by decide
    by_cases hschema : schema = home
    · rw [hschema, sessionWorld_home] at hr
      exact hrows r hr
    · rw [sessionWorld_of_ne _ hschema] at hr
      cases hr
  · by_cases hschema : schema = home
    · rw [hschema, sessionWorld_home, loggedOut_session] at htx
      cases htx
    · rw [sessionWorld_of_ne _ hschema] at htx
      cases htx

end Pulse.Auth.Access
