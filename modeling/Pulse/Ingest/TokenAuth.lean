import Pulse.Auth.Refresh
import Pulse.Ingest.SchemaName
import Pulse.Ingest.TokenCache

/-!
# Ingest tokens

An agent's tokens are minted, rotated and revoked by `api/agents.py`, and checked by `identify` of
`authpg.go`. Each replica of the receiver has a cache of its own, so a token is still accepted for
some time after it was revoked, in whatever order the requests and the changes come.
-/

namespace Pulse.Ingest.TokenAuth

open Auth (Hasher split)
open Lib (Run utf8)

/-! ### The tokens -/

structure IngestToken where
  id : String
  agentId : String
  tokenPrefix : String
  tokenHash : String
  name : Option String := none
  revokedAt : Option Int := none

/-- What `mint_ingest_token` draws: the key of the row, the two halves of the plaintext and the salt
of its hash. -/
structure Minted where
  id : String
  tokenPrefix : String
  secret : String
  salt : String

def Minted.plaintext (m : Minted) : String := "vo_" ++ m.tokenPrefix ++ "_" ++ m.secret

def mintIngestToken (H : Hasher) (m : Minted) (agentId : String) (name : Option String) :
    String × IngestToken :=
  (m.plaintext, ⟨m.id, agentId, m.tokenPrefix, H.hash m.salt m.plaintext, name, none⟩)

/-- What the administrators of an organisation do to its tokens. -/
inductive Change
  | createToken (m : Minted) (agentId : String) (name : Option String)
  | rotateToken (m : Minted) (agentId tid : String)
  | revokeToken (agentId tid : String)
  | deleteAgent (agentId : String)

/-- The `SELECT` of a token of an agent. -/
def isToken (agentId tid : String) (r : IngestToken) : Bool := r.id = tid ∧ r.agentId = agentId

def revoke (now : Int) (agentId tid : String) (rows : List IngestToken) : List IngestToken :=
  rows.map fun r => if isToken agentId tid r then { r with revokedAt := some now } else r

/-- The rows after a change; no result is a 404. -/
def Change.apply (H : Hasher) (now : Int) (rows : List IngestToken) :
    Change → Option (List IngestToken)
  | .createToken m agentId name => some (rows ++ [(mintIngestToken H m agentId name).2])
  | .rotateToken m agentId tid => do
    let old ← rows.find? (isToken agentId tid)
    some (revoke now agentId tid rows ++ [(mintIngestToken H m agentId old.name).2])
  | .revokeToken agentId tid => do
    let _ ← rows.find? (isToken agentId tid)
    some (revoke now agentId tid rows)
  | .deleteAgent agentId => some (rows.filter (·.agentId ≠ agentId))

/-- A plaintext that was shown, with where and for whom. -/
structure Issued where
  plaintext : String
  schema : List UInt8
  agentId : String

def Change.issued (schema : List UInt8) : Change → List Issued
  | .createToken m agentId _ => [⟨m.plaintext, schema, agentId⟩]
  | .rotateToken m agentId _ => [⟨m.plaintext, schema, agentId⟩]
  | .revokeToken .. => []
  | .deleteAgent _ => []

/-! ### The receiver -/

/-- The headers that `identify` reads; one that is missing is empty. -/
structure Headers where
  authorization : String
  token : String
  org : String
  deriving DecidableEq

/-- `unicode.IsSpace` -/
def isSpace (c : Char) : Bool :=
  c.toNat ∈ [0x09, 0x0A, 0x0B, 0x0C, 0x0D, 0x20, 0x85, 0xA0, 0x1680, 0x2000, 0x2001, 0x2002, 0x2003,
    0x2004, 0x2005, 0x2006, 0x2007, 0x2008, 0x2009, 0x200A, 0x2028, 0x2029, 0x202F, 0x205F, 0x3000]

def trimSpace (cs : List Char) : List Char :=
  ((cs.dropWhile isSpace).reverse.dropWhile isSpace).reverse

def tokenFromHeaders (h : Headers) : String :=
  let a := h.authorization.toList
  if (a.take 7).map Char.toLower = "bearer ".toList then String.ofList (trimSpace (a.drop 7))
  else h.token

def orgFromHeaders (h : Headers) : String := if h.org = "" then "default" else h.org

def tokenPrefix (token : String) : Option String :=
  if "vo_".toList.isPrefixOf token.toList then
    match split '_' 2 token.toList with
    | _ :: pre :: _ :: _ => if pre = [] then none else some (String.ofList pre)
    | _ => none
  else none

/-- `org + "\x00" + token` -/
def cacheKey (h : Headers) : String :=
  String.ofList ((orgFromHeaders h).toList ++ '\x00' :: (tokenFromHeaders h).toList)

/-- `net/http` refuses a header with this character. -/
def Headers.Valid (h : Headers) : Prop := '\x00' ∉ h.org.toList

def Headers.schema (h : Headers) : List UInt8 := schemaName (utf8 (orgFromHeaders h).toList)

/-- A row that `verify` matches. -/
structure IngestToken.Opens (H : Hasher) (r : IngestToken) (token : String) : Prop where
  live : r.revokedAt = none
  prefixed : TokenAuth.tokenPrefix token = some r.tokenPrefix
  verify : H.verify r.tokenHash token = true

inductive Reply
  | identity (id : Identity)
  | authErr (msg : String)
  | failed
  deriving DecidableEq

/-- A request that the cache did not answer, with the agent of the row that it has matched. -/
structure Request where
  replica : Nat
  headers : Headers
  matched : Option String := none
  deriving DecidableEq

/-- The tenants' tables, what was ever shown, and the replicas with the requests in them. -/
structure World where
  schemas : List UInt8 → List IngestToken
  issued : List Issued
  caches : Nat → TokenCache
  requests : List Request
  clock : Int

/-- Five minutes. -/
def cacheTtl : Int := 300000000000

def start : World := ⟨fun _ => [], [], fun _ => newTokenCache 4096 cacheTtl, [], 0⟩

inductive Act
  | changed (schema : List UInt8) (change : Change)
  | went (h : Headers)
  | replied (h : Headers) (reply : Reply)

/-- One step. A minted plaintext was never shown before. -/
inductive Acts (H : Hasher) : World → Act → World → Prop
  | changed {w : World} {now : Int} {schema : List UInt8} {change : Change}
      {rows : List IngestToken} (hclock : w.clock ≤ now)
      (hrows : change.apply H now (w.schemas schema) = some rows)
      (hfresh : ∀ new ∈ change.issued schema, ∀ old ∈ w.issued, new.plaintext ≠ old.plaintext) :
      Acts H w (.changed schema change)
        { w with
          schemas := Function.update w.schemas schema rows
          issued := w.issued ++ change.issued schema
          clock := now }
  | unnamed {w : World} {h : Headers} (htoken : tokenFromHeaders h = "") :
      Acts H w (.replied h (.authErr "ingest token required")) w
  | hit {w : World} {now : Int} {replica : Nat} {h : Headers} {cache : TokenCache} {id : Identity}
      (hclock : w.clock ≤ now) (hvalid : h.Valid) (htoken : tokenFromHeaders h ≠ "")
      (hget : (w.caches replica).get now (cacheKey h) = some (cache, some id)) :
      Acts H w (.replied h (.identity id))
        { w with caches := Function.update w.caches replica cache, clock := now }
  | malformed {w : World} {now : Int} {replica : Nat} {h : Headers} {cache : TokenCache}
      (hclock : w.clock ≤ now) (hvalid : h.Valid) (htoken : tokenFromHeaders h ≠ "")
      (hget : (w.caches replica).get now (cacheKey h) = some (cache, none))
      (hpre : tokenPrefix (tokenFromHeaders h) = none) :
      Acts H w (.replied h (.authErr "invalid ingest token"))
        { w with caches := Function.update w.caches replica cache, clock := now }
  | miss {w : World} {now : Int} {replica : Nat} {h : Headers} {cache : TokenCache}
      (hclock : w.clock ≤ now) (hvalid : h.Valid) (htoken : tokenFromHeaders h ≠ "")
      (hget : (w.caches replica).get now (cacheKey h) = some (cache, none))
      (hpre : tokenPrefix (tokenFromHeaders h) ≠ none) :
      Acts H w (.went h)
        { w with
          caches := Function.update w.caches replica cache
          requests := w.requests ++ [⟨replica, h, none⟩]
          clock := now }
  | matched {w : World} {q : Request} {r : IngestToken} (hq : q ∈ w.requests)
      (hopen : q.matched = none) (hr : r ∈ w.schemas q.headers.schema)
      (hopens : r.Opens H (tokenFromHeaders q.headers)) :
      Acts H w (.went q.headers)
        { w with requests := w.requests.erase q ++ [{ q with matched := some r.agentId }] }
  | unmatched {w : World} {q : Request} (hq : q ∈ w.requests) (hopen : q.matched = none)
      (hnone : ∀ r ∈ w.schemas q.headers.schema, ¬r.Opens H (tokenFromHeaders q.headers)) :
      Acts H w (.replied q.headers (.authErr "invalid ingest token"))
        { w with requests := w.requests.erase q }
  | failed {w : World} {q : Request} (hq : q ∈ w.requests) :
      Acts H w (.replied q.headers .failed) { w with requests := w.requests.erase q }
  | put {w : World} {now : Int} {q : Request} {agentId : String} {cache : TokenCache}
      (hclock : w.clock ≤ now) (hq : q ∈ w.requests) (hmatched : q.matched = some agentId)
      (hput : (w.caches q.replica).put now (cacheKey q.headers)
        ⟨orgFromHeaders q.headers, agentId⟩ = some cache) :
      Acts H w (.replied q.headers (.identity ⟨orgFromHeaders q.headers, agentId⟩))
        { w with
          caches := Function.update w.caches q.replica cache
          requests := w.requests.erase q
          clock := now }

/-! ### Keys -/

lemma orgFromHeaders_valid {h : Headers} (hvalid : h.Valid) :
    '\x00' ∉ (orgFromHeaders h).toList := by
  unfold orgFromHeaders
  split
  · decide
  · exact hvalid

/-- A key names one organisation and one token. -/
lemma cacheKey_inj {h h' : Headers} (hvalid : h.Valid) (hvalid' : h'.Valid)
    (hkey : cacheKey h = cacheKey h') :
    orgFromHeaders h = orgFromHeaders h' ∧ tokenFromHeaders h = tokenFromHeaders h' := by
  have hlist := congrArg String.toList hkey
  simp only [cacheKey, String.toList_ofList] at hlist
  have horg := congrArg (List.takeWhile (· ≠ '\x00')) hlist
  rw [Auth.takeWhile_append_sep (orgFromHeaders_valid hvalid),
    Auth.takeWhile_append_sep (orgFromHeaders_valid hvalid')] at horg
  rw [horg, List.append_cancel_left_eq, List.cons.injEq] at hlist
  exact ⟨String.toList_inj.1 horg, String.toList_inj.1 hlist.2⟩

/-! ### What is kept -/

section

variable {H : Hasher} {w w' : World} {a : Act}

/-- Whoever opens a row was shown its plaintext, for its schema and its agent. -/
def RowsIssued (H : Hasher) (w : World) : Prop :=
  ∀ schema, ∀ r ∈ w.schemas schema, ∀ p, H.verify r.tokenHash p = true →
    ⟨p, schema, r.agentId⟩ ∈ w.issued

lemma Change.apply_mem {now : Int} {rows rows' : List IngestToken} {change : Change}
    (h : change.apply H now rows = some rows') (schema : List UInt8) {r : IngestToken}
    (hr : r ∈ rows') :
    (∃ r₀ ∈ rows, r.agentId = r₀.agentId ∧ r.tokenHash = r₀.tokenHash ∧
      (r.revokedAt = none → r₀.revokedAt = none) ∧ r.tokenPrefix = r₀.tokenPrefix) ∨
      ∃ new ∈ change.issued schema, new.schema = schema ∧ r.agentId = new.agentId ∧
        ∀ p, H.verify r.tokenHash p = true → p = new.plaintext := by
  have hrevoked : ∀ agentId tid, r ∈ revoke now agentId tid rows → ∃ r₀ ∈ rows,
      r.agentId = r₀.agentId ∧ r.tokenHash = r₀.tokenHash ∧
        (r.revokedAt = none → r₀.revokedAt = none) ∧ r.tokenPrefix = r₀.tokenPrefix := by
    intro agentId tid hr
    obtain ⟨r₀, hr₀, rfl⟩ := List.mem_map.1 hr
    refine ⟨r₀, hr₀, ?_⟩
    split
    · exact ⟨rfl, rfl, nofun, rfl⟩
    · exact ⟨rfl, rfl, id, rfl⟩
  have hminted : ∀ (m : Minted) (agentId : String) (name : Option String),
      r = (mintIngestToken H m agentId name).2 → r.agentId = agentId ∧
        ∀ p, H.verify r.tokenHash p = true → p = m.plaintext := by
    rintro m agentId name rfl
    exact ⟨rfl, fun p hp => ((H.verify_hash _ _ _).1 hp).symm⟩
  cases change with
  | createToken m agentId name =>
    cases h
    obtain hr | hr := List.mem_append.1 hr
    · exact .inl ⟨r, hr, rfl, rfl, id, rfl⟩
    · obtain ⟨hagent, hopens⟩ := hminted m agentId name (List.mem_singleton.1 hr)
      exact .inr ⟨_, List.mem_cons_self, rfl, hagent, hopens⟩
  | rotateToken m agentId tid =>
    obtain ⟨old, -, h⟩ := Option.bind_eq_some_iff.1 h
    cases h
    obtain hr | hr := List.mem_append.1 hr
    · exact .inl (hrevoked agentId tid hr)
    · obtain ⟨hagent, hopens⟩ := hminted m agentId old.name (List.mem_singleton.1 hr)
      exact .inr ⟨_, List.mem_cons_self, rfl, hagent, hopens⟩
  | revokeToken agentId tid =>
    obtain ⟨old, -, h⟩ := Option.bind_eq_some_iff.1 h
    cases h
    exact .inl (hrevoked agentId tid hr)
  | deleteAgent agentId =>
    cases h
    exact .inl ⟨r, (List.mem_filter.1 hr).1, rfl, rfl, id, rfl⟩

lemma RowsIssued.acts (h : RowsIssued H w) (ha : Acts H w a w') : RowsIssued H w' := by
  cases ha with
  | @changed now schema change rows hclock hrows hfresh =>
    intro schema' r hr p hp
    dsimp only at hr ⊢
    rw [Function.update_apply] at hr
    split at hr
    · next hschema =>
      subst hschema
      obtain ⟨r₀, hr₀, hagent, hhash, -⟩ | ⟨new, hnew, hschema, hagent, hopens⟩ :=
        Change.apply_mem hrows schema' hr
      · rw [hagent]
        exact List.mem_append_left _ (h schema' r₀ hr₀ p (hhash ▸ hp))
      · obtain ⟨plaintext, schema, agentId⟩ := new
        obtain rfl := hopens p hp
        obtain rfl : schema = schema' := hschema
        rw [hagent]
        exact List.mem_append_right _ hnew
    · exact List.mem_append_left _ (h schema' r hr p hp)
  | _ => exact h

/-- Whatever was put last for a key meets a condition. -/
def Holds (c : TokenCache) (P : String → Int → Identity → Prop) : Prop :=
  ∃ es, Inv 4096 cacheTtl es c ∧ ∀ key time id, lastPut es key = some (time, id) → P key time id

section

variable {c c' : TokenCache} {P Q : String → Int → Identity → Prop} {now : Int} {key : String}
  {id : Identity}

lemma Holds.new : Holds (newTokenCache 4096 cacheTtl) P :=
  ⟨[], .run (by decide) (.nil _), nofun⟩

lemma Holds.imp (h : Holds c P) (himp : ∀ key time id, P key time id → Q key time id) :
    Holds c Q := by
  obtain ⟨es, hinv, hput⟩ := h
  exact ⟨es, hinv, fun key time id hlast => himp key time id (hput key time id hlast)⟩

lemma Holds.get (h : Holds c P) {found : Option Identity}
    (hget : c.get now key = some (c', found)) : Holds c' P := by
  obtain ⟨es, hinv, hput⟩ := h
  have hstep : CacheSteps c (.get now key found) c' := hget
  refine ⟨_, hinv.step hstep, fun key' time id hlast => hput key' time id ?_⟩
  rwa [lastPut_get] at hlast

lemma Holds.found (h : Holds c P) (hget : c.get now key = some (c', some id)) :
    ∃ time, P key time id ∧ now ≤ time + cacheTtl := by
  obtain ⟨es, hinv, hput⟩ := h
  obtain ⟨c₁, found, hget', hfound⟩ := hinv.get now key
  cases hget.symm.trans hget'
  obtain ⟨time, hlast, hle⟩ := hfound id rfl
  exact ⟨time, hput key time id hlast, hle⟩

lemma Holds.put (h : Holds c P) (hput : c.put now key id = some c') (hnew : P key now id) :
    Holds c' P := by
  obtain ⟨es, hinv, hold⟩ := h
  have hstep : CacheSteps c (.put now key id) c' := hput
  refine ⟨_, hinv.step hstep, fun key' time id' hlast => ?_⟩
  rw [lastPut_put] at hlast
  split at hlast
  · next hkey =>
    cases hlast
    exact hkey ▸ hnew
  · exact hold key' time id' hlast

end

/-- The caches after a step on one of them. -/
lemma holds_update {caches : Nat → TokenCache} {P : String → Int → Identity → Prop} {replica : Nat}
    {cache : TokenCache} (h : ∀ replica, Holds (caches replica) P) (hcache : Holds cache P) :
    ∀ replica', Holds (Function.update caches replica cache replica') P := by
  intro replica'
  rw [Function.update_apply]
  split
  · exact hcache
  · exact h replica'

/-- The token was shown for this agent of the organisation of the request. -/
def Headers.Grants (h : Headers) (w : World) (agentId : String) : Prop :=
  ⟨tokenFromHeaders h, h.schema, agentId⟩ ∈ w.issued

/-- What was put into a cache was put by a request with the key, whose token grants it. -/
def Granted (w : World) (key : String) (time : Int) (id : Identity) : Prop :=
  time ≤ w.clock ∧ ∃ h : Headers, h.Valid ∧ cacheKey h = key ∧ id.org = orgFromHeaders h ∧
    h.Grants w id.agentID

structure Kept (H : Hasher) (w : World) : Prop where
  rows : RowsIssued H w
  caches : ∀ replica, Holds (w.caches replica) (Granted w)
  valid : ∀ q ∈ w.requests, q.headers.Valid
  matched : ∀ q ∈ w.requests, ∀ agentId, q.matched = some agentId → q.headers.Grants w agentId

lemma Granted.mono {key : String} {time : Int} {id : Identity} (h : Granted w key time id)
    (w' : World) (hclock : w.clock ≤ w'.clock) (hissued : ∀ e ∈ w.issued, e ∈ w'.issued) :
    Granted w' key time id := by
  obtain ⟨hle, h, hvalid, hkey, horg, hgrants⟩ := h
  exact ⟨Int.le_trans hle hclock, h, hvalid, hkey, horg, hissued _ hgrants⟩

lemma Kept.start : Kept H start where
  rows _ _ hr := nomatch hr
  caches _ := .new
  valid _ hq := nomatch hq
  matched _ hq := nomatch hq

/-- A get of a cache changes no entry that is left. -/
lemma Kept.asked (h : Kept H w) {now : Int} {replica : Nat} {key : String} {cache : TokenCache}
    {found : Option Identity} (hclock : w.clock ≤ now)
    (hget : (w.caches replica).get now key = some (cache, found)) :
    Kept H { w with caches := Function.update w.caches replica cache, clock := now } := by
  refine ⟨h.rows, fun replica' => ?_, h.valid, h.matched⟩
  refine (holds_update h.caches ((h.caches replica).get hget) replica').imp fun _ _ _ hg => ?_
  exact hg.mono { w with caches := _, clock := now } hclock fun _ he => he

lemma Kept.requests (h : Kept H w) {requests : List Request}
    (hrequests : ∀ q ∈ requests, q ∈ w.requests ∨
      q.headers.Valid ∧ ∀ agentId, q.matched = some agentId → q.headers.Grants w agentId) :
    Kept H { w with requests } where
  rows := h.rows
  caches := h.caches
  valid q hq := (hrequests q hq).elim (h.valid q) And.left
  matched q hq := (hrequests q hq).elim (h.matched q) And.right

lemma Kept.acts (h : Kept H w) (ha : Acts H w a w') : Kept H w' := by
  cases ha with
  | changed hclock hrows hfresh =>
    refine ⟨h.rows.acts (.changed hclock hrows hfresh), fun replica => ?_, h.valid,
      fun q hq agentId hagent => List.mem_append_left _ (h.matched q hq agentId hagent)⟩
    exact (h.caches replica).imp fun _ _ _ hg =>
      hg.mono _ hclock fun _ => List.mem_append_left _
  | unnamed htoken => exact h
  | hit hclock hvalid htoken hget => exact h.asked hclock hget
  | malformed hclock hvalid htoken hget hpre => exact h.asked hclock hget
  | miss hclock hvalid htoken hget hpre =>
    refine (h.asked hclock hget).requests fun q hq => ?_
    obtain hq | hq := List.mem_append.1 hq
    · exact .inl hq
    · obtain rfl := List.mem_singleton.1 hq
      exact .inr ⟨hvalid, nofun⟩
  | @matched q r hq hopen hr hopens =>
    refine h.requests fun q' hq' => ?_
    obtain hq' | hq' := List.mem_append.1 hq'
    · exact .inl (List.mem_of_mem_erase hq')
    · obtain rfl := List.mem_singleton.1 hq'
      refine .inr ⟨h.valid q hq, fun agentId hagent => ?_⟩
      cases hagent
      exact h.rows _ r hr _ hopens.verify
  | unmatched hq hopen hnone => exact h.requests fun q hq => .inl (List.mem_of_mem_erase hq)
  | failed hq => exact h.requests fun q hq => .inl (List.mem_of_mem_erase hq)
  | @put now q agentId cache hclock hq hmatched hput =>
    have hrest : Kept H { w with requests := w.requests.erase q } :=
      h.requests fun q hq => .inl (List.mem_of_mem_erase hq)
    refine ⟨h.rows, fun replica => ?_, hrest.valid, hrest.matched⟩
    have hold : ∀ replica, Holds (w.caches replica) (Granted { w with clock := now }) :=
      fun replica => (h.caches replica).imp fun _ _ _ hg =>
        hg.mono { w with clock := now } hclock fun _ he => he
    refine holds_update hold ((hold q.replica).put hput ?_) replica
    exact ⟨Int.le_refl _, q.headers, h.valid q hq, rfl, rfl, h.matched q hq agentId hmatched⟩

/-- A token is accepted only for the organisation that the request names, where its plaintext was
shown, and as the agent that it was shown for. -/
theorem accepted_issued {as : List Act} (hrun : Run (Acts H) start as w) {h : Headers}
    {id : Identity} (haccept : Acts H w (.replied h (.identity id)) w') :
    id.org = orgFromHeaders h ∧ ⟨tokenFromHeaders h, h.schema, id.agentID⟩ ∈ w.issued := by
  have hkept : Kept H w := hrun.invariant (fun _ _ _ hw ha => hw.acts ha) .start
  cases haccept with
  | hit hclock hvalid htoken hget =>
    obtain ⟨time, ⟨-, h', hvalid', hkey, horg, hgrants⟩, -⟩ := (hkept.caches _).found hget
    obtain ⟨horg', htoken'⟩ := cacheKey_inj hvalid' hvalid hkey
    refine ⟨horg.trans horg', ?_⟩
    rw [Headers.Grants, Headers.schema, horg', htoken'] at hgrants
    exact hgrants
  | put hclock hq hmatched hput => exact ⟨rfl, hkept.matched _ hq _ hmatched⟩

/-! ### Revocation -/

/-- The token of the request opens nothing, and what the caches hold for it was put by this time. -/
structure Dead (H : Hasher) (h : Headers) (time : Int) (w : World) : Prop where
  issued : ∃ e ∈ w.issued, e.plaintext = tokenFromHeaders h
  rows : ∀ r ∈ w.schemas h.schema, ¬r.Opens H (tokenFromHeaders h)
  valid : ∀ q ∈ w.requests, q.headers.Valid
  unmatched : ∀ q ∈ w.requests, cacheKey q.headers = cacheKey h → q.matched = none
  caches : ∀ replica, Holds (w.caches replica) fun key put _ => key = cacheKey h → put ≤ time

variable {h : Headers} {time : Int}

lemma Dead.asked (hdead : Dead H h time w) {now : Int} {replica : Nat} {key : String}
    {cache : TokenCache} {found : Option Identity}
    (hget : (w.caches replica).get now key = some (cache, found)) :
    Dead H h time { w with caches := Function.update w.caches replica cache, clock := now } :=
  ⟨hdead.issued, hdead.rows, hdead.valid, hdead.unmatched,
    holds_update hdead.caches ((hdead.caches replica).get hget)⟩

lemma Dead.requests (hdead : Dead H h time w) {requests : List Request}
    (hrequests : ∀ q ∈ requests, q ∈ w.requests ∨ q.headers.Valid ∧
      (cacheKey q.headers = cacheKey h → q.matched = none)) :
    Dead H h time { w with requests } where
  issued := hdead.issued
  rows := hdead.rows
  valid q hq := (hrequests q hq).elim (hdead.valid q) And.left
  unmatched q hq := (hrequests q hq).elim (hdead.unmatched q) And.right
  caches := hdead.caches

/-- A new row is opened by a plaintext that was never shown. -/
lemma Dead.changed (hdead : Dead H h time w) {now : Int} {schema : List UInt8} {change : Change}
    {rows : List IngestToken} (hrows : change.apply H now (w.schemas schema) = some rows)
    (hfresh : ∀ new ∈ change.issued schema, ∀ old ∈ w.issued, new.plaintext ≠ old.plaintext) :
    ∀ r ∈ Function.update w.schemas schema rows h.schema, ¬r.Opens H (tokenFromHeaders h) := by
  intro r hr hopens
  rw [Function.update_apply] at hr
  split at hr
  · next hschema =>
    obtain ⟨r₀, hr₀, -, hhash, hlive, hpre⟩ | ⟨new, hnew, -, -, hplain⟩ :=
      Change.apply_mem hrows schema hr
    · refine hdead.rows r₀ (hschema ▸ hr₀) ⟨hlive hopens.live, ?_, hhash ▸ hopens.verify⟩
      rw [← hpre]
      exact hopens.prefixed
    · obtain ⟨old, hold, hissued⟩ := hdead.issued
      exact hfresh new hnew old hold ((hplain _ hopens.verify).symm.trans hissued.symm)
  · exact hdead.rows r hr hopens

lemma Dead.acts (hdead : Dead H h time w) (hvalid : h.Valid) (ha : Acts H w a w') :
    Dead H h time w' := by
  cases ha with
  | changed hclock hrows hfresh =>
    obtain ⟨old, hold, hissued⟩ := hdead.issued
    exact ⟨⟨old, List.mem_append_left _ hold, hissued⟩, hdead.changed hrows hfresh, hdead.valid,
      hdead.unmatched, hdead.caches⟩
  | unnamed htoken => exact hdead
  | hit hclock hvalid' htoken hget => exact hdead.asked hget
  | malformed hclock hvalid' htoken hget hpre => exact hdead.asked hget
  | miss hclock hvalid' htoken hget hpre =>
    refine (hdead.asked hget).requests fun q hq => ?_
    obtain hq | hq := List.mem_append.1 hq
    · exact .inl hq
    · obtain rfl := List.mem_singleton.1 hq
      exact .inr ⟨hvalid', fun _ => rfl⟩
  | @matched q r hq hopen hr hopens =>
    refine hdead.requests fun q' hq' => ?_
    obtain hq' | hq' := List.mem_append.1 hq'
    · exact .inl (List.mem_of_mem_erase hq')
    · obtain rfl := List.mem_singleton.1 hq'
      refine .inr ⟨hdead.valid q hq, fun hkey => absurd hopens ?_⟩
      obtain ⟨horg, htoken⟩ := cacheKey_inj (hdead.valid q hq) hvalid hkey
      rw [Headers.schema, horg] at hr
      rw [htoken]
      exact hdead.rows r hr
  | unmatched hq hopen hnone => exact hdead.requests fun q hq => .inl (List.mem_of_mem_erase hq)
  | failed hq => exact hdead.requests fun q hq => .inl (List.mem_of_mem_erase hq)
  | @put now q agentId cache hclock hq hmatched hput =>
    have hrest : Dead H h time { w with requests := w.requests.erase q } :=
      hdead.requests fun q hq => .inl (List.mem_of_mem_erase hq)
    refine ⟨hdead.issued, hdead.rows, hrest.valid, hrest.unmatched,
      holds_update hdead.caches ((hdead.caches q.replica).put hput fun hkey => ?_)⟩
    rw [hdead.unmatched q hq hkey] at hmatched
    cases hmatched

/-- Once a token that was shown opens no live row and no request for it is between its match and its
put, it is accepted for at most the time to live, by any replica. -/
theorem revoked_expires {as as' : List Act} {u u' : World} (hrun : Run (Acts H) start as w)
    (hvalid : h.Valid) (hissued : ∃ e ∈ w.issued, e.plaintext = tokenFromHeaders h)
    (hrevoked : ∀ r ∈ w.schemas h.schema, ¬r.Opens H (tokenFromHeaders h))
    (hunmatched : ∀ q ∈ w.requests, cacheKey q.headers = cacheKey h → q.matched = none)
    (hlater : Run (Acts H) w as' u) {id : Identity}
    (haccept : Acts H u (.replied h (.identity id)) u') : u'.clock ≤ w.clock + cacheTtl := by
  have hkept : Kept H w := hrun.invariant (fun _ _ _ hw ha => hw.acts ha) .start
  have hdead : Dead H h w.clock w := ⟨hissued, hrevoked, hkept.valid, hunmatched, fun replica =>
    (hkept.caches replica).imp fun _ _ _ hg _ => hg.1⟩
  have hlast : Dead H h w.clock u := hlater.invariant (fun _ _ _ hw ha => hw.acts hvalid ha) hdead
  cases haccept with
  | hit hclock hvalid' htoken hget =>
    obtain ⟨time, hput, hle⟩ := (hlast.caches _).found hget
    have htime := hput rfl
    dsimp only
    omega
  | put hclock hq hmatched hput =>
    rw [hlast.unmatched _ hq rfl] at hmatched
    cases hmatched

end

/-! ### A token that is revoked a moment after its first use -/

def drawn : Minted := ⟨"t1", "0a", "s1", ""⟩

def acme : Headers := ⟨"", drawn.plaintext, "acme"⟩

def acmeAgent : Identity := ⟨orgFromHeaders acme, "a1"⟩

def drawnToken : IngestToken := (mintIngestToken Auth.plainHasher drawn "a1" none).2

def mintedWorld : World :=
  { start with
    schemas := Function.update start.schemas acme.schema [drawnToken]
    issued := [⟨drawn.plaintext, acme.schema, "a1"⟩]
    clock := 1 }

/-- The cache that holds one entry. -/
def acmeCache : TokenCache :=
  { newTokenCache 4096 cacheTtl with
    ll := [0]
    m := Function.update (fun _ => none) (cacheKey acme) (some 0)
    heap := Function.update (fun _ => none) 0 (some ⟨cacheKey acme, acmeAgent, 2 + cacheTtl⟩)
    next := 1 }

/-- The first request has looked in the cache. -/
def askedWorld : World :=
  { mintedWorld with
    caches := Function.update start.caches 0 (newTokenCache 4096 cacheTtl)
    requests := [⟨0, acme, none⟩]
    clock := 2 }

def matchedWorld : World := { askedWorld with requests := [⟨0, acme, some "a1"⟩] }

def usedWorld : World :=
  { askedWorld with
    caches := Function.update askedWorld.caches 0 acmeCache
    requests := [] }

def revokedWorld : World :=
  { usedWorld with
    schemas := Function.update usedWorld.schemas acme.schema
      [{ drawnToken with revokedAt := some 3 }]
    issued := usedWorld.issued ++ []
    clock := 3 }

lemma acme_token : tokenFromHeaders acme = drawn.plaintext := by decide

lemma acme_tokenPrefix : tokenPrefix (tokenFromHeaders acme) = some "0a" := by decide

lemma acme_valid : acme.Valid := by
  unfold Headers.Valid
  decide

lemma acme_named : tokenFromHeaders acme ≠ "" := by decide

/-- A request in which the token is matched and put into the cache. -/
lemma run_usedWorld : Run (Acts Auth.plainHasher) start
    [.changed acme.schema (.createToken drawn "a1" none), .went acme, .went acme,
      .replied acme (.identity acmeAgent)] usedWorld := by
  have hrow : drawnToken ∈ mintedWorld.schemas acme.schema := by simp [mintedWorld]
  have hopens : drawnToken.Opens Auth.plainHasher (tokenFromHeaders acme) :=
    ⟨rfl, acme_tokenPrefix, by decide⟩
  have hmatched : Acts Auth.plainHasher askedWorld (.went acme) matchedWorld := by
    have hstep := Acts.matched (w := askedWorld) (.head _) rfl hrow hopens
    simp only [askedWorld, List.erase_cons_head] at hstep
    exact hstep
  have hput : (newTokenCache 4096 cacheTtl).put 2 (cacheKey acme) acmeAgent = some acmeCache := rfl
  have hused :
      Acts Auth.plainHasher matchedWorld (.replied acme (.identity acmeAgent)) usedWorld := by
    have hstep := Acts.put (H := Auth.plainHasher) (w := matchedWorld) (Int.le_refl 2) (.head _) rfl
      hput
    simp only [matchedWorld, List.erase_cons_head] at hstep
    exact hstep
  refine .cons (t := mintedWorld) (.changed (by decide) rfl nofun) ?_
  refine .cons (t := askedWorld) ?_ (.cons hmatched (.single hused))
  exact @Acts.miss _ mintedWorld 2 0 acme _ (by decide) acme_valid acme_named rfl
    (by simp [acme_tokenPrefix])

lemma run_revokedWorld : Run (Acts Auth.plainHasher) start
    [.changed acme.schema (.createToken drawn "a1" none), .went acme, .went acme,
      .replied acme (.identity acmeAgent), .changed acme.schema (.revokeToken "a1" "t1")]
    revokedWorld := by
  have hrows : (Change.revokeToken "a1" "t1").apply Auth.plainHasher 3
      (usedWorld.schemas acme.schema) = some [{ drawnToken with revokedAt := some 3 }] := by
    have hschema : usedWorld.schemas acme.schema = [drawnToken] := Function.update_self ..
    rw [hschema]
    rfl
  exact run_usedWorld.snoc (.changed (by decide) hrows nofun)

/-- The cache answers the next request. -/
lemma acme_hit {w : World} (now : Int) (hclock : w.clock ≤ now) (hnow : now ≤ 2 + cacheTtl)
    (hcache : w.caches 0 = acmeCache) : ∃ w' : World, w'.clock = now ∧
      Acts Auth.plainHasher w (.replied acme (.identity acmeAgent)) w' := by
  have hget : (w.caches 0).get now (cacheKey acme) =
      some (acmeCache.moveToFront 0, some acmeAgent) := by
    rw [hcache, TokenCache.get]
    simp only [acmeCache, Function.update_self]
    exact if_neg (Int.not_lt.2 hnow)
  exact ⟨_, rfl, .hit hclock acme_valid acme_named hget⟩

theorem accepted_issued_acme :
    acmeAgent.org = orgFromHeaders acme ∧
      ⟨tokenFromHeaders acme, acme.schema, acmeAgent.agentID⟩ ∈ usedWorld.issued := by
  have hcache : usedWorld.caches 0 = acmeCache := by simp [usedWorld]
  obtain ⟨w, -, haccept⟩ := acme_hit 2 (Int.le_refl _) (by decide) hcache
  exact accepted_issued run_usedWorld haccept

theorem revoked_expires_acme : ∃ w : World,
    Acts Auth.plainHasher revokedWorld (.replied acme (.identity acmeAgent)) w ∧
      w.clock ≤ revokedWorld.clock + cacheTtl := by
  have hcache : revokedWorld.caches 0 = acmeCache := by simp [revokedWorld, usedWorld]
  obtain ⟨w, -, haccept⟩ := acme_hit 4 (by decide) (by decide) hcache
  refine ⟨w, haccept, revoked_expires run_revokedWorld acme_valid ?_ ?_ nofun (.nil _) haccept⟩
  · exact ⟨⟨drawn.plaintext, acme.schema, "a1"⟩, by simp [revokedWorld, usedWorld, askedWorld,
      mintedWorld], acme_token.symm⟩
  · intro r hr hopens
    have hrows : revokedWorld.schemas acme.schema = [{ drawnToken with revokedAt := some 3 }] :=
      Function.update_self ..
    rw [hrows] at hr
    obtain rfl := List.mem_singleton.1 hr
    exact nomatch hopens.live

end Pulse.Ingest.TokenAuth
