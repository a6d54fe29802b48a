import Mathlib.Data.List.Pairwise
import Mathlib.Tactic.Common
import Mathlib.Tactic.Lemma

/-!
# Refresh tokens

The stateful half of a login session, `auth/refresh.py`, over the `refresh_token` rows of
one organisation's schema. argon2 and the random sources are parameters: a `Hasher` says
what hashing and verifying rely on, a `Minted` is what one call of `mint_refresh` draws.
-/

namespace Pulse.Auth

/-- A clock reading. The clock is read once a request. -/
abbrev Time := Nat

/-- argon2 as the code uses it: a salted hash verifies the text it was made from and no
other. -/
structure Hasher where
  hash : String → String → String
  verify : String → String → Bool
  verify_hash : ∀ salt plaintext presented,
    verify (hash salt plaintext) presented = true ↔ plaintext = presented

structure RefreshToken where
  id : String
  userId : String
  familyId : String
  tokenPrefix : String
  tokenHash : String
  expiresAt : Time
  revokedAt : Option Time := none
  lastUsedAt : Option Time := none
  userAgent : Option String := none
  deriving DecidableEq, Repr

/-- What `mint_refresh` draws: the key of the row, `uuid4().hex`, the two halves of the
plaintext and the salt of its hash. -/
structure Minted where
  id : String
  familyId : String
  tokenPrefix : String
  secret : String
  salt : String
  hex : ∀ c ∈ tokenPrefix.toList, c ∈ "0123456789abcdef".toList
  family_ne : familyId ≠ ""

def Minted.plaintext (m : Minted) : String :=
  "vor_" ++ m.tokenPrefix ++ "_" ++ m.secret

/-- `family_id or uuid4().hex`. -/
def familyOr (familyId : Option String) (m : Minted) : String :=
  match familyId with
  | none => m.familyId
  | some f => if f = "" then m.familyId else f

def mintRefresh (H : Hasher) (ttl : Time) (now : Time) (m : Minted) (userId : String)
    (familyId : Option String) (userAgent : Option String) : String × RefreshToken :=
  (m.plaintext,
    { id := m.id
      userId
      familyId := familyOr familyId m
      tokenPrefix := m.tokenPrefix
      tokenHash := H.hash m.salt m.plaintext
      expiresAt := now + ttl
      userAgent })

/-- `cs.split(sep, n)`. -/
def split (sep : Char) : Nat → List Char → List (List Char)
  | 0, cs => [cs]
  | n + 1, cs =>
    match cs.dropWhile (· ≠ sep) with
    | [] => [cs]
    | _ :: rest => cs.takeWhile (· ≠ sep) :: split sep n rest

/-- The token prefix that a well-formed plaintext names. -/
def prefixOf (plaintext : String) : Option String :=
  if "vor_".toList.isPrefixOf plaintext.toList then
    match split '_' 2 plaintext.toList with
    | [_, pre, _] => some (String.ofList pre)
    | _ => none
  else none

/-- `_find`: the row whose hash matches the plaintext, in any state. -/
def find (H : Hasher) (tokens : List RefreshToken) (plaintext : Option String) :
    Option RefreshToken := do
  let plaintext ← plaintext
  let pre ← prefixOf plaintext
  (tokens.filter (·.tokenPrefix = pre)).find? (H.verify ·.tokenHash plaintext)

/-- An `UPDATE` of the rows that meet a condition. -/
def updateWhere (p : RefreshToken → Bool) (f : RefreshToken → RefreshToken)
    (tokens : List RefreshToken) : List RefreshToken :=
  tokens.map fun r => if p r then f r else r

def revoke (now : Time) (r : RefreshToken) : RefreshToken :=
  { r with revokedAt := some now }

def revokeFamily (now : Time) (familyId : String) : List RefreshToken → List RefreshToken :=
  updateWhere (fun r => r.familyId = familyId ∧ r.revokedAt = none) (revoke now)

/-- The pending rows, and the new plaintext with its user when the token was good. -/
def rotateRefresh (H : Hasher) (ttl now : Time) (m : Minted) (tokens : List RefreshToken)
    (plaintext userAgent : Option String) :
    List RefreshToken × Option (String × String) :=
  match find H tokens plaintext with
  | none => (tokens, none)
  | some row =>
    if row.revokedAt ≠ none then
      (revokeFamily now row.familyId tokens, none)
    else if row.expiresAt ≤ now then
      (tokens, none)
    else
      let used := updateWhere (·.id = row.id)
        (fun r => { r with revokedAt := some now, lastUsedAt := some now }) tokens
      let minted := mintRefresh H ttl now m row.userId (some row.familyId) userAgent
      (used ++ [minted.2], some (minted.1, row.userId))

def revokeRefresh (H : Hasher) (now : Time) (tokens : List RefreshToken)
    (plaintext : Option String) : List RefreshToken :=
  match find H tokens plaintext with
  | none => tokens
  | some row =>
    if row.revokedAt = none then updateWhere (·.id = row.id) (revoke now) tokens else tokens

/-- The rows without the user's live ones, and how many of these there were. -/
def revokeAll (now : Time) (tokens : List RefreshToken) (userId : String) :
    List RefreshToken × Nat :=
  let live := fun r : RefreshToken => decide (r.userId = userId ∧ r.revokedAt = none)
  (updateWhere live (revoke now) tokens, tokens.countP live)

/-! ### The plaintext -/

lemma takeWhile_append_sep {sep : Char} {cs rest : List Char} (h : sep ∉ cs) :
    (cs ++ sep :: rest).takeWhile (· ≠ sep) = cs := by
  rw [List.takeWhile_append_of_pos]
  · simp
  · intro c hc
    simpa using fun he : c = sep => h (he ▸ hc)

lemma dropWhile_append_sep {sep : Char} {cs rest : List Char} (h : sep ∉ cs) :
    (cs ++ sep :: rest).dropWhile (· ≠ sep) = sep :: rest := by
  rw [List.dropWhile_append_of_pos]
  · simp
  · intro c hc
    simpa using fun he : c = sep => h (he ▸ hc)

lemma split_append {sep : Char} {n : Nat} {cs rest : List Char} (h : sep ∉ cs) :
    split sep (n + 1) (cs ++ sep :: rest) = cs :: split sep n rest := by
  simp only [split]
  rw [dropWhile_append_sep h, takeWhile_append_sep h]

lemma split_two {sep : Char} {as bs cs : List Char} (ha : sep ∉ as) (hb : sep ∉ bs) :
    split sep 2 (as ++ sep :: (bs ++ sep :: cs)) = [as, bs, cs] := by
  rw [split_append ha, split_append hb]
  rfl

lemma Minted.sep_not_mem (m : Minted) : '_' ∉ m.tokenPrefix.toList :=
  fun h => absurd (m.hex '_' h) (by decide)

lemma Minted.toList_plaintext (m : Minted) :
    m.plaintext.toList =
      "vor".toList ++ '_' :: (m.tokenPrefix.toList ++ '_' :: m.secret.toList) := by
  simp [Minted.plaintext]

/-- The code finds the token prefix again in the plaintext it made. -/
theorem Minted.prefixOf_plaintext (m : Minted) : prefixOf m.plaintext = some m.tokenPrefix := by
  have hvor : "vor_".toList.isPrefixOf m.plaintext.toList = true := by
    simp [Minted.plaintext]
  have hsplit : split '_' 2 m.plaintext.toList =
      ["vor".toList, m.tokenPrefix.toList, m.secret.toList] := by
    rw [m.toList_plaintext]
    exact split_two (by decide) m.sep_not_mem
  simp only [prefixOf, if_pos hvor, hsplit, String.ofList_toList]

/-! ### What the operations find and keep -/

lemma find_eq_some {H : Hasher} {tokens : List RefreshToken} {presented : Option String}
    {row : RefreshToken} (h : find H tokens presented = some row) :
    ∃ p, presented = some p ∧ row ∈ tokens ∧ H.verify row.tokenHash p = true := by
  cases presented with
  | none => simp [find] at h
  | some p =>
    cases hpre : prefixOf p with
    | none => simp [find, hpre] at h
    | some pre =>
      simp only [find, hpre, bind, Option.bind] at h
      have hmem := List.mem_of_find?_eq_some h
      have hverify := List.find?_some h
      exact ⟨p, rfl, (List.mem_filter.1 hmem).1, hverify⟩

lemma mem_updateWhere {p : RefreshToken → Bool} {f : RefreshToken → RefreshToken}
    {tokens : List RefreshToken} {r : RefreshToken} :
    r ∈ updateWhere p f tokens ↔ ∃ r₀ ∈ tokens, r = if p r₀ then f r₀ else r₀ := by
  simp only [updateWhere, List.mem_map, eq_comm]

/-- The same token later: it may have been revoked or used since. -/
structure Kept (r r' : RefreshToken) : Prop where
  id : r'.id = r.id
  userId : r'.userId = r.userId
  familyId : r'.familyId = r.familyId
  tokenPrefix : r'.tokenPrefix = r.tokenPrefix
  tokenHash : r'.tokenHash = r.tokenHash
  expiresAt : r'.expiresAt = r.expiresAt
  revoked : r.revokedAt ≠ none → r'.revokedAt ≠ none

lemma Kept.refl (r : RefreshToken) : Kept r r :=
  ⟨rfl, rfl, rfl, rfl, rfl, rfl, fun h => h⟩

lemma kept_revoke (now : Time) (r : RefreshToken) : Kept r (revoke now r) :=
  ⟨rfl, rfl, rfl, rfl, rfl, rfl, by simp [revoke]⟩

lemma kept_use (now : Time) (r : RefreshToken) :
    Kept r { r with revokedAt := some now, lastUsedAt := some now } :=
  ⟨rfl, rfl, rfl, rfl, rfl, rfl, by simp⟩

lemma Kept.ite {f : RefreshToken → RefreshToken} (hf : ∀ r, Kept r (f r))
    (p : RefreshToken → Bool) (r : RefreshToken) : Kept r (if p r then f r else r) := by
  split
  · exact hf r
  · exact Kept.refl r

/-- No plaintext opens both rows. -/
def Apart (H : Hasher) (a b : RefreshToken) : Prop :=
  ∀ p, H.verify a.tokenHash p = true → H.verify b.tokenHash p = false

lemma Apart.symm {H : Hasher} {a b : RefreshToken} (h : Apart H a b) : Apart H b a := by
  intro p hb
  by_contra ha
  have := h p (Bool.not_eq_false _ ▸ ha)
  rw [hb] at this
  cases this

instance (H : Hasher) : Std.Symm (Apart H) := ⟨fun _ _ h => h.symm⟩

lemma eq_of_opens {H : Hasher} {tokens : List RefreshToken} (h : tokens.Pairwise (Apart H))
    {a b : RefreshToken} {p : String} (ha : a ∈ tokens) (hb : b ∈ tokens)
    (hpa : H.verify a.tokenHash p = true) (hpb : H.verify b.tokenHash p = true) : a = b := by
  by_contra hne
  have := h.forall ha hb hne p hpa
  rw [hpb] at this
  cases this

lemma apart_mintRefresh {H : Hasher} {ttl now : Time} {m : Minted} {user : String}
    {familyId userAgent : Option String} {r : RefreshToken}
    (h : H.verify r.tokenHash m.plaintext = false) :
    Apart H r (mintRefresh H ttl now m user familyId userAgent).2 := by
  intro p hp
  by_contra hne
  have hp' := (H.verify_hash m.salt m.plaintext p).1 (Bool.not_eq_false _ ▸ hne)
  rw [← hp', h] at hp
  cases hp

lemma familyOr_ne (familyId : Option String) (m : Minted) : familyOr familyId m ≠ "" := by
  unfold familyOr
  split
  · exact m.family_ne
  · split
    · exact m.family_ne
    · assumption

lemma familyOr_some {m : Minted} {f : String} (h : f ≠ "") : familyOr (some f) m = f := by
  simp [familyOr, h]

/-- The response to reuse that `rotate_refresh` writes: every row of the family revoked. -/
theorem rotateRefresh_reuse {H : Hasher} {ttl now : Time} {m : Minted}
    {tokens : List RefreshToken} {plaintext userAgent : Option String} {row : RefreshToken}
    (hfind : find H tokens plaintext = some row) (hrevoked : row.revokedAt ≠ none) :
    (rotateRefresh H ttl now m tokens plaintext userAgent).2 = none ∧
      ∀ r ∈ (rotateRefresh H ttl now m tokens plaintext userAgent).1,
        r.familyId = row.familyId → r.revokedAt ≠ none := by
  simp only [rotateRefresh, hfind, if_pos hrevoked]
  refine ⟨trivial, ?_⟩
  intro r hr hfamily
  obtain ⟨r₀, -, rfl⟩ := mem_updateWhere.1 hr
  by_cases hlive : r₀.familyId = row.familyId ∧ r₀.revokedAt = none
  · simp [hlive, revoke]
  · simp only [hlive, decide_false, Bool.false_eq_true, ↓reduceIte] at hfamily ⊢
    exact fun h => hlive ⟨hfamily, h⟩

/-! ### Sample tokens -/

/-- A hash that shows its text, enough to tell two texts apart. -/
def plainHasher : Hasher where
  hash _ plaintext := plaintext
  verify tokenHash presented := tokenHash == presented
  verify_hash := by simp

def firstToken : Minted := ⟨"1", "f1", "0a", "s1", "", by simp, by decide⟩

def secondToken : Minted := ⟨"2", "f2", "0b", "s2", "", by simp, by decide⟩

def thirdToken : Minted := ⟨"3", "f3", "0c", "s3", "", by simp, by decide⟩

end Pulse.Auth
