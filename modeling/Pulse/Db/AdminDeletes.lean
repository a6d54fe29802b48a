import Pulse.Db.Models

/-!
# Deletes of an administrator

`delete_agent` clears a written-out list of models before the agent, and `remove_member` clears
none before the membership. Which agents and which members they can delete.
-/

namespace Pulse.Db

open Lib (Database Violation)

inductive RequestError
  | forbidden (detail : String)
  | notFound (detail : String)
  | database (v : Violation)
  deriving DecidableEq

/-- `_ADMIN` -/
def isAdmin (mem : Row) : Bool :=
  mem (.other "role") = some (.text "owner") || mem (.other "role") = some (.text "admin")

/-! ### `delete_agent` -/

/-- `visible_agent_ids` -/
def visibleAgentIds (db : OrgDb) (mem : Row) : Option (List (Option Value)) :=
  if isAdmin mem then none
  else
    let grants := (db.rows .agentAccess).filter fun r => r .membershipId = mem .id
    if grants = [] then none else some (grants.map fun r => r .agentId)

/-- `_org_agent` -/
def orgAgent (db : OrgDb) (mem : Row) (agentId : String) : Except RequestError Row :=
  match (db.rows .agent).find? fun r => r .id = some (.text agentId) && r .orgId = mem .orgId with
  | none => .error (.notFound "agent not found")
  | some agent =>
    if (visibleAgentIds db mem).all (agent .id ∈ ·) then .ok agent
    else .error (.notFound "agent not found")

/-- The models that `delete_agent` lists, the parameters before the uploads that they refer to. -/
def agentModels : List Table := [.agentScript, .agentGuardrail, .agentAccess, .ingestToken,
  .agentAudioConfig, .agentOtlpMapping, .callParams, .agentParamsUpload]

/-- `delete_agent` -/
def deleteAgent (db : OrgDb) (mem : Row) (agentId : String) : Except RequestError OrgDb := do
  if !isAdmin mem then throw (.forbidden "insufficient role")
  let agent ← orgAgent db mem agentId
  let db ← (db.deleteAll agentModels fun r => r .agentId = some (.text agentId)).mapError .database
  (db.delete .agent fun r => r .id = agent .id).mapError .database

/-! ### `remove_member` -/

/-- `_membership` -/
def membershipOf (db : OrgDb) (orgId : String) (user : Row) : Option Row :=
  (db.rows .membership).find? fun r => r .orgId = some (.text orgId) && r .userId = user .id

/-- `remove_member` -/
def removeMember (db : OrgDb) (user : Row) (orgId mid : String) : Except RequestError OrgDb := do
  if !(membershipOf db orgId user).any isAdmin then throw (.forbidden "admin role required")
  match (db.rows .membership).find? fun r => r .id = some (.text mid) with
  | none => throw (.notFound "member not found")
  | some mem =>
    if mem .orgId ≠ some (.text orgId) then throw (.notFound "member not found")
    (db.delete .membership fun r => r .id = mem .id).mapError .database

/-! ### What is left -/

/-- The row has the key, or refers to it. -/
def belongs (target : Table) (key : Value) (t : Table) (r : Row) : Bool :=
  decide (t = target ∧ r .id = some key) ||
    foreignKeys.any fun fk => fk.table = t && fk.target = target && r fk.column = some key

/-- The row of the key is gone with those that refer to it, all others stay, and every foreign key
has its target. -/
structure Removed (db db' : OrgDb) (target : Table) (key : Value) : Prop where
  rows : ∀ t, db'.rows t = (db.rows t).filter fun r => !belongs target key t r
  targets : ∀ fk ∈ foreignKeys, ∀ r ∈ db'.rows fk.table, r fk.column ≠ none →
    ∃ d ∈ db'.rows fk.target, d (metadata.key fk.target) = r fk.column

/-- The agent has no manifest, and no upload that the parameters of another agent refer to. -/
structure Deletable (db : OrgDb) (agentId : String) : Prop where
  manifest : ∀ r ∈ db.rows .agentIntegrationManifest, r .agentId ≠ some (.text agentId)
  uploads : ∀ u ∈ db.rows .agentParamsUpload, u .agentId = some (.text agentId) →
    ∀ r ∈ db.rows .callParams, r .uploadId = u .id → r .agentId = some (.text agentId)

/-- Every foreign key to an agent is an `agent_id`, of a listed model or of a manifest. -/
lemma foreignKey_agent : ∀ fk ∈ foreignKeys, fk.target = .agent →
    fk.column = .agentId ∧ (fk.table ∈ agentModels ∨ fk.table = .agentIntegrationManifest) := by
  decide

lemma agentModels_foreignKey : ∀ t ∈ agentModels, ⟨t, .agentId, .agent⟩ ∈ foreignKeys := by
  decide

lemma agentModels_leaf : ∀ t ∈ agentModels.dropLast, ∀ fk ∈ metadata.foreignKeys, fk.target ≠ t := by
  decide

lemma foreignKey_upload : ∀ fk ∈ foreignKeys, fk.target = .agentParamsUpload →
    fk = ⟨.callParams, .uploadId, .agentParamsUpload⟩ := by
  decide

lemma foreignKey_membership : ∀ fk ∈ foreignKeys, fk.target = .membership →
    fk = ⟨.agentAccess, .membershipId, .membership⟩ := by
  decide

lemma belongs_iff {target : Table} {key : Value} {t : Table} {r : Row} :
    belongs target key t r = true ↔ t = target ∧ r .id = some key ∨
      ∃ fk ∈ foreignKeys, fk.table = t ∧ fk.target = target ∧ r fk.column = some key := by
  simp [belongs, and_assoc]

/-! ### Agents -/

section

variable {db db' : OrgDb} {mem agent : Row} {agentId : String}

lemma orgAgent_ok (h : orgAgent db mem agentId = .ok agent) : agent .id = some (.text agentId) := by
  unfold orgAgent at h
  split at h
  · cases h
  · next hfind =>
    split at h
    · cases h
      have hand := List.find?_some hfind
      rw [Bool.and_eq_true, decide_eq_true_eq] at hand
      exact hand.1
    · cases h

/-- An administrator sees every agent of the organisation. -/
lemma orgAgent_of_admin (hadmin : isAdmin mem = true) (hmem : agent ∈ db.rows .agent)
    (hid : agent .id = some (.text agentId)) (horg : agent .orgId = mem .orgId) :
    ∃ found, orgAgent db mem agentId = .ok found := by
  have hseen : visibleAgentIds db mem = none := if_pos hadmin
  cases hfind : (db.rows .agent).find? fun r =>
      r .id = some (.text agentId) && r .orgId = mem .orgId with
  | none =>
    rw [List.find?_eq_none] at hfind
    exact absurd (by simp [hid, horg]) (hfind agent hmem)
  | some found =>
    refine ⟨found, ?_⟩
    rw [orgAgent, hfind, hseen]
    rfl

lemma deleteAgent_steps (h : deleteAgent db mem agentId = .ok db') : ∃ db₁,
    db.deleteAll agentModels (fun r => r .agentId = some (.text agentId)) = .ok db₁ ∧
      db₁.delete .agent (fun r => r .id = some (.text agentId)) = .ok db' := by
  unfold deleteAgent at h
  split at h
  · exact absurd h Lib.throw_bind_ne_ok
  · obtain ⟨-, -, h⟩ := Lib.bind_eq_ok.1 h
    obtain ⟨agent, hagent, h⟩ := Lib.bind_eq_ok.1 h
    obtain ⟨db₁, h₁, h⟩ := Lib.bind_eq_ok.1 h
    rw [Lib.mapError_eq_ok] at h₁ h
    rw [orgAgent_ok hagent] at h
    exact ⟨db₁, h₁, h⟩

/-- What a delete that goes through leaves in each table. -/
lemma deleteAgent_rows (h : deleteAgent db mem agentId = .ok db') :
    db'.rows .agent = (db.rows .agent).filter (fun r => !decide (r .id = some (.text agentId))) ∧
      ∀ t, t ≠ .agent → db'.rows t = if t ∈ agentModels then
        (db.rows t).filter fun r => !decide (r .agentId = some (.text agentId)) else db.rows t := by
  obtain ⟨db₁, h₁, h₂⟩ := deleteAgent_steps h
  constructor
  · rw [Database.delete_rows h₂, Database.deleteAll_rows h₁, if_neg (by decide)]
  · intro t ht
    rw [Database.delete_rows_of_ne h₂ ht, Database.deleteAll_rows h₁]

/-- Rows that stay do not refer to the agent, nor to an upload that goes. -/
lemma deletable_of_ok (h : deleteAgent db mem agentId = .ok db') : Deletable db agentId := by
  obtain ⟨hagent, hrows⟩ := deleteAgent_rows h
  constructor
  · intro r hr hkey
    have hr' : r ∈ db'.rows .agentIntegrationManifest := by
      rw [hrows _ (by decide), if_neg (by decide)]
      exact hr
    obtain ⟨d, hd, hid⟩ := db'.refs ⟨.agentIntegrationManifest, .agentId, .agent⟩
      (show _ ∈ foreignKeys by decide) r hr' (by simp [hkey])
    rw [hagent] at hd
    have hgone := (List.mem_filter.1 hd).2
    rw [show d .id = some (.text agentId) from hid.trans hkey] at hgone
    simp at hgone
  · intro u hu hukey r hr hid
    by_contra hne
    have hr' : r ∈ db'.rows .callParams := by
      rw [hrows _ (by decide), if_pos (by decide)]
      exact List.mem_filter.2 ⟨hr, by simpa using hne⟩
    have hnull : r .uploadId ≠ none := hid ▸ db.key_some .agentParamsUpload u hu
    obtain ⟨d, hd, hdid⟩ := db'.refs ⟨.callParams, .uploadId, .agentParamsUpload⟩
      (show _ ∈ foreignKeys by decide) r hr' hnull
    rw [hrows _ (by decide), if_pos (by decide)] at hd
    obtain ⟨hd, hgone⟩ := List.mem_filter.1 hd
    obtain rfl : d = u := List.inj_on_of_nodup_map (db.key_nodup .agentParamsUpload) hd hu
      (hdid.trans hid)
    simp [hukey] at hgone

lemma deleteAgent_of_deletable (hadmin : isAdmin mem = true)
    (hagent : orgAgent db mem agentId = .ok agent) (h : Deletable db agentId) :
    ∃ db', deleteAgent db mem agentId = .ok db' := by
  obtain ⟨db₁, h₁, hrows₁⟩ := db.deleteAll_leaf (fun r => r .agentId = some (.text agentId))
    agentModels.dropLast agentModels_leaf
  obtain ⟨db₂, h₂⟩ : ∃ db₂, db₁.delete .agentParamsUpload
      (fun r => r .agentId = some (.text agentId)) = .ok db₂ := by
    refine Database.delete_ok fun fk hfk htarget r hr _ hnull d hd hkey hid => ?_
    obtain rfl := foreignKey_upload fk hfk htarget
    rw [hrows₁, if_pos (by decide)] at hr
    rw [hrows₁, if_neg (by decide)] at hd
    obtain ⟨hr, hstays⟩ := List.mem_filter.1 hr
    have hgone := h.uploads d hd (by simpa using hkey) r hr hid.symm
    simp [hgone] at hstays
  have hall : db.deleteAll agentModels (fun r => r .agentId = some (.text agentId)) = .ok db₂ := by
    have hlist : agentModels = agentModels.dropLast ++ [.agentParamsUpload] := rfl
    have hlast : db₁.deleteAll [.agentParamsUpload] (fun r => r .agentId = some (.text agentId)) =
        .ok db₂ := by
      rw [Database.deleteAll, List.foldlM_cons]
      exact Lib.bind_eq_ok.2 ⟨db₂, h₂, rfl⟩
    rw [hlist]
    exact Database.deleteAll_append h₁ hlast
  obtain ⟨db₃, h₃⟩ : ∃ db₃, db₂.delete .agent (fun r => r .id = agent .id) = .ok db₃ := by
    refine Database.delete_ok fun fk hfk htarget r hr _ hnull d hd hkey hid => ?_
    obtain ⟨hcolumn, htable⟩ := foreignKey_agent fk hfk htarget
    have hkey : d .id = agent .id := by simpa using hkey
    have hrkey : r .agentId = some (.text agentId) := by
      rw [← hcolumn, ← orgAgent_ok hagent, ← hkey]
      exact hid.symm
    rw [Database.deleteAll_rows hall] at hr
    obtain htable | htable := htable
    · rw [if_pos htable] at hr
      have hstays := (List.mem_filter.1 hr).2
      simp [hrkey] at hstays
    · rw [htable, if_neg (by decide)] at hr
      exact h.manifest r hr hrkey
  refine ⟨db₃, ?_⟩
  rw [deleteAgent, if_neg (by simp [hadmin])]
  exact Lib.bind_eq_ok.2 ⟨agent, hagent, Lib.bind_eq_ok.2
    ⟨db₂, Lib.mapError_eq_ok.2 hall, Lib.mapError_eq_ok.2 h₃⟩⟩

lemma deleteAgent_removed (h : deleteAgent db mem agentId = .ok db') :
    Removed db db' .agent (.text agentId) := by
  obtain ⟨hagent, hrows⟩ := deleteAgent_rows h
  have hdeletable := deletable_of_ok h
  refine ⟨fun t => ?_, db'.refs⟩
  by_cases ht : t = .agent
  · subst ht
    rw [hagent]
    refine List.filter_congr fun r _ => congrArg _ ?_
    rw [Bool.eq_iff_iff, belongs_iff, decide_eq_true_eq]
    constructor
    · exact fun hid => .inl ⟨rfl, hid⟩
    · rintro (⟨-, hid⟩ | ⟨fk, hfk, htable, htarget, -⟩)
      · exact hid
      · have hne : ∀ fk ∈ foreignKeys, fk.target = .agent → fk.table ≠ .agent := by decide
        exact absurd htable (hne fk hfk htarget)
  · rw [hrows t ht]
    split
    · next hlist =>
      refine List.filter_congr fun r _ => congrArg _ ?_
      rw [Bool.eq_iff_iff, belongs_iff, decide_eq_true_eq]
      constructor
      · exact fun hkey => .inr ⟨_, agentModels_foreignKey t hlist, rfl, rfl, hkey⟩
      · rintro (⟨heq, -⟩ | ⟨fk, hfk, -, htarget, hkey⟩)
        · exact absurd heq ht
        · rwa [(foreignKey_agent fk hfk htarget).1] at hkey
    · next hlist =>
      refine (List.filter_eq_self.2 fun r hr => ?_).symm
      rw [Bool.not_eq_true', ← Bool.not_eq_true, belongs_iff]
      rintro (⟨heq, -⟩ | ⟨fk, hfk, rfl, htarget, hkey⟩)
      · exact ht heq
      · obtain ⟨hcolumn, htable⟩ := foreignKey_agent fk hfk htarget
        obtain htable | htable := htable
        · exact hlist htable
        · rw [htable] at hr
          rw [hcolumn] at hkey
          exact hdeletable.manifest r hr hkey

end

/-! ### Members -/

section

variable {db db' : OrgDb} {user mem : Row} {orgId mid : String}

lemma removeMember_ok_iff (hadmin : (membershipOf db orgId user).any isAdmin = true)
    (hmem : mem ∈ db.rows .membership) (hid : mem .id = some (.text mid))
    (horg : mem .orgId = some (.text orgId)) : removeMember db user orgId mid = .ok db' ↔
      db.delete .membership (fun r => r .id = some (.text mid)) = .ok db' := by
  have hfind : (db.rows .membership).find? (fun r => r .id = some (.text mid)) = some mem := by
    cases hfind : (db.rows .membership).find? fun r => r .id = some (.text mid) with
    | none =>
      rw [List.find?_eq_none] at hfind
      exact absurd (decide_eq_true hid) (hfind mem hmem)
    | some found =>
      have hfound := List.find?_some hfind
      exact congrArg some (List.inj_on_of_nodup_map (db.key_nodup .membership)
        (List.mem_of_find?_eq_some hfind) hmem ((of_decide_eq_true hfound).trans hid.symm))
  rw [removeMember, if_neg (by simp [hadmin]), hfind, ← hid]
  simp only [horg, ne_eq, not_true_eq_false, if_false]
  exact Lib.mapError_eq_ok

lemma delete_membership_ok_iff : (∃ db', db.delete .membership
      (fun r => r .id = some (.text mid)) = .ok db') ↔
    (∃ mem ∈ db.rows .membership, mem .id = some (.text mid)) →
      ∀ r ∈ db.rows .agentAccess, r .membershipId ≠ some (.text mid) := by
  constructor
  · rintro ⟨db', hok⟩ - r hr hkey
    have hr' : r ∈ db'.rows .agentAccess := by
      rw [Database.delete_rows_of_ne hok (by decide)]
      exact hr
    obtain ⟨d, hd, hid⟩ := db'.refs ⟨.agentAccess, .membershipId, .membership⟩
      (show _ ∈ foreignKeys by decide) r hr' (by simp [hkey])
    rw [Database.delete_rows hok] at hd
    have hgone := (List.mem_filter.1 hd).2
    rw [show d .id = some (.text mid) from hid.trans hkey] at hgone
    simp at hgone
  · intro h
    refine Database.delete_ok fun fk hfk htarget r hr _ _ d hd hkey hid => ?_
    obtain rfl := foreignKey_membership fk hfk htarget
    have hkey : d .id = some (.text mid) := by simpa using hkey
    exact h ⟨d, hd, hkey⟩ r hr (hid.symm.trans hkey)

lemma delete_membership_removed
    (h : db.delete .membership (fun r => r .id = some (.text mid)) = .ok db')
    (hfree : ∀ r ∈ db.rows .agentAccess, r .membershipId ≠ some (.text mid)) :
    Removed db db' .membership (.text mid) := by
  refine ⟨fun t => ?_, db'.refs⟩
  by_cases ht : t = .membership
  · subst ht
    rw [Database.delete_rows h]
    refine List.filter_congr fun r _ => congrArg _ ?_
    rw [Bool.eq_iff_iff, belongs_iff, decide_eq_true_eq]
    constructor
    · exact fun hid => .inl ⟨rfl, hid⟩
    · rintro (⟨-, hid⟩ | ⟨fk, hfk, htable, htarget, -⟩)
      · exact hid
      · rw [foreignKey_membership fk hfk htarget] at htable
        cases htable
  · rw [Database.delete_rows_of_ne h ht]
    refine (List.filter_eq_self.2 fun r hr => ?_).symm
    rw [Bool.not_eq_true', ← Bool.not_eq_true, belongs_iff]
    rintro (⟨heq, -⟩ | ⟨fk, hfk, rfl, htarget, hkey⟩)
    · exact ht heq
    · obtain rfl := foreignKey_membership fk hfk htarget
      exact hfree r hr hkey

end

/-- An administrator deletes exactly the agents without a manifest and without an upload in use
elsewhere, and removes exactly the members without grants. -/
theorem admin_deletes_iff (db : OrgDb) :
    (∀ mem agent agentId, isAdmin mem = true → agent ∈ db.rows .agent →
      agent .id = some (.text agentId) → agent .orgId = mem .orgId →
        ((∃ db', deleteAgent db mem agentId = .ok db' ∧ Removed db db' .agent (.text agentId)) ↔
          Deletable db agentId)) ∧
    ∀ user mem orgId mid, (membershipOf db orgId user).any isAdmin = true →
      mem ∈ db.rows .membership → mem .id = some (.text mid) → mem .orgId = some (.text orgId) →
        ((∃ db', removeMember db user orgId mid = .ok db' ∧
            Removed db db' .membership (.text mid)) ↔
          ∀ r ∈ db.rows .agentAccess, r .membershipId ≠ some (.text mid)) := by
  constructor
  · intro mem agent agentId hadmin hmem hid horg
    obtain ⟨found, hfound⟩ := orgAgent_of_admin hadmin hmem hid horg
    constructor
    · rintro ⟨db', hok, -⟩
      exact deletable_of_ok hok
    · intro h
      obtain ⟨db', hok⟩ := deleteAgent_of_deletable hadmin hfound h
      exact ⟨db', hok, deleteAgent_removed hok⟩
  · intro user mem orgId mid hadmin hmem hid horg
    constructor
    · rintro ⟨db', hok, -⟩
      rw [removeMember_ok_iff hadmin hmem hid horg] at hok
      exact delete_membership_ok_iff.1 ⟨db', hok⟩ ⟨mem, hmem, hid⟩
    · intro h
      obtain ⟨db', hok⟩ := delete_membership_ok_iff.2 fun _ => h
      exact ⟨db', (removeMember_ok_iff hadmin hmem hid horg).2 hok,
        delete_membership_removed hok h⟩

/-! ### An agent with a manifest and a member with a grant -/

/-- A row with an id, and other columns by name. -/
def textRow (id : String) (columns : List (Column × String)) : Row := fun c =>
  if c = .id then some (.text id) else (columns.lookup c).map .text

def owner : Row := textRow "m1" [(.orgId, "o"), (.userId, "u1"), (.other "role", "owner")]

def viewer : Row := textRow "m2" [(.orgId, "o"), (.userId, "u2"), (.other "role", "viewer")]

def polled : Row := textRow "a1" [(.orgId, "o")]

/-- An organisation with two members and an agent, and other rows. -/
def office (rows : List (Table × Row)) : OrgDb :=
  match (Database.empty metadata Value).insertAll ([(.organization, textRow "o" []),
      (.appUser, textRow "u1" []), (.appUser, textRow "u2" []), (.membership, owner),
      (.membership, viewer), (.agent, polled)] ++ rows) with
  | .ok db => db
  | .error _ => .empty metadata Value

/-- A token of the agent. -/
def withToken : OrgDb := office [(.ingestToken, textRow "t1" [(.orgId, "o"), (.agentId, "a1")])]

theorem admin_deletes_token :
    (∃ db', deleteAgent withToken owner "a1" = .ok db' ∧
      Removed withToken db' .agent (.text "a1")) ∧
    ∃ db', removeMember withToken (textRow "u1" []) "o" "m2" = .ok db' ∧
      Removed withToken db' .membership (.text "m2") := by
  have hagents : withToken.rows .agent = [polled] := rfl
  have hmembers : withToken.rows .membership = [owner, viewer] := rfl
  have hmanifests : withToken.rows .agentIntegrationManifest = [] := rfl
  have huploads : withToken.rows .agentParamsUpload = [] := rfl
  have hgrants : withToken.rows .agentAccess = [] := rfl
  have hiff := admin_deletes_iff withToken
  constructor
  · refine (hiff.1 owner polled "a1" rfl (by simp [hagents]) rfl rfl).2 ⟨?_, ?_⟩
    · simp [hmanifests]
    · simp [huploads]
  · refine (hiff.2 (textRow "u1" []) viewer "o" "m2" rfl (by simp [hmembers]) rfl rfl).2 ?_
    simp [hgrants]

def withManifest : OrgDb := office [(.agentIntegrationManifest, textRow "i1" [(.agentId, "a1")])]

def withGrant : OrgDb :=
  office [(.agentAccess, textRow "g1" [(.membershipId, "m2"), (.agentId, "a1")])]

/-- The manifest keeps the agent, and the grant the member. -/
theorem admin_deletes_refused :
    (¬∀ (db : OrgDb) (mem agent : Row) (agentId : String), isAdmin mem = true →
      agent ∈ db.rows .agent → agent .id = some (.text agentId) → agent .orgId = mem .orgId →
        ∃ db', deleteAgent db mem agentId = .ok db' ∧ Removed db db' .agent (.text agentId)) ∧
    ¬∀ (db : OrgDb) (user mem : Row) (orgId mid : String),
      (membershipOf db orgId user).any isAdmin = true → mem ∈ db.rows .membership →
        mem .id = some (.text mid) → mem .orgId = some (.text orgId) →
          ∃ db', removeMember db user orgId mid = .ok db' ∧
            Removed db db' .membership (.text mid) := by
  constructor
  · intro h
    have hagents : withManifest.rows .agent = [polled] := rfl
    have herror : deleteAgent withManifest owner "a1" = .error (.database .foreignKey) := rfl
    obtain ⟨db', hok, -⟩ := h withManifest owner polled "a1" rfl (by simp [hagents]) rfl rfl
    rw [herror] at hok
    cases hok
  · intro h
    have hmembers : withGrant.rows .membership = [owner, viewer] := rfl
    have herror : removeMember withGrant (textRow "u1" []) "o" "m2" =
        .error (.database .foreignKey) := rfl
    obtain ⟨db', hok, -⟩ := h withGrant (textRow "u1" []) viewer "o" "m2" rfl
      (by simp [hmembers]) rfl rfl
    rw [herror] at hok
    cases hok

end Pulse.Db
