import Pulse.Api.Orgs
import Pulse.Chat.Sql
import Pulse.Lib.Run

/-!
# Members and the agents they see

`visible_agent_ids` of `auth/deps.py`, and the requests of `api/agents.py` and `api/orgs.py` that
write agents, memberships and grants. A member without a grant sees every agent, so a deletion
that takes the last grant away shows the member the others.
-/

namespace Pulse.Api

open Db
open Lib (Database Run guarded)
open Pulse.Chat (Cell strip)

/-- Why a request is refused; then nothing is written. -/
inductive Refusal
  /-- 403 -/
  | forbidden (detail : String)
  /-- 404 -/
  | notFound (detail : String)
  /-- 400: the role is none of `_ROLES`. -/
  | badRole
  /-- 400: the agents are not in this org. -/
  | foreignAgents (bad : List String)
  /-- 409 -/
  | alreadyMember
  /-- The value does not fit its column. -/
  | tooLong
  | database (e : Lib.Violation)
  deriving DecidableEq

/-- `_ADMIN` -/
def adminRoles : List String := ["owner", "admin"]

/-- `_ROLES` -/
def roles : List String := ["owner", "admin", "member", "viewer"]

/-- `normalize_email` -/
def normalizeEmail (py : Casing) (email : String) : String := py.lower (strip email)

/-! ### Memberships -/

/-- Is the role of the membership one of the two that administrate? -/
def administrates (m : Row) : Bool :=
  adminRoles.any fun role => m (.other "role") = some (.text role)

/-- `db.get(Membership, mid)` -/
def membershipOf (db : OrgDb) (mid : String) : Option Row :=
  (db.rows .membership).find? fun m => m .id = some (.text mid)

/-- `current_membership` -/
def currentMembership (db : OrgDb) (user : String) : Except Refusal Row :=
  match (db.rows .membership).find? fun m => m .userId = some (.text user) with
  | some m => .ok m
  | none => .error (.forbidden "no access to this organization")

/-- `require_role("owner", "admin")` -/
def requireRole (db : OrgDb) (user : String) : Except Refusal Row := do
  let m ← currentMembership db user
  if administrates m then .ok m else .error (.forbidden "insufficient role")

/-- `_membership` -/
def membershipIn (db : OrgDb) (orgId : String) (user : Cell) : Option Row :=
  (db.rows .membership).find? fun m => m .orgId = some (.text orgId) ∧ m .userId = user

/-- `_require_admin` -/
def requireAdmin (db : OrgDb) (orgId user : String) : Except Refusal Unit :=
  match membershipIn db orgId (some (.text user)) with
  | some m => if administrates m then .ok () else .error (.forbidden "admin role required")
  | none => .error (.forbidden "admin role required")

/-- The membership that a request names, within its organisation. -/
def namedMembership (db : OrgDb) (orgId mid : String) : Except Refusal Row :=
  match membershipOf db mid with
  | some m =>
    if m .orgId = some (.text orgId) then .ok m else .error (.notFound "member not found")
  | none => .error (.notFound "member not found")

/-! ### What a member sees -/

/-- The agents of an organisation. -/
def agentsOf (db : OrgDb) (orgId : Cell) : List Cell :=
  ((db.rows .agent).filter fun a => a .orgId = orgId).map fun a => a .id

/-- The agents that a membership is granted. -/
def grantsOf (db : OrgDb) (m : Row) : List Cell :=
  ((db.rows .agentAccess).filter fun g => g .membershipId = m .id).map fun g => g .agentId

/-- `visible_agent_ids`; `none` stands for all. -/
def visibleAgentIds (db : OrgDb) (m : Row) : Option (List Cell) :=
  if administrates m then none
  else
    let grants := grantsOf db m
    if grants.isEmpty then none else some grants

/-- The agents that a membership may see. -/
def visibleAgents (db : OrgDb) (m : Row) : List Cell :=
  match visibleAgentIds db m with
  | none => agentsOf db (m .orgId)
  | some ids => ids

/-- The agents that the member under the key sees. -/
def visibleTo (db : OrgDb) (mid : String) : List Cell :=
  match membershipOf db mid with
  | none => []
  | some m => visibleAgents db m

/-- `_org_agent` -/
def orgAgent (db : OrgDb) (m : Row) (agentId : String) : Except Refusal Row :=
  match (db.rows .agent).find? fun a => a .id = some (.text agentId) ∧ a .orgId = m .orgId with
  | none => .error (.notFound "agent not found")
  | some agent =>
    match visibleAgentIds db m with
    | none => .ok agent
    | some ids =>
      if ids.contains (agent .id) then .ok agent else .error (.notFound "agent not found")

/-! ### Requests -/

/-- `Agent(org_id=…, name=…, slug=…)` -/
def agentRow (id : String) (org : Cell) (name slug : String) : Row
  | .id => some (.text id)
  | .orgId => org
  | .name => some (.text name)
  | .slug => some (.text slug)
  | .other "params_required" => some (.int 0)
  | _ => none

/-- `Membership(org_id=…, user_id=…, role=…)` -/
def memberRow (id orgId : String) (user : Cell) (role : String) : Row
  | .id => some (.text id)
  | .orgId => some (.text orgId)
  | .userId => user
  | .other "role" => some (.text role)
  | _ => none

/-- `AppUser(email=…, is_active=True)` -/
def stubRow (id email : String) : Row
  | .id => some (.text id)
  | .email => some (.text email)
  | .other "is_active" => some (.int 1)
  | _ => none

/-- `AgentAccess(membership_id=…, agent_id=…)` -/
def grantRow (id mid agentId : String) : Row
  | .id => some (.text id)
  | .membershipId => some (.text mid)
  | .agentId => some (.text agentId)
  | _ => none

def liftDb {α : Type} (x : Except Lib.Violation α) : Except Refusal α := x.mapError .database

/-- The slugs of the agents of an organisation. -/
def agentSlugs (db : OrgDb) (org : Cell) : List String :=
  (db.rows .agent).filterMap fun a =>
    match a .slug with
    | some (.text slug) => if a .orgId = org then some slug else none
    | _ => none

/-- `body.slug or body.name` -/
def slugBase (slug : Option String) (name : String) : String :=
  match slug with
  | some s => if s = "" then name else s
  | none => name

/-- `create_agent` without the optional configuration, which is written to other tables. -/
def createAgent (py : Casing) (db : OrgDb) (user name : String) (slug : Option String) (key : String) :
    Except Refusal OrgDb := do
  let m ← requireRole db user
  -- `_unique_agent_slug` searches as `unique_org_slug` does
  let slug := uniqueOrgSlug py (agentSlugs db (m .orgId)) (slugBase slug name)
  if 64 < slug.length ∨ 128 < name.length then .error .tooLong
  else liftDb (db.insert .agent (agentRow key (m .orgId) name slug))

lemma free_agentName : metadata.Free .agent .name := ⟨by decide, by decide, by decide⟩

/-- `rename_agent` -/
def renameAgent (db : OrgDb) (user agentId name : String) : Except Refusal OrgDb := do
  let m ← requireRole db user
  let agent ← orgAgent db m agentId
  if 128 < name.length then .error .tooLong
  else return db.set .agent .name (some (.text name)) (fun a => a .id = agent .id) free_agentName

/-- The tables that `delete_agent` clears before it deletes the agent. -/
def agentChildren : List Table :=
  [.agentScript, .agentGuardrail, .agentAccess, .ingestToken, .agentAudioConfig, .agentOtlpMapping,
    .callParams, .agentParamsUpload]

/-- `delete_agent` -/
def deleteAgent (db : OrgDb) (user agentId : String) : Except Refusal OrgDb := do
  let m ← requireRole db user
  let agent ← orgAgent db m agentId
  let db ← liftDb (db.deleteAll agentChildren fun r => r .agentId = some (.text agentId))
  liftDb (db.delete .agent fun a => a .id = agent .id)

/-- `add_member`; the keys are those that the new rows get. -/
def addMember (py : Casing) (db : OrgDb) (user orgId email role userKey key : String) :
    Except Refusal OrgDb := do
  requireAdmin db orgId user
  if role ∉ roles then .error .badRole
  else
    let email := normalizeEmail py email
    match (db.rows .appUser).find? fun u => u .email = some (.text email) with
    | none =>
      if 320 < email.length then .error .tooLong
      else do
        let db ← liftDb (db.insert .appUser (stubRow userKey email))
        liftDb (db.insert .membership (memberRow key orgId (some (.text userKey)) role))
    | some target =>
      if (membershipIn db orgId (target .id)).isSome then .error .alreadyMember
      else liftDb (db.insert .membership (memberRow key orgId (target .id) role))

lemma free_membershipRole : metadata.Free .membership (.other "role") :=
  ⟨by decide, by decide, by decide⟩

/-- `set_role` -/
def setRole (db : OrgDb) (user orgId mid role : String) : Except Refusal OrgDb := do
  requireAdmin db orgId user
  if role ∉ roles then .error .badRole
  else
    let m ← namedMembership db orgId mid
    return db.set .membership (.other "role") (some (.text role)) (fun r => r .id = m .id)
      free_membershipRole

/-- `remove_member` -/
def removeMember (db : OrgDb) (user orgId mid : String) : Except Refusal OrgDb := do
  requireAdmin db orgId user
  let m ← namedMembership db orgId mid
  liftDb (db.delete .membership fun r => r .id = m .id)

/-- `set_agent_access`: the grants of a member are replaced, and each new one gets a key. -/
def setAgentAccess (db : OrgDb) (user orgId mid : String) (agentIds : List String)
    (keys : Nat → String) : Except Refusal OrgDb := do
  requireAdmin db orgId user
  let _ ← namedMembership db orgId mid
  let valid := agentsOf db (some (.text orgId))
  let bad := agentIds.filter fun a => !valid.contains (some (.text a))
  if bad ≠ [] then .error (.foreignAgents bad)
  else do
    let db ← liftDb (db.delete .agentAccess fun g => g .membershipId = some (.text mid))
    liftDb (db.insertAll (agentIds.eraseDups.zipIdx.map fun (a, i) =>
      (.agentAccess, grantRow (keys i) mid a)))

/-- A request that administrates an organisation, with what it is sent. -/
inductive Request
  | createAgent (name : String) (slug : Option String) (key : String)
  | renameAgent (agentId name : String)
  | deleteAgent (agentId : String)
  | addMember (orgId email role userKey key : String)
  | setRole (orgId mid role : String)
  | removeMember (orgId mid : String)
  | setAgentAccess (orgId mid : String) (agentIds : List String) (keys : Nat → String)

/-- What a request makes of the tables, by the user who sends it. -/
def Request.act (py : Casing) (db : OrgDb) (user : String) : Request → Except Refusal OrgDb
  | .createAgent name slug key => Api.createAgent py db user name slug key
  | .renameAgent agentId name => Api.renameAgent db user agentId name
  | .deleteAgent agentId => Api.deleteAgent db user agentId
  | .addMember orgId email role userKey key =>
    Api.addMember py db user orgId email role userKey key
  | .setRole orgId mid role => Api.setRole db user orgId mid role
  | .removeMember orgId mid => Api.removeMember db user orgId mid
  | .setAgentAccess orgId mid agentIds keys => Api.setAgentAccess db user orgId mid agentIds keys

/-- The tables that decide who sees which agent. -/
def accessTables : List Table := [.agent, .membership, .agentAccess]

/-- What happens to an organisation: a request of a user, or anything that writes other tables. -/
inductive Event
  | request (user : String) (r : Request)
  | elsewhere

def Happens (py : Casing) (db : OrgDb) (e : Event) (db' : OrgDb) : Prop :=
  match e with
  | .request user r => r.act py db user = .ok db'
  | .elsewhere => ∀ t ∈ accessTables, db'.rows t = db.rows t

/-- The membership whose role or grants a request sets. -/
def Request.target : Request → Option String
  | .addMember _ _ _ _ key => some key
  | .setRole _ mid _ => some mid
  | .removeMember _ mid => some mid
  | .setAgentAccess _ mid _ _ => some mid
  | _ => none

def Event.target : Event → Option String
  | .request _ r => r.target
  | .elsewhere => none

/-- The agent that an event creates. -/
def Event.created : Event → Option String
  | .request _ (.createAgent _ _ key) => some key
  | _ => none

/-- The deletion takes away the last grant of a member who is no administrator, while the
organisation has another agent. -/
def TakesLastGrant (db : OrgDb) (mid agentId : String) : Prop :=
  ∃ m, membershipOf db mid = some m ∧ administrates m = false ∧ grantsOf db m ≠ [] ∧
    (∀ g ∈ grantsOf db m, g = some (.text agentId)) ∧
    ∃ a ∈ agentsOf db (m .orgId), a ≠ some (.text agentId)

/-- The event leaves the member a grant. -/
def LeavesGrant (mid : String) (db : OrgDb) : Event → Prop
  | .request _ (.deleteAgent agentId) => ¬TakesLastGrant db mid agentId
  | _ => True

/-! ### A deletion -/

section

variable {py : Casing} {db db' : OrgDb} {user mid agentId : String}

lemma liftDb_ok {α : Type} {x : Except Lib.Violation α} {a : α} (h : liftDb x = .ok a) :
    x = .ok a :=
  Lib.mapError_eq_ok.1 h

/-- What a deletion leaves in the tables that decide on access. -/
structure DeletesAgent (db : OrgDb) (agentId : String) (db' : OrgDb) : Prop where
  members : db'.rows .membership = db.rows .membership
  grants : db'.rows .agentAccess =
    (db.rows .agentAccess).filter fun g => !decide (g .agentId = some (.text agentId))
  agents : db'.rows .agent = (db.rows .agent).filter fun a => !decide (a .id = some (.text agentId))

lemma orgAgent_id {m agent : Row} (h : orgAgent db m agentId = .ok agent) :
    agent .id = some (.text agentId) := by
  unfold orgAgent at h
  split at h
  · cases h
  · next a hfind =>
    have hid : a .id = some (.text agentId) := by
      have := List.find?_some hfind
      simp only [decide_eq_true_eq] at this
      exact this.1
    split at h
    · cases h
      exact hid
    · split at h
      · cases h
        exact hid
      · cases h

lemma deleteAgent_ok (h : deleteAgent db user agentId = .ok db') : DeletesAgent db agentId db' := by
  obtain ⟨m, -, h⟩ := Lib.bind_eq_ok.1 h
  obtain ⟨agent, hagent, h⟩ := Lib.bind_eq_ok.1 h
  obtain ⟨db₁, h₁, h₂⟩ := Lib.bind_eq_ok.1 h
  have hchildren := Database.deleteAll_rows (liftDb_ok h₁)
  have hdelete := liftDb_ok h₂
  rw [orgAgent_id hagent] at hdelete
  exact {
    members := by
      rw [Database.delete_rows_of_ne hdelete (by decide), hchildren, if_neg (by decide)]
    grants := by
      rw [Database.delete_rows_of_ne hdelete (by decide), hchildren, if_pos (by decide)]
    agents := by
      rw [Database.delete_rows hdelete, hchildren, if_neg (by decide)] }

lemma DeletesAgent.membershipOf (h : DeletesAgent db agentId db') :
    membershipOf db' mid = membershipOf db mid := by
  unfold Api.membershipOf
  rw [h.members]

lemma DeletesAgent.mem_grantsOf (h : DeletesAgent db agentId db') {m : Row} {a : Cell} :
    a ∈ grantsOf db' m ↔ a ∈ grantsOf db m ∧ a ≠ some (.text agentId) := by
  simp only [grantsOf, h.grants, List.mem_map, List.mem_filter, Bool.not_eq_true',
    decide_eq_true_eq, decide_eq_false_iff_not]
  constructor
  · rintro ⟨g, ⟨⟨hg, hne⟩, hm⟩, rfl⟩
    exact ⟨⟨g, ⟨hg, hm⟩, rfl⟩, hne⟩
  · rintro ⟨⟨g, ⟨hg, hm⟩, rfl⟩, hne⟩
    exact ⟨g, ⟨⟨hg, hne⟩, hm⟩, rfl⟩

lemma DeletesAgent.mem_agentsOf (h : DeletesAgent db agentId db') {org a : Cell} :
    a ∈ agentsOf db' org ↔ a ∈ agentsOf db org ∧ a ≠ some (.text agentId) := by
  simp only [agentsOf, h.agents, List.mem_map, List.mem_filter, Bool.not_eq_true',
    decide_eq_true_eq, decide_eq_false_iff_not]
  constructor
  · rintro ⟨r, ⟨⟨hr, hne⟩, ho⟩, rfl⟩
    exact ⟨⟨r, ⟨hr, ho⟩, rfl⟩, hne⟩
  · rintro ⟨⟨r, ⟨hr, ho⟩, rfl⟩, hne⟩
    exact ⟨r, ⟨⟨hr, hne⟩, ho⟩, rfl⟩

lemma visibleAgents_of_administrates {m : Row} (h : administrates m = true) :
    visibleAgents db m = agentsOf db (m .orgId) := by
  simp [visibleAgents, visibleAgentIds, h]

lemma visibleAgents_of_nil {m : Row} (h : grantsOf db m = []) :
    visibleAgents db m = agentsOf db (m .orgId) := by
  unfold visibleAgents visibleAgentIds
  cases administrates m <;> simp [h]

lemma visibleAgents_of_grants {m : Row} (h : administrates m = false) (hgrants : grantsOf db m ≠ []) :
    visibleAgents db m = grantsOf db m := by
  simp [visibleAgents, visibleAgentIds, h, hgrants]

/-- A deletion shows a member no agent that the member did not see before, exactly when it does not
take the member's last grant. -/
lemma DeletesAgent.narrows_iff (h : DeletesAgent db agentId db') :
    (∀ a ∈ visibleTo db' mid, a ∈ visibleTo db mid) ↔ ¬TakesLastGrant db mid agentId := by
  unfold visibleTo
  rw [h.membershipOf]
  cases hm : Api.membershipOf db mid with
  | none => simp [TakesLastGrant, hm]
  | some m =>
    dsimp only
    have hall : ∀ a ∈ agentsOf db' (m .orgId), a ∈ agentsOf db (m .orgId) := fun a ha =>
      (h.mem_agentsOf.1 ha).1
    have hlast : TakesLastGrant db mid agentId ↔ administrates m = false ∧ grantsOf db m ≠ [] ∧
        (∀ g ∈ grantsOf db m, g = some (.text agentId)) ∧
        ∃ a ∈ agentsOf db (m .orgId), a ≠ some (.text agentId) := by
      simp [TakesLastGrant, hm]
    rw [hlast]
    cases hrole : administrates m with
    | true => simpa [visibleAgents_of_administrates hrole] using hall
    | false =>
      rcases eq_or_ne (grantsOf db m) [] with hnil | hgrants
      · have hnil' : grantsOf db' m = [] :=
          List.eq_nil_iff_forall_not_mem.2 fun a ha => by simpa [hnil] using (h.mem_grantsOf.1 ha).1
        simpa [visibleAgents_of_nil hnil, visibleAgents_of_nil hnil', hnil] using hall
      · rw [visibleAgents_of_grants hrole hgrants]
        rcases eq_or_ne (grantsOf db' m) [] with hnil' | hgrants'
        · have honly : ∀ g ∈ grantsOf db m, g = some (.text agentId) := by
            intro g hg
            by_contra hne
            simpa [hnil'] using h.mem_grantsOf.2 ⟨hg, hne⟩
          rw [visibleAgents_of_nil hnil']
          constructor
          · rintro hsub ⟨-, -, -, a, ha, hne⟩
            exact hne (honly a (hsub a (h.mem_agentsOf.2 ⟨ha, hne⟩)))
          · intro hnot a ha
            obtain ⟨ha, hne⟩ := h.mem_agentsOf.1 ha
            exact absurd ⟨rfl, hgrants, honly, a, ha, hne⟩ hnot
        · rw [visibleAgents_of_grants hrole hgrants']
          refine iff_of_true (fun a ha => (h.mem_grantsOf.1 ha).1) ?_
          rintro ⟨-, -, honly, -⟩
          obtain ⟨a, ha⟩ := List.exists_mem_of_ne_nil _ hgrants'
          obtain ⟨ha, hne⟩ := h.mem_grantsOf.1 ha
          exact hne (honly a ha)

/-! ### Runs of requests -/

lemma membershipOf_id {m : Row} (h : membershipOf db mid = some m) : m .id = some (.text mid) := by
  simpa using List.find?_some h

/-- The member is as before, and there is no new agent but the one that is created. -/
structure KeepsAccess (db : OrgDb) (mid : String) (created : Option String) (db' : OrgDb) :
    Prop where
  member : membershipOf db' mid = membershipOf db mid
  grants : ∀ m, m .id = some (.text mid) → grantsOf db' m = grantsOf db m
  agents : ∀ org, ∀ a ∈ agentsOf db' org, a ∈ agentsOf db org ∨ ∃ k ∈ created, a = some (.text k)

/-- Tables that stay as they are, apart from those of other members, keep the access. -/
lemma keepsAccess_of_rows (hmembers : membershipOf db' mid = membershipOf db mid)
    (hgrants : db'.rows .agentAccess = db.rows .agentAccess)
    (hagents : db'.rows .agent = db.rows .agent) : KeepsAccess db mid none db' where
  member := hmembers
  grants m _ := by rw [grantsOf, grantsOf, hgrants]
  agents org a ha := .inl (by rwa [agentsOf, hagents] at ha)

lemma membershipOf_of_rows (h : db'.rows .membership = db.rows .membership) :
    membershipOf db' mid = membershipOf db mid := by
  rw [membershipOf, membershipOf, h]

lemma KeepsAccess.visible {created : Option String} (h : KeepsAccess db mid created db') :
    ∀ a ∈ visibleTo db' mid, a ∈ visibleTo db mid ∨ ∃ k ∈ created, a = some (.text k) := by
  intro a ha
  unfold visibleTo at ha ⊢
  rw [h.member] at ha
  cases hm : membershipOf db mid with
  | none => simp [hm] at ha
  | some m =>
    rw [hm] at ha
    have hgrants := h.grants m (membershipOf_id hm)
    have hids : visibleAgentIds db' m = visibleAgentIds db m := by
      rw [visibleAgentIds, visibleAgentIds, hgrants]
    dsimp only at ha ⊢
    unfold visibleAgents at ha ⊢
    rw [hids] at ha
    cases hvisible : visibleAgentIds db m with
    | none =>
      rw [hvisible] at ha
      exact h.agents _ a ha
    | some ids =>
      rw [hvisible] at ha
      exact .inl ha

lemma createAgent_keeps {name : String} {slug : Option String} {key : String}
    (h : createAgent py db user name slug key = .ok db') : KeepsAccess db mid (some key) db' := by
  obtain ⟨m, -, h⟩ := Lib.bind_eq_ok.1 h
  dsimp only at h
  split at h
  · cases h
  · have hinsert := liftDb_ok h
    refine ⟨membershipOf_of_rows (Database.insert_rows_of_ne hinsert (by decide)), fun m _ => ?_,
      fun org a ha => ?_⟩
    · rw [grantsOf, grantsOf, Database.insert_rows_of_ne hinsert (by decide)]
    · rw [agentsOf, Database.insert_rows hinsert, List.filter_append, List.map_append,
        List.mem_append] at ha
      refine ha.imp_right fun ha => ⟨key, rfl, ?_⟩
      obtain ⟨r, hr, rfl⟩ := List.mem_map.1 ha
      rw [List.mem_singleton.1 (List.mem_of_mem_filter hr)]
      rfl

lemma renameAgent_keeps {name : String} (h : renameAgent db user agentId name = .ok db') :
    KeepsAccess db mid none db' := by
  obtain ⟨m, -, h⟩ := Lib.bind_eq_ok.1 h
  obtain ⟨agent, -, h⟩ := Lib.bind_eq_ok.1 h
  split at h
  · cases h
  · cases h
    refine ⟨rfl, fun _ _ => rfl, fun org a ha => .inl ?_⟩
    obtain ⟨r, hr, rfl⟩ := List.mem_map.1 ha
    obtain ⟨hr, horg⟩ := List.mem_filter.1 hr
    obtain ⟨d, hd, rfl⟩ := List.mem_map.1 hr
    rw [Lib.setRow_of_ne (by decide)] at horg ⊢
    exact List.mem_map.2 ⟨d, List.mem_filter.2 ⟨hd, horg⟩, rfl⟩

lemma addMember_keeps {orgId email role userKey key : String}
    (h : addMember py db user orgId email role userKey key = .ok db') (hkey : key ≠ mid) :
    KeepsAccess db mid none db' := by
  have hinsert {db₁ : OrgDb} {target : Cell}
      (h : db₁.insert .membership (memberRow key orgId target role) = .ok db') :
      membershipOf db' mid = membershipOf db₁ mid := by
    have hother : [memberRow key orgId target role].find? (fun m => m .id = some (.text mid)) = none := by
      simp [memberRow, hkey]
    rw [membershipOf, Database.insert_rows h, List.find?_append, hother, Option.or_none]
    rfl
  obtain ⟨-, -, h⟩ := Lib.bind_eq_ok.1 h
  split at h
  · cases h
  · dsimp only at h
    split at h
    · split at h
      · cases h
      · obtain ⟨db₁, h₁, h₂⟩ := Lib.bind_eq_ok.1 h
        have h₁ := liftDb_ok h₁
        have h₂ := liftDb_ok h₂
        refine keepsAccess_of_rows ((hinsert h₂).trans
          (membershipOf_of_rows (Database.insert_rows_of_ne h₁ (by decide)))) ?_ ?_
        · rw [Database.insert_rows_of_ne h₂ (by decide), Database.insert_rows_of_ne h₁ (by decide)]
        · rw [Database.insert_rows_of_ne h₂ (by decide), Database.insert_rows_of_ne h₁ (by decide)]
    · split at h
      · cases h
      · have h := liftDb_ok h
        exact keepsAccess_of_rows (hinsert h) (Database.insert_rows_of_ne h (by decide))
          (Database.insert_rows_of_ne h (by decide))

lemma namedMembership_id {orgId target : String} {m : Row}
    (h : namedMembership db orgId target = .ok m) : m .id = some (.text target) := by
  unfold namedMembership at h
  split at h
  · next r hfind =>
    split at h
    · cases h
      exact membershipOf_id hfind
    · cases h
  · cases h

lemma setRole_keeps {orgId target role : String} (h : setRole db user orgId target role = .ok db')
    (htarget : target ≠ mid) : KeepsAccess db mid none db' := by
  obtain ⟨-, -, h⟩ := Lib.bind_eq_ok.1 h
  split at h
  · cases h
  · obtain ⟨m, hm, h⟩ := Lib.bind_eq_ok.1 h
    cases h
    refine keepsAccess_of_rows ?_ rfl rfl
    change ((db.rows .membership).map _).find? _ = _
    rw [List.find?_map]
    have hid : ((fun r : Row => decide (r .id = some (.text mid))) ∘
        Lib.setRow (.other "role") (some (.text role)) fun r => decide (r .id = m .id)) =
          fun r => decide (r .id = some (.text mid)) := by
      funext r
      rw [Function.comp_apply, Lib.setRow_of_ne (by decide)]
    rw [hid]
    cases hfind : membershipOf db mid with
    | none => exact congrArg (Option.map _) hfind
    | some r =>
      refine (congrArg (Option.map _) hfind).trans ?_
      have hother : ¬r .id = m .id := by
        rw [membershipOf_id hfind, namedMembership_id hm]
        simpa using htarget.symm
      simp [Lib.setRow, hother]

lemma removeMember_keeps {orgId target : String} (h : removeMember db user orgId target = .ok db')
    (htarget : target ≠ mid) : KeepsAccess db mid none db' := by
  obtain ⟨-, -, h⟩ := Lib.bind_eq_ok.1 h
  obtain ⟨m, hm, h⟩ := Lib.bind_eq_ok.1 h
  have h := liftDb_ok h
  refine keepsAccess_of_rows ?_ (Database.delete_rows_of_ne h (by decide))
    (Database.delete_rows_of_ne h (by decide))
  rw [membershipOf, Database.delete_rows h, List.find?_filter, membershipOf]
  congr 1
  funext r
  rw [namedMembership_id hm]
  by_cases hr : r .id = some (.text mid)
  · simp [hr, htarget.symm]
  · simp [hr]

lemma setAgentAccess_keeps {orgId target : String} {agentIds : List String} {keys : Nat → String}
    (h : setAgentAccess db user orgId target agentIds keys = .ok db') (htarget : target ≠ mid) :
    KeepsAccess db mid none db' := by
  obtain ⟨-, -, h⟩ := Lib.bind_eq_ok.1 h
  obtain ⟨m, -, h⟩ := Lib.bind_eq_ok.1 h
  dsimp only at h
  split at h
  · cases h
  · obtain ⟨db₁, h₁, h₂⟩ := Lib.bind_eq_ok.1 h
    have h₁ := liftDb_ok h₁
    have hrows := Database.insertAll_rows (liftDb_ok h₂)
    have hother {t : Table} (ht : t ≠ .agentAccess) : db'.rows t = db.rows t := by
      have hnone : ((agentIds.eraseDups.zipIdx.map fun e => ((Table.agentAccess,
          grantRow (keys e.2) target e.1) : Table × Row)).filter fun e => decide (e.1 = t)) = [] := by
        refine List.filter_eq_nil_iff.2 fun e he => ?_
        obtain ⟨e, -, rfl⟩ := List.mem_map.1 he
        simpa using Ne.symm ht
      rw [hrows, Database.delete_rows_of_ne h₁ ht, hnone, List.map_nil, List.append_nil]
    refine ⟨membershipOf_of_rows (hother (by decide)), fun m hm => ?_, fun org a ha => .inl ?_⟩
    · have hdropped : ((db.rows .agentAccess).filter fun g =>
          !decide (g .membershipId = some (.text target))).filter
            (fun g => decide (g .membershipId = m .id)) =
          (db.rows .agentAccess).filter fun g => decide (g .membershipId = m .id) := by
        rw [List.filter_filter]
        congr 1
        funext g
        by_cases hg : g .membershipId = m .id
        · simp [hg, hm, htarget.symm]
        · simp [hg]
      have hadded : ((agentIds.eraseDups.zipIdx.map fun e =>
          ((Table.agentAccess, grantRow (keys e.2) target e.1) : Table × Row)).filter fun e =>
            decide (e.1 = .agentAccess)).map Prod.snd =
          agentIds.eraseDups.zipIdx.map fun e => grantRow (keys e.2) target e.1 := by
        simp [List.filter_map, Function.comp_def]
      have hnone : (agentIds.eraseDups.zipIdx.map fun e => grantRow (keys e.2) target e.1).filter
          (fun g => decide (g .membershipId = m .id)) = [] := by
        refine List.filter_eq_nil_iff.2 fun g hg => ?_
        obtain ⟨e, -, rfl⟩ := List.mem_map.1 hg
        simp [grantRow, hm, htarget]
      rw [grantsOf, grantsOf, hrows, Database.delete_rows h₁, hadded, List.filter_append, hdropped,
        hnone, List.append_nil]
    · rwa [agentsOf, hother (by decide)] at ha

/-- An event that neither sets the member's role or grants nor takes the last grant away shows the
member no agent but one that it creates. -/
lemma Happens.visible {e : Event} (h : Happens py db e db') (htarget : e.target ≠ some mid)
    (hleaves : LeavesGrant mid db e) :
    ∀ a ∈ visibleTo db' mid, a ∈ visibleTo db mid ∨ ∃ k ∈ e.created, a = some (.text k) := by
  cases e with
  | elsewhere =>
    exact (keepsAccess_of_rows (membershipOf_of_rows (h _ (by decide))) (h _ (by decide))
      (h _ (by decide))).visible
  | request user r =>
    cases r with
    | createAgent name slug key => exact (createAgent_keeps h).visible
    | renameAgent agentId name => exact (renameAgent_keeps h).visible
    | deleteAgent agentId =>
      exact fun a ha => .inl ((deleteAgent_ok h).narrows_iff.2 hleaves a ha)
    | addMember orgId email role userKey key =>
      exact (addMember_keeps h fun he => htarget (congrArg some he)).visible
    | setRole orgId target role =>
      exact (setRole_keeps h fun he => htarget (congrArg some he)).visible
    | removeMember orgId target =>
      exact (removeMember_keeps h fun he => htarget (congrArg some he)).visible
    | setAgentAccess orgId target agentIds keys =>
      exact (setAgentAccess_keeps h fun he => htarget (congrArg some he)).visible

end

/-! ### A member with one grant -/

/-- Requests one after the other, up to one that is refused. -/
def requestAll (py : Casing) (db : OrgDb) (rs : List (String × Request)) : Except Refusal OrgDb :=
  rs.foldlM (fun db r => r.2.act py db r.1) db

lemma run_of_requestAll {py : Casing} {db db' : OrgDb} {rs : List (String × Request)}
    (h : requestAll py db rs = .ok db') :
    Run (Happens py) db (rs.map fun r => .request r.1 r.2) db' := by
  induction rs generalizing db with
  | nil =>
    cases h
    exact .nil _
  | cons r rs ih =>
    rw [requestAll, List.foldlM_cons] at h
    obtain ⟨db₁, h₁, h₂⟩ := Lib.bind_eq_ok.1 h
    exact .cons h₁ (ih h₂)

/-- The owner of a tenant creates two agents and adds a member, who is granted some of them. -/
def withMember (granted : List String) : List (String × Request) :=
  [("u1", .createAgent "Sales" none "a1"), ("u1", .createAgent "Support" none "a2"),
    ("u1", .addMember "o1" "bob@acme" "member" "u2" "m2"),
    ("u1", .setAgentAccess "o1" "m2" granted fun n => "g" ++ n.repr)]

end Pulse.Api
