import Mathlib.Data.List.DropRight
import Mathlib.Data.List.Perm.Subperm
import Pulse.Db.Provision
import Pulse.Lib.Lists

/-!
# Creating an organisation

`unique_org_slug` and `create_org` of `api/orgs.py` on PostgreSQL. The slug is made unique among
the organisations of the caller's own schema, while the schema it names may be another tenant's.
-/

namespace Pulse.Api

open Db
open Lib (Database)

/-- The character class `[a-z0-9]`. -/
def isSlugChar (c : Char) : Bool :=
  ('a' ≤ c && c ≤ 'z') || ('0' ≤ c && c ≤ '9')

/-- `re.sub(r"[^a-z0-9]+", "-", …)`: one dash for each run of other characters. -/
def dashRuns : Bool → List Char → List Char
  | _, [] => []
  | inRun, c :: cs =>
    if isSlugChar c then c :: dashRuns false cs
    else if inRun then dashRuns true cs
    else '-' :: dashRuns true cs

section Create

variable (py : Casing)

/-- `slugify` -/
def slugify (name : String) : String :=
  let dashed := dashRuns false (py.lower name).toList
  let s := (dashed.dropWhile (· = '-')).rdropWhile (· = '-')
  if s = [] then "org" else String.ofList s

/-- `f"{slug}-{n}"` -/
def numbered (slug : String) (n : Nat) : String := slug ++ "-" ++ n.repr

/-- `unique_org_slug` among the slugs `taken`: the numbers from 2 on are tried in turn. -/
def uniqueOrgSlug (taken : List String) (base : String) : String :=
  let slug := slugify py base
  if slug ∉ taken then slug
  else (((List.range' 2 (taken.length + 1)).map (numbered slug)).find? (· ∉ taken)).getD slug

/-- The caller of a request: the organisation of the token and the caller's own row. -/
structure Caller where
  org : String
  email : String
  passwordHash : Option String
  name : Option String

/-- `OrgIn` -/
structure OrgIn where
  name : String
  slug : Option String

/-- The keys that the rows of one request get. -/
structure NewKeys where
  org : String
  user : String
  membership : String

/-- `AppUser(email=…, password_hash=…, name=…, is_active=True)` -/
def userRow (id : String) (caller : Caller) : Row
  | .id => some (.text id)
  | .email => some (.text caller.email)
  | .name => caller.name.map .text
  | .other "password_hash" => caller.passwordHash.map .text
  | .other "is_active" => some (.int 1)
  | _ => none

/-- `Membership(org_id=…, user_id=…, role="owner")` -/
def ownerRow (id : String) (org : Row) (userId : String) : Row
  | .id => some (.text id)
  | .orgId => org .id
  | .userId => some (.text userId)
  | .other "role" => some (.text "owner")
  | _ => none

/-- The slugs of the organisations in a schema. -/
def orgSlugs (c : Cluster) (n : Ident) : List String :=
  match (c n).tables with
  | none => []
  | some db => (db.rows .organization).filterMap fun o =>
    match o .slug with
    | some (.text slug) => some slug
    | _ => none

/-- The slug that `create_org` settles on. -/
def newSlug (c : Cluster) (caller : Caller) (body : OrgIn) : String :=
  let base := match body.slug with
    | some slug => if slug = "" then body.name else slug
    | none => body.name
  uniqueOrgSlug py (orgSlugs c (tableSchema py caller.org)) base

/-- The caller is cloned into the schema that the session is pinned to, as its owner. -/
def addOwner (db : OrgDb) (org : Row) (caller : Caller) (keys : NewKeys) :
    Except Lib.Violation OrgDb := do
  let db ← db.insert .appUser (userRow keys.user caller)
  db.insert .membership (ownerRow keys.membership org keys.user)

/-- `create_org` -/
def createOrg (c : Cluster) (caller : Caller) (body : OrgIn) (keys : NewKeys) :
    Except ProvisionError Cluster := do
  let slug := newSlug py c caller body
  let (c, org) ← provisionOrg py c slug (some body.name) keys.org
  let t := tableSchema py (py.lower (orDefault slug))
  let db := (c t).tables.getD (.empty metadata Value)
  let db ← (addOwner db org caller keys).mapError .database
  return c.setTables t db

end Create

lemma numbered_injective (slug : String) : Function.Injective (numbered slug) := by
  intro m n h
  exact Lib.repr_injective ((String.append_right_inj (slug ++ "-")).1 h)

/-- The search ends: among one candidate more than there are taken slugs, one is free. -/
theorem uniqueOrgSlug_not_mem (py : Casing) (taken : List String) (base : String) :
    uniqueOrgSlug py taken base ∉ taken := by
  simp only [uniqueOrgSlug]
  by_cases htaken : slugify py base ∈ taken
  · rw [if_neg (not_not.2 htaken)]
    set candidates := (List.range' 2 (taken.length + 1)).map (numbered (slugify py base))
      with hcandidates
    have hfree : ∃ s ∈ candidates, s ∉ taken := by
      by_contra hall
      have hsub : candidates ⊆ taken := fun s hs => by_contra fun hn => hall ⟨s, hs, hn⟩
      have hnodup : candidates.Nodup := (List.nodup_range' 1).map (numbered_injective _)
      have hlen := (List.subperm_of_subset hnodup hsub).length_le
      simp only [hcandidates, List.length_map, List.length_range'] at hlen
      omega
    obtain ⟨s, hs, hn⟩ := hfree
    cases hfind : candidates.find? (· ∉ taken) with
    | none => simpa [hn] using List.find?_eq_none.1 hfind s hs
    | some s' => simpa using List.find?_some hfind
  · rw [if_pos htaken]
    exact htaken

/-! ### Whose schema the caller ends in -/

variable {py : Casing}

/-- The caller owns a membership in a schema that held no organisation, and the schemas that
held one have the tables they had. -/
structure FoundsTenant (c c' : Cluster) (email : String) : Prop where
  own : ∃ n db, ¬Occupied c n ∧ (c' n).tables = some db ∧ ∃ u ∈ db.rows .appUser,
    u .email = some (.text email) ∧ ∃ m ∈ db.rows .membership, m .userId = u .id
  others : ∀ n, Occupied c n → (c' n).tables = (c n).tables

/-- `create_org` fails, which leaves nothing behind, or it founds a tenant. -/
def JoinsNobody (c : Cluster) (email : String) (r : Except ProvisionError Cluster) : Prop :=
  ∀ c', r = .ok c' → FoundsTenant c c' email

/-- The slug names an organisation in which the email is not registered. -/
def OpenTenant (py : Casing) (c : Cluster) (slug email : String) : Prop :=
  ∃ db o, (c (tableSchema py slug)).tables = some db ∧ organization db = some o ∧
    o .slug = some (.text slug) ∧ ∀ u ∈ db.rows .appUser, u .email ≠ some (.text email)

/-- The keys are used by no row. -/
def NewKeys.Fresh (keys : NewKeys) (c : Cluster) : Prop :=
  ∀ n db, (c n).tables = some db → (∀ u ∈ db.rows .appUser, u .id ≠ some (.text keys.user)) ∧
    ∀ m ∈ db.rows .membership, m .id ≠ some (.text keys.membership)

lemma addOwner_rows {db db' : OrgDb} {org : Row} {caller : Caller} {keys : NewKeys}
    (h : addOwner db org caller keys = .ok db') :
    db'.rows .appUser = db.rows .appUser ++ [userRow keys.user caller] ∧
      db'.rows .membership = db.rows .membership ++ [ownerRow keys.membership org keys.user] ∧
      ∀ u ∈ db.rows .appUser, u .email ≠ some (.text caller.email) := by
  obtain ⟨db₁, h₁, h₂⟩ := Lib.bind_eq_ok.1 h
  refine ⟨?_, ?_, fun u hu he => ?_⟩
  · rw [Database.insert_rows_of_ne h₂ (by decide), Database.insert_rows h₁]
  · rw [Database.insert_rows h₂, Database.insert_rows_of_ne h₁ (by decide)]
  · refine Database.insert_noClash h₁ (.appUser, [.email]) (by decide) rfl u hu ?_
    simp [Lib.Row.Clash, he, userRow]

lemma appUser_constraints : (∀ u ∈ metadata.uniques, u.1 = .appUser → u.2 = [.email]) ∧
    ∀ fk ∈ metadata.foreignKeys, fk.table ≠ .appUser := by
  decide

lemma membership_constraints :
    (∀ u ∈ metadata.uniques, u.1 = .membership → u.2 = [.orgId, .userId]) ∧
    ∀ fk ∈ metadata.foreignKeys, fk.table = .membership →
      fk = ⟨.membership, .orgId, .organization⟩ ∨ fk = ⟨.membership, .userId, .appUser⟩ := by
  decide

/-- A caller whose email is not registered, under new keys, is added. -/
lemma addOwner_ok {db : OrgDb} {org : Row} {caller : Caller} {keys : NewKeys}
    (horg : org ∈ db.rows .organization)
    (hemail : ∀ u ∈ db.rows .appUser, u .email ≠ some (.text caller.email))
    (huser : ∀ u ∈ db.rows .appUser, u .id ≠ some (.text keys.user))
    (hmembership : ∀ m ∈ db.rows .membership, m .id ≠ some (.text keys.membership)) :
    ∃ db', addOwner db org caller keys = .ok db' := by
  obtain ⟨db₁, h₁⟩ : ∃ db₁, db.insert .appUser (userRow keys.user caller) = .ok db₁ := by
    refine Database.insert_ok (by simp [metadata, userRow]) huser (fun u hu ht r hr hclash => ?_)
      (fun fk hfk ht => absurd ht (appUser_constraints.2 fk hfk))
    rw [appUser_constraints.1 u hu ht] at hclash
    exact hemail r hr (hclash .email (by simp)).2
  have hmembers : db₁.rows .membership = db.rows .membership :=
    Database.insert_rows_of_ne h₁ (by decide)
  obtain ⟨db₂, h₂⟩ : ∃ db₂, db₁.insert .membership (ownerRow keys.membership org keys.user) =
      .ok db₂ := by
    refine Database.insert_ok (by simp [metadata, ownerRow]) (hmembers ▸ hmembership)
      (fun u hu ht r hr hclash => ?_) (fun fk hfk ht _ => ?_)
    · -- a membership of the new user would refer to a user under the new key
      rw [membership_constraints.1 u hu ht] at hclash
      obtain ⟨hnull, heq⟩ := hclash .userId (by simp)
      obtain ⟨d, hd, hkey⟩ := db.refs ⟨.membership, .userId, .appUser⟩ (by decide) r
        (hmembers ▸ hr) hnull
      exact huser d hd (hkey.trans heq)
    · rcases membership_constraints.2 fk hfk ht with rfl | rfl
      · have horgs : db₁.rows .organization = db.rows .organization :=
          Database.insert_rows_of_ne h₁ (by decide)
        exact ⟨org, horgs ▸ horg, rfl⟩
      · exact ⟨userRow keys.user caller, by simp [Database.insert_rows h₁], rfl⟩
  exact ⟨db₂, Lib.bind_eq_ok.2 ⟨db₁, h₁, h₂⟩⟩

/-- In an open tenant the caller ends as an owner. -/
theorem createOrg_joins {c : Cluster} {caller : Caller} {body : OrgIn} {keys : NewKeys}
    (hkeys : keys.Fresh c)
    (hopen : OpenTenant py c (py.lower (orDefault (newSlug py c caller body))) caller.email) :
    ¬JoinsNobody c caller.email (createOrg py c caller body keys) := by
  intro hjoins
  set slug := newSlug py c caller body with hslug
  obtain ⟨db, o, hdb, horg, hname, hemail⟩ := hopen
  obtain ⟨c₁, hprov, hdb₁⟩ := provisionOrg_of_exists (some body.name) keys.org hdb horg hname
  obtain ⟨db', hadd⟩ := addOwner_ok (List.mem_of_head? horg) hemail (hkeys _ _ hdb).1
    (hkeys _ _ hdb).2
  have hok : createOrg py c caller body keys =
      .ok (c₁.setTables (tableSchema py (py.lower (orDefault slug))) db') := by
    refine Lib.bind_eq_ok.2 ⟨(c₁, o), hprov, Lib.bind_eq_ok.2 ⟨db', ?_, rfl⟩⟩
    rw [Lib.mapError_eq_ok, ← hslug, hdb₁]
    exact hadd
  have hsame := (hjoins _ hok).others _ ⟨db, o, hdb, horg⟩
  rw [hdb, Cluster.setTables_tables, if_pos rfl] at hsame
  have hrows := (addOwner_rows hadd).1
  rw [Option.some.inj hsame] at hrows
  simp at hrows

/-- Creating an organisation joins an existing tenant exactly when the slug it settles on is
that of a tenant in which the caller's email is not registered yet. -/
theorem createOrg_joinsNobody_iff (c : Cluster) (caller : Caller) (body : OrgIn) (keys : NewKeys)
    (hkeys : keys.Fresh c) :
    JoinsNobody c caller.email (createOrg py c caller body keys) ↔
      ¬OpenTenant py c (py.lower (orDefault (newSlug py c caller body))) caller.email := by
  constructor
  · exact fun hjoins hopen => createOrg_joins hkeys hopen hjoins
  · intro hopen c' hok
    obtain ⟨⟨c₁, org⟩, hprov, hok⟩ := Lib.bind_eq_ok.1 hok
    obtain ⟨db', hadd, hok⟩ := Lib.bind_eq_ok.1 hok
    cases hok
    have hp := provisionOrg_ok hprov
    generalize py.lower (orDefault (newSlug py c caller body)) = slug at *
    obtain ⟨db, hdb, horg⟩ := hp.found
    rw [Lib.mapError_eq_ok, hdb] at hadd
    obtain ⟨husers, hmembers, hemail⟩ := addOwner_rows hadd
    have hempty : ¬Occupied c (tableSchema py slug) := by
      rcases hp.before with ⟨-, hsame⟩ | hempty
      · exact absurd ⟨db, org, hsame ▸ hdb, horg, hp.named, hemail⟩ hopen
      · exact hempty
    refine ⟨⟨_, db', hempty, by simp, userRow keys.user caller, by simp [husers], rfl,
      ownerRow keys.membership org keys.user, by simp [hmembers], rfl⟩, fun n hn => ?_⟩
    have hne : n ≠ tableSchema py slug := fun h => hempty (h ▸ hn)
    rw [Cluster.setTables_tables, if_neg hne]
    exact hp.tables n hne

/-! ### Taking another tenant's slug -/

/-- A tenant with its owner. -/
def tenant (slug email : String) : OrgDb :=
  let owner : Caller := ⟨slug, email, none, none⟩
  match (Database.empty metadata Value).insertAll [(.organization, orgRow "o1" slug slug),
      (.appUser, userRow "u1" owner), (.membership, ownerRow "m1" (orgRow "o1" slug slug) "u1")] with
  | .ok db => db
  | .error _ => .empty metadata Value

def twoTenants : Cluster :=
  (noOrg.setTables (tableSchema asciiCasing "default") (tenant "default" "root@default")).setTables
    (tableSchema asciiCasing "acme") (tenant "acme" "ceo@acme")

/-- A member of the first tenant. -/
def eve : Caller := ⟨"default", "eve@default", none, none⟩

def newKeys : NewKeys := ⟨"o9", "u9", "m9"⟩

lemma newKeys_fresh : newKeys.Fresh twoTenants := by
  intro n db hdb
  simp only [twoTenants, Cluster.setTables_tables] at hdb
  split at hdb
  · cases hdb
    decide
  · split at hdb
    · cases hdb
      decide
    · cases hdb

theorem createOrg_joinsNobody_beta :
    JoinsNobody twoTenants eve.email (createOrg asciiCasing twoTenants eve ⟨"Beta", none⟩ newKeys) := by
  refine (createOrg_joinsNobody_iff twoTenants eve ⟨"Beta", none⟩ newKeys newKeys_fresh).2 ?_
  rintro ⟨db, o, hdb, -⟩
  have hslug : asciiCasing.lower (orDefault (newSlug asciiCasing twoTenants eve ⟨"Beta", none⟩)) =
      "beta" := by decide
  rw [hslug, twoTenants, Cluster.setTables_tables, if_neg (by decide), Cluster.setTables_tables,
    if_neg (by decide)] at hdb
  cases hdb

/-- Eve asks for the slug of the second tenant and becomes its owner. -/
theorem createOrg_takes_acme :
    ¬JoinsNobody twoTenants eve.email
      (createOrg asciiCasing twoTenants eve ⟨"Acme", some "acme"⟩ newKeys) := by
  refine createOrg_joins newKeys_fresh ?_
  exact ⟨tenant "acme" "ceo@acme", orgRow "o1" "acme" "acme", rfl, rfl, rfl, by decide⟩

end Pulse.Api
