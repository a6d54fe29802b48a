import Pulse.Db.AgentViews
import Pulse.Lib.Run

/-!
# Provisioning an organisation

`provision_org` and `build_agent_views` on PostgreSQL. Each organisation has a schema for its
tables and one for its agent views; both are found by name, and names are cut at 63 bytes. The
collision check of `provision_org` looks at the table schema, after the views were replaced.
-/

namespace Pulse.Db

open Lib (Database)

/-- A schema: the table set if it was created, and the views by name. -/
structure Namespace where
  tables : Option OrgDb := none
  views : String → Option View := fun _ => none

/-- The database: what each schema name holds. A schema that was never created is empty. -/
abbrev Cluster := Ident → Namespace

namespace Cluster

def setTables (c : Cluster) (n : Ident) (db : OrgDb) : Cluster :=
  fun m => if m = n then { c n with tables := some db } else c m

def setViews (c : Cluster) (n : Ident) (views : String → Option View) : Cluster :=
  fun m => if m = n then { c n with views := views } else c m

variable (c : Cluster) (n m : Ident) (db : OrgDb) (views : String → Option View)

@[simp] lemma setTables_tables :
    (c.setTables n db m).tables = if m = n then some db else (c m).tables := by
  unfold setTables
  split <;> rfl

@[simp] lemma setTables_views : (c.setTables n db m).views = (c m).views := by
  unfold setTables
  split
  · rename_i h
    rw [h]
  · rfl

@[simp] lemma setViews_tables : (c.setViews n views m).tables = (c m).tables := by
  unfold setViews
  split
  · rename_i h
    rw [h]
  · rfl

@[simp] lemma setViews_views :
    (c.setViews n views m).views = if m = n then views else (c m).views := by
  unfold setViews
  split <;> rfl

end Cluster

/-- `Organization(id=…, name=…, slug=…)` -/
def orgRow (id slug name : String) : Row
  | .id => some (.text id)
  | .slug => some (.text slug)
  | .name => some (.text name)
  | _ => none

/-- `db.scalar(select(Organization))`: the one organisation of a schema. -/
def organization (db : OrgDb) : Option Row :=
  (db.rows .organization).head?

inductive ProvisionError
  | collision
  | tooLong
  | database (e : Lib.Violation)
  deriving DecidableEq, Repr

/-- `build_agent_views`: each view of the menu is created or replaced. -/
def buildAgentViews (py : Casing) (c : Cluster) (slug : String) : Cluster :=
  let ag := viewSchema py slug
  c.setViews ag fun view => (menu (tableSchema py slug) view).or ((c ag).views view)

/-- `name or slug.capitalize()` -/
def displayName (py : Casing) (slug : String) (name : Option String) : String :=
  match name with
  | some name => if name = "" then py.capitalize slug else name
  | none => py.capitalize slug

/-- The end of `provision_org`: the organisation that the schema holds, or a new one under the
key `uuid`. Of the column widths, those of `Organization` are checked. -/
def ensureOrganization (py : Casing) (db : OrgDb) (slug : String) (name : Option String)
    (uuid : String) : Except ProvisionError (OrgDb × Row) :=
  match organization db with
  | some org => if org .slug = some (.text slug) then .ok (db, org) else .error .collision
  | none =>
    let display := displayName py slug name
    if 64 < slug.length ∨ 128 < display.length then .error .tooLong
    else do
      let org := orgRow (if slug = defaultOrg then defaultOrg else uuid) slug display
      let db ← (db.insert .organization org).mapError .database
      return (db, org)

/-- `provision_org` -/
def provisionOrg (py : Casing) (c : Cluster) (slug : String) (name : Option String) (uuid : String) :
    Except ProvisionError (Cluster × Row) := do
  let slug := py.lower (orDefault slug)
  let t := tableSchema py slug
  let db := (c t).tables.getD (.empty metadata Value)
  let c := buildAgentViews py (c.setTables t db) slug
  let (db, org) ← ensureOrganization py db slug name uuid
  return (c.setTables t db, org)

section

variable (py : Casing)

/-- The organisation `e` exists: it is the one that its table schema holds. -/
def Exists (c : Cluster) (e : String) : Prop :=
  ∃ db o, (c (tableSchema py e)).tables = some db ∧ organization db = some o ∧
    o .slug = some (.text e)

/-- A schema that holds an organisation. -/
def Occupied (c : Cluster) (n : Ident) : Prop :=
  ∃ db o, (c n).tables = some db ∧ organization db = some o

/-- A step of the database: an organisation is provisioned, or the rows of a schema change
otherwise, which leaves its organisation as it is. -/
inductive ClusterStep
  | provision (slug : String) (name : Option String) (uuid : String)
  | write (n : Ident) (db : OrgDb)

def ClusterStep.Steps (c : Cluster) : ClusterStep → Cluster → Prop
  | .provision slug name uuid, c' =>
    c' = (match provisionOrg py c slug name uuid with
      | .ok (c', _) => c'
      | .error _ => c)
  | .write n db, c' => ∃ old, (c n).tables = some old ∧ organization db = organization old ∧
      c' = c.setTables n db

/-- A database without schemas. -/
def noOrg : Cluster := fun _ => {}

/-- A database that was built from nothing. -/
def Reachable (c : Cluster) : Prop :=
  ∃ steps, Lib.Run (ClusterStep.Steps py) noOrg steps c

end

variable {py : Casing}

lemma Exists.occupied {c : Cluster} {e : String} (h : Exists py c e) :
    Occupied c (tableSchema py e) := by
  obtain ⟨db, o, hdb, ho, -⟩ := h
  exact ⟨db, o, hdb, ho⟩

lemma Exists.eq {c : Cluster} {e e' : String} (h : Exists py c e) (h' : Exists py c e')
    (heq : tableSchema py e = tableSchema py e') : e = e' := by
  obtain ⟨db, o, hdb, ho, hslug⟩ := h
  obtain ⟨db', o', hdb', ho', hslug'⟩ := h'
  rw [heq, hdb'] at hdb
  cases hdb
  rw [ho'] at ho
  cases ho
  rw [hslug'] at hslug
  exact (Value.text.inj (Option.some.inj hslug)).symm

/-- What a successful provisioning leaves: the organisation in its own table schema, its views
in its view schema, and every other schema as it was. -/
structure Provisioned (py : Casing) (c c' : Cluster) (slug : String) (org : Row) : Prop where
  named : org .slug = some (.text slug)
  found : ∃ db, (c' (tableSchema py slug)).tables = some db ∧ organization db = some org
  before : Exists py c slug ∧ (c' (tableSchema py slug)).tables = (c (tableSchema py slug)).tables ∨
    ¬Occupied c (tableSchema py slug)
  tables : ∀ n, n ≠ tableSchema py slug → (c' n).tables = (c n).tables
  menu : ∀ view, (c' (viewSchema py slug)).views view =
    (menu (tableSchema py slug) view).or ((c (viewSchema py slug)).views view)
  views : ∀ n, n ≠ viewSchema py slug → (c' n).views = (c n).views

lemma organization_leaf : ∀ fk ∈ metadata.foreignKeys, fk.table ≠ .organization := by
  decide

lemma organization_insert {db db' : OrgDb} {org : Row} (hnone : organization db = none)
    (h : db.insert .organization org = .ok db') : organization db' = some org := by
  have hnil : db.rows .organization = [] := by simpa [organization] using hnone
  simp [organization, Database.insert_rows h, hnil]

lemma ensureOrganization_ok {db db' : OrgDb} {slug uuid : String} {name : Option String} {org : Row}
    (h : ensureOrganization py db slug name uuid = .ok (db', org)) :
    org .slug = some (.text slug) ∧ organization db' = some org ∧
      (organization db = some org ∧ db' = db ∨ organization db = none) := by
  unfold ensureOrganization at h
  cases horg : organization db with
  | some o =>
    simp only [horg] at h
    split at h
    · rename_i hslug
      cases h
      exact ⟨hslug, horg, .inl ⟨rfl, rfl⟩⟩
    · cases h
  | none =>
    simp only [horg] at h
    split at h
    · cases h
    · obtain ⟨db₁, hinsert, h⟩ := Lib.bind_eq_ok.1 h
      cases h
      exact ⟨rfl, organization_insert horg (Lib.mapError_eq_ok.1 hinsert), .inr rfl⟩

theorem provisionOrg_ok {c c' : Cluster} {slug uuid : String} {name : Option String} {org : Row}
    (h : provisionOrg py c slug name uuid = .ok (c', org)) :
    Provisioned py c c' (py.lower (orDefault slug)) org := by
  unfold provisionOrg at h
  obtain ⟨⟨db', org'⟩, hensure, h⟩ := Lib.bind_eq_ok.1 h
  cases h
  obtain ⟨hslug, horg, hbefore⟩ := ensureOrganization_ok hensure
  generalize py.lower (orDefault slug) = s at *
  refine ⟨hslug, ⟨db', by simp, horg⟩, ?_, fun n hn => by simp [buildAgentViews, hn],
    fun view => by simp [buildAgentViews], fun n hn => by simp [buildAgentViews, hn]⟩
  cases htab : (c (tableSchema py s)).tables with
  | none =>
    refine .inr ?_
    rintro ⟨db, o, hdb, -⟩
    rw [htab] at hdb
    cases hdb
  | some db =>
    rw [htab, Option.getD_some] at hbefore
    rcases hbefore with ⟨hold, heq⟩ | hnone
    · exact .inl ⟨⟨db, org, htab, hold, hslug⟩, by simp [heq]⟩
    · refine .inr ?_
      rintro ⟨db₁, o, hdb₁, ho⟩
      rw [htab] at hdb₁
      cases hdb₁
      rw [hnone] at ho
      cases ho

/-! ### The other organisations -/

/-- Every agent view reads the tables of a schema that holds an organisation. -/
def ViewsRead (c : Cluster) : Prop :=
  ∀ n view v, (c n).views view = some v → Occupied c v.schema

lemma Provisioned.occupied {c c' : Cluster} {slug : String} {org : Row}
    (h : Provisioned py c c' slug org) {n : Ident} (hn : Occupied c n) : Occupied c' n := by
  by_cases heq : n = tableSchema py slug
  · obtain ⟨db, hdb, horg⟩ := h.found
    exact heq ▸ ⟨db, org, hdb, horg⟩
  · obtain ⟨db, o, hdb, ho⟩ := hn
    exact ⟨db, o, (h.tables n heq).trans hdb, ho⟩

lemma Provisioned.viewsRead {c c' : Cluster} {slug : String} {org : Row}
    (h : Provisioned py c c' slug org) (hc : ViewsRead c) : ViewsRead c' := by
  intro n view v hv
  by_cases hn : n = viewSchema py slug
  · rw [hn, h.menu] at hv
    rcases Option.or_eq_some_iff.1 hv with hmenu | ⟨-, hold⟩
    · obtain ⟨db, hdb, horg⟩ := h.found
      exact ⟨db, org, menu_schema hmenu ▸ hdb, horg⟩
    · exact h.occupied (hc _ _ _ hold)
  · rw [h.views n hn] at hv
    exact h.occupied (hc _ _ _ hv)

theorem Reachable.viewsRead {c : Cluster} (h : Reachable py c) : ViewsRead c := by
  obtain ⟨steps, hrun⟩ := h
  refine hrun.invariant (fun c step c' hc hstep => ?_) (by intro n view v hv; cases hv)
  cases step with
  | provision slug name uuid =>
    cases hp : provisionOrg py c slug name uuid with
    | error e =>
      simp only [ClusterStep.Steps, hp] at hstep
      exact hstep ▸ hc
    | ok r =>
      simp only [ClusterStep.Steps, hp] at hstep
      exact hstep ▸ (provisionOrg_ok hp).viewsRead hc
  | write n db =>
    obtain ⟨old, hold, horg, rfl⟩ := hstep
    intro m view v hv
    rw [Cluster.setTables_views] at hv
    obtain ⟨db', o, hdb', ho⟩ := hc m view v hv
    by_cases hn : v.schema = n
    · rw [hn, hold] at hdb'
      cases hdb'
      exact ⟨db, o, by simp [hn], horg.trans ho⟩
    · exact ⟨db', o, by simp [hn, hdb'], ho⟩

/-- What is asked of a provisioning that leads from `c` to `c'`. -/
structure LeavesOthersAlone (py : Casing) (c c' : Cluster) : Prop where
  tables : ∀ e, Exists py c e → (c' (tableSchema py e)).tables = (c (tableSchema py e)).tables
  views : ∀ e, Exists py c e → (c' (viewSchema py e)).views = (c (viewSchema py e)).views
  table_names : ∀ e e', Exists py c' e → Exists py c' e' →
    tableSchema py e = tableSchema py e' → e = e'
  view_names : ∀ e e', Exists py c' e → Exists py c' e' → viewSchema py e = viewSchema py e' → e = e'
  apart : ∀ e e', tableSchema py e ≠ viewSchema py e'

lemma Provisioned.new {c c' : Cluster} {slug : String} {org : Row}
    (h : Provisioned py c c' slug org) (hnew : ¬Exists py c slug) :
    ¬Occupied c (tableSchema py slug) := by
  rcases h.before with ⟨hold, -⟩ | hempty
  · exact absurd hold hnew
  · exact hempty

lemma Provisioned.exists_new {c c' : Cluster} {slug : String} {org : Row}
    (h : Provisioned py c c' slug org) : Exists py c' slug := by
  obtain ⟨db, hdb, horg⟩ := h.found
  exact ⟨db, org, hdb, horg, h.named⟩

/-- A new organisation never touches the tables of another. -/
lemma Provisioned.tables_kept {c c' : Cluster} {slug : String} {org : Row}
    (h : Provisioned py c c' slug org) (hnew : ¬Exists py c slug) {e : String}
    (he : Exists py c e) : (c' (tableSchema py e)).tables = (c (tableSchema py e)).tables := by
  apply h.tables
  intro heq
  exact h.new hnew (heq ▸ he.occupied)

lemma Provisioned.exists_old {c c' : Cluster} {slug : String} {org : Row}
    (h : Provisioned py c c' slug org) (hnew : ¬Exists py c slug) {e : String}
    (he : Exists py c e) : Exists py c' e := by
  have htables := h.tables_kept hnew he
  obtain ⟨db, o, hdb, ho, hslug⟩ := he
  exact ⟨db, o, htables.trans hdb, ho, hslug⟩

lemma Provisioned.exists_cases {c c' : Cluster} {slug : String} {org : Row}
    (h : Provisioned py c c' slug org) {e : String} (he : Exists py c' e) :
    e = slug ∨ Exists py c e := by
  by_cases heq : tableSchema py e = tableSchema py slug
  · exact .inl (he.eq h.exists_new heq)
  · refine .inr ?_
    obtain ⟨db, o, hdb, ho, hslug⟩ := he
    exact ⟨db, o, (h.tables _ heq).symm.trans hdb, ho, hslug⟩

/-- The views of another organisation are replaced exactly when its view schema has the name of
the new one's. -/
theorem Provisioned.views_kept_iff {c c' : Cluster} {slug : String} {org : Row}
    (h : Provisioned py c c' slug org) (hnew : ¬Exists py c slug) (hc : ViewsRead c) (e : String) :
    (c' (viewSchema py e)).views = (c (viewSchema py e)).views ↔
      (sanitize py e).take 60 ≠ (sanitize py slug).take 60 := by
  rw [← not_iff_not, not_not, ← viewSchema_inj]
  constructor
  · intro hviews
    by_contra hne
    exact hviews (h.views _ hne)
  · intro heq hviews
    obtain ⟨v, hv, hsource⟩ := menu_calls (tableSchema py slug)
    have hcalls : (c (viewSchema py e)).views "calls" = some v := by
      rw [← hviews, heq, h.menu, hv]
      rfl
    exact h.new hnew (hsource ▸ hc _ _ _ hcalls)

lemma Provisioned.exists_iff {c c' : Cluster} {slug : String} {org : Row}
    (h : Provisioned py c c' slug org) (hnew : ¬Exists py c slug) {e : String} :
    Exists py c' e ↔ e = slug ∨ Exists py c e := by
  constructor
  · exact h.exists_cases
  · rintro (rfl | he)
    · exact h.exists_new
    · exact h.exists_old hnew he

/-- No two of these slugs agree in their first 60 sanitized characters. -/
def ToldApart (py : Casing) (slugs : String → Prop) : Prop :=
  ∀ e e', slugs e → slugs e' → (sanitize py e).take 60 = (sanitize py e').take 60 → e = e'

/-- Provisioning a new organisation leaves the others alone, and keeps both name maps injective,
exactly when the view schema names tell the organisations apart, the new one included. -/
theorem provisionOrg_leavesOthersAlone_iff {c c' : Cluster} {slug uuid : String}
    {name : Option String} {org : Row} (hc : Reachable py c)
    (h : provisionOrg py c slug name uuid = .ok (c', org))
    (hnew : ¬Exists py c (py.lower (orDefault slug))) :
    LeavesOthersAlone py c c' ↔
      ToldApart py fun e => e = py.lower (orDefault slug) ∨ Exists py c e := by
  have hp := provisionOrg_ok h
  simp only [ToldApart, ← hp.exists_iff hnew]
  constructor
  · intro halone e e' he he' heq
    exact halone.view_names e e' he he' (viewSchema_inj.2 heq)
  · intro hdistinct
    refine ⟨fun e he => hp.tables_kept hnew he, fun e he => ?_, fun e e' he he' => he.eq he',
      fun e e' he he' heq => hdistinct e e' he he' (viewSchema_inj.1 heq),
      fun e e' => tableSchema_ne_viewSchema⟩
    rw [hp.views_kept_iff hnew hc.viewsRead]
    intro heq
    have hsame := hdistinct e _ (hp.exists_old hnew he) hp.exists_new heq
    exact hnew (hsame ▸ he)

lemma ensureOrganization_of_none {db : OrgDb} {slug : String} {name : Option String} (uuid : String)
    (hnone : organization db = none) (hslug : slug.length ≤ 64)
    (hname : (displayName py slug name).length ≤ 128) :
    ∃ r, ensureOrganization py db slug name uuid = .ok r := by
  have hnil : db.rows .organization = [] := by simpa [organization] using hnone
  obtain ⟨db', hinsert⟩ : ∃ db', db.insert .organization
      (orgRow (if slug = defaultOrg then defaultOrg else uuid) slug (displayName py slug name)) =
        .ok db' := by
    refine Database.insert_ok (by simp [metadata, orgRow]) (by simp [hnil]) (fun u _ _ => ?_)
      (fun fk hfk ht => absurd ht (organization_leaf fk hfk))
    simp [hnil]
  unfold ensureOrganization
  have hfit : ¬(64 < slug.length ∨ 128 < (displayName py slug name).length) := by omega
  simp only [hnone, hfit, ite_false]
  exact ⟨_, Lib.bind_eq_ok.2 ⟨db', Lib.mapError_eq_ok.2 hinsert, rfl⟩⟩

/-- A slug that fits and whose schema holds no organisation is provisioned. -/
theorem provisionOrg_of_free {c : Cluster} {slug uuid : String} {name : Option String}
    (hfree : ¬Occupied c (tableSchema py (py.lower (orDefault slug))))
    (hslug : (py.lower (orDefault slug)).length ≤ 64)
    (hname : (displayName py (py.lower (orDefault slug)) name).length ≤ 128) :
    ∃ c' org, provisionOrg py c slug name uuid = .ok (c', org) := by
  unfold provisionOrg
  generalize py.lower (orDefault slug) = s at *
  have hnone : organization ((c (tableSchema py s)).tables.getD (.empty metadata Value)) = none := by
    cases htab : (c (tableSchema py s)).tables with
    | none => rfl
    | some db =>
      cases horg : organization db with
      | none => simpa using horg
      | some o => exact absurd ⟨db, o, htab, horg⟩ hfree
  obtain ⟨⟨db, org⟩, h⟩ := ensureOrganization_of_none uuid hnone hslug hname
  exact ⟨_, org, Lib.bind_eq_ok.2 ⟨_, h, rfl⟩⟩

/-- The slug of an existing organisation is provisioned again without a change to its tables. -/
theorem provisionOrg_of_exists {c : Cluster} {slug : String} {db : OrgDb} {org : Row}
    (name : Option String) (uuid : String)
    (hdb : (c (tableSchema py (py.lower (orDefault slug)))).tables = some db)
    (horg : organization db = some org)
    (hslug : org .slug = some (.text (py.lower (orDefault slug)))) :
    ∃ c', provisionOrg py c slug name uuid = .ok (c', org) ∧
      (c' (tableSchema py (py.lower (orDefault slug)))).tables = some db := by
  unfold provisionOrg
  generalize py.lower (orDefault slug) = s at *
  have hensure : ensureOrganization py db s name uuid = .ok (db, org) := by
    simp [ensureOrganization, horg, hslug]
  refine ⟨_, Lib.bind_eq_ok.2 ⟨(db, org), ?_, rfl⟩, by simp⟩
  simpa [hdb] using hensure

/-! ### Two slugs of 61 characters -/

lemma not_exists_noOrg {e : String} : ¬Exists py noOrg e := by
  rintro ⟨db, o, hdb, -⟩
  cases hdb

lemma not_occupied_noOrg {n : Ident} : ¬Occupied noOrg n := by
  rintro ⟨db, o, hdb, -⟩
  cases hdb

lemma reachable_single {c : Cluster} {slug uuid : String} {name : Option String} {org : Row}
    (h : provisionOrg py noOrg slug name uuid = .ok (c, org)) : Reachable py c :=
  ⟨[.provision slug name uuid], .single (by simp [ClusterStep.Steps, h])⟩

/-- Two slugs with table schemas of their own are provisioned one after the other. -/
lemma two_provisionings (py : Casing) (a b : String) (ha : py.lower (orDefault a) = a)
    (hb : py.lower (orDefault b) = b) (hla : a.length ≤ 64) (hlb : b.length ≤ 64)
    (hna : (displayName py a none).length ≤ 128) (hnb : (displayName py b none).length ≤ 128)
    (hne : tableSchema py b ≠ tableSchema py a) : ∃ c₁ o₁ c₂ o₂,
      provisionOrg py noOrg a none "u1" = .ok (c₁, o₁) ∧
      provisionOrg py c₁ b none "u2" = .ok (c₂, o₂) ∧
      Provisioned py noOrg c₁ a o₁ ∧ Provisioned py c₁ c₂ b o₂ ∧ ¬Exists py c₁ b := by
  obtain ⟨c₁, o₁, h₁⟩ : ∃ c₁ o₁, provisionOrg py noOrg a none "u1" = .ok (c₁, o₁) :=
    provisionOrg_of_free not_occupied_noOrg (ha.symm ▸ hla) (ha.symm ▸ hna)
  have hp₁ : Provisioned py noOrg c₁ a o₁ := by simpa only [ha] using provisionOrg_ok h₁
  have hfree : ¬Occupied c₁ (tableSchema py b) := by
    rintro ⟨db, o, hdb, -⟩
    rw [hp₁.tables _ hne] at hdb
    cases hdb
  obtain ⟨c₂, o₂, h₂⟩ : ∃ c₂ o₂, provisionOrg py c₁ b none "u2" = .ok (c₂, o₂) :=
    provisionOrg_of_free (hb.symm ▸ hfree) (hb.symm ▸ hlb) (hb.symm ▸ hnb)
  have hp₂ : Provisioned py c₁ c₂ b o₂ := by simpa only [hb] using provisionOrg_ok h₂
  exact ⟨c₁, o₁, c₂, o₂, h₁, h₂, hp₁, hp₂, fun h => hfree h.occupied⟩

theorem provisionOrg_leavesOthersAlone_beta : ∃ c₁ o₁ c₂ o₂,
    provisionOrg asciiCasing noOrg "acme" none "u1" = .ok (c₁, o₁) ∧
    provisionOrg asciiCasing c₁ "beta" none "u2" = .ok (c₂, o₂) ∧
    LeavesOthersAlone asciiCasing c₁ c₂ := by
  obtain ⟨c₁, o₁, c₂, o₂, h₁, h₂, hp₁, hp₂, hnew⟩ := two_provisionings asciiCasing "acme" "beta"
    (by decide) (by decide) (by decide) (by decide) (by decide)
    (by decide) (by decide)
  have honly : ∀ e, e = asciiCasing.lower (orDefault "beta") ∨ Exists asciiCasing c₁ e →
      e = "beta" ∨ e = "acme" := by
    rintro e (h | h)
    · exact .inl (h.trans (by decide))
    · exact .inr ((hp₁.exists_cases h).resolve_right not_exists_noOrg)
  refine ⟨c₁, o₁, c₂, o₂, h₁, h₂,
    (provisionOrg_leavesOthersAlone_iff (reachable_single h₁) h₂ hnew).2 fun e e' he he' heq => ?_⟩
  rcases honly e he with rfl | rfl <;> rcases honly e' he' with rfl | rfl
  · rfl
  · exact absurd heq (by decide)
  · exact absurd heq (by decide)
  · rfl

/-- Sixty times the letter `a`, and one letter more. -/
def longSlug (last : Char) : String := String.ofList (List.replicate 60 'a' ++ [last])

lemma toList_longSlug (last : Char) : (longSlug last).toList = List.replicate 60 'a' ++ [last] :=
  String.toList_ofList

lemma lower_longSlug {last : Char} (h : last.toLower = last) :
    asciiCasing.lower (orDefault (longSlug last)) = longSlug last := by
  have hne : longSlug last ≠ "" := by
    intro he
    have hlist := congrArg String.toList he
    rw [toList_longSlug] at hlist
    simp at hlist
  have hmap : (List.replicate 60 'a' ++ [last]).map Char.toLower =
      List.replicate 60 'a' ++ [last] := by
    rw [List.map_append, List.map_replicate, List.map_singleton, h]
    rfl
  rw [orDefault, if_neg hne]
  show String.ofList ((longSlug last).toList.map Char.toLower) = longSlug last
  rw [toList_longSlug, hmap]
  rfl

lemma sanitize_longSlug {last : Char} (h : last.toLower = last) (hident : isIdentChar last = true) :
    sanitize asciiCasing (longSlug last) = List.replicate 60 'a' ++ [last] := by
  rw [sanitize, lower_longSlug h, toList_longSlug, List.map_append, List.map_replicate,
    List.map_singleton, if_pos hident]
  rfl

/-- The second organisation gets tables of its own and the views of the first. -/
theorem provisionOrg_replaces_views : ∃ c₁ o₁ c₂ o₂,
    provisionOrg asciiCasing noOrg (longSlug 'b') none "u1" = .ok (c₁, o₁) ∧
    provisionOrg asciiCasing c₁ (longSlug 'c') none "u2" = .ok (c₂, o₂) ∧
    Exists asciiCasing c₁ (longSlug 'b') ∧ ¬Exists asciiCasing c₁ (longSlug 'c') ∧
    ¬LeavesOthersAlone asciiCasing c₁ c₂ := by
  have hb : sanitize asciiCasing (longSlug 'b') = List.replicate 60 'a' ++ ['b'] :=
    sanitize_longSlug rfl rfl
  have hc : sanitize asciiCasing (longSlug 'c') = List.replicate 60 'a' ++ ['c'] :=
    sanitize_longSlug rfl rfl
  have hlen : ∀ last, (longSlug last).length ≤ 64 := by
    intro last
    rw [← String.length_toList, toList_longSlug]
    simp
  have hne : tableSchema asciiCasing (longSlug 'c') ≠ tableSchema asciiCasing (longSlug 'b') := by
    rw [Ne, tableSchema_inj, hb, hc]
    simp
  obtain ⟨c₁, o₁, c₂, o₂, h₁, h₂, hp₁, hp₂, hnew⟩ := two_provisionings asciiCasing (longSlug 'b')
    (longSlug 'c') (lower_longSlug rfl) (lower_longSlug rfl) (hlen _) (hlen _)
    (Nat.le_trans (hlen _) (by decide)) (Nat.le_trans (hlen _) (by decide)) hne
  have hreach : Reachable asciiCasing c₁ := reachable_single h₁
  refine ⟨c₁, o₁, c₂, o₂, h₁, h₂, hp₁.exists_new, hnew, fun halone => ?_⟩
  have hkept := halone.views _ hp₁.exists_new
  rw [hp₂.views_kept_iff hnew hreach.viewsRead, hb, hc] at hkept
  simp at hkept

end Pulse.Db
