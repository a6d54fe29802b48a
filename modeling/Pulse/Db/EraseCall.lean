import Pulse.Db.Models
import Pulse.Ingest.Erase

/-!
# `erase_call` on all tables

`erase_call` deletes from a written-out list of models. This file runs it on the whole schema
of `db/models.py` and asks for which calls it is complete.
-/

namespace Pulse.Db

open Ingest (EraseError EraseRequest)
open Lib (Database)

/-- The models that `erase_call` lists. -/
def erasedModels : List Table := [.turn, .event, .metric, .utterance, .media, .rawFragment,
  .ingestRun, Table.annotation, .label, .transcript, .judgment]

/-- The other tables with a `call_id` that refers to a call. -/
def unlistedModels : List Table := [.callEmbedding, .callCluster, .conversation, .audioDiscrepancy]

/-- `Tombstone(call_id=call_id, deleted_by="api")` -/
def tombstoneRow (callId : String) : Row
  | .callId => some (.text callId)
  | .other "deleted_by" => some (.text "api")
  | _ => none

/-- `_owned_call` -/
def ownedCall (db : OrgDb) (callId : String) (tokenAgent : Option String) : Except EraseError Row :=
  match (db.rows .call).find? fun r => r .externalCallId = some (.text callId) with
  | none => .error .notFound
  | some call =>
    if tokenAgent.isSome ∧ call .agentId ≠ tokenAgent.map .text then .error .notFound else .ok call

/-- `erase_call` -/
def eraseCall (allowDelete : Bool) (db : OrgDb) (q : EraseRequest) : Except EraseError OrgDb := do
  if allowDelete = false ∨ q.confirm ≠ q.callId then throw .forbidden
  let call ← ownedCall db q.callId q.tokenAgent
  let db ← (db.insert .tombstone (tombstoneRow q.callId)).mapError .database
  let db ← (db.deleteAll erasedModels fun r => r .callId = call .id).mapError .database
  (db.delete .call fun r => r .id = call .id).mapError .database

/-- The row refers to the call `k`: by a foreign key, by the call's own key in a parameter row,
or through another row that does. -/
inductive Refers (db : OrgDb) (k : Row) : Table → Row → Prop
  | column (t : Table) (c : Column) (r : Row) : ⟨t, c, .call⟩ ∈ foreignKeys → r c = k .id →
      Refers db k t r
  | callKey (r : Row) : r .callKey = k .externalCallId → r .agentId ≠ none →
      r .agentId = k .agentId → Refers db k .callParams r
  | through (t u : Table) (c : Column) (r d : Row) : ⟨t, c, u⟩ ∈ foreignKeys → r c ≠ none →
      d ∈ db.rows u → d (metadata.key u) = r c → Refers db k u d → Refers db k t r

/-- What the erasure of `k` is to leave of `db`. -/
structure Erased (db db' : OrgDb) (k : Row) (callId : String) : Prop where
  call : ∀ r ∈ db'.rows .call, r .id ≠ k .id
  gone : ∀ t ≠ .tombstone, ∀ r ∈ db'.rows t, ¬Refers db' k t r
  targets : ∀ t u c, ⟨t, c, u⟩ ∈ foreignKeys → ∀ r ∈ db'.rows t, r c ≠ none →
    ∃ d ∈ db'.rows u, d (metadata.key u) = r c
  kept : ∀ t, ∀ r ∈ db.rows t, (t = .call → r .id ≠ k .id) → ¬Refers db k t r → r ∈ db'.rows t
  old : ∀ t ≠ .tombstone, ∀ r ∈ db'.rows t, r ∈ db.rows t
  tombstone : db'.rows .tombstone = db.rows .tombstone ++ [tombstoneRow callId]

/-- The call `k` has no row in the tables that `erase_call` misses. -/
structure Erasable (db : OrgDb) (k : Row) (callId : String) : Prop where
  unlisted : ∀ t ∈ unlistedModels, ∀ r ∈ db.rows t, r .callId ≠ k .id
  tombstone : ∀ r ∈ db.rows .tombstone, r .callId ≠ some (.text callId)
  params : ∀ r ∈ db.rows .callParams, r .callKey = k .externalCallId → r .agentId ≠ none →
    r .agentId ≠ k .agentId

lemma ownedCall_ok {db : OrgDb} {callId : String} {agent : Option String} {k : Row}
    (h : ownedCall db callId agent = .ok k) :
    k ∈ db.rows .call ∧ k .externalCallId = some (.text callId) := by
  unfold ownedCall at h
  cases hc : (db.rows .call).find? fun r => r .externalCallId = some (.text callId) with
  | none => simp [hc] at h
  | some d =>
    simp only [hc] at h
    split at h
    · cases h
    · cases h
      exact ⟨List.mem_of_find?_eq_some hc, by simpa using List.find?_some hc⟩

/-- Every foreign key to a call is a `call_id`, listed or not. -/
lemma foreignKey_call : ∀ fk ∈ foreignKeys, fk.target = .call →
    fk.column = .callId ∧ (fk.table ∈ erasedModels ∨ fk.table ∈ unlistedModels) := by
  decide

lemma erasedModels_foreignKey : ∀ t ∈ erasedModels, ⟨t, .callId, .call⟩ ∈ foreignKeys := by
  decide

lemma erasedModels_leaf : ∀ t ∈ erasedModels, ∀ fk ∈ metadata.foreignKeys, fk.target ≠ t := by
  decide

lemma tombstone_free : (∀ u ∈ metadata.uniques, u.1 ≠ .tombstone) ∧
    ∀ fk ∈ metadata.foreignKeys, fk.table ≠ .tombstone := by
  decide

/-- What an erasure of `k` that goes through leaves in each table. -/
structure Rows (db db' : OrgDb) (k : Row) (callId : String) : Prop where
  call : ∀ r, r ∈ db'.rows .call ↔ r ∈ db.rows .call ∧ r .id ≠ k .id
  tombstone : db'.rows .tombstone = db.rows .tombstone ++ [tombstoneRow callId]
  listed : ∀ t ∈ erasedModels, ∀ r, r ∈ db'.rows t ↔ r ∈ db.rows t ∧ r .callId ≠ k .id
  others : ∀ t, t ≠ .call → t ≠ .tombstone → t ∉ erasedModels → db'.rows t = db.rows t

lemma rows_of_steps {db db₁ db₂ db' : OrgDb} {k : Row} {callId : String}
    (h₁ : db.insert .tombstone (tombstoneRow callId) = .ok db₁)
    (h₂ : db₁.deleteAll erasedModels (fun r => r .callId = k .id) = .ok db₂)
    (h₃ : db₂.delete .call (fun r => r .id = k .id) = .ok db') : Rows db db' k callId := by
  obtain ⟨db₂', h₂', hrows⟩ := db₁.deleteAll_leaf (fun r => r .callId = k .id) erasedModels
    erasedModels_leaf
  obtain rfl : db₂' = db₂ := Except.ok.inj (h₂'.symm.trans h₂)
  have hold : ∀ t, t ≠ .tombstone → t ∉ erasedModels → db₂'.rows t = db.rows t := by
    intro t ht hlist
    rw [hrows t, if_neg hlist, Database.insert_rows_of_ne h₁ ht]
  refine ⟨?_, ?_, fun t ht => ?_, fun t hcall htomb hlist => ?_⟩
  · intro r
    rw [Database.delete_rows h₃, hold .call (by decide) (by decide)]
    simp
  · rw [Database.delete_rows_of_ne h₃ (by decide), hrows .tombstone, if_neg (by decide),
      Database.insert_rows h₁]
  · have hcall : t ≠ .call := fun h => absurd (h ▸ ht) (by decide)
    have htomb : t ≠ .tombstone := fun h => absurd (h ▸ ht) (by decide)
    intro r
    rw [Database.delete_rows_of_ne h₃ hcall, hrows t, if_pos ht,
      Database.insert_rows_of_ne h₁ htomb]
    simp
  · rw [Database.delete_rows_of_ne h₃ hcall, hold t htomb hlist]

lemma eraseCall_steps {db db' : OrgDb} {q : EraseRequest} {k : Row}
    (hk : ownedCall db q.callId q.tokenAgent = .ok k) (h : eraseCall true db q = .ok db') :
    Rows db db' k q.callId ∧ ∀ r ∈ db.rows .tombstone, r .callId ≠ some (.text q.callId) := by
  unfold eraseCall at h
  by_cases hallow : true = false ∨ q.confirm ≠ q.callId
  · rw [if_pos hallow] at h
    exact absurd h Lib.throw_bind_ne_ok
  · rw [if_neg hallow] at h
    obtain ⟨-, -, h⟩ := Lib.bind_eq_ok.1 h
    obtain ⟨k', hk', h⟩ := Lib.bind_eq_ok.1 h
    obtain rfl : k' = k := Except.ok.inj (hk'.symm.trans hk)
    obtain ⟨db₁, h₁, h⟩ := Lib.bind_eq_ok.1 h
    obtain ⟨db₂, h₂, h₃⟩ := Lib.bind_eq_ok.1 h
    rw [Lib.mapError_eq_ok] at h₁ h₂ h₃
    exact ⟨rows_of_steps h₁ h₂ h₃, fun r hr => Database.insert_fresh h₁ r hr⟩

lemma eraseCall_of_erasable {db : OrgDb} {q : EraseRequest} {k : Row} (hconfirm : q.confirm = q.callId)
    (hk : ownedCall db q.callId q.tokenAgent = .ok k) (h : Erasable db k q.callId) :
    ∃ db', eraseCall true db q = .ok db' := by
  obtain ⟨db₁, h₁⟩ : ∃ db₁, db.insert .tombstone (tombstoneRow q.callId) = .ok db₁ :=
    Database.insert_ok (by simp [metadata, tombstoneRow]) h.tombstone
      (fun u hu ht => absurd ht (tombstone_free.1 u hu))
      (fun fk hfk ht => absurd ht (tombstone_free.2 fk hfk))
  obtain ⟨db₂, h₂, hrows⟩ := db₁.deleteAll_leaf (fun r => r .callId = k .id) erasedModels
    erasedModels_leaf
  obtain ⟨db₃, h₃⟩ : ∃ db₃, db₂.delete .call (fun r => r .id = k .id) = .ok db₃ := by
    refine Database.delete_ok fun fk hfk htarget r hr _ hnull d _ hd => ?_
    obtain ⟨hcol, htable⟩ := foreignKey_call fk hfk htarget
    have hd' : d .id = k .id := by simpa using hd
    show d .id ≠ r fk.column
    rw [hd', hcol]
    rcases htable with hlist | hlist
    · rw [hrows, if_pos hlist] at hr
      intro he
      simpa [he] using (List.mem_filter.1 hr).2
    · have hne : ∀ t ∈ unlistedModels, t ∉ erasedModels ∧ t ≠ .tombstone := by decide
      rw [hrows, if_neg (hne _ hlist).1, Database.insert_rows_of_ne h₁ (hne _ hlist).2] at hr
      exact fun he => h.unlisted _ hlist r hr he.symm
  refine ⟨db₃, ?_⟩
  unfold eraseCall
  rw [if_neg (by simp [hconfirm])]
  simp [hk, h₁, h₂, h₃, bind, Except.bind]

lemma Rows.cases {db db' : OrgDb} {k : Row} {callId : String} (h : Rows db db' k callId) (t : Table)
    (r : Row) (htomb : t ≠ .tombstone) :
    r ∈ db'.rows t ↔ r ∈ db.rows t ∧ (t = .call → r .id ≠ k .id) ∧
      (t ∈ erasedModels → r .callId ≠ k .id) := by
  by_cases hcall : t = .call
  · subst hcall
    simp [h.call, show Table.call ∉ erasedModels by decide]
  · by_cases hlist : t ∈ erasedModels
    · simp [h.listed t hlist, hcall, hlist]
    · simp [h.others t hcall htomb hlist, hcall, hlist]

/-- What is left after an erasure does not refer to the call, unless it is a parameter row. -/
lemma Rows.not_refers {db db' : OrgDb} {k : Row} {callId : String} (h : Rows db db' k callId)
    (hid : k .id ≠ none) (hparams : ∀ r ∈ db.rows .callParams, r .callKey = k .externalCallId →
      r .agentId ≠ none → r .agentId ≠ k .agentId) {t : Table} {r : Row} (hr : r ∈ db'.rows t) :
    ¬Refers db' k t r := by
  intro href
  induction href with
  | column t c r hfk heq =>
    obtain ⟨d, hd, hkey⟩ := db'.refs _ hfk r hr (heq ▸ hid)
    exact ((h.call d).1 hd).2 (hkey.trans heq)
  | callKey r hkey hnull hagent =>
    rw [h.others .callParams (by decide) (by decide) (by decide)] at hr
    exact hparams r hr hkey hnull hagent
  | through t u c r d _ _ hd _ _ ih => exact ih hd

/-- `erase_call` is complete for exactly the calls without a row in a table it misses. -/
theorem eraseCall_complete_iff (db : OrgDb) (q : EraseRequest) (k : Row)
    (hconfirm : q.confirm = q.callId) (hk : ownedCall db q.callId q.tokenAgent = .ok k) :
    (∃ db', eraseCall true db q = .ok db' ∧ Erased db db' k q.callId) ↔
      Erasable db k q.callId := by
  obtain ⟨hmem, hext⟩ := ownedCall_ok hk
  have hid : k .id ≠ none := db.key_some .call k hmem
  constructor
  · rintro ⟨db', herase, herased⟩
    obtain ⟨hrows, htomb⟩ := eraseCall_steps hk herase
    refine ⟨fun t ht r hr he => ?_, htomb, fun r hr hkey hnull hagent => ?_⟩
    · have hne : ∀ t ∈ unlistedModels, t ≠ .call ∧ t ≠ .tombstone ∧ t ∉ erasedModels ∧
          ⟨t, .callId, .call⟩ ∈ foreignKeys := by decide
      obtain ⟨hcall, htomb, hlist, hfk⟩ := hne t ht
      have hr' : r ∈ db'.rows t := (hrows.others t hcall htomb hlist).symm ▸ hr
      exact herased.gone t htomb r hr' (.column t .callId r hfk he)
    · have hr' : r ∈ db'.rows .callParams :=
        (hrows.others .callParams (by decide) (by decide) (by decide)).symm ▸ hr
      exact herased.gone .callParams (by decide) r hr' (.callKey r hkey hnull hagent)
  · intro h
    obtain ⟨db', herase⟩ := eraseCall_of_erasable hconfirm hk h
    obtain ⟨hrows, -⟩ := eraseCall_steps hk herase
    refine ⟨db', herase, ?_⟩
    constructor
    · exact fun r hr => ((hrows.call r).1 hr).2
    · exact fun t _ r hr => hrows.not_refers hid h.params hr
    · exact fun t u c hfk r hr hnull => db'.refs _ hfk r hr hnull
    · intro t r hr hself href
      by_cases htomb : t = .tombstone
      · subst htomb
        exact hrows.tombstone ▸ List.mem_append_left _ hr
      · refine (hrows.cases t r htomb).2 ⟨hr, hself, fun hlist he => ?_⟩
        exact href (.column t .callId r (erasedModels_foreignKey t hlist) he)
    · exact fun t ht r hr => ((hrows.cases t r ht).1 hr).1
    · exact hrows.tombstone

/-! ### A call with an embedding -/

def callRow (id callId : String) : Row
  | .id => some (.text id)
  | .externalCallId => some (.text callId)
  | _ => none

/-- A row of a table that refers to a call. -/
def dependentRow (id call : String) : Row
  | .id => some (.text id)
  | .callId => some (.text call)
  | _ => none

/-- Two calls; the first has a turn and the second an embedding. -/
def twoCalls : OrgDb :=
  let rows := [(.call, callRow "k1" "c1"), (.call, callRow "k2" "c2"),
    (.turn, dependentRow "t1" "k1"), (.callEmbedding, dependentRow "e1" "k2")]
  match (Database.empty metadata Value).insertAll rows with
  | .ok db => db
  | .error _ => .empty metadata Value

theorem eraseCall_complete_turn : ∃ db', eraseCall true twoCalls ⟨"c1", "c1", none⟩ = .ok db' ∧
    Erased twoCalls db' (callRow "k1" "c1") "c1" := by
  have hk : ownedCall twoCalls "c1" none = .ok (callRow "k1" "c1") := rfl
  have hparams : (twoCalls.rows .callParams) = [] := rfl
  refine (eraseCall_complete_iff twoCalls ⟨"c1", "c1", none⟩ _ rfl hk).2 ⟨by decide, by decide, ?_⟩
  simp [hparams]

/-- The embedding of the second call keeps it from being erased. -/
theorem eraseCall_incomplete_embedding :
    ownedCall twoCalls "c2" none = .ok (callRow "k2" "c2") ∧
    eraseCall true twoCalls ⟨"c2", "c2", none⟩ = .error (.database .foreignKey) ∧
    ¬∃ db', eraseCall true twoCalls ⟨"c2", "c2", none⟩ = .ok db' ∧
      Erased twoCalls db' (callRow "k2" "c2") "c2" := by
  have herror : eraseCall true twoCalls ⟨"c2", "c2", none⟩ = .error (.database .foreignKey) := rfl
  refine ⟨rfl, herror, ?_⟩
  rintro ⟨db', hok, -⟩
  rw [herror] at hok
  cases hok

end Pulse.Db
