import Mathlib.Data.List.Nodup
import Mathlib.Tactic.Common
import Pulse.Lib.Relational

/-!
# The ingest tables of one organisation

`Store` holds the rows of one organisation's schema that ingestion, erasure and the pull
workers read and write, together with the constraints `db/models.py` declares on them: the
primary keys, the unique `external_call_id` and the foreign keys to `call`. An operation
that would break a constraint fails with a `DbError`, as the database makes it fail.
-/

namespace Pulse.Ingest

/-- A row key made by `pk()`. Keys are handed out in order and never used twice, which is
what the model keeps of a random uuid. -/
abbrev Pk := Nat

/-- A clock reading. -/
abbrev Time := Nat

/-- An attribute value as `unwrap` returns it. Of a double and of an array or kvlist only
the text `str` makes of it and its truth value are kept. -/
inductive AttrValue
  | none
  | str (s : String)
  | bool (b : Bool)
  | int (i : Int)
  | other (text : String) (truthy : Bool)
  deriving DecidableEq, Repr

/-- The attributes of a resource or a span, in the order they are listed. -/
abbrev Attributes := List (String × AttrValue)

/-- One OTLP span. A missing or null id is the empty string; `body` stands for the fields
that ingestion only archives. -/
structure Span where
  traceId : String
  spanId : String
  parentSpanId : String
  attributes : Attributes
  body : String
  deriving DecidableEq, Repr

/-- One `resourceSpans` entry: what a raw-spans record carries and a fragment archives. -/
structure Slice where
  resource : Attributes
  spans : List Span
  deriving DecidableEq, Repr

inductive CallStatus
  | awaitingMedia
  | ingested
  | unsupported
  | failed
  deriving DecidableEq, Repr

inductive AnalysisMode
  | full
  | audioOnly
  | diarized
  deriving DecidableEq, Repr

structure Call where
  id : Pk
  externalCallId : String
  traceId : Option String := none
  source : AttrValue
  environment : AttrValue
  schemaVersion : Option AttrValue := none
  agentId : Option String := none
  promptId : Option Pk := none
  spansComplete : Bool := false
  mediaReady : Bool := false
  status : CallStatus := .awaitingMedia
  analysisMode : AnalysisMode := .full
  analysisError : Option String := none
  metricVersion : Option Nat := none
  lastActivityAt : Time
  deriving DecidableEq, Repr

structure RawFragment where
  callId : Option Pk
  batchId : String
  seq : Int
  receivedAt : Time
  payload : Slice
  deriving DecidableEq, Repr

structure Media where
  callId : Pk
  kind : String
  uri : Option String := none
  sha256 : Option String := none
  deriving DecidableEq, Repr

/-- An erased call, under the external id it was erased by. -/
structure Tombstone where
  callId : String
  deletedBy : Option String
  deriving DecidableEq, Repr

structure AgentScript where
  agentId : String
  promptId : Pk
  active : Bool
  deriving DecidableEq, Repr

/-- The constraint that a statement violates. -/
abbrev DbError := Lib.Violation

structure Store where
  calls : List Call
  rawFragments : List RawFragment
  tombstones : List Tombstone
  media : List Media
  agentScripts : List AgentScript
  nextPk : Pk
  call_lt : ∀ c ∈ calls, c.id < nextPk
  call_pk : (calls.map Call.id).Nodup
  call_external : (calls.map Call.externalCallId).Nodup
  fragment_call : ∀ f ∈ rawFragments, ∀ p ∈ f.callId, p ∈ calls.map Call.id
  media_call : ∀ m ∈ media, m.callId ∈ calls.map Call.id
  tombstone_pk : (tombstones.map Tombstone.callId).Nodup

namespace Store

/-- A schema that holds no row yet. -/
def empty : Store where
  calls := []
  rawFragments := []
  tombstones := []
  media := []
  agentScripts := []
  nextPk := 0
  call_lt := by simp
  call_pk := by simp
  call_external := by simp
  fragment_call := by simp
  media_call := by simp
  tombstone_pk := by simp

/-! ### Look-ups -/

/-- `select(Call).where(Call.external_call_id == x)` -/
def callByExternal (db : Store) (x : String) : Option Call :=
  db.calls.find? (·.externalCallId = x)

/-- `select(Call).where(Call.trace_id == t)` -/
def callByTrace (db : Store) (t : String) : Option Call :=
  db.calls.find? (·.traceId = some t)

/-- `db.get(Tombstone, x) is not None` -/
def hasTombstone (db : Store) (x : String) : Bool :=
  db.tombstones.any (·.callId = x)

lemma callByExternal_some {db : Store} {x : String} {c : Call} (h : db.callByExternal x = some c) :
    c ∈ db.calls ∧ c.externalCallId = x :=
  ⟨List.mem_of_find?_eq_some h, by simpa using List.find?_some h⟩

lemma callByExternal_eq_none {db : Store} {x : String} :
    db.callByExternal x = none ↔ ∀ c ∈ db.calls, c.externalCallId ≠ x := by
  simp [callByExternal]

lemma callByTrace_some {db : Store} {t : String} {c : Call} (h : db.callByTrace t = some c) :
    c ∈ db.calls ∧ c.traceId = some t :=
  ⟨List.mem_of_find?_eq_some h, by simpa using List.find?_some h⟩

lemma callByTrace_eq_none {db : Store} {t : String} :
    db.callByTrace t = none ↔ ∀ c ∈ db.calls, c.traceId ≠ some t := by
  simp [callByTrace]

lemma callByExternal_of_mem {db : Store} {c : Call} (h : c ∈ db.calls) :
    db.callByExternal c.externalCallId = some c := by
  cases hf : db.callByExternal c.externalCallId with
  | none => exact absurd rfl (callByExternal_eq_none.1 hf c h)
  | some d =>
    obtain ⟨hd, he⟩ := callByExternal_some hf
    rw [List.inj_on_of_nodup_map db.call_external hd h he]

lemma eq_of_id_eq {db : Store} {c d : Call} (hc : c ∈ db.calls) (hd : d ∈ db.calls)
    (h : c.id = d.id) : c = d :=
  List.inj_on_of_nodup_map db.call_pk hc hd h

/-! ### Statements -/

/-- The row `p` rewritten by `f`, which cannot change its key. -/
def onRow (p : Pk) (f : Call → Call) (c : Call) : Call :=
  if c.id = p then { f c with id := c.id } else c

@[simp] lemma onRow_id (p : Pk) (f : Call → Call) (c : Call) : (onRow p f c).id = c.id := by
  unfold onRow
  split <;> rfl

lemma onRow_of_ne {p : Pk} {f : Call → Call} {c : Call} (h : c.id ≠ p) : onRow p f c = c :=
  if_neg h

lemma map_onRow_of_ne {p : Pk} {f : Call → Call} {calls : List Call}
    (h : ∀ c ∈ calls, c.id ≠ p) : calls.map (onRow p f) = calls := by
  rw [List.map_congr_left fun c hc => onRow_of_ne (h c hc)]
  exact List.map_id calls

lemma map_onRow_onRow (p : Pk) (f g : Call → Call) (calls : List Call) :
    (calls.map (onRow p g)).map (onRow p f) =
      calls.map (onRow p fun c => f { g c with id := c.id }) := by
  rw [List.map_map]
  apply List.map_congr_left
  intro c _
  by_cases h : c.id = p
  · simp [onRow, h]
  · simp [onRow, h]

lemma map_onRow_id (p : Pk) (f : Call → Call) (calls : List Call) :
    (calls.map (onRow p f)).map Call.id = calls.map Call.id := by
  simp [Function.comp_def]

/-- `INSERT` of a call, under a key of its own. -/
def insertCall (db : Store) (c : Call) : Except DbError Store :=
  if h : c.externalCallId ∈ db.calls.map Call.externalCallId then .error .unique
  else .ok { db with
    calls := db.calls ++ [{ c with id := db.nextPk }]
    nextPk := db.nextPk + 1
    call_lt := by
      intro d hd
      rcases List.mem_append.1 hd with hd | hd
      · exact Nat.lt_succ_of_lt (db.call_lt d hd)
      · simp [List.mem_singleton.1 hd]
    call_pk := by
      rw [List.map_append, List.map_singleton, List.nodup_append_comm]
      refine List.nodup_cons.2 ⟨fun hm => ?_, db.call_pk⟩
      obtain ⟨d, hd, he⟩ := List.mem_map.1 hm
      exact absurd (db.call_lt d hd) (by simp [he])
    call_external := by
      rw [List.map_append, List.map_singleton, List.nodup_append_comm]
      exact List.nodup_cons.2 ⟨h, db.call_external⟩
    fragment_call := by
      intro f hf p hp
      rw [List.map_append]
      exact List.mem_append_left _ (db.fragment_call f hf p hp)
    media_call := by
      intro m hm
      rw [List.map_append]
      exact List.mem_append_left _ (db.media_call m hm) }

/-- `UPDATE` of the call `p`. -/
def updateCall (db : Store) (p : Pk) (f : Call → Call) : Except DbError Store :=
  if h : ((db.calls.map (onRow p f)).map Call.externalCallId).Nodup then .ok { db with
    calls := db.calls.map (onRow p f)
    call_lt := by
      intro d hd
      obtain ⟨c, hc, rfl⟩ := List.mem_map.1 hd
      rw [onRow_id]
      exact db.call_lt c hc
    call_pk := by
      rw [map_onRow_id]
      exact db.call_pk
    call_external := h
    fragment_call := by
      rw [map_onRow_id]
      exact db.fragment_call
    media_call := by
      rw [map_onRow_id]
      exact db.media_call }
  else .error .unique

def insertFragment (db : Store) (f : RawFragment) : Except DbError Store :=
  if h : ∀ p ∈ f.callId, p ∈ db.calls.map Call.id then .ok { db with
    rawFragments := db.rawFragments ++ [f]
    fragment_call := by
      intro g hg p hp
      rcases List.mem_append.1 hg with hg | hg
      · exact db.fragment_call g hg p hp
      · exact h p (List.mem_singleton.1 hg ▸ hp) }
  else .error .foreignKey

def insertMedia (db : Store) (m : Media) : Except DbError Store :=
  if h : m.callId ∈ db.calls.map Call.id then .ok { db with
    media := db.media ++ [m]
    media_call := by
      intro n hn
      rcases List.mem_append.1 hn with hn | hn
      · exact db.media_call n hn
      · exact List.mem_singleton.1 hn ▸ h }
  else .error .foreignKey

def insertTombstone (db : Store) (t : Tombstone) : Except DbError Store :=
  if h : t.callId ∈ db.tombstones.map Tombstone.callId then .error .unique
  else .ok { db with
    tombstones := db.tombstones ++ [t]
    tombstone_pk := by
      rw [List.map_append, List.map_singleton, List.nodup_append_comm]
      exact List.nodup_cons.2 ⟨h, db.tombstone_pk⟩ }

/-- `DELETE FROM raw_fragment WHERE call_id = p` -/
def deleteFragments (db : Store) (p : Pk) : Store :=
  { db with
    rawFragments := db.rawFragments.filter (·.callId ≠ some p)
    fragment_call := fun f hf => db.fragment_call f (List.mem_of_mem_filter hf) }

/-- `DELETE FROM media WHERE call_id = p` -/
def deleteMedia (db : Store) (p : Pk) : Store :=
  { db with
    media := db.media.filter (·.callId ≠ p)
    media_call := fun m hm => db.media_call m (List.mem_of_mem_filter hm) }

/-- `DELETE FROM call WHERE id = p`, refused while a row still refers to the call. -/
def deleteCall (db : Store) (p : Pk) : Except DbError Store :=
  if h : (∀ f ∈ db.rawFragments, f.callId ≠ some p) ∧ ∀ m ∈ db.media, m.callId ≠ p then .ok { db with
    calls := db.calls.filter (·.id ≠ p)
    call_lt := fun c hc => db.call_lt c (List.mem_of_mem_filter hc)
    call_pk := (List.filter_sublist.map Call.id).nodup db.call_pk
    call_external := (List.filter_sublist.map Call.externalCallId).nodup db.call_external
    fragment_call := by
      intro f hf q hq
      obtain ⟨c, hc, rfl⟩ := List.mem_map.1 (db.fragment_call f hf q hq)
      have hne : c.id ≠ p := fun he => h.1 f hf (he ▸ hq)
      exact List.mem_map_of_mem (List.mem_filter.2 ⟨hc, by simpa using hne⟩)
    media_call := by
      intro m hm
      obtain ⟨c, hc, he⟩ := List.mem_map.1 (db.media_call m hm)
      have hne : c.id ≠ p := fun h' => h.2 m hm (he ▸ h')
      exact he ▸ List.mem_map_of_mem (List.mem_filter.2 ⟨hc, by simpa using hne⟩) }
  else .error .foreignKey

/-! ### What the statements do -/

/-- The rows other than calls are the same in both stores. -/
structure CallsOnly (db db' : Store) : Prop where
  rawFragments : db'.rawFragments = db.rawFragments
  tombstones : db'.tombstones = db.tombstones
  media : db'.media = db.media
  agentScripts : db'.agentScripts = db.agentScripts

lemma CallsOnly.trans {a b c : Store} (h : CallsOnly a b) (h' : CallsOnly b c) : CallsOnly a c :=
  ⟨h'.1.trans h.1, h'.2.trans h.2, h'.3.trans h.3, h'.4.trans h.4⟩

lemma CallsOnly.hasTombstone {a b : Store} (h : CallsOnly a b) (x : String) :
    b.hasTombstone x = a.hasTombstone x := by
  simp only [Store.hasTombstone, h.tombstones]

lemma insertCall_ok (db : Store) (c : Call) (h : db.callByExternal c.externalCallId = none) :
    ∃ db', db.insertCall c = .ok db' ∧ db'.calls = db.calls ++ [{ c with id := db.nextPk }] ∧
      CallsOnly db db' := by
  have hx : c.externalCallId ∉ db.calls.map Call.externalCallId := by
    rw [callByExternal_eq_none] at h
    intro hm
    obtain ⟨d, hd, he⟩ := List.mem_map.1 hm
    exact h d hd he
  unfold insertCall
  rw [dif_neg hx]
  exact ⟨_, rfl, rfl, rfl, rfl, rfl, rfl⟩

/-- An update succeeds when the row keeps its external id or takes one nobody has. -/
lemma updateCall_ok (db : Store) (p : Pk) (f : Call → Call)
    (h : ∀ c ∈ db.calls, c.id = p → (f c).externalCallId = c.externalCallId ∨
      db.callByExternal (f c).externalCallId = none) :
    ∃ db', db.updateCall p f = .ok db' ∧ db'.calls = db.calls.map (onRow p f) ∧
      CallsOnly db db' := by
  have hn : ((db.calls.map (onRow p f)).map Call.externalCallId).Nodup := by
    rw [List.map_map]
    refine List.Nodup.map_on ?_ db.call_pk.of_map
    intro c hc d hd he
    by_contra hne
    have hid : c.id ≠ d.id := fun hi => hne (eq_of_id_eq hc hd hi)
    have hxd : c.externalCallId ≠ d.externalCallId := fun hx =>
      hne (List.inj_on_of_nodup_map db.call_external hc hd hx)
    simp only [Function.comp_apply, onRow] at he
    split at he
    · rename_i hcp
      rw [if_neg (fun hdp => hid (hcp.trans hdp.symm))] at he
      rcases h c hc hcp with hk | hk
      · exact hxd (hk.symm.trans he)
      · exact callByExternal_eq_none.1 hk d hd he.symm
    · split at he
      · rename_i hdp
        rcases h d hd hdp with hk | hk
        · exact hxd (he.trans hk)
        · exact callByExternal_eq_none.1 hk c hc he
      · exact hxd he
  unfold updateCall
  rw [dif_pos hn]
  exact ⟨_, rfl, rfl, rfl, rfl, rfl, rfl⟩

lemma updateCall_calls {db db' : Store} {p : Pk} {f : Call → Call}
    (h : db.updateCall p f = .ok db') :
    db'.calls = db.calls.map (onRow p f) ∧ CallsOnly db db' := by
  unfold updateCall at h
  split at h
  · cases h
    exact ⟨rfl, rfl, rfl, rfl, rfl⟩
  · cases h

lemma insertCall_calls {db db' : Store} {c : Call} (h : db.insertCall c = .ok db') :
    db'.calls = db.calls ++ [{ c with id := db.nextPk }] ∧ CallsOnly db db' := by
  unfold insertCall at h
  split at h
  · cases h
  · cases h
    exact ⟨rfl, rfl, rfl, rfl, rfl⟩

lemma insertFragment_rows {db db' : Store} {f : RawFragment} (h : db.insertFragment f = .ok db') :
    db'.calls = db.calls ∧ db'.tombstones = db.tombstones := by
  unfold insertFragment at h
  split at h
  · cases h
    exact ⟨rfl, rfl⟩
  · cases h

lemma insertMedia_rows {db db' : Store} {m : Media} (h : db.insertMedia m = .ok db') :
    db'.calls = db.calls ∧ db'.tombstones = db.tombstones := by
  unfold insertMedia at h
  split at h
  · cases h
    exact ⟨rfl, rfl⟩
  · cases h

lemma insertTombstone_rows {db db' : Store} {t : Tombstone} (h : db.insertTombstone t = .ok db') :
    db'.calls = db.calls ∧ db'.rawFragments = db.rawFragments ∧
      db'.tombstones = db.tombstones ++ [t] := by
  unfold insertTombstone at h
  split at h
  · cases h
  · cases h
    exact ⟨rfl, rfl, rfl⟩

lemma deleteCall_rows {db db' : Store} {p : Pk} (h : db.deleteCall p = .ok db') :
    db'.calls = db.calls.filter (·.id ≠ p) ∧ db'.rawFragments = db.rawFragments ∧
      db'.tombstones = db.tombstones := by
  unfold deleteCall at h
  split at h
  · cases h
    exact ⟨rfl, rfl, rfl⟩
  · cases h

lemma hasTombstone_append {db db' : Store} {t : Tombstone}
    (h : db'.tombstones = db.tombstones ++ [t]) (x : String) :
    db'.hasTombstone x = (db.hasTombstone x || decide (t.callId = x)) := by
  simp [hasTombstone, h]

end Store

end Pulse.Ingest
