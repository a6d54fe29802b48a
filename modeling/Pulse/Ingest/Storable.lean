import Pulse.Db.ColumnTypes
import Pulse.Ingest.Resolution

/-!
# What a batch writes fits its columns

`upsert_call` and `store_fragment` write strings and integers of a producer to columns that are
bounded. The rows that a batch leaves fit their columns exactly when each value fits that the batch
brings to a row which does not have one.
-/

namespace Pulse.Ingest

open Pulse.Db (ColumnValue Fits InRange callBounds rawFragmentBounds)

/-! ### Rows -/

def AttrValue.cell : AttrValue → ColumnValue
  | .none => .null
  | .str s => .str s
  | .bool b => .int (if b then 1 else 0)
  | .int i => .int i
  | .other _ _ => .other

/-- The columns that `upsert_call` fills from a batch. -/
def Call.cells (c : Call) : List (String × ColumnValue) :=
  [("external_call_id", .str c.externalCallId), ("trace_id", .ofText c.traceId),
    ("source", c.source.cell), ("environment", c.environment.cell),
    ("schema_version", c.schemaVersion.elim .null AttrValue.cell), ("agent_id", .ofText c.agentId)]

/-- The columns that `store_fragment` fills from the headers of a record. -/
def RawFragment.cells (f : RawFragment) : List (String × ColumnValue) :=
  [("batch_id", .str f.batchId), ("seq", .int f.seq)]

/-- The rows fit their columns. -/
structure Store.Fits (db : Store) : Prop where
  calls : ∀ c ∈ db.calls, callBounds.AdmitsRow c.cells
  rawFragments : ∀ f ∈ db.rawFragments, rawFragmentBounds.AdmitsRow f.cells

lemma fits_iff {db : Store} : db.Fits ↔ (∀ c ∈ db.calls, callBounds.AdmitsRow c.cells) ∧
    ∀ f ∈ db.rawFragments, rawFragmentBounds.AdmitsRow f.cells :=
  ⟨fun h => ⟨h.calls, h.rawFragments⟩, fun h => ⟨h.1, h.2⟩⟩

lemma admitsRow_call {c : Call} : callBounds.AdmitsRow c.cells ↔
    c.externalCallId.length ≤ 128 ∧ (∀ t ∈ c.traceId, t.length ≤ 64) ∧
      Fits (.string 64) c.source.cell ∧ Fits (.string 16) c.environment.cell ∧
      Fits .integer (c.schemaVersion.elim .null AttrValue.cell) ∧ ∀ a ∈ c.agentId, a.length ≤ 36 := by
  simp [Db.Bounds.AdmitsRow, Db.Bounds.Admits, Call.cells, callBounds, List.lookup_cons]

lemma admitsRow_rawFragment {f : RawFragment} : rawFragmentBounds.AdmitsRow f.cells ↔
    f.batchId.length ≤ 64 ∧ InRange f.seq := by
  simp [Db.Bounds.AdmitsRow, Db.Bounds.Admits, RawFragment.cells, rawFragmentBounds, List.lookup_cons]

/-! ### Batches -/

/-- What the batch brings fits: its call id, its trace and agent ids where the row that it joins has
none, and the attributes of its resource where it joins no row. -/
structure Batch.Fits (db : Store) (b : Batch) : Prop where
  callId : ∀ x ∈ b.callId, x.length ≤ 128
  traceId : (∀ c ∈ joined db b, c.traceId = none) → b.traceId.length ≤ 64
  agentId : (∀ c ∈ joined db b, c.agentId = none) → ∀ a ∈ b.agentId, a.length ≤ 36
  source : joined db b = none →
    Db.Fits (.string 64) ((attrGet b.attrs "service.name").getD (.str "unknown")).cell
  environment : joined db b = none →
    Db.Fits (.string 16) ((attrGet b.attrs "deployment.environment").getD (.str "prod")).cell
  schemaVersion : joined db b = none →
    Db.Fits .integer ((attrGet b.attrs "voice.schema_version").elim .null AttrValue.cell)

section

variable {db db₁ db₂ : Store} {b : Batch} {x : String} {now : Time}

lemma length_of_nonEmpty {s : String} {n : Nat} :
    (∀ t ∈ nonEmpty s, t.length ≤ n) ↔ s.length ≤ n := by
  by_cases hs : s = ""
  · simp [nonEmpty, hs]
  · simp [nonEmpty_of_ne hs]

lemma length_of_bind_nonEmpty {s : Option String} {n : Nat} :
    (∀ t ∈ s.bind nonEmpty, t.length ≤ n) ↔ ∀ t ∈ s, t.length ≤ n := by
  cases s with
  | none => simp
  | some s => simpa using length_of_nonEmpty

/-- The rows fit after an upsert exactly when the batch does. -/
theorem calls_fit_iff (hfits : ∀ c ∈ db.calls, callBounds.AdmitsRow c.cells)
    (hx : b.callId = some x) {calls : List Call} (h : Upserted db b x now calls) :
    (∀ c ∈ calls, callBounds.AdmitsRow c.cells) ↔ b.Fits db := by
  rcases h.joined hx with ⟨c, hc, hjoined, hcalls⟩ | ⟨hjoined, hcalls⟩
  · have hrow : (∀ c ∈ calls, callBounds.AdmitsRow c.cells) ↔
        callBounds.AdmitsRow (fillIn db b now { c with externalCallId := x }).cells := by
      rw [hcalls, List.forall_mem_map]
      constructor
      · intro hall
        have hrow := hall c hc
        rwa [Store.onRow, if_pos rfl] at hrow
      · intro hnew d hd
        by_cases hid : d.id = c.id
        · rw [Store.eq_of_id_eq hd hc hid, Store.onRow, if_pos rfl]
          exact hnew
        · rw [Store.onRow_of_ne hid]
          exact hfits d hd
    obtain ⟨-, htrace, hsource, henvironment, hschema, hagent⟩ := admitsRow_call.1 (hfits c hc)
    have hnone : joined db b ≠ none := by simp [hjoined]
    rw [hrow, admitsRow_call]
    change x.length ≤ 128 ∧ (∀ t ∈ c.traceId.or (nonEmpty b.traceId), t.length ≤ 64) ∧
      Fits (.string 64) c.source.cell ∧ Fits (.string 16) c.environment.cell ∧
      Fits .integer (c.schemaVersion.elim .null AttrValue.cell) ∧
      (∀ a ∈ c.agentId.or (b.agentId.bind nonEmpty), a.length ≤ 36) ↔ _
    constructor
    · rintro ⟨hid, htrace', -, -, -, hagent'⟩
      refine ⟨by simpa [hx] using hid, fun hno => ?_, fun hno => ?_, fun h => absurd h hnone,
        fun h => absurd h hnone, fun h => absurd h hnone⟩
      · rw [hno c hjoined, Option.none_or] at htrace'
        exact length_of_nonEmpty.1 htrace'
      · rw [hno c hjoined, Option.none_or] at hagent'
        exact length_of_bind_nonEmpty.1 hagent'
    · intro h
      refine ⟨h.callId x hx, ?_, hsource, henvironment, hschema, ?_⟩
      · cases htc : c.traceId with
        | none =>
          rw [Option.none_or]
          exact length_of_nonEmpty.2 (h.traceId fun d hd => by
            rw [hjoined] at hd
            rw [← Option.some.inj hd, htc])
        | some t => simpa [htc] using htrace
      · cases hac : c.agentId with
        | none =>
          rw [Option.none_or]
          exact length_of_bind_nonEmpty.2 (h.agentId fun d hd => by
            rw [hjoined] at hd
            rw [← Option.some.inj hd, hac])
        | some a => simpa [hac] using hagent
  · have hrow : (∀ c ∈ calls, callBounds.AdmitsRow c.cells) ↔
        callBounds.AdmitsRow (fillIn db b now { newCall b x now with id := db.nextPk }).cells := by
      rw [hcalls, List.forall_mem_append, List.forall_mem_singleton]
      exact and_iff_right hfits
    rw [hrow, admitsRow_call]
    change x.length ≤ 128 ∧
      (∀ t ∈ (nonEmpty b.traceId).or (nonEmpty b.traceId), t.length ≤ 64) ∧
      Fits (.string 64) ((attrGet b.attrs "service.name").getD (.str "unknown")).cell ∧
      Fits (.string 16) ((attrGet b.attrs "deployment.environment").getD (.str "prod")).cell ∧
      Fits .integer ((attrGet b.attrs "voice.schema_version").elim .null AttrValue.cell) ∧
      (∀ a ∈ b.agentId.or (b.agentId.bind nonEmpty), a.length ≤ 36) ↔ _
    have hagents : b.agentId.or (b.agentId.bind nonEmpty) = b.agentId := by
      cases b.agentId <;> rfl
    rw [Option.or_self, length_of_nonEmpty, hagents]
    constructor
    · rintro ⟨hid, htrace, hsource, henvironment, hschema, hagent⟩
      exact ⟨by simpa [hx] using hid, fun _ => htrace, fun _ => hagent, fun _ => hsource,
        fun _ => henvironment, fun _ => hschema⟩
    · intro h
      exact ⟨h.callId x hx, h.traceId (by simp [hjoined]), h.source hjoined, h.environment hjoined,
        h.schemaVersion hjoined, h.agentId (by simp [hjoined])⟩

end

/-! ### Records -/

/-- What a record brings fits: its call id, ids and attributes where it reaches a call, and its
headers unless they are stored already. A record of an erased call brings nothing. -/
def RecordFits (db : Store) (r : Record) (slice : Slice) : Prop :=
  let b := identify db slice (r.agentId.bind nonEmpty)
  tombstoned db b.callId = true ∨
    (b.callId.isSome → b.Fits db) ∧
      ((∃ c ∈ joined db b, hasFragment db c.id r.batchId r.seq = true) ∨
        r.batchId.length ≤ 64 ∧ InRange r.seq)

section

variable {db : Store}

lemma hasFragment_nextPk {batchId : String} {seq : Int} :
    hasFragment db db.nextPk batchId seq = false := by
  rw [← Bool.not_eq_true, hasFragment, List.any_eq_true]
  rintro ⟨f, hf, h⟩
  obtain ⟨c, hc, hid⟩ := List.mem_map.1
    (db.fragment_call f hf db.nextPk (of_decide_eq_true h).1)
  exact absurd (db.call_lt c hc) (by simp [hid])

/-- The rows fit after a record exactly when what it brings does. -/
theorem assembleRecord_fits_iff (hfits : db.Fits) (r : Record) (slice : Slice) (now : Time) :
    ∃ db', assembleRecord db r slice now = .ok db' ∧ (db'.Fits ↔ RecordFits db r slice) := by
  obtain ⟨db', hok, h⟩ := assembleRecord_spec db r slice now
  refine ⟨db', hok, ?_⟩
  unfold RecordFits
  dsimp only
  generalize hb : identify db slice (r.agentId.bind nonEmpty) = b at h
  rcases h with ⟨x, hx, htomb, hdb⟩ | ⟨hx, hcalls, -, -, hfrags⟩ | ⟨x, c, hx, htomb, hup, hfind, -, -, hfrags⟩
  · rw [hb] at hx
    rw [hdb]
    exact iff_of_true hfits (.inl (by simp [tombstoned, hx, htomb]))
  · rw [hb] at hx
    have hjoined : joined db b = none := by simp [joined, hx]
    have hrows : db'.Fits ↔ r.batchId.length ≤ 64 ∧ InRange r.seq := by
      rw [fits_iff, hcalls, hfrags, List.forall_mem_append, List.forall_mem_singleton,
        admitsRow_rawFragment]
      exact ⟨fun h => h.2.2, fun h => ⟨hfits.calls, hfits.rawFragments, h⟩⟩
    rw [hrows]
    simp [tombstoned, hx, hjoined]
  · rw [hb] at hx hup
    have hcid : c.id = ((joined db b).map Call.id).getD db.nextPk := hup.joined_id hx hfind
    have hhas : hasFragment db c.id r.batchId r.seq = true ↔
        ∃ c ∈ joined db b, hasFragment db c.id r.batchId r.seq = true := by
      cases hjoined : joined db b with
      | none => simp [hcid, hjoined, hasFragment_nextPk]
      | some d => simp [hcid, hjoined]
    have hrows : (∀ f ∈ db'.rawFragments, rawFragmentBounds.AdmitsRow f.cells) ↔
        hasFragment db c.id r.batchId r.seq = true ∨ r.batchId.length ≤ 64 ∧ InRange r.seq := by
      rw [hfrags]
      split
      · next hthere => exact iff_of_true hfits.rawFragments (.inl hthere)
      · next hthere =>
        rw [List.forall_mem_append, List.forall_mem_singleton, admitsRow_rawFragment,
          or_iff_right hthere]
        exact and_iff_right hfits.rawFragments
    rw [fits_iff, calls_fit_iff hfits.calls hx hup, hrows, hhas]
    simp [tombstoned, hx, htomb]

end

end Pulse.Ingest
