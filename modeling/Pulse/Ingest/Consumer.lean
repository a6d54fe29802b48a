import Pulse.Ingest.Ingestion

/-!
# The analysis consumer

`handle_record` of `worker/run.py` on one organisation's schema: assemble a raw-spans record
into its call, and analyse the call when it is ready. The analysis itself is a parameter.
-/

namespace Pulse.Ingest

/-- `METRIC_VERSION` -/
def metricVersion : Nat := 2

/-- A raw-spans record, with the headers that the consumer reads. `value` is the slice the
message decodes to, or nothing when it does not decode. -/
structure Record where
  agentId : Option String
  batchId : String
  seq : Int
  value : Option Slice
  deriving DecidableEq, Repr

/-- How `process` ends and the state of the session it leaves. After a raise that came from
the database itself there is nothing left to commit. -/
inductive Processed
  | analysed (db : Store)
  | unsupportedSchema (db : Store)
  | raised (left : Option Store)

/-- `process(db, call)` at a time, the call given by its key. -/
abbrev Process := Store → Pk → Time → Processed

inductive HandleError
  | undecodable
  | database (e : DbError)
  | analysis
  deriving DecidableEq, Repr

/-- `_ready_now`: audio is present and the call is not analysed at the current version. -/
def readyNow (c : Call) : Bool :=
  c.spansComplete && c.mediaReady && c.status ≠ .unsupported && c.metricVersion ≠ some metricVersion

/-- `_analyse`: is the call to be judged? -/
def analyse (process : Process) (db : Store) (pk : Pk) (now : Time) :
    Except HandleError (Store × Bool) :=
  match process db pk now with
  | .analysed db => .ok (db, true)
  | .unsupportedSchema db => do
    let db ← (db.updateCall pk fun c => { c with status := .unsupported }).mapError .database
    return (db, false)
  | .raised _ => .error .analysis

/-- The write path of `handle_record`, for a slice that decoded. -/
def assembleRecord (db : Store) (r : Record) (slice : Slice) (now : Time) : Except DbError Store :=
  let b := identify db slice (r.agentId.bind nonEmpty)
  if tombstoned db b.callId then .ok db
  else do
    let db ← if b.callId.isSome then upsertCall db b now else pure db
    storeFragment db b r.batchId r.seq now

/-- `handle_record`: the new state and the external id to queue for judging. -/
def handleRecord (process : Process) (db : Store) (r : Record) (now : Time) :
    Except HandleError (Store × Option String) := do
  let some slice := r.value | throw .undecodable
  let b := identify db slice (r.agentId.bind nonEmpty)
  if tombstoned db b.callId then return (db, none)
  let db ← (assembleRecord db r slice now).mapError .database
  match b.callId.bind db.callByExternal with
  | some call =>
    if readyNow call then
      let (db, judge) ← analyse process db call.id now
      return (db, if judge then some call.externalCallId else none)
    else return (db, none)
  | none => return (db, none)

/-- A record handed to the consumer at some time. -/
structure Delivery where
  record : Record
  now : Time

/-- One delivery in a session of its own: a raise rolls everything back. -/
def deliver (process : Process) (db : Store) (d : Delivery) : Store :=
  match handleRecord process db d.record d.now with
  | .ok (db, _) => db
  | .error _ => db

/-- Every call's key, external id and trace id, the fragments and the tombstones are the same
in both stores. -/
structure SameIdentity (db db' : Store) : Prop where
  calls : db'.calls.map (fun c => (c.id, c.externalCallId, c.traceId)) =
    db.calls.map (fun c => (c.id, c.externalCallId, c.traceId))
  rawFragments : db'.rawFragments = db.rawFragments
  tombstones : db'.tombstones = db.tombstones

/-- The states that an analysis can leave behind. -/
inductive Processed.Leaves : Processed → Store → Prop
  | analysed (db : Store) : Leaves (.analysed db) db
  | unsupportedSchema (db : Store) : Leaves (.unsupportedSchema db) db
  | raised (db : Store) : Leaves (.raised (some db)) db

/-- `_apply_header` copies a header counter onto the column of its name. This says that no
counter is named after an identity column. -/
def KeepsIdentity (process : Process) : Prop :=
  ∀ db pk now db', (process db pk now).Leaves db' → SameIdentity db db'

/-! ### What `upsert_call` does -/

@[simp] lemma fillIn_id (db : Store) (b : Batch) (now : Time) (c : Call) :
    (fillIn db b now c).id = c.id := rfl

@[simp] lemma fillIn_externalCallId (db : Store) (b : Batch) (now : Time) (c : Call) :
    (fillIn db b now c).externalCallId = c.externalCallId := rfl

@[simp] lemma fillIn_traceId (db : Store) (b : Batch) (now : Time) (c : Call) :
    (fillIn db b now c).traceId = c.traceId.or (nonEmpty b.traceId) := rfl

@[simp] lemma fillIn_spansComplete (db : Store) (b : Batch) (now : Time) (c : Call) :
    (fillIn db b now c).spansComplete = (c.spansComplete || b.root.isSome) := rfl

@[simp] lemma fillIn_mediaReady (db : Store) (b : Batch) (now : Time) (c : Call) :
    (fillIn db b now c).mediaReady = c.mediaReady := rfl

lemma fillIn_congr {db db' : Store} (h : db'.agentScripts = db.agentScripts) (b : Batch)
    (now : Time) : fillIn db' b now = fillIn db b now := by
  have hscript : activeScriptPrompt db' = activeScriptPrompt db := by
    funext agentId
    simp only [activeScriptPrompt, h]
  funext c
  simp only [fillIn, hscript]

/-- The three ways `upsert_call` ends, with the calls it leaves. It never fails on a batch
that has a call id. -/
inductive Upserted (db : Store) (b : Batch) (x : String) (now : Time) (calls : List Call) : Prop
  | found (c : Call) : db.callByExternal x = some c →
      calls = db.calls.map (Store.onRow c.id (fillIn db b now)) → Upserted db b x now calls
  | promoted (c : Call) : db.callByExternal x = none → b.traceId ≠ "" →
      db.callByTrace b.traceId = some c →
      calls = db.calls.map (Store.onRow c.id fun c =>
        fillIn db b now { c with externalCallId := x }) → Upserted db b x now calls
  | created : db.callByExternal x = none →
      (b.traceId = "" ∨ db.callByTrace b.traceId = none) →
      calls = db.calls ++ [fillIn db b now { newCall b x now with id := db.nextPk }] →
      Upserted db b x now calls

theorem upsertCall_spec (db : Store) (b : Batch) (now : Time) {x : String} (hx : b.callId = some x) :
    ∃ db', upsertCall db b now = .ok db' ∧ Store.CallsOnly db db' ∧ Upserted db b x now db'.calls := by
  unfold upsertCall
  simp only [hx]
  cases hfound : db.callByExternal x with
  | some c =>
    obtain ⟨db', hok, hcalls, hframe⟩ := Store.updateCall_ok db c.id (fillIn db b now)
      (fun d _ _ => .inl rfl)
    exact ⟨db', hok, hframe, .found c hfound hcalls⟩
  | none =>
    by_cases hp : b.traceId ≠ "" ∧ (db.callByTrace b.traceId).isSome
    · obtain ⟨ht, hs⟩ := hp
      obtain ⟨c, hc⟩ := Option.isSome_iff_exists.1 hs
      obtain ⟨db₁, hok₁, hcalls₁, hframe₁⟩ := Store.updateCall_ok db c.id
        (fun c => { c with externalCallId := x }) (fun d _ _ => .inr hfound)
      obtain ⟨db', hok, hcalls, hframe⟩ := Store.updateCall_ok db₁ c.id
        (fillIn db₁ b now) (fun d _ _ => .inl rfl)
      refine ⟨db', ?_, hframe₁.trans hframe, .promoted c hfound ht hc ?_⟩
      · simp [promote, hc, ht, hok₁, hok, bind, Except.bind, pure, Except.pure]
      · rw [hcalls, hcalls₁, Store.map_onRow_onRow, fillIn_congr hframe₁.agentScripts]
    · have hnone : b.traceId = "" ∨ db.callByTrace b.traceId = none := by
        by_cases ht : b.traceId = ""
        · exact .inl ht
        · exact .inr (by simpa using fun hs => hp ⟨ht, hs⟩)
      obtain ⟨db₁, hok₁, hcalls₁, hframe₁⟩ := Store.insertCall_ok db
        (newCall b x now) hfound
      obtain ⟨db', hok, hcalls, hframe⟩ := Store.updateCall_ok db₁ db.nextPk
        (fillIn db₁ b now) (fun d _ _ => .inl rfl)
      refine ⟨db', ?_, hframe₁.trans hframe, .created hfound hnone ?_⟩
      · rcases hnone with ht | hn
        · simp [ht, hok₁, hok, bind, Except.bind, pure, Except.pure]
        · by_cases ht : b.traceId = ""
          · simp [ht, hok₁, hok, bind, Except.bind, pure, Except.pure]
          · simp [promote, hn, ht, hok₁, hok, bind, Except.bind, pure, Except.pure]
      · have hold : db.calls.map (Store.onRow db.nextPk (fillIn db₁ b now)) = db.calls :=
          Store.map_onRow_of_ne (fun c hc => Nat.ne_of_lt (db.call_lt c hc))
        rw [hcalls, hcalls₁, List.map_append, hold, fillIn_congr hframe₁.agentScripts]
        simp [Store.onRow, fillIn]

section

variable {db : Store} {b : Batch} {x : String} {now : Time} {calls : List Call}

/-- The row that an upsert writes. -/
lemma Upserted.writes (h : Upserted db b x now calls) :
    (∃ e ∈ db.calls, (db.callByExternal x = some e ∨ db.callByExternal x = none ∧
        b.traceId ≠ "" ∧ db.callByTrace b.traceId = some e) ∧
      calls = db.calls.map (Store.onRow e.id fun c =>
        fillIn db b now { c with externalCallId := x })) ∨
    (db.callByExternal x = none ∧ (b.traceId = "" ∨ db.callByTrace b.traceId = none) ∧
      calls = db.calls ++ [fillIn db b now { newCall b x now with id := db.nextPk }]) := by
  cases h with
  | found e he hcalls =>
    obtain ⟨hm, hx⟩ := Store.callByExternal_some he
    refine .inl ⟨e, hm, .inl he, ?_⟩
    rw [hcalls]
    apply List.map_congr_left
    intro c hc
    by_cases hid : c.id = e.id
    · rw [Store.eq_of_id_eq hc hm hid]
      simp [Store.onRow, fillIn, hx]
    · rw [Store.onRow_of_ne hid, Store.onRow_of_ne hid]
  | promoted e hnone ht he hcalls =>
    exact .inl ⟨e, (Store.callByTrace_some he).1, .inr ⟨hnone, ht, he⟩, hcalls⟩
  | created hnone ht hcalls => exact .inr ⟨hnone, ht, hcalls⟩

/-- Where the calls come from that an upsert leaves: rows that were there, and a row under the
batch's id. -/
lemma Upserted.origin (h : Upserted db b x now calls) {c' : Call} (hc' : c' ∈ calls) :
    (c'.externalCallId = x ∨ ∃ c ∈ db.calls, c.id = c'.id ∧ c.externalCallId = c'.externalCallId) ∧
    (c'.traceId = nonEmpty b.traceId ∨ ∃ c ∈ db.calls, c.id = c'.id ∧ c.traceId = c'.traceId) := by
  rcases h.writes with ⟨e, -, -, hcalls⟩ | ⟨-, -, hcalls⟩
  · rw [hcalls] at hc'
    obtain ⟨c, hc, rfl⟩ := List.mem_map.1 hc'
    by_cases hid : c.id = e.id
    · refine ⟨.inl (by simp [Store.onRow, hid]), ?_⟩
      cases ht : c.traceId with
      | none => exact .inl (by simp [Store.onRow, hid, ht])
      | some t => exact .inr ⟨c, hc, by simp [Store.onRow, hid, ht]⟩
    · rw [Store.onRow_of_ne hid]
      exact ⟨.inr ⟨c, hc, rfl, rfl⟩, .inr ⟨c, hc, rfl, rfl⟩⟩
  · rw [hcalls] at hc'
    rcases List.mem_append.1 hc' with hc' | hc'
    · exact ⟨.inr ⟨c', hc', rfl, rfl⟩, .inr ⟨c', hc', rfl, rfl⟩⟩
    · rw [List.mem_singleton.1 hc']
      refine ⟨.inl rfl, .inl ?_⟩
      cases ht : nonEmpty b.traceId <;> simp [newCall, ht]

lemma Upserted.exists_call (h : Upserted db b x now calls) : ∃ c ∈ calls, c.externalCallId = x := by
  rcases h.writes with ⟨e, he, -, hcalls⟩ | ⟨-, -, hcalls⟩
  · refine ⟨_, hcalls ▸ List.mem_map_of_mem he, ?_⟩
    simp [Store.onRow]
  · exact ⟨_, hcalls ▸ List.mem_append_right _ (List.mem_singleton_self _), rfl⟩

/-- When the batch's trace has a call, and nobody else has the batch's id, an upsert is an
update of that call. -/
lemma Upserted.onCall {c : Call} (h : Upserted db b x now calls) (ht : b.traceId ≠ "")
    (hc : db.callByTrace b.traceId = some c) (honly : ∀ d, db.callByExternal x = some d → d = c) :
    calls = db.calls.map (Store.onRow c.id fun c =>
      fillIn db b now { c with externalCallId := x }) := by
  rcases h.writes with ⟨e, -, hreach, hcalls⟩ | ⟨-, hnone, -⟩
  · have hec : e = c := by
      rcases hreach with hfound | ⟨-, -, htrace⟩
      · exact honly e hfound
      · exact Option.some.inj (htrace.symm.trans hc)
    rw [hcalls, hec]
  · rcases hnone with hnone | hnone
    · exact absurd hnone ht
    · rw [hc] at hnone
      cases hnone

end

/-! ### What the write path does -/

/-- The fragment that a record becomes. -/
def fragmentOf (pk : Option Pk) (r : Record) (slice : Slice) (now : Time) : RawFragment :=
  ⟨pk, r.batchId, r.seq, now, slice⟩

/-- The ways the write path ends: the record is dropped, archived under no call, or archived
under the call that `upsert_call` left for it. -/
inductive Assembled (db : Store) (r : Record) (slice : Slice) (now : Time) (db' : Store) : Prop
  | dropped (x : String) : (identify db slice (r.agentId.bind nonEmpty)).callId = some x →
      db.hasTombstone x = true → db' = db → Assembled db r slice now db'
  | unattributed : (identify db slice (r.agentId.bind nonEmpty)).callId = none →
      db'.calls = db.calls → db'.tombstones = db.tombstones → db'.agentScripts = db.agentScripts →
      db'.rawFragments = db.rawFragments ++ [fragmentOf none r slice now] →
      Assembled db r slice now db'
  | stored (x : String) (c : Call) :
      (identify db slice (r.agentId.bind nonEmpty)).callId = some x →
      db.hasTombstone x = false →
      Upserted db (identify db slice (r.agentId.bind nonEmpty)) x now db'.calls →
      db'.callByExternal x = some c →
      db'.tombstones = db.tombstones → db'.agentScripts = db.agentScripts →
      db'.rawFragments = (if hasFragment db c.id r.batchId r.seq then db.rawFragments
        else db.rawFragments ++ [fragmentOf (some c.id) r slice now]) →
      Assembled db r slice now db'

lemma insertFragment_ok (db : Store) (f : RawFragment)
    (h : ∀ p ∈ f.callId, p ∈ db.calls.map Call.id) :
    ∃ db', db.insertFragment f = .ok db' ∧ db'.calls = db.calls ∧
      db'.tombstones = db.tombstones ∧ db'.agentScripts = db.agentScripts ∧
      db'.rawFragments = db.rawFragments ++ [f] := by
  unfold Store.insertFragment
  rw [dif_pos h]
  exact ⟨_, rfl, rfl, rfl, rfl, rfl⟩

theorem assembleRecord_spec (db : Store) (r : Record) (slice : Slice) (now : Time) :
    ∃ db', assembleRecord db r slice now = .ok db' ∧ Assembled db r slice now db' := by
  set b := identify db slice (r.agentId.bind nonEmpty) with hb
  have hpayload : (⟨b.attrs, b.spans⟩ : Slice) = slice := rfl
  unfold assembleRecord
  cases hx : b.callId with
  | none =>
    obtain ⟨db', hok, hcalls, htomb, hscripts, hfrag⟩ := insertFragment_ok db
      (fragmentOf none r slice now) (by simp [fragmentOf])
    refine ⟨db', ?_, .unattributed hx hcalls htomb hscripts hfrag⟩
    simpa [← hb, hx, hpayload, fragmentOf, tombstoned, storeFragment, callPk, bind, Except.bind,
      pure, Except.pure] using hok
  | some x =>
    cases ht : db.hasTombstone x with
    | true =>
      exact ⟨db, by simp [← hb, hx, tombstoned, ht], .dropped x hx ht rfl⟩
    | false =>
      obtain ⟨db₁, hok₁, hframe, hup⟩ := upsertCall_spec db b now hx
      obtain ⟨c, hc, hcx⟩ := hup.exists_call
      have hfind : db₁.callByExternal x = some c := hcx ▸ Store.callByExternal_of_mem hc
      have hhas : hasFragment db₁ c.id r.batchId r.seq = hasFragment db c.id r.batchId r.seq := by
        simp only [hasFragment, hframe.rawFragments]
      cases hf : hasFragment db c.id r.batchId r.seq with
      | true =>
        refine ⟨db₁, ?_, .stored x c hx ht hup hfind hframe.tombstones hframe.agentScripts ?_⟩
        · simp [← hb, hx, tombstoned, ht, hok₁, storeFragment, callPk, hfind, hhas, hf, bind,
            Except.bind]
        · rw [hf, hframe.rawFragments]
          rfl
      | false =>
        obtain ⟨db', hok, hcalls, htomb, hscripts, hfrag⟩ := insertFragment_ok db₁
          (fragmentOf (some c.id) r slice now)
          (by simpa [fragmentOf] using ⟨c, hc, rfl⟩)
        refine ⟨db', ?_, .stored x c hx ht (hcalls ▸ hup) ?_ (htomb.trans hframe.tombstones)
          (hscripts.trans hframe.agentScripts) ?_⟩
        · simpa [← hb, hx, hpayload, fragmentOf, tombstoned, ht, hok₁, storeFragment, callPk, hfind,
            hhas, hf, bind, Except.bind] using hok
        · simpa only [Store.callByExternal, hcalls] using hfind
        · rw [hf, hfrag, hframe.rawFragments]
          rfl

/-! ### What a delivery does -/

lemma SameIdentity.refl (db : Store) : SameIdentity db db :=
  ⟨rfl, rfl, rfl⟩

lemma SameIdentity.trans {a b c : Store} (h : SameIdentity a b) (h' : SameIdentity b c) :
    SameIdentity a c :=
  ⟨h'.1.trans h.1, h'.2.trans h.2, h'.3.trans h.3⟩

lemma SameIdentity.hasTombstone {db db' : Store} (h : SameIdentity db db') (x : String) :
    db'.hasTombstone x = db.hasTombstone x := by
  simp only [Store.hasTombstone, h.tombstones]

lemma SameIdentity.exists_call {db db' : Store} (h : SameIdentity db db') {c' : Call}
    (hc' : c' ∈ db'.calls) : ∃ c ∈ db.calls, c.id = c'.id ∧
      c.externalCallId = c'.externalCallId ∧ c.traceId = c'.traceId := by
  have hm := List.mem_map_of_mem (f := fun c : Call => (c.id, c.externalCallId, c.traceId)) hc'
  rw [h.calls] at hm
  obtain ⟨c, hc, he⟩ := List.mem_map.1 hm
  simp only [Prod.mk.injEq] at he
  exact ⟨c, hc, he⟩

lemma updateCall_sameIdentity {db db' : Store} {p : Pk} {f : Call → Call}
    (h : db.updateCall p f = .ok db') (hext : ∀ c, (f c).externalCallId = c.externalCallId)
    (htrace : ∀ c, (f c).traceId = c.traceId) : SameIdentity db db' := by
  obtain ⟨hcalls, hframe⟩ := Store.updateCall_calls h
  refine ⟨?_, hframe.rawFragments, hframe.tombstones⟩
  rw [hcalls, List.map_map]
  apply List.map_congr_left
  intro c _
  by_cases hp : c.id = p <;> simp [Store.onRow, hp, hext, htrace]

lemma analyse_sameIdentity {process : Process} (hprocess : KeepsIdentity process) {db db' : Store}
    {pk : Pk} {now : Time} {judge : Bool} (h : analyse process db pk now = .ok (db', judge)) :
    SameIdentity db db' := by
  unfold analyse at h
  cases hp : process db pk now with
  | analysed db₁ =>
    simp only [hp] at h
    cases h
    exact hprocess db pk now db' (hp ▸ .analysed db')
  | raised left =>
    simp only [hp] at h
    cases h
  | unsupportedSchema db₁ =>
    have h₁ : SameIdentity db db₁ := hprocess db pk now db₁ (hp ▸ .unsupportedSchema db₁)
    simp only [hp] at h
    cases hu : db₁.updateCall pk fun c => { c with status := .unsupported } with
    | error e => simp [hu, bind, Except.bind] at h
    | ok db₂ =>
      simp only [hu, Lib.mapError_ok, bind, Except.bind, pure, Except.pure] at h
      cases h
      exact h₁.trans (updateCall_sameIdentity hu (fun _ => rfl) fun _ => rfl)

/-- A record that was handled went through the write path, and perhaps an analysis after it. -/
lemma handleRecord_ok {process : Process} {db db' : Store} {r : Record} {now : Time}
    {judge : Option String} (h : handleRecord process db r now = .ok (db', judge)) :
    ∃ slice db₁, r.value = some slice ∧ assembleRecord db r slice now = .ok db₁ ∧
      Assembled db r slice now db₁ ∧ (db' = db₁ ∨
        ∃ pk judged, analyse process db₁ pk now = .ok (db', judged)) := by
  cases hv : r.value with
  | none =>
    simp only [handleRecord, hv] at h
    exact absurd h (by simp [throw, throwThe, MonadExceptOf.throw])
  | some slice =>
    obtain ⟨db₁, hok, has⟩ := assembleRecord_spec db r slice now
    refine ⟨slice, db₁, rfl, hok, has, ?_⟩
    simp only [handleRecord, hv] at h
    by_cases htomb : tombstoned db (identify db slice (r.agentId.bind nonEmpty)).callId = true
    · have hdb : db = db₁ := by simpa [assembleRecord, htomb] using hok
      rw [if_pos htomb] at h
      cases h
      exact .inl hdb
    · rw [if_neg htomb] at h
      obtain ⟨db₂, hdb₂, h⟩ := Lib.bind_eq_ok.1 h
      rw [Lib.mapError_eq_ok, hok] at hdb₂
      cases hdb₂
      split at h
      · split at h
        · obtain ⟨⟨db₃, judged⟩, ha, h⟩ := Lib.bind_eq_ok.1 h
          cases h
          exact .inr ⟨_, judged, ha⟩
        · cases h
          exact .inl rfl
      · cases h
        exact .inl rfl

lemma deliver_cases (process : Process) (db : Store) (d : Delivery) :
    deliver process db d = db ∨
      ∃ judge, handleRecord process db d.record d.now = .ok (deliver process db d, judge) := by
  unfold deliver
  cases h : handleRecord process db d.record d.now with
  | error e => exact .inl rfl
  | ok r => exact .inr ⟨r.2, rfl⟩

/-- A delivery changes nothing, or it is the write path followed by an analysis. -/
theorem deliver_spec {process : Process} (hprocess : KeepsIdentity process) (db : Store)
    (d : Delivery) : deliver process db d = db ∨ ∃ slice db₁, d.record.value = some slice ∧
      Assembled db d.record slice d.now db₁ ∧ SameIdentity db₁ (deliver process db d) := by
  refine (deliver_cases process db d).imp_right fun ⟨judge, h⟩ => ?_
  obtain ⟨slice, db₁, hv, -, has, hrest⟩ := handleRecord_ok h
  refine ⟨slice, db₁, hv, has, ?_⟩
  rcases hrest with heq | ⟨pk, judged, ha⟩
  · exact heq ▸ .refl _
  · exact analyse_sameIdentity hprocess ha

end Pulse.Ingest
