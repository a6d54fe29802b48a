import Pulse.Db.Session
import Pulse.Ingest.ConsumeOne
import Pulse.Ingest.Erase
import Pulse.Ingest.Receiver
import Pulse.Ingest.TokenCache
import Pulse.Lib.Topic

/-!
# From the receiver to the archive

`handleTraces` of `main.go` answers 200 when the topic has every record of the request, and the
consumers of `worker/run.py` commit the offset of a record when they are through with it. Between
the two, consumers crash, partitions change hands, attempts fail and calls are erased.
-/

namespace Pulse.Ingest

open Lib (ConsumerStep Consumption Doc Handler Run Text TopicStep text)
open Receiver (Any Decimal Float64 OutRecord buildRecords)

/-! ### The receiver -/

/-- How `identify` ends. -/
inductive Identified
  | identity (id : Identity)
  | authErr (msg : String)
  | failed

/-- How `io.ReadAll` of the body ends. -/
inductive BodyRead
  | read
  | maxBytes
  | failed

/-- The errors of `decodePayload`. -/
inductive DecodeError
  | tooLarge (limit : Nat)
  | badBody (msg : String)

/-- A request as it goes: what the steps of `handleTraces` come to. -/
structure Exchange where
  identified : Identified
  body : BodyRead
  payload : Except DecodeError Any
  batchId : Text
  receivedAt : Text
  /-- `buildRecords` has no error. -/
  encodes : Bool
  /-- `Send` has no error. -/
  acked : Bool

structure Answer where
  status : Nat
  /-- The detail; none for the partial success of OTLP. -/
  detail : Option String
  deriving DecidableEq

/-- `handleTraces`: the answer, and the records that it gives to `Send`. -/
def handleTraces (sprint : Float64 → Text) (x : Exchange) : Answer × List OutRecord :=
  match x.identified with
  | .authErr msg => (⟨401, msg⟩, [])
  | .failed => (⟨500, "auth failed"⟩, [])
  | .identity id =>
    match x.body with
    | .maxBytes => (⟨413, "ingest body too large"⟩, [])
    | .failed => (⟨400, "unreadable body"⟩, [])
    | .read =>
      match x.payload with
      | .error (.tooLarge limit) =>
        (⟨413, "decompressed body exceeds " ++ toString limit ++ " bytes"⟩, [])
      | .error (.badBody msg) => (⟨400, "unreadable OTLP body: " ++ msg⟩, [])
      | .ok payload =>
        let batch := ⟨text id.org, text id.agentID, x.batchId, x.receivedAt⟩
        let recs := buildRecords sprint batch payload
        if !x.encodes then (⟨500, "shard failed"⟩, [])
        else if recs.isEmpty then (⟨200, none⟩, [])
        else if x.acked then (⟨200, none⟩, recs)
        else (⟨500, "produce failed"⟩, recs)


/-- A request with records is answered with 200 only if `Send` has no error. -/
lemma acked_of_ok {sprint : Float64 → Text} {x : Exchange}
    (hok : (handleTraces sprint x).1.status = 200) {r : OutRecord}
    (hr : r ∈ (handleTraces sprint x).2) : x.acked = true := by
  unfold handleTraces at hok hr
  cases hid : x.identified with
  | authErr msg => simp [hid] at hr
  | failed => simp [hid] at hr
  | identity id =>
    cases hbody : x.body with
    | maxBytes => simp [hid, hbody] at hr
    | failed => simp [hid, hbody] at hr
    | read =>
      cases hpayload : x.payload with
      | error e => cases e <;> simp [hid, hbody, hpayload] at hr
      | ok payload =>
        simp only [hid, hbody, hpayload] at hok hr
        split at hr
        · cases hr
        · next hencodes =>
          split at hr
          · cases hr
          · next hempty =>
            rw [if_neg hencodes, if_neg hempty] at hok
            by_contra hacked
            rw [if_neg hacked] at hok
            cases hok

/-! ### The tables and the topic -/

/-- What is outside of this model. A batch id is a fresh uuid, so with the number of the record it
names one slice, and an analysis leaves the archive alone. -/
structure Setting (κ : Type) where
  py : Db.Casing
  sprint : Float64 → Text
  /-- The partitioner of the producer. -/
  partition : Text → κ
  /-- The text of a header, the number in one, and the slice that a value decodes to. -/
  header : Text → String
  number : Text → Int
  decode : Doc Decimal → Option Slice
  archive : String → Int → Slice
  process : Process
  keeps : KeepsFragments process
  allowDelete : Bool

/-- The tables of the organisations and the dead-letter topic. Beside them stand the fragments that
an erasure has deleted, and the records that were dropped because their call has a tombstone. -/
structure Tables where
  stores : Db.Ident → Store := fun _ => Store.empty
  erased : Db.Ident → List RawFragment := fun _ => []
  dropped : List OutRecord := []
  judgeRequests : List (String × String) := []
  deadLetters : List OutRecord := []

/-- The fragments of an organisation, with those that are erased. -/
def Tables.fragments (t : Tables) (schema : Db.Ident) : List RawFragment :=
  (t.stores schema).rawFragments ++ t.erased schema

namespace Setting

variable {κ : Type} (g : Setting κ)

/-- What the consumer reads of a record. -/
def record (r : OutRecord) : Record where
  agentId := some (g.header r.headers.agentId)
  batchId := g.header r.headers.batchId
  seq := g.number r.headers.seq
  value := g.decode r.value

/-- `record.headers.get("org") or "default"` -/
def org (r : OutRecord) : String := Db.orDefault (g.header r.headers.org)

def schema (r : OutRecord) : Db.Ident := Db.tableSchema g.py (g.org r)

/-- The record is dropped by `handle_record`. -/
def drops (db : Store) (r : Record) : Bool :=
  match r.value with
  | some slice => tombstoned db (identify db slice (r.agentId.bind nonEmpty)).callId
  | none => false

/-- One attempt that is committed. -/
def attempt (t : Tables) (r : OutRecord) (db : Store) : Tables :=
  { t with
    stores := Function.update t.stores (g.schema r) db
    dropped := if drops (t.stores (g.schema r)) (g.record r) then t.dropped ++ [r] else t.dropped }

/-- `_consume_one`: an attempt is over when its commit goes through and the call is queued for
judging, if it is to be judged. -/
def handler : Handler Tables OutRecord where
  handles t r t' := ∃ now db judge,
    handleRecord g.process (t.stores (g.schema r)) (g.record r) now = .ok (db, judge) ∧
      t' = { g.attempt t r db with
        judgeRequests := t.judgeRequests ++ ((judge.bind nonEmpty).toList.map (g.org r, ·)) }
  fails t r t' := t' = t ∨ ∃ now db judge,
    handleRecord g.process (t.stores (g.schema r)) (g.record r) now = .ok (db, judge) ∧
      judge.bind nonEmpty ≠ none ∧ t' = g.attempt t r db
  deadLetter t r := { t with deadLetters := t.deadLetters ++ [r] }
  -- `kafka_max_retries`
  retries := 5

/-- The batch id and the number of the record name its slice. -/
def Proper (r : OutRecord) : Prop :=
  ∀ slice, g.decode r.value = some slice →
    slice = g.archive (g.record r).batchId (g.record r).seq

/-- What others write: an erasure, or anything that removes no fragment. -/
inductive Others (t : Tables) : Tables → Prop
  | erased {schema : Db.Ident} {q : EraseRequest} {db : Store}
      (herase : eraseCall g.allowDelete (t.stores schema) q = .ok db) :
      Others t
        { t with
          stores := Function.update t.stores schema db
          erased := Function.update t.erased schema (t.erased schema ++
            (t.stores schema).rawFragments.filter fun f => !db.rawFragments.contains f) }
  | written {schema : Db.Ident} {db : Store}
      (hkept : ∀ f ∈ (t.stores schema).rawFragments, f ∈ db.rawFragments)
      (hnew : ∀ f ∈ db.rawFragments, f ∈ (t.stores schema).rawFragments ∨
        f.payload = g.archive f.batchId f.seq) :
      Others t { t with stores := Function.update t.stores schema db }

/-- A record goes to the partition of its key. -/
def Produces (_ : Tables) (p : κ) (r : OutRecord) : Prop := p = g.partition r.key ∧ g.Proper r

end Setting

variable {κ : Type}

/-- What happens in the pipeline. -/
inductive PipelineAct (κ : Type)
  | stepped (l : ConsumerStep κ)
  | answered (x : Exchange)

/-- The topic's guarantee: a `Send` without an error has left every record in its partition. -/
inductive Flows [DecidableEq κ] (g : Setting κ) : Consumption κ Tables OutRecord → PipelineAct κ →
    Consumption κ Tables OutRecord → Prop
  | stepped {c c' : Consumption κ Tables OutRecord} {l : ConsumerStep κ}
      (hstep : TopicStep g.handler g.Produces g.Others c l c') : Flows g c (.stepped l) c'
  | answered {c : Consumption κ Tables OutRecord} {x : Exchange}
      (hacked : x.acked = true → ∀ r ∈ (handleTraces g.sprint x).2,
        r ∈ (c.partitions (g.partition r.key)).log) : Flows g c (.answered x) c

def pipelineStart : Consumption κ Tables OutRecord := ⟨fun _ => {}, {}⟩

/-- The fragment of the record is in the archive of its organisation, or was erased with its call;
or the record was dropped because its call has a tombstone; or it was sent to the dead-letter
topic. -/
def KeptRecord (g : Setting κ) (t : Tables) (r : OutRecord) : Prop :=
  (∃ slice, g.decode r.value = some slice ∧
    ∃ f ∈ t.fragments (g.schema r),
      f.batchId = (g.record r).batchId ∧ f.seq = (g.record r).seq ∧ f.payload = slice) ∨
  r ∈ t.dropped ∨ r ∈ t.deadLetters

/-! ### What the consumers leave -/

section

variable {g : Setting κ} {t t' : Tables}

/-- Every fragment, erased or not, has the slice that its batch id and number name. -/
def Named (g : Setting κ) (t : Tables) : Prop :=
  ∀ schema, ∀ f ∈ t.fragments schema, f.payload = g.archive f.batchId f.seq

/-- What an attempt makes of the fragments. -/
lemma handleRecord_fragments {r : OutRecord} {db db' : Store} {now : Time} {judge : Option String}
    (h : handleRecord g.process db (g.record r) now = .ok (db', judge)) :
    ∃ slice, g.decode r.value = some slice ∧ (∀ f ∈ db.rawFragments, f ∈ db'.rawFragments) ∧
      (∀ f ∈ db'.rawFragments, f ∈ db.rawFragments ∨ f.batchId = (g.record r).batchId ∧
        f.seq = (g.record r).seq ∧ f.payload = slice) ∧
      (Setting.drops db (g.record r) = true ∨ ∃ f ∈ db'.rawFragments,
        f.batchId = (g.record r).batchId ∧ f.seq = (g.record r).seq) := by
  obtain ⟨slice, db₁, hv, hok, has, hrest⟩ := handleRecord_ok h
  have hsame : db'.rawFragments = db₁.rawFragments := handled_fragments g.keeps hrest
  refine ⟨slice, hv, fun f hf => hsame ▸ has.fragments f hf, ?_, ?_⟩
  · rw [hsame]
    intro f hf
    cases has with
    | dropped x hx htomb heq => exact .inl (heq ▸ hf)
    | unattributed hnone hcalls htombs hscripts hfrags =>
      rw [hfrags] at hf
      obtain hf | hf := List.mem_append.1 hf
      · exact .inl hf
      · rw [List.mem_singleton.1 hf]
        exact .inr ⟨rfl, rfl, rfl⟩
    | stored x c hx htomb hupserted hfind htombs hscripts hfrags =>
      rw [hfrags] at hf
      split at hf
      · exact .inl hf
      · obtain hf | hf := List.mem_append.1 hf
        · exact .inl hf
        · rw [List.mem_singleton.1 hf]
          exact .inr ⟨rfl, rfl, rfl⟩
  · obtain ⟨-, htomb⟩ | ⟨db₂, -, f, hf, hb, hs, -⟩ := has.archived hok
    · exact .inl (by rw [Setting.drops, hv]; exact htomb)
    · exact .inr ⟨f, hsame ▸ hf, hb, hs⟩

/-- An erasure adds no fragment. -/
lemma eraseCall_fragments {allowDelete : Bool} {db db' : Store} {q : EraseRequest}
    (h : eraseCall allowDelete db q = .ok db') : ∀ f ∈ db'.rawFragments, f ∈ db.rawFragments := by
  unfold eraseCall at h
  by_cases hallow : allowDelete = false ∨ q.confirm ≠ q.callId
  · rw [if_pos hallow] at h
    exact absurd h Lib.throw_bind_ne_ok
  · rw [if_neg hallow] at h
    obtain ⟨-, -, h⟩ := Lib.bind_eq_ok.1 h
    obtain ⟨k, -, h⟩ := Lib.bind_eq_ok.1 h
    obtain ⟨db₁, htomb, h⟩ := Lib.bind_eq_ok.1 h
    obtain ⟨-, hfrags₁, -⟩ := Store.insertTombstone_rows (Lib.mapError_eq_ok.1 htomb)
    obtain ⟨-, hfrags, -⟩ := Store.deleteCall_rows (Lib.mapError_eq_ok.1 h)
    intro f hf
    rw [hfrags] at hf
    exact hfrags₁ ▸ List.mem_of_mem_filter hf

/-- What a step does to the fragments and to the other ends of a record. -/
structure Leaves (g : Setting κ) (t t' : Tables) : Prop where
  old : ∀ schema, ∀ f ∈ t.fragments schema, f ∈ t'.fragments schema
  new : ∀ schema, ∀ f ∈ t'.fragments schema, f ∈ t.fragments schema ∨
    f.payload = g.archive f.batchId f.seq
  dropped : ∀ r ∈ t.dropped, r ∈ t'.dropped
  deadLetters : ∀ r ∈ t.deadLetters, r ∈ t'.deadLetters

lemma Leaves.refl (t : Tables) : Leaves g t t :=
  ⟨fun _ _ hf => hf, fun _ _ hf => .inl hf, fun _ hr => hr, fun _ hr => hr⟩

/-- A store is written, and nothing of it is lost. -/
lemma Leaves.of_update {schema : Db.Ident} {db : Store}
    (hstores : t'.stores = Function.update t.stores schema db) (herased : t'.erased = t.erased)
    (hdropped : ∀ r ∈ t.dropped, r ∈ t'.dropped)
    (hdead : ∀ r ∈ t.deadLetters, r ∈ t'.deadLetters)
    (hold : ∀ f ∈ (t.stores schema).rawFragments, f ∈ db.rawFragments)
    (hnew : ∀ f ∈ db.rawFragments, f ∈ (t.stores schema).rawFragments ∨
      f.payload = g.archive f.batchId f.seq) : Leaves g t t' := by
  refine ⟨fun schema' f hf => ?_, fun schema' f hf => ?_, hdropped, hdead⟩
  all_goals
    rw [Tables.fragments, List.mem_append] at hf ⊢
    rw [hstores, herased, Function.update_apply] at *
    split at *
  · next hschema =>
    subst hschema
    exact hf.imp (hold f) id
  · exact hf
  · next hschema =>
    subst hschema
    obtain hf | hf := hf
    · exact (hnew f hf).imp .inl id
    · exact .inl (.inr hf)
  · exact .inl hf

lemma Leaves.attempt {r : OutRecord} {db : Store} {now : Time} {judge : Option String}
    (hproper : g.Proper r)
    (h : handleRecord g.process (t.stores (g.schema r)) (g.record r) now = .ok (db, judge))
    (hstores : t'.stores = (g.attempt t r db).stores) (herased : t'.erased = t.erased)
    (hdropped : t'.dropped = (g.attempt t r db).dropped) (hdead : t'.deadLetters = t.deadLetters) :
    Leaves g t t' := by
  obtain ⟨slice, hslice, hold, hnew, -⟩ := handleRecord_fragments h
  refine .of_update hstores herased (fun r' hr' => ?_) (fun r' hr' => hdead ▸ hr') hold ?_
  · rw [hdropped, Setting.attempt]
    dsimp only
    split
    · exact List.mem_append_left _ hr'
    · exact hr'
  · intro f hf
    refine (hnew f hf).imp id ?_
    rintro ⟨hb, hs, rfl⟩
    rw [hb, hs]
    exact hproper _ hslice

lemma Leaves.of_state (hstep : Lib.StateStep g.handler g.Others g.Proper t t') : Leaves g t t' := by
  cases hstep with
  | same => exact .refl t
  | handled hr hhandles =>
    obtain ⟨now, db, judge, h, rfl⟩ := hhandles
    exact .attempt hr h rfl rfl rfl rfl
  | failed hr hfails =>
    obtain rfl | ⟨now, db, judge, h, -, rfl⟩ := hfails
    · exact .refl _
    · exact .attempt hr h rfl rfl rfl rfl
  | deadLettered hr => exact ⟨fun _ _ hf => hf, fun _ _ hf => .inl hf, fun _ hr => hr,
      fun _ hr => List.mem_append_left _ hr⟩
  | other hother =>
    cases hother with
    | @erased schema q db herase =>
      have hgone := eraseCall_fragments herase
      refine ⟨fun schema' f hf => ?_, fun schema' f hf => .inl ?_, fun _ hr => hr, fun _ hr => hr⟩
      all_goals
        rw [Tables.fragments, List.mem_append] at hf ⊢
        dsimp only at hf ⊢
        simp only [Function.update_apply] at hf ⊢
        split at *
      · next hschema =>
        subst hschema
        by_cases hkept : f ∈ db.rawFragments
        · exact .inl hkept
        · refine .inr (List.mem_append.2 ?_)
          exact hf.elim (fun hf => .inr (List.mem_filter.2 ⟨hf, by simpa using hkept⟩)) .inl
      · exact hf
      · next hschema =>
        subst hschema
        obtain hf | hf := hf
        · exact .inl (hgone f hf)
        · exact (List.mem_append.1 hf).elim .inr fun hf => .inl (List.mem_of_mem_filter hf)
      · exact hf
    | written hkept hnew => exact .of_update rfl rfl (fun _ hr => hr) (fun _ hr => hr) hkept hnew

lemma KeptRecord.leaves {r : OutRecord} (h : KeptRecord g t r) (hleaves : Leaves g t t') :
    KeptRecord g t' r := by
  obtain ⟨slice, hslice, f, hf, hrest⟩ | hdropped | hdead := h
  · exact .inl ⟨slice, hslice, f, hleaves.old _ f hf, hrest⟩
  · exact .inr (.inl (hleaves.dropped r hdropped))
  · exact .inr (.inr (hleaves.deadLetters r hdead))

lemma Named.leaves (h : Named g t) (hleaves : Leaves g t t') : Named g t' :=
  fun schema f hf => (hleaves.new schema f hf).elim (h schema f) id

/-- A handled record is in the archive or was dropped. -/
lemma KeptRecord.handled {r : OutRecord} (hnamed : Named g t) (hproper : g.Proper r)
    (h : g.handler.handles t r t') : KeptRecord g t' r := by
  have hnamed' : Named g t' := hnamed.leaves (.of_state (.handled hproper h))
  obtain ⟨now, db, judge, hhandle, rfl⟩ := h
  obtain ⟨slice, hslice, -, -, hdrops | ⟨f, hf, hb, hs⟩⟩ := handleRecord_fragments hhandle
  · refine .inr (.inl ?_)
    simp only [Setting.attempt, hdrops, if_true]
    exact List.mem_append_right _ List.mem_cons_self
  · have hmem : f ∈ Tables.fragments (g.attempt t r db) (g.schema r) := by
      refine List.mem_append_left _ ?_
      simp only [Setting.attempt, Function.update_self]
      exact hf
    refine .inl ⟨slice, hslice, f, hmem, hb, hs, ?_⟩
    rw [hnamed' _ f hmem, hb, hs]
    exact (hproper slice hslice).symm

lemma keptRecord_rules (g : Setting κ) :
    Lib.AtLeastOnce g.handler g.Produces g.Others g.Proper (Named g) (KeptRecord g) where
  produced _ _ _ h := h.2
  kept _ _ hstep h := h.leaves (.of_state hstep)
  handled _ _ _ hnamed hproper h := .handled hnamed hproper h
  deadLettered _ _ := .inr (.inr (List.mem_append_right _ List.mem_cons_self))
  stable _ _ _ hstep _ h := h.leaves (.of_state hstep)

end

/-! ### What a 200 is worth -/

section

variable [DecidableEq κ] {g : Setting κ} {c : Consumption κ Tables OutRecord}

/-- The steps of the topic in a run of the pipeline. -/
lemma topic_run {as : List (PipelineAct κ)} {c₀ : Consumption κ Tables OutRecord}
    (hrun : Run (Flows g) c₀ as c) :
    ∃ ls, Run (TopicStep g.handler g.Produces g.Others) c₀ ls c := by
  induction hrun with
  | nil c => exact ⟨[], .nil c⟩
  | cons hstep _ ih =>
    obtain ⟨ls, hls⟩ := ih
    cases hstep with
    | stepped hstep => exact ⟨_, .cons hstep hls⟩
    | answered hacked => exact ⟨ls, hls⟩

/-- A record of a request that was answered with 200 is in its partition. -/
lemma answered_in_log {as : List (PipelineAct κ)} {c₀ : Consumption κ Tables OutRecord}
    (hrun : Run (Flows g) c₀ as c) {x : Exchange} (hx : .answered x ∈ as)
    (hok : (handleTraces g.sprint x).1.status = 200) {r : OutRecord}
    (hr : r ∈ (handleTraces g.sprint x).2) :
    ∃ n : Nat, (c.partitions (g.partition r.key)).log[n]? = some r := by
  induction hrun with
  | nil c => cases hx
  | cons hstep hrest ih =>
    obtain rfl | hx := List.mem_cons.1 hx
    · cases hstep with
      | answered hacked =>
        obtain ⟨n, hn⟩ := List.getElem?_of_mem (hacked (acked_of_ok hok hr) r hr)
        obtain ⟨ls, hls⟩ := topic_run hrest
        exact ⟨n, Lib.getElem?_log_of_run hls hn⟩
    · exact ih hx

omit [DecidableEq κ] in
/-- An attempt either is over or fails. -/
lemma handler_total (t : Tables) (r : OutRecord) :
    (∃ t', g.handler.handles t r t') ∨ ∃ t', g.handler.fails t r t' := by
  cases h : handleRecord g.process (t.stores (g.schema r)) (g.record r) 0 with
  | ok result => exact .inl ⟨_, 0, result.1, result.2, h, rfl⟩
  | error e => exact .inr ⟨t, .inl rfl⟩

end

/-! ### A request with one span -/

def rootSpan : Any := .obj [(text "traceId", .str (text "t1"))]

def rootPayload : Any :=
  .obj [(text "resourceSpans", .arr [.obj [(text "scopeSpans",
    .arr [.obj [(text "spans", .arr [rootSpan])]])]])]

def rootSlice : Slice := ⟨[], [⟨"t1", "", "", [], ""⟩]⟩

def rootExchange : Exchange where
  identified := .identity ⟨"acme", "a1"⟩
  body := .read
  payload := .ok rootPayload
  batchId := text "b1"
  receivedAt := text "2026-01-01T00:00:00.000000+00:00"
  encodes := true
  acked := true

def rootOut : OutRecord :=
  Receiver.outRecord ⟨text "acme", text "a1", text "b1", rootExchange.receivedAt⟩ (text "t1")
    ⟨.null, [rootSpan]⟩ 0

/-- One partition, and values that all decode to the slice of the span. -/
def plainSetting : Setting Unit where
  py := Db.asciiCasing
  sprint _ := []
  partition _ := ()
  header s := String.ofList (s.map fun c => Char.ofNat c.val)
  number _ := 0
  decode _ := some rootSlice
  archive _ _ := rootSlice
  process := noAnalysis
  keeps db pk now db' h := by
    cases h
    rfl
  allowDelete := true

lemma handleTraces_root :
    handleTraces plainSetting.sprint rootExchange = (⟨200, none⟩, [rootOut]) :=
  rfl

end Pulse.Ingest
