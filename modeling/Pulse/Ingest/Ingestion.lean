import Pulse.Ingest.Store

/-!
# Resolving a batch to its call

The consume side of `ingestion.py`: `identify` reads a batch's call id and trace id,
`upsert_call` finds, renames or creates the call, and `store_fragment` archives the slice
under it.
-/

namespace Pulse.Ingest

/-! ### Attributes -/

/-- Truth value of an attribute. -/
def AttrValue.truthy : AttrValue → Bool
  | .none => false
  | .str s => s ≠ ""
  | .bool b => b
  | .int i => i ≠ 0
  | .other _ truthy => truthy

/-- `str` of an attribute. -/
def AttrValue.text : AttrValue → String
  | .none => "None"
  | .str s => s
  | .bool true => "True"
  | .bool false => "False"
  | .int i => toString i
  | .other text _ => text

/-- `attrs_to_dict(attributes).get(key)`: of a repeated key the last value counts. -/
def attrGet (attributes : Attributes) (key : String) : Option AttrValue :=
  (attributes.reverse.find? (·.1 = key)).map (·.2)

def callIdHints : List String := ["voice.call_id"]

/-- The text of the first listed key with a true value. -/
def hintIn (attributes : Attributes) (keys : List String) : Option String :=
  keys.findSome? fun k => ((attrGet attributes k).filter AttrValue.truthy).map AttrValue.text

/-- A string that counts as true in Python. -/
def nonEmpty (s : String) : Option String :=
  if s = "" then none else some s

/-- `_attr` -/
def attrOf (span : Span) (keys : List String) : Option String :=
  hintIn span.attributes keys

/-- `_hint`: the resource's hint, else the first span's that has one. -/
def hint (attrs : Attributes) (spans : List Span) (keys : List String) : Option String :=
  ((hintIn attrs keys).bind nonEmpty).or (spans.findSome? fun s => (attrOf s keys).bind nonEmpty)

/-- `_root`: the first span without a parent. -/
def rootOf (spans : List Span) : Option Span :=
  spans.find? (·.parentSpanId = "")

/-- The trace id of the first span that has one, else the empty string. -/
def traceIdOf (spans : List Span) : String :=
  ((spans.find? (·.traceId ≠ "")).map Span.traceId).getD ""

/-! ### Batches -/

/-- One call's spans out of one OTLP request, with its identity resolved. -/
structure Batch where
  callId : Option String
  traceId : String
  root : Option Span
  attrs : Attributes
  spans : List Span
  agentId : Option String

/-- The explicit call id that a slice carries. -/
def Slice.callId (slice : Slice) : Option String :=
  hint slice.resource ((rootOf slice.spans).toList ++ slice.spans) callIdHints

/-- The trace id that a slice carries. -/
def Slice.traceId (slice : Slice) : String :=
  traceIdOf slice.spans

/-- `identify`: an explicit call id wins; without one the batch joins the call of its trace,
and without such a call the trace id is the call id. -/
def identify (db : Store) (slice : Slice) (agentId : Option String) : Batch :=
  let traceId := slice.traceId
  let callId := match slice.callId with
    | some x => some x
    | none => if traceId = "" then none else (db.callByTrace traceId).map Call.externalCallId
  { callId := (callId.bind nonEmpty).or (nonEmpty traceId)
    traceId := traceId
    root := rootOf slice.spans
    attrs := slice.resource
    spans := slice.spans
    agentId := agentId }

/-- `tombstoned` -/
def tombstoned (db : Store) (callId : Option String) : Bool :=
  callId.any db.hasTombstone

/-- `_active_script_prompt` -/
def activeScriptPrompt (db : Store) (agentId : String) : Option Pk :=
  (db.agentScripts.find? fun a => a.agentId = agentId ∧ a.active).map AgentScript.promptId

/-- `_promote`: the call of the batch's trace takes the batch's call id. -/
def promote (db : Store) (b : Batch) (callId : String) : Except DbError (Option (Store × Pk)) :=
  match db.callByTrace b.traceId with
  | none => .ok none
  | some call => do
    let db ← db.updateCall call.id fun c => { c with externalCallId := callId }
    return some (db, call.id)

/-- The row `upsert_call` inserts. -/
def newCall (b : Batch) (callId : String) (now : Time) : Call where
  id := 0
  externalCallId := callId
  traceId := nonEmpty b.traceId
  source := (attrGet b.attrs "service.name").getD (.str "unknown")
  environment := (attrGet b.attrs "deployment.environment").getD (.str "prod")
  schemaVersion := attrGet b.attrs "voice.schema_version"
  agentId := b.agentId
  status := .awaitingMedia
  lastActivityAt := now

/-- What `upsert_call` fills in on the row it found or made. -/
def fillIn (db : Store) (b : Batch) (now : Time) (c : Call) : Call :=
  let agentId := c.agentId.or (b.agentId.bind nonEmpty)
  { c with
    traceId := c.traceId.or (nonEmpty b.traceId)
    agentId := agentId
    promptId := c.promptId.or ((agentId.bind nonEmpty).bind (activeScriptPrompt db))
    spansComplete := c.spansComplete || b.root.isSome
    lastActivityAt := now }

/-- `upsert_call`: the row found by external id, else the promoted row of the trace, else a
new one. `external_call_id` cannot be null. -/
def upsertCall (db : Store) (b : Batch) (now : Time) : Except DbError Store := do
  let some callId := b.callId | throw .notNull
  let found ← match db.callByExternal callId with
    | some call => pure (some (db, call.id))
    | none => if b.traceId = "" then pure none else promote db b callId
  let (db, pk) ← match found with
    | some row => pure row
    | none => do pure (← db.insertCall (newCall b callId now), db.nextPk)
  db.updateCall pk (fillIn db b now)

/-- `_call_pk` -/
def callPk (db : Store) (callId : Option String) : Option Pk :=
  callId.bind fun x => (db.callByExternal x).map Call.id

/-- The pre-check of `store_fragment`: is this fragment already stored under the call? -/
def hasFragment (db : Store) (pk : Pk) (batchId : String) (seq : Int) : Bool :=
  db.rawFragments.any fun f => f.callId = some pk ∧ f.batchId = batchId ∧ f.seq = seq

/-- `store_fragment`: append the slice to the call's assembly buffer unless it is there. -/
def storeFragment (db : Store) (b : Batch) (batchId : String) (seq : Int) (now : Time) :
    Except DbError Store :=
  let pk := callPk db b.callId
  if pk.any (hasFragment db · batchId seq) then .ok db
  else db.insertFragment ⟨pk, batchId, seq, now, ⟨b.attrs, b.spans⟩⟩

/-! ### What resolving does -/

lemma nonEmpty_eq_some {s t : String} : nonEmpty s = some t ↔ s ≠ "" ∧ s = t := by
  unfold nonEmpty
  split <;> simp_all

lemma nonEmpty_of_ne {s : String} (h : s ≠ "") : nonEmpty s = some s :=
  if_neg h

lemma hint_ne_empty {attrs : Attributes} {spans : List Span} {keys : List String} {x : String}
    (h : hint attrs spans keys = some x) : x ≠ "" := by
  unfold hint at h
  rcases Option.or_eq_some_iff.1 h with h | ⟨-, h⟩
  · obtain ⟨y, -, hy⟩ := Option.bind_eq_some_iff.1 h
    obtain ⟨hne, rfl⟩ := nonEmpty_eq_some.1 hy
    exact hne
  · obtain ⟨s, -, hs⟩ := List.exists_of_findSome?_eq_some h
    obtain ⟨y, -, hy⟩ := Option.bind_eq_some_iff.1 hs
    obtain ⟨hne, rfl⟩ := nonEmpty_eq_some.1 hy
    exact hne

lemma identify_callId_explicit {db : Store} {slice : Slice} {agentId : Option String} {x : String}
    (h : slice.callId = some x) : (identify db slice agentId).callId = some x := by
  have hx : x ≠ "" := hint_ne_empty h
  simp [identify, h, nonEmpty_of_ne hx]

lemma identify_callId_trace {db : Store} {slice : Slice} {agentId : Option String} {t : String}
    (h : slice.callId = none) (ht : slice.traceId = t) (hne : t ≠ "") :
    (identify db slice agentId).callId =
      (((db.callByTrace t).map Call.externalCallId).bind nonEmpty).or (some t) := by
  simp [identify, h, ht, hne, nonEmpty_of_ne hne]

end Pulse.Ingest
