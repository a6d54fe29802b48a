import Pulse.Lib.Binary64
import Pulse.Lib.Documents

/-!
# The OTLP receiver

`services/ingest`: a request body is decoded into maps and numbers of Go, its spans are grouped by
call, and each group is encoded as the value of one record. Every number of the body is a `float64`
on the way.
-/

namespace Pulse.Ingest.Receiver

open Lib (CodePoint Doc IsDouble Text Value nearestDouble ofEntries shortestDecimal text)

/-! ### `encoding/json` -/

/-- A number as it is written, with the sign that zero can have too. -/
structure Decimal where
  neg : Bool
  mag : ℚ
  nonneg : 0 ≤ mag
  deriving DecidableEq

/-- A finite `float64`. -/
structure Float64 where
  neg : Bool
  mag : ℚ
  isDouble : IsDouble mag

/-- What `json.Unmarshal` puts into an `any`. A map has each key once. -/
abbrev Any := Doc Float64

def convertNumber (n : Decimal) : Float64 :=
  ⟨n.neg, nearestDouble n.mag, Lib.isDouble_nearestDouble n.nonneg⟩

/-- The number is out of the range of `float64`. -/
def Overflows (n : Decimal) : Prop := 2 ^ 1024 ≤ nearestDouble n.mag

instance (n : Decimal) : Decidable (Overflows n) := inferInstanceAs (Decidable (_ ≤ _))

/-- `unicode.ReplacementChar` -/
def replacementChar : CodePoint := ⟨0xFFFD, by decide⟩

/-- A surrogate on its own is replaced. -/
def unquote (s : Text) : Text := s.map fun c => if c.IsSurrogate then replacementChar else c

mutual

def decoded : Doc Decimal → Any
  | .null => .null
  | .bool b => .bool b
  | .num n => .num (convertNumber n)
  | .str s => .str (unquote s)
  | .arr vs => .arr (decodedAll vs)
  | .obj fields => .obj (ofEntries (decodedFields fields))

def decodedAll : List (Doc Decimal) → List Any
  | [] => []
  | v :: vs => decoded v :: decodedAll vs

def decodedFields : List (Text × Doc Decimal) → List (Text × Any)
  | [] => []
  | (key, v) :: fields => (unquote key, decoded v) :: decodedFields fields

end

lemma decodedAll_eq (vs : List (Doc Decimal)) : decodedAll vs = vs.map decoded := by
  induction vs with
  | nil => rfl
  | cons v vs ih => exact congrArg (decoded v :: ·) ih

lemma decodedFields_eq (fields : List (Text × Doc Decimal)) :
    decodedFields fields = fields.map fun e => (unquote e.1, decoded e.2) := by
  induction fields with
  | nil => rfl
  | cons e fields ih => exact congrArg ((unquote e.1, decoded e.2) :: ·) ih

lemma decoded_arr (vs : List (Doc Decimal)) : decoded (.arr vs) = .arr (vs.map decoded) :=
  congrArg Doc.arr (decodedAll_eq vs)

lemma decoded_obj (fields : List (Text × Doc Decimal)) : decoded (.obj fields) =
    .obj (ofEntries (fields.map fun e => (unquote e.1, decoded e.2))) :=
  congrArg (fun fields => Doc.obj (ofEntries fields)) (decodedFields_eq fields)

def maxNestingDepth : Nat := 10000

/-- `json.Unmarshal` into a map: any number out of range makes it fail, and so does a document that
is nested too deep. -/
def unmarshal (doc : Doc Decimal) : Option Any :=
  if maxNestingDepth < doc.depth ∨ ∃ n ∈ doc.numbers, Overflows n then none
  else
    match doc with
    | .obj _ => some (decoded doc)
    | .null => some (.obj [])
    | _ => none

def formatNumber (x : Float64) : Decimal :=
  ⟨x.neg, shortestDecimal x.mag, Lib.shortestDecimal_nonneg x.isDouble.nonneg⟩

mutual

/-- `json.Marshal`; the keys of a map are sorted. -/
def marshal : Any → Doc Decimal
  | .null => .null
  | .bool b => .bool b
  | .num x => .num (formatNumber x)
  | .str s => .str s
  | .arr vs => .arr (marshalAll vs)
  | .obj fields => .obj (Lib.sorted (fun e e' => decide (e.1 < e'.1)) (marshalFields fields))

def marshalAll : List Any → List (Doc Decimal)
  | [] => []
  | v :: vs => marshal v :: marshalAll vs

def marshalFields : List (Text × Any) → List (Text × Doc Decimal)
  | [] => []
  | (key, v) :: fields => (key, marshal v) :: marshalFields fields

end

lemma marshalAll_eq (vs : List Any) : marshalAll vs = vs.map marshal := by
  induction vs with
  | nil => rfl
  | cons v vs ih => exact congrArg (marshal v :: ·) ih

lemma marshalFields_eq (fields : List (Text × Any)) :
    marshalFields fields = fields.map fun e => (e.1, marshal e.2) := by
  induction fields with
  | nil => rfl
  | cons e fields ih => exact congrArg ((e.1, marshal e.2) :: ·) ih

lemma marshal_arr (vs : List Any) : marshal (.arr vs) = .arr (vs.map marshal) :=
  congrArg Doc.arr (marshalAll_eq vs)

lemma marshal_obj (fields : List (Text × Any)) : marshal (.obj fields) =
    .obj (Lib.sorted (fun e e' => decide (e.1 < e'.1)) (fields.map fun e => (e.1, marshal e.2))) :=
  congrArg (fun fields => Doc.obj (Lib.sorted _ fields)) (marshalFields_eq fields)

/-- `decodePayload` of a body that is not protobuf, once it is unzipped. -/
def decodePayload (body : Option (Doc Decimal)) : Option Any := body.elim (some (.obj [])) unmarshal

/-! ### Attributes -/

/-- `spanStr` -/
def spanStr (span : Any) (key : String) : Text :=
  match span.get? key with
  | some (.str s) => s
  | _ => []

/-- `unwrapString`; `sprint` is `fmt.Sprintf("%v", f)`. -/
def unwrapString (sprint : Float64 → Text) (av : Any) : Text :=
  match av.get? "stringValue", av.get? "boolValue", av.get? "intValue", av.get? "doubleValue" with
  | some (.str s), _, _, _ => s
  | _, some (.bool b), _, _ => text (if b then "True" else "False")
  | _, _, some (.str s), _ => s
  | _, _, _, some (.num f) => sprint f
  | _, _, _, _ => []

/-- `spanAttr`: the first attribute with the key. -/
def spanAttr (sprint : Float64 → Text) (span : Any) (key : String) : Text :=
  match (span.list "attributes").find? fun kv => kv.isObject && spanStr kv "key" = text key with
  | some kv => unwrapString sprint ((kv.get? "value").getD .null)
  | none => []

/-! ### Groups -/

/-- The spans of a document, each with the resource that it stands under. -/
def resourceSpans {N : Type} (payload : Doc N) : List (Doc N × Doc N) :=
  (payload.list "resourceSpans").flatMap fun rs =>
    (rs.list "scopeSpans").flatMap fun sc =>
      ((sc.list "spans").filter Doc.isObject).map fun span =>
        ((rs.get? "resource").getD .null, span)

structure ShardGroup where
  resource : Any
  spans : List Any

/-- `voice.call_id`, else the trace id. -/
def callKey (sprint : Float64 → Text) (span : Any) : Text :=
  let key := spanAttr sprint span "voice.call_id"
  if key = [] then spanStr span "traceId" else key

/-- A span is appended to its group, which it opens if there is none. -/
def addSpan (g : Option ShardGroup) (e : Any × Any) : ShardGroup :=
  match g with
  | none => ⟨e.1, [e.2]⟩
  | some g => { g with spans := g.spans ++ [e.2] }

/-- `shard` -/
def shard (sprint : Float64 → Text) (payload : Any) : List (Text × ShardGroup) :=
  Lib.gather (fun e => callKey sprint e.2) addSpan (resourceSpans payload)

/-! ### Records -/

/-- The headers of a record. -/
structure Headers where
  org : Text
  agentId : Text
  shardKey : Text
  traceId : Text
  batchId : Text
  seq : Text
  receivedAt : Text

/-- A record, with the document that its value is once it is unzipped. -/
structure OutRecord where
  key : Text
  value : Doc Decimal
  headers : Headers

/-- What a batch is built with beside its payload. -/
structure Batch where
  org : Text
  agentId : Text
  batchId : Text
  receivedAt : Text

/-- `resource == nil` -/
def orEmpty : Any → Any
  | .null => .obj []
  | resource => resource

/-- `sliceEnvelope` -/
def sliceEnvelope (resource : Any) (spans : List Any) : Any :=
  .obj [(text "resourceSpans", .arr [.obj [(text "resource", orEmpty resource),
    (text "scopeSpans", .arr [.obj [(text "spans", .arr spans)]])]])]

/-- `firstNonEmpty` -/
def firstNonEmpty (ss : List Text) : Text := (ss.find? (· ≠ [])).getD []

/-- `firstTraceID` -/
def firstTraceId (spans : List Any) : Text := firstNonEmpty (spans.map (spanStr · "traceId"))

def outRecord (b : Batch) (key : Text) (g : ShardGroup) (seq : Nat) : OutRecord :=
  let traceId := firstTraceId g.spans
  { key := firstNonEmpty [key, traceId, b.batchId]
    value := marshal (sliceEnvelope g.resource g.spans)
    headers :=
      { org := b.org, agentId := b.agentId, shardKey := key, traceId, batchId := b.batchId,
        seq := text (toString seq), receivedAt := b.receivedAt } }

/-- `buildRecords`: an empty group has a number and no record. -/
def buildRecords (sprint : Float64 → Text) (b : Batch) (payload : Any) : List OutRecord :=
  (shard sprint payload).zipIdx.filterMap fun ((key, g), seq) =>
    if g.spans.isEmpty then none else some (outRecord b key g seq)

end Pulse.Ingest.Receiver
