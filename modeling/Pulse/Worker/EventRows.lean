import Pulse.Core.Analysable

/-!
# The timeline of a call

`_event_rows` of `worker/process.py`: one row for each span in call order, and one for each of its
events. With `analyze` it is all that an analysis computes.
-/

namespace Pulse.Worker

open Pulse.Core
open Lib (PyFloat Succeeds)

/-! ### Rows -/

/-- `Stage.value` -/
def stageValue : Stage → String
  | .call => "call"
  | .turn => "turn"
  | .speech => "speech"
  | .stt => "stt"
  | .llm => "llm"
  | .tts => "tts"
  | .playout => "playout"
  | .tool => "tool"
  | .net => "net"
  | .unknown => "unknown"

/-- A row of the event table. A content text that is no string or null is refused by its column. -/
structure EventRow where
  spanId : String
  parentSpanId : Option String
  turnId : Option String
  tOffsetS : Option PyFloat
  kind : String
  type : String
  name : String
  attrs : List (String × Value PyFloat)
  durationS : Option PyFloat := none
  error : Option Bool := none
  contentText : Value PyFloat
  contentKind : Option String

def primaryContent : List String :=
  ["transcript", "llm_raw", "llm_spoken"]

/-- The kind of the span's content. -/
def primaryKind (s : Span PyFloat) : Option String :=
  primaryContent.find? fun k => (contentOf s k).truthy

def spanRow (s : Span PyFloat) : EventRow where
  spanId := s.spanId
  parentSpanId := s.parentSpanId
  turnId := s.turnId
  tOffsetS := s.tStart
  kind := "span"
  type := stageValue s.stage
  name := s.name
  attrs := s.attrs
  durationS := do return ((← s.tEnd) - (← s.tStart)).round 6
  error := if s.error then some true else none
  contentText := ((primaryKind s).map (contentOf s)).getD .null
  contentKind := primaryKind s

/-- The first content that is not empty is a string. -/
def SpanText (s : Span PyFloat) : Prop :=
  ∀ k, primaryKind s = some k → IsText (contentOf s k)

lemma isText_spanRow {s : Span PyFloat} : IsText (spanRow s).contentText ↔ SpanText s := by
  unfold spanRow SpanText
  cases primaryKind s with
  | none => simp [IsText]
  | some k => simp

section

variable [Text]

/-- `_text`: a list is joined. -/
def text : Value PyFloat → Except PyError (Value PyFloat)
  | .arr vs => do return .str (" ".intercalate (← vs.mapM toStr))
  | v => .ok v

/-- The first content of an event. -/
def eventContent (e : SpanEvent PyFloat) : Value PyFloat :=
  match e.content with
  | (k, v) :: _ => if k = "" then .null else v
  | [] => .null

def eventRow (s : Span PyFloat) (e : SpanEvent PyFloat) : Except PyError EventRow := do
  return {
    spanId := s.spanId
    parentSpanId := s.parentSpanId
    turnId := s.turnId
    tOffsetS := e.t
    kind := "event"
    type := String.ofList (e.name.toList.take 48)
    name := e.name
    attrs := e.attrs
    contentText := ← text (eventContent e)
    contentKind := e.content.head?.map Prod.fst }

/-- The row of a span, and those of its events by their time. -/
def spanRows (s : Span PyFloat) : Except PyError (List EventRow) := do
  let events := Lib.sorted (fun a b => (a.t.getD .inf).lt (b.t.getD .inf)) s.events
  return spanRow s :: (← events.mapM (eventRow s))

/-- `_event_rows`, each row with its position. -/
def eventRows (spans : List (Span PyFloat)) : Except PyError (List (EventRow × Nat)) := do
  let keyed ← spans.mapM fun s => do return (← orderKey s, s)
  let sorted := (Lib.sorted (fun a b => keyLt a.1 b.1) keyed).map Prod.snd
  return (← sorted.mapM spanRows).flatten.zipIdx

/-! ### What the rows hold -/

/-- The first content is null, a string, or a list that can be joined. -/
def EventText (e : SpanEvent PyFloat) : Prop :=
  IsText (eventContent e) ∨ ∃ vs, eventContent e = .arr vs ∧ printable (.arr vs) = true

lemma text_isText {v : Value PyFloat} :
    (∃ r, text v = .ok r ∧ IsText r) ↔ IsText v ∨ ∃ vs, v = .arr vs ∧ printable (.arr vs) = true := by
  cases v with
  | arr vs =>
    have hfalse : ¬IsText (.arr vs : Value PyFloat) := by simp [IsText]
    simp only [hfalse, false_or, Lib.Json.arr.injEq, ↓existsAndEq, true_and]
    rw [← succeeds_mapM_toStr]
    constructor
    · rintro ⟨r, hr, -⟩
      obtain ⟨ss, hss, -⟩ := Lib.bind_eq_ok.1 hr
      exact ⟨ss, hss⟩
    · rintro ⟨ss, hss⟩
      exact ⟨.str (" ".intercalate ss), by rw [text, hss]; rfl, .inr ⟨_, rfl⟩⟩
  | null | bool _ | int _ | float _ | str _ | obj _ => simp [text, IsText]

lemma eventRow_isText {s : Span PyFloat} {e : SpanEvent PyFloat} :
    (∃ row, eventRow s e = .ok row ∧ IsText row.contentText) ↔ EventText e := by
  rw [EventText, ← text_isText]
  constructor
  · rintro ⟨row, hrow, htext⟩
    obtain ⟨r, hr, hrow⟩ := Lib.bind_eq_ok.1 hrow
    cases hrow
    exact ⟨r, hr, htext⟩
  · rintro ⟨r, hr, htext⟩
    exact ⟨_, by rw [eventRow, hr]; rfl, htext⟩

lemma spanRows_isText {s : Span PyFloat} :
    (∃ rows, spanRows s = .ok rows ∧ ∀ row ∈ rows, IsText row.contentText) ↔
      SpanText s ∧ ∀ e ∈ s.events, EventText e := by
  have hevents : (∀ e ∈ Lib.sorted (fun a b => (a.t.getD .inf).lt (b.t.getD .inf)) s.events,
      ∃ row, eventRow s e = .ok row ∧ IsText row.contentText) ↔ ∀ e ∈ s.events, EventText e := by
    simp only [Lib.mem_sorted, eventRow_isText]
  rw [← isText_spanRow, ← hevents, ← Lib.mapM_all]
  constructor
  · rintro ⟨rows, h, htext⟩
    obtain ⟨events, hok, h⟩ := Lib.bind_eq_ok.1 h
    cases h
    rw [List.forall_mem_cons] at htext
    exact ⟨htext.1, events, hok, htext.2⟩
  · rintro ⟨hspan, events, hok, htext⟩
    exact ⟨spanRow s :: events, by rw [spanRows, hok]; rfl, List.forall_mem_cons.2 ⟨hspan, htext⟩⟩

/-- Every row is made, with a text, when all spans can be ordered and all contents are texts. -/
theorem eventRows_isText {spans : List (Span PyFloat)} :
    (∃ rows, eventRows spans = .ok rows ∧ ∀ row ∈ rows, IsText row.1.contentText) ↔
      (∀ s ∈ spans, OrderKeyReads s) ∧
        ∀ s ∈ spans, SpanText s ∧ ∀ e ∈ s.events, EventText e := by
  have hkeyed : Succeeds (spans.mapM fun s => do
      return ((← orderKey s, s) : (Nat × PyFloat) × Span PyFloat)) ↔ ∀ s ∈ spans, OrderKeyReads s := by
    rw [Lib.succeeds_mapM]
    refine forall₂_congr fun s _ => ?_
    rw [← succeeds_orderKey]
    exact Lib.succeeds_map
  have hspans {keyed : List ((Nat × PyFloat) × Span PyFloat)} (hok : (spans.mapM fun s => do
      return ((← orderKey s, s) : (Nat × PyFloat) × Span PyFloat)) = .ok keyed) (s : Span PyFloat) :
      s ∈ (Lib.sorted (fun a b => keyLt a.1 b.1) keyed).map Prod.snd ↔ s ∈ spans := by
    have hmap : keyed.map Prod.snd = spans.map id := by
      refine Lib.map_of_mapM_ok (fun s k hk => ?_) hok
      obtain ⟨key, -, hk⟩ := Lib.bind_eq_ok.1 hk
      cases hk
      rfl
    rw [((Lib.sorted_perm _ keyed).map Prod.snd).mem_iff, hmap, List.map_id]
  have hrows (s : Span PyFloat) := (spanRows_isText (s := s)).symm
  simp only [← hkeyed, hrows]
  constructor
  · rintro ⟨rows, h, htext⟩
    obtain ⟨keyed, hok, h⟩ := Lib.bind_eq_ok.1 h
    obtain ⟨rowss, hrowss, h⟩ := Lib.bind_eq_ok.1 h
    cases h
    refine ⟨⟨keyed, hok⟩, fun s hs => ?_⟩
    refine Lib.mapM_all.1 ⟨rowss, hrowss, fun rows hmem row hrow => ?_⟩ s ((hspans hok s).2 hs)
    obtain ⟨i, hi, hget⟩ := List.getElem_of_mem (List.mem_flatten_of_mem hmem hrow)
    exact htext (row, i) (List.mk_mem_zipIdx_iff_getElem?.2 (List.getElem?_eq_some_iff.2 ⟨hi, hget⟩))
  · rintro ⟨⟨keyed, hok⟩, h⟩
    obtain ⟨rowss, hrowss, htext⟩ :=
      Lib.mapM_all.2 fun s hs => h s ((hspans hok s).1 hs)
    refine ⟨rowss.flatten.zipIdx, ?_, fun row hrow => ?_⟩
    · simp only [eventRows, hok, Lib.ok_bind, hrowss]
      rfl
    obtain ⟨rows, hmem, hrow⟩ := List.mem_flatten.1 (List.fst_mem_of_mem_zipIdx hrow)
    exact htext rows hmem row.1 hrow

/-! ### What can fail -/

/-- The analysis returns, and every row of the timeline has a text or none. -/
def NothingFails (cfg : MetricConfig) (audioEnabled : Bool) (trace : Trace PyFloat CallHeader)
    (audio : Option (AudioAnalysis PyFloat)) (offset : Option PyFloat) : Prop :=
  Succeeds ((canonical cfg audioEnabled).analyze trace audio offset) ∧
    ∃ rows, eventRows trace.spans = .ok rows ∧ ∀ row ∈ rows, IsText row.1.contentText

/-- Nothing fails exactly when every span can be ordered, the conversions accept what they read, and
the contents that the rows show are texts. -/
theorem nothingFails_iff (cfg : MetricConfig) (audioEnabled : Bool)
    (trace : Trace PyFloat CallHeader) (audio : Option (AudioAnalysis PyFloat))
    (offset : Option PyFloat) : NothingFails cfg audioEnabled trace audio offset ↔
      (∀ s ∈ trace.spans, OrderKeyReads s) ∧ Analysable trace (offset.getD (.fin 0)) ∧
        ∀ s ∈ trace.spans, SpanText s ∧ ∀ e ∈ s.events, EventText e := by
  unfold NothingFails
  rw [eventRows_isText]
  constructor
  · rintro ⟨hanalysis, hkeys, htexts⟩
    exact ⟨hkeys, (succeeds_analyze hkeys offset).1 hanalysis, htexts⟩
  · rintro ⟨hkeys, hanalysable, htexts⟩
    exact ⟨(succeeds_analyze hkeys offset).2 hanalysable, hkeys, htexts⟩

end

/-- A turn whose LLM span has a number for its finish reason. -/
def numericFinishReason : Trace PyFloat CallHeader where
  header := { callId := "c", source := "s", environment := "e" }
  spans := [
    { spanId := "a", name := "turn", stage := .turn, tStart := some (.fin 0), tEnd := some (.fin 2),
      turnId := some "t" },
    { spanId := "b", name := "llm", stage := .llm, tStart := some (.fin 1), tEnd := some (.fin 2),
      turnId := some "t", attrs := [("llm.finish_reason", .int 5)] }]

/-- The finish reason fails the check of its field. -/
theorem analyze_raises : ¬∀ (trace : Trace PyFloat CallHeader)
    (audio : Option (AudioAnalysis PyFloat)) (offset : Option PyFloat),
    NothingFails {} true trace audio offset := by
  intro h
  obtain ⟨⟨a, ha⟩, -⟩ := h numericFinishReason none none
  have hraises : ((canonical {} true).analyze numericFinishReason none none).map (fun _ => ()) =
      .error .valueError := rfl
  rw [ha] at hraises
  cases hraises

end Pulse.Worker
