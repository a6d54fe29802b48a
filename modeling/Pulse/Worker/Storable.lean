import Pulse.Ingest.Storable
import Pulse.Worker.Idempotent

/-!
# What an analysis writes fits its columns

`_persist` copies strings and integers of a trace and of its analysis to the columns of the call and
to the rows of its turns, metrics and events. Only the type of an event is cut to the length of its
column, so that an analysis can be stored exactly when everything else is short and small enough.
-/

namespace Pulse.Worker.Process

open Pulse.Core
open Lib (PyFloat)
open Pulse.Db (Bounds ColumnValue Fits InRange callBounds turnBounds metricBounds eventBounds)

/-! ### Rows -/

def valueCell : Value PyFloat → ColumnValue
  | .null => .null
  | .str s => .str s
  | .int i => .int i
  | .bool b => .int (if b then 1 else 0)
  | .float _ | .arr _ | .obj _ => .other

def Column.cell : Column → ColumnValue
  | .value v => valueCell v
  | .datetime _ => .other

@[simp] lemma cell_ofText (s : Option String) : (Column.ofText s).cell = .ofText s := by
  cases s <;> rfl

@[simp] lemma cell_ofInt (i : Option Int) : (Column.ofInt i).cell = .ofInt i := by
  cases i <;> rfl

/-- The bounded columns of a turn. -/
def TurnRow.cells (r : TurnRow) : List (String × ColumnValue) :=
  [("turn_index", .int r.turn.turnIndex), ("turn_id", .str r.turn.turnId),
    ("trigger", .str r.turn.measured.trigger), ("language", .ofText r.turn.measured.language),
    ("tokens_in", .ofInt r.turn.measured.tokensIn), ("tokens_out", .ofInt r.turn.measured.tokensOut),
    ("tokens_cached", .ofInt r.turn.measured.tokensCached),
    ("finish_reason", .ofText r.turn.measured.finishReason),
    ("tts_chars", .ofInt r.turn.measured.ttsChars),
    ("tts_chars_cut", .ofInt r.turn.measured.ttsCharsCut),
    ("cut_reason", .ofText r.turn.measured.cutReason), ("metric_version", .int r.metricVersion)]

/-- The bounded columns of a metric. -/
def MetricRow.cells (r : MetricRow) : List (String × ColumnValue) :=
  [("name", .str r.name), ("value_text", .ofText r.valueText), ("reason", .ofText r.reason),
    ("metric_version", .int r.metricVersion)]

/-- The bounded columns of an event, apart from its position. -/
def eventCells (r : EventRow) : List (String × ColumnValue) :=
  [("span_id", .str r.spanId), ("parent_span_id", .ofText r.parentSpanId),
    ("turn_id", .ofText r.turnId), ("kind", .str r.kind), ("type", .str r.type),
    ("name", .str r.name), ("content_kind", .ofText r.contentKind)]

/-- The rows of a call fit their columns. -/
structure CallState.Fits {P : Type} (s : CallState P) : Prop where
  columns : ∀ name, callBounds.Admits name (s.columns name).cell
  turns : ∀ r ∈ s.turns, turnBounds.AdmitsRow r.row.cells
  metrics : ∀ r ∈ s.metrics, metricBounds.AdmitsRow r.row.cells
  events : ∀ r ∈ s.events, eventBounds.AdmitsRow (("position", .int r.row.2) :: eventCells r.row.1)

lemma fits_iff {P : Type} {s : CallState P} : s.Fits ↔
    (∀ name, callBounds.Admits name (s.columns name).cell) ∧
      (∀ r ∈ s.turns, turnBounds.AdmitsRow r.row.cells) ∧
      (∀ r ∈ s.metrics, metricBounds.AdmitsRow r.row.cells) ∧
      ∀ r ∈ s.events, eventBounds.AdmitsRow (("position", .int r.row.2) :: eventCells r.row.1) :=
  ⟨fun h => ⟨h.columns, h.turns, h.metrics, h.events⟩, fun h => ⟨h.1, h.2.1, h.2.2.1, h.2.2.2⟩⟩

/-! ### What is copied -/

structure TurnFits (turn : Turn Measured) : Prop where
  turnIndex : InRange turn.turnIndex
  turnId : turn.turnId.length ≤ 160
  trigger : turn.measured.trigger.length ≤ 16
  language : ∀ s ∈ turn.measured.language, s.length ≤ 16
  tokensIn : ∀ n ∈ turn.measured.tokensIn, InRange n
  tokensOut : ∀ n ∈ turn.measured.tokensOut, InRange n
  tokensCached : ∀ n ∈ turn.measured.tokensCached, InRange n
  finishReason : ∀ s ∈ turn.measured.finishReason, s.length ≤ 32
  ttsChars : ∀ n ∈ turn.measured.ttsChars, InRange n
  ttsCharsCut : ∀ n ∈ turn.measured.ttsCharsCut, InRange n
  cutReason : ∀ s ∈ turn.measured.cutReason, s.length ≤ 16

structure MetricFits (m : MetricValue) : Prop where
  name : m.name.length ≤ 64
  value : ∀ s, m.value = some (.text s) → s.length ≤ 128
  reason : ∀ s ∈ m.reason, s.length ≤ 128

/-- The name of an event fits, and the kind of the content that is shown of it. -/
structure SpanEventFits (e : SpanEvent PyFloat) : Prop where
  name : e.name.length ≤ 64
  content : ∀ c ∈ e.content.head?, c.1.length ≤ 24

/-- The ids of a span fit. -/
structure IdsFit (s : Span PyFloat) : Prop where
  spanId : s.spanId.length ≤ 64
  parentSpanId : ∀ p ∈ s.parentSpanId, p.length ≤ 64
  turnId : ∀ t ∈ s.turnId, t.length ≤ 160

structure SpanFits (s : Span PyFloat) : Prop where
  ids : IdsFit s
  name : s.name.length ≤ 64
  events : ∀ e ∈ s.events, SpanEventFits e

lemma admitsRow_turn {r : TurnRow} :
    turnBounds.AdmitsRow r.cells ↔ TurnFits r.turn ∧ InRange r.metricVersion := by
  have hcells : turnBounds.AdmitsRow r.cells ↔ InRange r.turn.turnIndex ∧
      r.turn.turnId.length ≤ 160 ∧ r.turn.measured.trigger.length ≤ 16 ∧
      (∀ s ∈ r.turn.measured.language, s.length ≤ 16) ∧
      (∀ n ∈ r.turn.measured.tokensIn, InRange n) ∧
      (∀ n ∈ r.turn.measured.tokensOut, InRange n) ∧
      (∀ n ∈ r.turn.measured.tokensCached, InRange n) ∧
      (∀ s ∈ r.turn.measured.finishReason, s.length ≤ 32) ∧
      (∀ n ∈ r.turn.measured.ttsChars, InRange n) ∧
      (∀ n ∈ r.turn.measured.ttsCharsCut, InRange n) ∧
      (∀ s ∈ r.turn.measured.cutReason, s.length ≤ 16) ∧ InRange r.metricVersion := by
    simp [Bounds.AdmitsRow, Bounds.Admits, TurnRow.cells, turnBounds, List.lookup_cons]
  rw [hcells]
  constructor
  · rintro ⟨h1, h2, h3, h4, h5, h6, h7, h8, h9, h10, h11, h12⟩
    exact ⟨⟨h1, h2, h3, h4, h5, h6, h7, h8, h9, h10, h11⟩, h12⟩
  · rintro ⟨⟨h1, h2, h3, h4, h5, h6, h7, h8, h9, h10, h11⟩, h12⟩
    exact ⟨h1, h2, h3, h4, h5, h6, h7, h8, h9, h10, h11, h12⟩

lemma admitsRow_metric {m : MetricValue} {metricVersion : Int} :
    metricBounds.AdmitsRow (metricRow metricVersion m).cells ↔
      MetricFits m ∧ InRange metricVersion := by
  have hcells : metricBounds.AdmitsRow (metricRow metricVersion m).cells ↔ m.name.length ≤ 64 ∧
      (∀ s ∈ (metricRow metricVersion m).valueText, s.length ≤ 128) ∧
      (∀ s ∈ m.reason, s.length ≤ 128) ∧ InRange metricVersion := by
    simp [Bounds.AdmitsRow, Bounds.Admits, MetricRow.cells, metricBounds, List.lookup_cons, metricRow]
  have htext (s : String) : s ∈ (metricRow metricVersion m).valueText ↔ m.value = some (.text s) := by
    rcases hvalue : m.value with _ | v
    · simp [metricRow, hvalue]
    · cases v <;> simp [metricRow, hvalue, eq_comm]
  simp only [htext] at hcells
  rw [hcells]
  exact ⟨fun h => ⟨⟨h.1, h.2.1, h.2.2.1⟩, h.2.2.2⟩, fun h => ⟨h.1.1, h.1.2, h.1.3, h.2⟩⟩

lemma admitsRow_event {r : EventRow} : eventBounds.AdmitsRow (eventCells r) ↔
    r.spanId.length ≤ 64 ∧ (∀ p ∈ r.parentSpanId, p.length ≤ 64) ∧
      (∀ t ∈ r.turnId, t.length ≤ 160) ∧ r.kind.length ≤ 8 ∧ r.type.length ≤ 48 ∧
      r.name.length ≤ 64 ∧ ∀ k ∈ r.contentKind, k.length ≤ 24 := by
  simp [Bounds.AdmitsRow, Bounds.Admits, eventCells, eventBounds, List.lookup_cons]

/-! ### The timeline -/

section

variable [Text]

omit [Text] in
lemma length_stageValue (stage : Stage) : (stageValue stage).length ≤ 48 := by
  cases stage <;> decide

omit [Text] in
lemma length_primaryKind {s : Span PyFloat} : ∀ k ∈ primaryKind s, k.length ≤ 24 := by
  intro k hk
  have hall : ∀ k ∈ primaryContent, k.length ≤ 24 := by decide
  exact hall k (List.mem_of_find?_eq_some hk)

omit [Text] in
/-- The row of a span fits whatever its stage and its content. -/
lemma admitsRow_spanRow {s : Span PyFloat} :
    eventBounds.AdmitsRow (eventCells (spanRow s)) ↔ IdsFit s ∧ s.name.length ≤ 64 := by
  have hkind : "span".length ≤ 8 := by decide
  rw [admitsRow_event]
  constructor
  · rintro ⟨hspan, hparent, hturn, -, -, hname, -⟩
    exact ⟨⟨hspan, hparent, hturn⟩, hname⟩
  · rintro ⟨h, hname⟩
    exact ⟨h.spanId, h.parentSpanId, h.turnId, hkind, length_stageValue _, hname, length_primaryKind⟩

/-- The row of an event fits whatever its type, which is cut. -/
lemma admitsRow_eventRow {s : Span PyFloat} {e : SpanEvent PyFloat} {r : EventRow}
    (h : eventRow s e = .ok r) :
    eventBounds.AdmitsRow (eventCells r) ↔ IdsFit s ∧ SpanEventFits e := by
  have hkind : "event".length ≤ 8 := by decide
  have htype : (String.ofList (e.name.toList.take 48)).length ≤ 48 := by simp
  obtain ⟨text, -, h⟩ := Lib.bind_eq_ok.1 h
  cases h
  rw [admitsRow_event]
  constructor
  · rintro ⟨hspan, hparent, hturn, -, -, hname, hcontent⟩
    exact ⟨⟨hspan, hparent, hturn⟩, hname, fun c hc => hcontent c.1 (Option.mem_map_of_mem _ hc)⟩
  · rintro ⟨h, he⟩
    refine ⟨h.spanId, h.parentSpanId, h.turnId, hkind, htype, he.name, fun k hk => ?_⟩
    obtain ⟨c, hc, rfl⟩ := Option.mem_map.1 hk
    exact he.content c hc

/-- The rows of a span and of its events fit exactly when the span does, and there is one for each. -/
lemma spanRows_fit {s : Span PyFloat} {rows : List EventRow} (h : spanRows s = .ok rows) :
    ((∀ r ∈ rows, eventBounds.AdmitsRow (eventCells r)) ↔ SpanFits s) ∧
      rows.length = 1 + s.events.length := by
  obtain ⟨events, hevents, h⟩ := Lib.bind_eq_ok.1 h
  cases h
  have hperm := Lib.sorted_perm (fun a b => (a.t.getD .inf).lt (b.t.getD .inf)) s.events
  have hfit := Lib.forall_of_mapM_ok (fun _ _ => admitsRow_eventRow) hevents
  constructor
  · rw [List.forall_mem_cons, admitsRow_spanRow, hfit]
    constructor
    · rintro ⟨⟨hids, hname⟩, hall⟩
      exact ⟨hids, hname, fun e he => (hall e (Lib.mem_sorted.2 he)).2⟩
    · intro hs
      exact ⟨⟨hs.ids, hs.name⟩, fun e he => ⟨hs.ids, hs.events e (Lib.mem_sorted.1 he)⟩⟩
  · have hlength := congrArg List.length
      (Lib.map_of_mapM_ok (fun (_ : SpanEvent PyFloat) (_ : EventRow) _ => Eq.refl ()) hevents)
    rw [List.length_map, List.length_map, hperm.length_eq] at hlength
    rw [List.length_cons, hlength, Nat.add_comm]

omit [Text] in
/-- Numbered rows fit when the rows do and there are no more of them than there are numbers. -/
lemma positions_fit {rows : List EventRow} :
    (∀ e ∈ rows.zipIdx, eventBounds.AdmitsRow (("position", .int e.2) :: eventCells e.1)) ↔
      (∀ row ∈ rows, eventBounds.AdmitsRow (eventCells row)) ∧ rows.length ≤ 2147483648 := by
  have hposition (r : EventRow) (n : Nat) :
      eventBounds.AdmitsRow (("position", .int n) :: eventCells r) ↔
        n ≤ 2147483647 ∧ eventBounds.AdmitsRow (eventCells r) := by
    have hadmits : eventBounds.Admits "position" (.int n) ↔ n ≤ 2147483647 := by
      simp [Bounds.Admits, eventBounds, List.lookup_cons, InRange]
    rw [Bounds.AdmitsRow, List.forall_mem_cons, hadmits]
    rfl
  simp only [hposition, Prod.forall, List.mk_mem_zipIdx_iff_getElem?]
  constructor
  · intro h
    refine ⟨fun row hrow => ?_, ?_⟩
    · obtain ⟨n, hn⟩ := List.mem_iff_getElem?.1 hrow
      exact (h row n hn).2
    · by_contra hmany
      have hlast := h _ (rows.length - 1) (List.getElem?_eq_getElem (by omega))
      omega
  · rintro ⟨hrows, hmany⟩ row n hn
    obtain ⟨hlt, -⟩ := List.getElem?_eq_some_iff.1 hn
    exact ⟨by omega, hrows row (List.mem_of_getElem? hn)⟩

/-- The timeline fits exactly when each span does and the last position is in range. -/
lemma eventRows_fit {spans : List (Span PyFloat)} {rows : List (EventRow × Nat)}
    (h : eventRows spans = .ok rows) :
    (∀ e ∈ rows, eventBounds.AdmitsRow (("position", .int e.2) :: eventCells e.1)) ↔
      (∀ s ∈ spans, SpanFits s) ∧ (spans.map fun s => 1 + s.events.length).sum ≤ 2147483648 := by
  obtain ⟨keyed, hkeyed, h⟩ := Lib.bind_eq_ok.1 h
  obtain ⟨rowss, hrowss, h⟩ := Lib.bind_eq_ok.1 h
  cases h
  have hperm : ((Lib.sorted (fun a b => keyLt a.1 b.1) keyed).map Prod.snd).Perm spans := by
    have hmap : keyed.map Prod.snd = spans.map id := by
      refine Lib.map_of_mapM_ok (fun s k hk => ?_) hkeyed
      obtain ⟨key, -, hk⟩ := Lib.bind_eq_ok.1 hk
      cases hk
      rfl
    rw [List.map_id] at hmap
    exact hmap ▸ (Lib.sorted_perm _ keyed).map Prod.snd
  have hfit := Lib.forall_of_mapM_ok (fun _ _ hs => (spanRows_fit hs).1) hrowss
  simp only [hperm.mem_iff] at hfit
  have hlength : rowss.flatten.length = (spans.map fun s => 1 + s.events.length).sum := by
    rw [List.length_flatten, Lib.map_of_mapM_ok (fun _ _ hs => (spanRows_fit hs).2) hrowss]
    exact (hperm.map _).sum_eq
  have hspans : (∀ row ∈ rowss.flatten, eventBounds.AdmitsRow (eventCells row)) ↔
      ∀ s ∈ spans, SpanFits s := by
    simp only [List.mem_flatten, forall_exists_index, and_imp]
    rw [← hfit]
    exact ⟨fun h rows hrows row hrow => h row rows hrows hrow,
      fun h row rows hrows hrow => h rows hrows row hrow⟩
  rw [← hlength, ← hspans]
  exact positions_fit

/-! ### The columns -/

/-- The model that `_rollup` writes to a column, if a span names one. -/
def modelColumn (spans : List (Span PyFloat)) (name : String) : Option (Value PyFloat) :=
  if name = "stt_provider" then (modelOf spans .stt).or (modelOf spans .turn)
  else if name = "llm_provider" then modelOf spans .llm
  else if name = "tts_provider" then modelOf spans .tts
  else none

/-- The columns that have what the header says in the end: the rollup writes no other value. -/
def KeepsHeader (spans : List (Span PyFloat)) (name : String) : Prop :=
  name ∉ persistedColumns ∨ name = "engine" ∨
    name ∈ ["stt_provider", "llm_provider", "tts_provider"] ∧ modelColumn spans name = none

/-- The strings and integers that `_persist` copies are within the bounds of their columns. -/
structure AnalysisFits (trace : Trace PyFloat CallHeader) (analysis : Analysis Measured Report)
    (metricVersion adapterVersion : Int) : Prop where
  header : ∀ name c, (headerWrites trace.header).lookup name = some c →
    KeepsHeader trace.spans name → callBounds.Admits name c.cell
  models : ∀ name v, modelColumn trace.spans name = some v → callBounds.Admits name (valueCell v)
  totals : ∀ field ∈ [Measured.tokensIn, Measured.tokensOut, Measured.tokensCached, Measured.ttsChars],
    InRange (analysis.turns.map fun t => (field t.measured).getD 0).sum
  unattributed : InRange (trace.spans.countP fun s =>
    s.turnId.isNone ∧ s.parentSpanId.isSome ∧ s.stage ≠ .call)
  spanDroppedEvents : InRange analysis.report.trust.spanDroppedEvents
  metricVersion : InRange metricVersion
  adapterVersion : InRange adapterVersion
  turns : ∀ turn ∈ analysis.turns, TurnFits turn
  metrics : ∀ m ∈ analysis.report.metrics, MetricFits m
  spans : ∀ s ∈ trace.spans, SpanFits s
  positions : (trace.spans.map fun s => 1 + s.events.length).sum ≤ 2147483648

variable {P C : Type} {rt : Runtime P C} {trace : Trace PyFloat CallHeader}
  {analysis : Analysis Measured Report} {version : Int} {cols cols' : Columns}

omit [Text] in
/-- Columns fit after writes, whose names differ, when what was written fits and what stayed does. -/
lemma admits_setAll {ws : List (String × Column)} (hkeys : (ws.map Prod.fst).Nodup) :
    (∀ name, callBounds.Admits name (cols.setAll ws name).cell) ↔
      (∀ e ∈ ws, callBounds.Admits e.1 e.2.cell) ∧
        ∀ name ∉ ws.map Prod.fst, callBounds.Admits name (cols name).cell := by
  constructor
  · intro h
    refine ⟨fun e he => ?_, fun name hname => ?_⟩
    · simpa only [setAll_of_mem (Lib.lookup_of_mem hkeys he)] using h e.1
    · simpa only [setAll_of_not_mem (lookup_eq_none_of_keys rfl hname)] using h name
  · rintro ⟨hws, hcols⟩ name
    cases hlookup : ws.lookup name with
    | some c =>
      rw [setAll_of_mem hlookup]
      exact hws _ (Lib.mem_of_lookup hlookup)
    | none =>
      rw [setAll_of_not_mem hlookup]
      refine hcols name fun hin => ?_
      obtain ⟨e, he, rfl⟩ := List.mem_map.1 hin
      obtain ⟨c, hc⟩ := lookup_ne_none he
      rw [hlookup] at hc
      cases hc

omit [Text] in
lemma admits_total {n : String} (hn : callBounds.lookup n = some .integer)
    {field : Measured → Option Int} {turns : List (Turn Measured)} :
    callBounds.Admits n (Column.ofInt (totalOf turns field)).cell ↔
      InRange (turns.map fun t => (field t.measured).getD 0).sum := by
  have hzero : InRange 0 := by decide
  unfold totalOf
  dsimp only
  rw [Bounds.Admits, hn]
  split
  · next h => simpa [h] using hzero
  · simp

/-- The rollup leaves an engine that the header gives. -/
def RolledUp (given engine : Column) : Prop :=
  engine = given ∨ given = .null ∧
    (engine = .ofText (some "cascade") ∨ engine = .ofText (some "s2s"))

omit [Text] in
lemma persistWrites_eq {ws : List (String × Column)}
    (h : persistWrites rt trace analysis version cols.rollupInput = .ok ws) :
    ∃ (cost : CallCost) (engine : Column), RolledUp (cols "engine") engine ∧
      ws = [
        ("stt_provider",
          ((modelColumn trace.spans "stt_provider").map .value).getD (cols "stt_provider")),
        ("llm_provider",
          ((modelColumn trace.spans "llm_provider").map .value).getD (cols "llm_provider")),
        ("tts_provider",
          ((modelColumn trace.spans "tts_provider").map .value).getD (cols "tts_provider")),
        ("engine", engine), ("tokens_in", .ofInt (totalOf analysis.turns Measured.tokensIn)),
        ("tokens_out", .ofInt (totalOf analysis.turns Measured.tokensOut)),
        ("tokens_cached", .ofInt (totalOf analysis.turns Measured.tokensCached)),
        ("tts_chars", .ofInt (totalOf analysis.turns Measured.ttsChars)),
        ("cost_llm", .ofFloat cost.llm), ("cost_stt", .ofFloat cost.stt),
        ("cost_tts", .ofFloat cost.tts), ("cost_total", .ofFloat cost.total),
        ("cost_currency", .ofText (cost.total.map fun _ => "USD")),
        ("unattributed_spans", .ofInt (some (trace.spans.countP fun s =>
          s.turnId.isNone ∧ s.parentSpanId.isSome ∧ s.stage ≠ .call))),
        ("span_dropped_events", .ofInt (some analysis.report.trust.spanDroppedEvents)),
        ("metric_version", .ofInt (some rt.metricVersion)),
        ("adapter_version", .ofInt (some version)), ("app_version", .ofText (some "0.0.1"))] := by
  obtain ⟨rollup, hrollup, h⟩ := Lib.bind_eq_ok.1 h
  cases h
  obtain ⟨cost, -, hrollup⟩ := Lib.bind_eq_ok.1 hrollup
  cases hrollup
  have hmodels : modelColumn trace.spans "stt_provider" =
      (modelOf trace.spans .stt).or (modelOf trace.spans .turn) ∧
      modelColumn trace.spans "llm_provider" = modelOf trace.spans .llm ∧
      modelColumn trace.spans "tts_provider" = modelOf trace.spans .tts := ⟨rfl, rfl, rfl⟩
  rw [hmodels.1, hmodels.2.1, hmodels.2.2]
  refine ⟨cost, ?engine, ?rolled, ?columns⟩
  case columns =>
    cases (modelOf trace.spans .stt).or (modelOf trace.spans .turn) <;>
      cases modelOf trace.spans .llm <;> cases modelOf trace.spans .tts <;> rfl
  case rolled =>
    change RolledUp cols.rollupInput.engine _
    generalize cols.rollupInput.engine = given
    unfold RolledUp
    split
    · split
      · split
        · exact .inr ⟨rfl, .inl rfl⟩
        · exact .inr ⟨rfl, .inr rfl⟩
      · exact .inl rfl
    · exact .inl rfl

omit [Text] in
/-- What the rollup writes fits exactly when its models, totals and counts do, and the engine that
it finds. -/
lemma persistWrites_fit {ws : List (String × Column)}
    (h : persistWrites rt trace analysis version cols.rollupInput = .ok ws) :
    (∀ e ∈ ws, callBounds.Admits e.1 e.2.cell) ↔
      (∀ name ∈ ["stt_provider", "llm_provider", "tts_provider"], callBounds.Admits name
        (((modelColumn trace.spans name).map Column.value).getD (cols name)).cell) ∧
      callBounds.Admits "engine" (cols "engine").cell ∧
      (∀ field ∈ [Measured.tokensIn, Measured.tokensOut, Measured.tokensCached, Measured.ttsChars],
        InRange (analysis.turns.map fun t => (field t.measured).getD 0).sum) ∧
      InRange (trace.spans.countP fun s =>
        s.turnId.isNone ∧ s.parentSpanId.isSome ∧ s.stage ≠ .call) ∧
      InRange analysis.report.trust.spanDroppedEvents ∧ InRange rt.metricVersion ∧
      InRange version := by
  obtain ⟨cost, engine, hengine, rfl⟩ := persistWrites_eq h
  have hfree (name : String) (hname : callBounds.lookup name = none) (c : ColumnValue) :
      callBounds.Admits name c := by
    simp [Bounds.Admits, hname]
  have hint (name : String) (hname : callBounds.lookup name = some .integer) (i : Int) :
      callBounds.Admits name (Column.ofInt (some i)).cell ↔ InRange i := by
    simp [Bounds.Admits, hname]
  have htext (name : String) (n : Nat) (hname : callBounds.lookup name = some (.string n))
      (text : Option String) (h : ∀ t ∈ text, t.length ≤ n) :
      callBounds.Admits name (Column.ofText text).cell := by
    simpa [Bounds.Admits, hname] using h
  have hengine' : callBounds.Admits "engine" engine.cell ↔
      callBounds.Admits "engine" (cols "engine").cell := by
    rcases hengine with rfl | ⟨hnull, hengine⟩
    · rfl
    · rw [hnull]
      refine iff_of_true ?_ (Bounds.admits_null _ _)
      rcases hengine with rfl | rfl
      · exact htext "engine" 16 rfl _ (by rintro t ⟨⟩; decide)
      · exact htext "engine" 16 rfl _ (by rintro t ⟨⟩; decide)
  have hcurrency := htext "cost_currency" 8 rfl (cost.total.map fun _ => "USD") (by
    intro t ht
    obtain ⟨-, -, rfl⟩ := Option.mem_map.1 ht
    decide)
  have hversion := htext "app_version" 64 rfl (some "0.0.1") (by rintro t ⟨⟩; decide)
  simp only [List.forall_mem_cons, hengine', hfree "cost_llm" rfl, hfree "cost_stt" rfl,
    hfree "cost_tts" rfl, hfree "cost_total" rfl, hint "unattributed_spans" rfl,
    hint "span_dropped_events" rfl, hint "metric_version" rfl, hint "adapter_version" rfl,
    admits_total (n := "tokens_in") rfl, admits_total (n := "tokens_out") rfl,
    admits_total (n := "tokens_cached") rfl, admits_total (n := "tts_chars") rfl, hcurrency,
    hversion, List.not_mem_nil, false_imp_iff, implies_true, and_true, true_and, and_assoc]

omit [Text] in
lemma mem_of_modelColumn {spans : List (Span PyFloat)} {name : String} {v : Value PyFloat}
    (h : modelColumn spans name = some v) :
    name ∈ ["stt_provider", "llm_provider", "tts_provider"] := by
  unfold modelColumn at h
  split at h
  · simp [*]
  · split at h
    · simp [*]
    · split at h
      · simp [*]
      · cases h

omit [Text] in
/-- The header and the models fit exactly when the columns do that have them in the end. -/
lemma headerColumns_fit {h : CallHeader} {spans : List (Span PyFloat)}
    (hcols : ∀ name, callBounds.Admits name (cols name).cell) :
    ((∀ name ∈ ["stt_provider", "llm_provider", "tts_provider"], callBounds.Admits name
        (((modelColumn spans name).map Column.value).getD
          (cols.setAll (headerWrites h) name)).cell) ∧
      callBounds.Admits "engine" (cols.setAll (headerWrites h) "engine").cell ∧
      ∀ name ∉ persistedColumns, callBounds.Admits name (cols.setAll (headerWrites h) name).cell) ↔
      (∀ name c, (headerWrites h).lookup name = some c → KeepsHeader spans name →
        callBounds.Admits name c.cell) ∧
      ∀ name v, modelColumn spans name = some v → callBounds.Admits name (valueCell v) := by
  constructor
  · rintro ⟨hproviders, hengine, hrest⟩
    refine ⟨fun name c hc hkeeps => ?_, fun name v hv => ?_⟩
    · have hset : cols.setAll (headerWrites h) name = c := setAll_of_mem hc
      rw [← hset]
      rcases hkeeps with hname | rfl | ⟨hname, hnone⟩
      · exact hrest name hname
      · exact hengine
      · have hprovider := hproviders name hname
        rwa [hnone] at hprovider
    · have hprovider := hproviders name (mem_of_modelColumn hv)
      rwa [hv] at hprovider
  · rintro ⟨hheader, hmodels⟩
    refine ⟨fun name hname => ?_, ?_, fun name hname => ?_⟩
    · cases hmodel : modelColumn spans name with
      | some v => exact hmodels name v hmodel
      | none =>
        obtain ⟨c, hc⟩ := exists_headerWrites (h := h) (List.mem_cons_of_mem "engine" hname)
        change callBounds.Admits name (cols.setAll (headerWrites h) name).cell
        rw [setAll_of_mem hc]
        exact hheader name c hc (.inr (.inr ⟨hname, hmodel⟩))
    · have hname : "engine" ∈ ["engine", "stt_provider", "llm_provider", "tts_provider"] := by decide
      obtain ⟨c, hc⟩ := exists_headerWrites (h := h) hname
      rw [setAll_of_mem hc]
      exact hheader "engine" c hc (.inr (.inl rfl))
    · cases hlookup : (headerWrites h).lookup name with
      | some c =>
        rw [setAll_of_mem hlookup]
        exact hheader name c hlookup (.inl hname)
      | none =>
        rw [setAll_of_not_mem hlookup]
        exact hcols name

omit [Text] in
/-- The columns of the call fit exactly when what the header and the rollup write does. -/
lemma persistColumns_fit (hcols : ∀ name, callBounds.Admits name (cols name).cell)
    (h : persistColumns rt cols trace analysis version = .ok cols') :
    (∀ name, callBounds.Admits name (cols' name).cell) ↔
      ((∀ name c, (headerWrites trace.header).lookup name = some c → KeepsHeader trace.spans name →
          callBounds.Admits name c.cell) ∧
        ∀ name v, modelColumn trace.spans name = some v → callBounds.Admits name (valueCell v)) ∧
      (∀ field ∈ [Measured.tokensIn, Measured.tokensOut, Measured.tokensCached, Measured.ttsChars],
        InRange (analysis.turns.map fun t => (field t.measured).getD 0).sum) ∧
      InRange (trace.spans.countP fun s =>
        s.turnId.isNone ∧ s.parentSpanId.isSome ∧ s.stage ≠ .call) ∧
      InRange analysis.report.trust.spanDroppedEvents ∧ InRange rt.metricVersion ∧
      InRange version := by
  obtain ⟨ws, hws, h⟩ := Lib.bind_eq_ok.1 h
  cases h
  have hkeys := persistWrites_keys hws
  have hnodup : persistedColumns.Nodup := by decide
  rw [admits_setAll (hkeys ▸ hnodup), persistWrites_fit hws, hkeys, ← headerColumns_fit hcols]
  tauto

/-! ### Analyses -/

/-- What an analysis leaves fits its columns exactly when the strings and integers that are copied do. -/
lemma persist_fits {s s' : CallState P} {audio : Option AudioOutput}
    (hcols : ∀ name, callBounds.Admits name (s.columns name).cell)
    (h : persist rt s trace analysis version audio = .ok s') :
    s'.Fits ↔ AnalysisFits trace analysis rt.metricVersion version := by
  obtain ⟨cols, hcolumns, h⟩ := Lib.bind_eq_ok.1 h
  obtain ⟨rows, hrows, h⟩ := Lib.bind_eq_ok.1 h
  obtain ⟨events, hevents, hrows⟩ := Lib.bind_eq_ok.1 hrows
  cases hrows
  cases h
  have hfits : ({ s.replaceRows ⟨analysis.turns.map (turnRow rt.metricVersion),
      analysis.report.metrics.map (metricRow rt.metricVersion), events,
      (audio.map (utteranceRows rt.metricVersion)).getD [], (audio.map mediaRows).getD []⟩ with
        columns := cols } : CallState P).Fits ↔
      (∀ name, callBounds.Admits name (cols name).cell) ∧
      (∀ turn ∈ analysis.turns, TurnFits turn ∧ InRange rt.metricVersion) ∧
      (∀ m ∈ analysis.report.metrics, MetricFits m ∧ InRange rt.metricVersion) ∧
      (∀ e ∈ events, eventBounds.AdmitsRow (("position", .int e.2) :: eventCells e.1)) := by
    rw [fits_iff]
    simp only [CallState.replaceRows, List.forall_mem_map, admitsRow_metric, admitsRow_turn]
    rfl
  rw [hfits, persistColumns_fit hcols hcolumns, eventRows_fit hevents]
  constructor
  · rintro ⟨⟨⟨hheader, hmodels⟩, htotals, hunattributed, hdropped, hmetric, hadapter⟩, hturns,
      hmetrics, hspans, hpositions⟩
    exact ⟨hheader, hmodels, htotals, hunattributed, hdropped, hmetric, hadapter,
      fun turn hturn => (hturns turn hturn).1, fun m hm => (hmetrics m hm).1, hspans, hpositions⟩
  · intro hf
    exact ⟨⟨⟨hf.header, hf.models⟩, hf.totals, hf.unattributed, hf.spanDroppedEvents,
      hf.metricVersion, hf.adapterVersion⟩, fun turn hturn => ⟨hf.turns turn hturn, hf.metricVersion⟩,
      fun m hm => ⟨hf.metrics m hm, hf.metricVersion⟩, hf.spans, hf.positions⟩

/-- Ingesting a record and analysing a trace leave rows that fit exactly when what they copy does. -/
theorem stored_fits_iff {db : Ingest.Store} (hdb : db.Fits) (r : Ingest.Record)
    (slice : Ingest.Slice) (now : Ingest.Time) {s s' : CallState P} {audio : Option AudioOutput}
    (hcols : ∀ name, callBounds.Admits name (s.columns name).cell)
    (h : persist rt s trace analysis version audio = .ok s') :
    ∃ db', Ingest.assembleRecord db r slice now = .ok db' ∧
      (db'.Fits ∧ s'.Fits ↔
        Ingest.RecordFits db r slice ∧ AnalysisFits trace analysis rt.metricVersion version) := by
  obtain ⟨db', hok, hfits⟩ := Ingest.assembleRecord_fits_iff hdb r slice now
  exact ⟨db', hok, and_congr hfits (persist_fits hcols h)⟩

end

/-- A trace with one span of the name. -/
def namedSpan (name : String) : Trace PyFloat CallHeader where
  header := { callId := "c", source := "s", environment := "e" }
  spans := [
    { spanId := "a", name := name, stage := .unknown, tStart := some (.fin 0), tEnd := some (.fin 1) }]

/-- A call with no columns yet. -/
def blankCall : CallState Unit :=
  CallState.new (fun _ => .null) [] []

/-- An analysis that finds no turns and no metrics. -/
def silentAnalysis : Analysis Measured Report where
  turns := []
  report := ⟨[], ⟨[], [], none, none, none, none, [], 0, 0⟩⟩

lemma admits_blankCall (name : String) : callBounds.Admits name (blankCall.columns name).cell :=
  Bounds.admits_null _ _

/-- A span with a short name is stored, and so is the record of an empty batch. -/
theorem stored_fits_iff_short : Ingest.Store.empty.Fits ∧ ∃ s',
    persist (overlay false) blankCall (namedSpan "vad") silentAnalysis 0 none = .ok s' ∧
      ∃ db', Ingest.assembleRecord .empty ⟨none, "b", 0, none⟩ ⟨[], []⟩ 0 = .ok db' ∧
        (db'.Fits ∧ s'.Fits ↔ Ingest.RecordFits .empty ⟨none, "b", 0, none⟩ ⟨[], []⟩ ∧
          AnalysisFits (namedSpan "vad") silentAnalysis 2 0) := by
  have hempty : Ingest.Store.empty.Fits := 
    ⟨fun _ hc => absurd hc List.not_mem_nil, fun _ hf => absurd hf List.not_mem_nil⟩
  have hsome : (persist (overlay false) blankCall (namedSpan "vad") silentAnalysis 0
      none).toOption.isSome = true := by decide +kernel
  cases hrun : persist (overlay false) blankCall (namedSpan "vad") silentAnalysis 0 none with
  | error e =>
    rw [hrun] at hsome
    cases hsome
  | ok s' =>
    exact ⟨hempty, s', rfl, stored_fits_iff hempty ⟨none, "b", 0, none⟩ ⟨[], []⟩ 0
      admits_blankCall hrun⟩

/-- The name of an event is not cut: one of 65 characters makes the call of its span unstorable. -/
theorem longName_not_stored : ¬∀ (rt : Runtime Unit Unit) (s : CallState Unit)
    (trace : Trace PyFloat CallHeader) (version : Int) (s' : CallState Unit) (status : RunStatus),
    (∀ name, callBounds.Admits name (s.columns name).cell) →
      processTrace rt s trace version = .ok (s', status) → s'.Fits := by
  intro h
  let name := "a span name that is one character longer than the column allows.."
  have hnames : (processTrace (overlay false) blankCall (namedSpan name) 0).toOption.map
      (fun r => r.1.events.map fun e => e.row.1.name.length) = some [65] := by decide +kernel
  cases hrun : processTrace (overlay false) blankCall (namedSpan name) 0 with
  | error e =>
    rw [hrun] at hnames
    cases hnames
  | ok r =>
    rw [hrun] at hnames
    have hevents := (h _ _ _ _ r.1 r.2 admits_blankCall hrun).events
    have hlengths : (r.1.events.map fun e => e.row.1.name.length) = [65] := Option.some.inj hnames
    have hmem : 65 ∈ r.1.events.map fun e => e.row.1.name.length := by
      rw [hlengths]
      exact List.mem_singleton_self 65
    obtain ⟨e, he, hlength⟩ := List.mem_map.1 hmem
    obtain ⟨-, -, -, -, -, hname, -⟩ :=
      admitsRow_event.1 fun c hc => hevents e he c (List.mem_cons_of_mem _ hc)
    omega

end Pulse.Worker.Process
