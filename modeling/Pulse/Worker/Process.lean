import Pulse.Worker.CallState

/-!
# Analysing one call

`process`, `process_trace` and `process_audio_only` of `worker/process.py`: what they write to the
columns and to the rows of a call.
-/

namespace Pulse.Worker.Process

open Pulse.Core
open Lib (PyFloat)

variable {P C : Type}

/-! ### The header -/

/-- The columns among the fields of a header: a counter overrides the field of its name. -/
def headerFields (h : CallHeader) : List (String × Column) :=
  h.counters.map (fun e => (e.1, .value e.2)) ++
    [("started_at", .ofTime h.startedAt), ("engine", .ofText h.engine), ("carrier", .ofText h.carrier),
      ("stt_provider", .ofText h.sttProvider), ("llm_provider", .ofText h.llmProvider),
      ("tts_provider", .ofText h.ttsProvider), ("voice", .ofText h.voice),
      ("ended_at", .ofTime h.endedAt)]

/-- What `_apply_header` writes. -/
def headerWrites (h : CallHeader) : List (String × Column) :=
  (match h.startedAt, h.endedAt with
    | some a, some b => [("duration_s", .ofFloat (some ((PyFloat.fin (b - a)).round 3)))]
    | _, _ => []) ++
  [("labels", .value (.obj h.labels)),
    ("campaign_id", .value ((h.labels.lookup "campaign_id").getD .null))] ++
  (headerFields h).filter fun e =>
    e.1 ∈ callColumns ∧ e.1 ∉ ["id", "source", "environment", "labels"]

/-! ### The rollup -/

/-- `CallCost`, without its currency. -/
structure CallCost where
  llm : Option PyFloat
  stt : Option PyFloat
  tts : Option PyFloat
  total : Option PyFloat

/-- `pricing.get(model or "")`: only a string is a key, and what cannot be hashed raises. -/
def priceOf (pricing : String → Option ModelPrice) (model : Column) :
    Except PyError (Option ModelPrice) :=
  match model with
  | .value (.str s) => .ok (pricing s)
  | .value (.arr (_ :: _)) | .value (.obj (_ :: _)) => .error .typeError
  | .value v => .ok (if v.truthy then none else pricing "")
  | .datetime _ => .ok none

/-- `(n or 0) / 1e6 * rate` -/
def perMillion (n : Option Int) (rate : ℚ) : Except PyError PyFloat := do
  return ((← toFloat (n.getD 0)).scale (1 / 1000000)).scale rate

/-- `stt_seconds or 0` as a float. -/
def secondsOf : Column → Except PyError PyFloat
  | .value (.int i) => toFloat i
  | .value (.float x) => .ok x
  | .value (.bool b) => .ok (.fin (if b then 1 else 0))
  | .value v => if v.truthy then .error .typeError else .ok (.fin 0)
  | .datetime _ => .error .typeError

/-- `price_call` -/
def priceCall (pricing : String → Option ModelPrice) (llmModel sttModel ttsModel : Column)
    (tokensIn tokensOut tokensCached ttsChars : Option Int) (sttSeconds : Column) :
    Except PyError CallCost := do
  let llmP ← priceOf pricing llmModel
  let sttP ← priceOf pricing sttModel
  let ttsP ← priceOf pricing ttsModel
  let llm ← match llmP with
    | some p => do
      let billable := max (tokensIn.getD 0 - tokensCached.getD 0) 0
      let input ← perMillion (some billable) p.inputPer1m
      let output ← perMillion tokensOut p.outputPer1m
      let cached ← perMillion tokensCached p.cachedPer1m
      pure (some ((input + output + cached).round 6))
    | none => pure none
  let tts ← match ttsP with
    | some p =>
      if p.ttsPer1mChars = 0 then pure none
      else do pure (some ((← perMillion ttsChars p.ttsPer1mChars).round 6))
    | none => pure none
  let stt ← match sttP with
    | some p =>
      if p.sttPerMin = 0 then pure none
      else do pure (some ((((← secondsOf sttSeconds).scale (1 / 60)).scale p.sttPerMin).round 6))
    | none => pure none
  let parts := [llm, stt, tts].filterMap id
  return {
    llm := llm
    stt := stt
    tts := tts
    total := if parts.isEmpty then none else some ((parts.foldl (· + ·) 0).round 6) }

/-- The model that the first span of a stage names. -/
def modelOf (spans : List (Span PyFloat)) (stage : Stage) : Option (Value PyFloat) :=
  spans.findSome? fun s =>
    let v := (s.attrs.lookup "gen_ai.request.model").getD .null
    if s.stage = stage ∧ v.truthy then some v else none

/-- The sum of a count over the turns, unless it is zero. -/
def totalOf (turns : List (Turn Measured)) (field : Measured → Option Int) : Option Int :=
  let n := (turns.map fun t => (field t.measured).getD 0).sum
  if n = 0 then none else some n

/-- The columns that `_rollup` and the rest of `_persist` read. -/
structure RollupInput where
  engine : Column
  sttProvider : Column
  llmProvider : Column
  ttsProvider : Column
  sttSeconds : Column

def Columns.rollupInput (cols : Columns) : RollupInput where
  engine := cols "engine"
  sttProvider := cols "stt_provider"
  llmProvider := cols "llm_provider"
  ttsProvider := cols "tts_provider"
  sttSeconds := cols "stt_seconds"

/-- What `_rollup` writes. -/
def rollupWrites (pricing : String → Option ModelPrice) (spans : List (Span PyFloat))
    (turns : List (Turn Measured)) (input : RollupInput) : Except PyError (List (String × Column)) := do
  let sttProvider := match (modelOf spans .stt).or (modelOf spans .turn) with
    | some v => .value v
    | none => input.sttProvider
  let llmProvider := match modelOf spans .llm with
    | some v => .value v
    | none => input.llmProvider
  let ttsProvider := match modelOf spans .tts with
    | some v => .value v
    | none => input.ttsProvider
  let engine := match input.engine with
    | .value .null =>
      if spans.any (·.stage = .llm) then
        .ofText (some (if spans.any fun s => s.stage = .stt ∨ s.stage = .tts then "cascade" else "s2s"))
      else .null
    | engine => engine
  let tokensIn := totalOf turns Measured.tokensIn
  let tokensOut := totalOf turns Measured.tokensOut
  let tokensCached := totalOf turns Measured.tokensCached
  let ttsChars := totalOf turns Measured.ttsChars
  let cost ← priceCall pricing llmProvider sttProvider ttsProvider tokensIn tokensOut tokensCached
    ttsChars input.sttSeconds
  return [("stt_provider", sttProvider), ("llm_provider", llmProvider),
    ("tts_provider", ttsProvider), ("engine", engine), ("tokens_in", .ofInt tokensIn),
    ("tokens_out", .ofInt tokensOut), ("tokens_cached", .ofInt tokensCached),
    ("tts_chars", .ofInt ttsChars), ("cost_llm", .ofFloat cost.llm), ("cost_stt", .ofFloat cost.stt),
    ("cost_tts", .ofFloat cost.tts), ("cost_total", .ofFloat cost.total),
    ("cost_currency", .ofText (cost.total.map fun _ => "USD"))]

/-! ### Rows -/

/-- `_turn_row` -/
def turnRow (metricVersion : Int) (turn : Turn Measured) : TurnRow :=
  ⟨turn, metricVersion⟩

/-- `_metric_row` -/
def metricRow (metricVersion : Int) (m : MetricValue) : MetricRow where
  name := m.name
  valueNum := match m.value with
    | some (.num x) => some x
    | _ => none
  valueText := match m.value with
    | some (.text s) => some s
    | _ => none
  samples := m.samples
  available := m.available
  reason := m.reason
  metricVersion := metricVersion

/-- `_utterance_rows` -/
def utteranceRows (metricVersion : Int) (audio : AudioOutput) : List UtteranceRow :=
  audio.analysis.utterances.map (⟨·, metricVersion⟩)

/-- `_peaks_rows` and `_energy_rows` -/
def mediaRows (audio : AudioOutput) : List MediaRow :=
  audio.peaks.map (fun (channel, data) => { kind := "peaks_" ++ channel, peaks := some data }) ++
    (audio.energy.filter fun e => e.2 ≠ []).map fun (channel, data) =>
      { kind := "energy_" ++ channel, peaks := some data }

/-- `kind LIKE 'peaks_%' OR kind LIKE 'energy_%'`, where `_` is any character. -/
def derivedKind (kind : String) : Bool :=
  ["peaks", "energy"].any fun start => start.toList.isPrefixOf kind.toList &&
    decide (start.length < kind.length)

/-- The rows that a run writes. -/
structure NewRows where
  turns : List TurnRow
  metrics : List MetricRow
  events : List (EventRow × Nat) := []
  utterances : List UtteranceRow := []
  media : List MediaRow := []

/-- Delete, then insert. -/
def CallState.replaceRows (s : CallState P) (rows : NewRows) : CallState P :=
  { s with
    turns := rows.turns.map (⟨s.nextRun, ·⟩)
    metrics := rows.metrics.map (⟨s.nextRun, ·⟩)
    events := rows.events.map (⟨s.nextRun, ·⟩)
    utterances := rows.utterances.map (⟨s.nextRun, ·⟩)
    media := (s.media.filter fun m => !derivedKind m.row.kind) ++ rows.media.map (⟨s.nextRun, ·⟩) }

/-! ### The runs -/

/-- The status that a run reports. -/
inductive RunStatus
  | ok
  | partially
  | failed
  deriving DecidableEq

section

variable [Text]

/-- What `_persist` writes to the columns after the header. -/
def persistWrites (rt : Runtime P C) (trace : Trace PyFloat CallHeader)
    (analysis : Analysis Measured Report) (adapterVersion : Int) (input : RollupInput) :
    Except PyError (List (String × Column)) := do
  let rollup ← rollupWrites rt.pricing trace.spans analysis.turns input
  let unattributed := trace.spans.countP fun s =>
    s.turnId.isNone ∧ s.parentSpanId.isSome ∧ s.stage ≠ .call
  return rollup ++
    [("unattributed_spans", .ofInt (some unattributed)),
      ("span_dropped_events", .ofInt (some analysis.report.trust.spanDroppedEvents)),
      ("metric_version", .ofInt (some rt.metricVersion)),
      ("adapter_version", .ofInt (some adapterVersion)), ("app_version", .ofText (some "0.0.1"))]

def persistColumns (rt : Runtime P C) (cols : Columns) (trace : Trace PyFloat CallHeader)
    (analysis : Analysis Measured Report) (adapterVersion : Int) : Except PyError Columns := do
  let cols := cols.setAll (headerWrites trace.header)
  return cols.setAll (← persistWrites rt trace analysis adapterVersion cols.rollupInput)

/-- The rows of an analysis. -/
def analysisRows (metricVersion : Int) (trace : Trace PyFloat CallHeader)
    (analysis : Analysis Measured Report) (audio : Option AudioOutput) : Except PyError NewRows := do
  return {
    turns := analysis.turns.map (turnRow metricVersion)
    metrics := analysis.report.metrics.map (metricRow metricVersion)
    events := ← eventRows trace.spans
    utterances := (audio.map (utteranceRows metricVersion)).getD []
    media := (audio.map mediaRows).getD [] }

/-- `_persist` -/
def persist (rt : Runtime P C) (s : CallState P) (trace : Trace PyFloat CallHeader)
    (analysis : Analysis Measured Report) (adapterVersion : Int) (audio : Option AudioOutput) :
    Except PyError (CallState P) := do
  let cols ← persistColumns rt s.columns trace analysis adapterVersion
  let rows ← analysisRows rt.metricVersion trace analysis audio
  return { s.replaceRows rows with columns := cols }

/-- The material discrepancy that `_timing` finds in a turn. -/
def timingDiscrepancy (turn : Turn Measured) : Option Discrepancy := do
  let reported ← turn.measured.ttsFirstAudioAt
  let measured ← turn.measured.audioOutStartS
  let delta := ((measured - reported).scale 1000).round 1
  let ms (t : PyFloat) : String := Text.str (.float ((t.scale 1000).round 1))
  if (PyFloat.fin 150).lt delta || delta.lt (.fin (-150)) then
    some {
      turnIndex := some turn.turnIndex
      dimension := "voice_to_voice"
      field := "first_audio_ms"
      reported := some (ms reported)
      measured := some (ms measured)
      delta := some delta
      band := some (.fin 150)
      verdict := "material"
      note := some (if (PyFloat.fin 0).lt delta then "audio shows the agent spoke later than reported"
        else "audio shows the agent spoke earlier than reported") }
  else none

/-- The material discrepancy that `_transcript` finds on a channel. -/
def transcriptDiscrepancy (wer : String → String → ℚ) (stt : Stt) (field ref : String)
    (wav : Option Bytes) : Option Discrepancy := do
  let wav ← wav
  if ref = "" ∨ wav = [] then none
  else
    let heard ← stt wav
    let w := Lib.roundTo 3 (wer ref heard)
    if 1 / 5 < w then
      some {
        turnIndex := none
        dimension := "transcript"
        field := field
        reported := some (String.ofList (ref.toList.take 120))
        measured := some (String.ofList (heard.toList.take 120))
        delta := some (.fin w)
        band := some (.fin (1 / 5))
        verdict := "material"
        note := some "producer transcript diverges from the audio" }
    else none

/-- What the caller said, and what the agent said, by the turns. -/
def callerRef (turns : List (Turn Measured)) : String :=
  " ".intercalate ((turns.filterMap fun t => t.measured.transcript).filter (· ≠ ""))

def agentRef (turns : List (Turn Measured)) : String :=
  let spoken (m : Measured) : String :=
    ((m.llmSpoken.filter (· ≠ "")).or (m.llmRaw.filter (· ≠ ""))).getD ""
  let joined := " ".intercalate (turns.map fun t => spoken t.measured)
  String.ofList (strip (F := PyFloat) joined.toList)

/-- The material discrepancies of `reconcile`. -/
def materialDiscrepancies (wer : String → String → ℚ) (turns : List (Turn Measured))
    (caller agent : Option Bytes) (stt : Option Stt) : List Discrepancy :=
  turns.filterMap timingDiscrepancy ++
    match stt with
    | none => []
    | some stt => (transcriptDiscrepancy wer stt "caller_wer" (callerRef turns) caller).toList ++
        (transcriptDiscrepancy wer stt "agent_wer" (agentRef turns) agent).toList

/-- The cross-check of `_reconcile`. It fails when a recording or a setting cannot be read. -/
def crossCheck (rt : Runtime P C) (s : CallState P) (turns : List (Turn Measured)) :
    Except Failure (List Discrepancy) := do
  let creds ← rt.resolveCreds s.agentId
  let caller ← monoBytes rt (s.recording "audio_caller") creds
  let agent ← monoBytes rt (s.recording "audio_agent") creds
  let stt ← rt.resolveStt s.agentId
  return materialDiscrepancies rt.wer turns caller agent stt

/-- `_reconcile`: after a failed cross-check the old discrepancies stay. -/
def reconcile (rt : Runtime P C) (s : CallState P) (turns : List (Turn Measured)) : CallState P :=
  match crossCheck rt s turns with
  | .ok ds => { s with discrepancies := ds.map (⟨s.nextRun, ·⟩) }
  | .error _ => s

/-- The audio, when the overlay is switched on. -/
def overlayAudio (rt : Runtime P C) (s : CallState P) : Except Failure (Option AudioOutput) :=
  if rt.audioEnabled s.agentId then loadAudio rt s else .ok none

/-- `process_trace`, and the part of `process` after the adapter. -/
def analyseTrace (rt : Runtime P C) (s : CallState P) (trace : Trace PyFloat CallHeader)
    (adapterVersion : Int) (calculator : AnyCalculator) : Except Failure (CallState P × RunStatus) := do
  let audioEnabled := rt.audioEnabled s.agentId
  let audio ← overlayAudio rt s
  let analysis ← ((calculator audioEnabled).analyze trace (audio.map AudioOutput.analysis)
    s.audioT0OffsetS).mapError .ofPyError
  let persisted ← (persist rt s trace analysis adapterVersion audio).mapError .ofPyError
  let reconciled := if audioEnabled then reconcile rt persisted analysis.turns else persisted
  return (reconciled, if analysis.report.trust.reasons.isEmpty then .ok else .partially)

/-- The mapping of the agent wins, else the first framework that matches. -/
def chooseAdapter (rt : Runtime P C) (s : CallState P) : Except Failure (Framework P) :=
  match rt.mapping s.agentId with
  | some adapter => .ok ⟨adapter, (canonical rt.metricConfig ·)⟩
  | none =>
    match rt.frameworkFor s.fragments with
    | some fw => .ok fw
    | none => .error .unsupportedSchema

/-- `process` -/
def process (rt : Runtime P C) (s : CallState P) : Except Failure (CallState P × RunStatus) := do
  let fw ← chooseAdapter rt s
  let trace ← fw.adapter.toTrace s.fragments
  analyseTrace rt s trace fw.adapter.version fw.calculator

/-- `process_trace` -/
def processTrace (rt : Runtime P C) (s : CallState P) (trace : Trace PyFloat CallHeader)
    (adapterVersion : Int) : Except Failure (CallState P × RunStatus) :=
  analyseTrace rt s trace adapterVersion (canonical rt.metricConfig ·)

end

/-! ### Analysis of the audio alone -/

/-- `_analyze_layout`: the audio, the analysis mode and the confidence of the diarization. -/
def analyzeLayout (rt : Runtime P C) (agentId : Option String) (wav : Bytes) (sr : Int)
    (layout : String) : Except Failure (AudioOutput × String × Option PyFloat) := do
  let ref (channels : Int) (channelMap : List (Int × String)) : AudioRef := {
    channels := some channels
    sampleRate := some sr
    durationS := .ofFloat (some (rt.dsp.wavDurationS wav))
    channelMap := channelMap
    t0OffsetS := none }
  if layout = "separated" then
    return (← analyzeAudio rt.dsp wav (ref 2 [(0, "caller"), (1, "agent")]), "audio-only", none)
  else
    let base ← analyzeAudio rt.dsp wav (ref 1 [(0, "caller")])
    match ← rt.diarize agentId wav with
    | none => return (base, "audio-only", none)
    | some (utterances, confidence) =>
      return ({ base with analysis := { base.analysis with utterances := utterances } }, "diarized",
        confidence)

/-- `_persist_audio_only` -/
def persistAudioOnly (rt : Runtime P C) (s : CallState P) (audio : AudioOutput)
    (metrics : List MetricValue) (layout mode : String) (confidence : Option PyFloat)
    (turns : List (Turn Measured)) (now : ℚ) : CallState P :=
  let lastEnd := (PyFloat.maximum (audio.analysis.utterances.map Utterance.tEnd)).getD (.fin 0)
  let durationS := match s.columns "duration_s" with
    | .value .null => [("duration_s", Column.ofFloat (some (lastEnd.round 3)))]
    | _ => []
  { s.replaceRows {
      turns := turns.map (turnRow rt.metricVersion)
      metrics := metrics.map (metricRow rt.metricVersion)
      utterances := utteranceRows rt.metricVersion audio
      media := mediaRows audio } with
    columns := s.columns.setAll (durationS ++
      [("analysis_mode", .ofText (some mode)), ("audio_layout", .ofText (some layout)),
        ("diarization_confidence", .ofFloat confidence), ("analysis_error", .null),
        ("metric_version", .ofInt (some rt.metricVersion)), ("app_version", .ofText (some "0.0.1")),
        ("status", .ofText (some "ingested")), ("last_activity_at", .datetime now)]) }

/-- The part of `process_audio_only` that may raise. No audio is no exception. -/
def analyseAudioOnly (rt : Runtime P C) (s : CallState P) (useStt : Bool) (now : ℚ) :
    Except Failure (Option (CallState P)) := do
  let creds ← rt.resolveCreds s.agentId
  match ← audioBytes rt s creds with
  | (none, _) => return none
  | (some wav, sr) =>
    let layout ← rt.dsp.detectLayout wav
    let (audio, mode, confidence) ← analyzeLayout rt s.agentId wav sr layout
    let turns ← if useStt then rt.sttTurns s.agentId wav layout audio.analysis.utterances else .ok []
    let mode := if turns.isEmpty then mode else mode ++ "+stt"
    return some (persistAudioOnly rt s audio (audioOnlyMetrics audio.analysis rt.metricConfig) layout
      mode confidence turns now)

/-- `_fail` -/
def fail (s : CallState P) (reason : String) : CallState P :=
  { s with
    columns := s.columns.setAll
      [("status", .ofText (some "failed")), ("analysis_error", .ofText (some reason))] }

/-- `process_audio_only` -/
def processAudioOnly (rt : Runtime P C) (s : CallState P) (useStt : Bool) (now : ℚ) :
    CallState P × RunStatus :=
  match analyseAudioOnly rt s useStt now with
  | .ok (some s') => (s', .ok)
  | .ok none => (fail s "no audio registered for call", .failed)
  | .error .unsupportedSchema => (fail s "UnsupportedSchema", .failed)
  | .error (.raised error) => (fail s error, .failed)

end Pulse.Worker.Process
