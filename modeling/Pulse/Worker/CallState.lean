import Pulse.Worker.EventRows

/-!
# A stored call and its audio

All that is stored of one call, what a run of `worker/process.py` calls outside of it, and the audio
that a run loads. The adapters, the storage, the signal processing and the speech services are
parameters. Each row carries the number of the run that wrote it.
-/

namespace Pulse.Worker.Process

open Pulse.Core
open Lib (PyFloat)

/-! ### The stored call -/

/-- The value of a column. -/
inductive Column
  | value (v : Value PyFloat)
  | datetime (t : ℚ)

def Column.null : Column := .value .null

def Column.ofText (s : Option String) : Column :=
  .value ((s.map .str).getD .null)

def Column.ofInt (i : Option Int) : Column :=
  .value ((i.map .int).getD .null)

def Column.ofFloat (x : Option PyFloat) : Column :=
  .value ((x.map .float).getD .null)

def Column.ofTime (t : Option ℚ) : Column :=
  (t.map .datetime).getD .null

/-- The columns of `Call` by their names. -/
def callColumns : List String :=
  ["id", "external_call_id", "trace_id", "source", "environment", "schema_version", "engine",
    "carrier", "stt_provider", "llm_provider", "tts_provider", "voice", "campaign_id", "prompt_id",
    "labels", "started_at", "ended_at", "duration_s", "audio_t0_offset_s", "audio_t0_epoch_ns",
    "channel_map", "sample_rate", "terminal_reason", "hangup_by", "stream_duration_s", "cost_llm",
    "cost_stt", "cost_tts", "cost_total", "cost_currency", "tokens_in", "tokens_out",
    "tokens_cached", "tts_chars", "tts_chars_cut", "stt_seconds", "stt_segments_heard",
    "stt_segments_overheard", "stt_segments_dropped", "span_dropped_events", "unattributed_spans",
    "service_instance_id", "agent_id", "spans_complete", "media_ready", "status", "analysis_mode",
    "audio_layout", "diarization_confidence", "analysis_error", "last_activity_at", "bookmarked",
    "is_public", "retention_days", "app_version", "metric_version", "adapter_version", "created_at"]

abbrev Columns := String → Column

/-- Some columns are set, the others stay. Of two writes to a column the one further to the front
counts. -/
def Columns.setAll (cols : Columns) (writes : List (String × Column)) : Columns := fun name =>
  (writes.lookup name).getD (cols name)

/-- A row with the number of the run that wrote it. -/
structure Written (α : Type) where
  run : Nat
  row : α

abbrev Bytes := List UInt8

structure MediaRow where
  kind : String
  uri : Option String := none
  sampleRate : Option Int := none
  peaks : Option Bytes := none

structure TurnRow where
  turn : Turn Measured
  metricVersion : Int

structure MetricRow where
  name : String
  valueNum : Option PyFloat
  valueText : Option String
  samples : Option (List PyFloat)
  available : Bool
  reason : Option String
  metricVersion : Int

structure UtteranceRow where
  utterance : Utterance PyFloat
  metricVersion : Int

/-- A row of `AudioDiscrepancy`. -/
structure Discrepancy where
  turnIndex : Option Int
  dimension : String
  field : String
  reported : Option String
  measured : Option String
  delta : Option PyFloat
  band : Option PyFloat
  verdict : String
  note : Option String

/-- All that is stored of a call. `nextRun` numbers the runs. -/
structure CallState (P : Type) where
  columns : Columns
  fragments : List P
  media : List (Written MediaRow)
  turns : List (Written TurnRow) := []
  metrics : List (Written MetricRow) := []
  events : List (Written (EventRow × Nat)) := []
  utterances : List (Written UtteranceRow) := []
  discrepancies : List (Written Discrepancy) := []
  nextRun : Nat := 0

/-! ### What a run uses -/

inductive Failure
  | unsupportedSchema
  | raised (error : String)

/-- The failure of a conversion. -/
def Failure.ofPyError : PyError → Failure
  | .typeError => .raised "TypeError"
  | .valueError => .raised "ValueError"
  | .overflowError => .raised "OverflowError"

/-- `AudioRef` -/
structure AudioRef where
  channels : Option Int
  sampleRate : Option Int
  durationS : Column
  channelMap : List (Int × String)
  t0OffsetS : Option PyFloat

/-- `DecodedAudio`: the samples of each speaker. -/
structure DecodedAudio where
  channels : List (String × List Int)
  sampleRate : Int

/-- The signal processing of `core/audio`. -/
structure Dsp where
  decodeWav : Bytes → List (Int × String) → Except Failure DecodedAudio
  combineStereo : Bytes → Bytes → Except Failure Bytes
  identifyAgentChannel : Bytes → Except Failure (Option Int)
  detectLayout : Bytes → Except Failure String
  wavDurationS : Bytes → PyFloat
  detectUtterances : List Int → String → Int → List (Utterance PyFloat)
  channelPeaks : List Int → Int → Bytes
  channelEnergy : List Int → Int → Bytes
  channelCoverage : List Int → PyFloat

/-- An adapter, with `assemble` before its `to_trace`. -/
structure Adapter (P : Type) where
  version : Int
  toTrace : List P → Except Failure (Trace PyFloat CallHeader)

/-- A calculator for the audio overlay switched on or off. -/
abbrev AnyCalculator := Bool → Calculator PyFloat CallHeader Measured Report

structure Framework (P : Type) where
  adapter : Adapter P
  calculator : AnyCalculator

/-- `ModelPrice` -/
structure ModelPrice where
  inputPer1m : ℚ := 0
  outputPer1m : ℚ := 0
  cachedPer1m : ℚ := 0
  ttsPer1mChars : ℚ := 0
  sttPerMin : ℚ := 0

/-- What a speech-to-text service hears in a recording, if it answers. -/
abbrev Stt := Bytes → Option String

/-- The settings of a run, and what it calls. -/
structure Runtime (P C : Type) where
  metricVersion : Int
  metricConfig : MetricConfig
  /-- `resolve_mapping` -/
  mapping : Option String → Option (Adapter P)
  frameworkFor : List P → Option (Framework P)
  /-- `_audio_enabled` -/
  audioEnabled : Option String → Bool
  resolveCreds : Option String → Except Failure (Option C)
  fetchBytes : String → Option C → Except Failure Bytes
  dsp : Dsp
  pricing : String → Option ModelPrice
  resolveStt : Option String → Except Failure (Option Stt)
  wer : String → String → ℚ
  /-- `_run_diarization`, as the utterances of the roles with the confidence, if there are segments. -/
  diarize : Option String → Bytes → Except Failure (Option (List (Utterance PyFloat) × Option PyFloat))
  /-- `_stt_turns` -/
  sttTurns : Option String → Bytes → String → List (Utterance PyFloat) →
    Except Failure (List (Turn Measured))

/-- What `analyze_audio` returns. -/
structure AudioOutput where
  analysis : AudioAnalysis PyFloat
  peaks : List (String × Bytes)
  energy : List (String × Bytes)

/-- `analyze_audio` -/
def analyzeAudio (dsp : Dsp) (wav : Bytes) (ref : AudioRef) : Except Failure AudioOutput := do
  let decoded ← dsp.decodeWav wav ref.channelMap
  let utterances := decoded.channels.flatMap fun (speaker, samples) =>
    dsp.detectUtterances samples speaker decoded.sampleRate
  let before (u v : Utterance PyFloat) : Bool :=
    u.tStart.lt v.tStart || u.tStart = v.tStart && decide (u.channel < v.channel)
  return {
    analysis := {
      utterances := Lib.sorted before utterances
      coverage := decoded.channels.map fun (speaker, samples) => (speaker, dsp.channelCoverage samples) }
    peaks := decoded.channels.map fun (speaker, samples) =>
      (speaker, dsp.channelPeaks samples decoded.sampleRate)
    energy := decoded.channels.map fun (speaker, samples) =>
      (speaker, dsp.channelEnergy samples decoded.sampleRate) }

variable {P C : Type}

namespace CallState

/-- A text column that is not null. -/
def text (s : CallState P) (name : String) : Option String :=
  match s.columns name with
  | .value (.str a) => some a
  | _ => none

def agentId (s : CallState P) : Option String :=
  s.text "agent_id"

/-- `call.audio_t0_offset_s` -/
def audioT0OffsetS (s : CallState P) : Option PyFloat :=
  match s.columns "audio_t0_offset_s" with
  | .value (.float x) => some x
  | _ => none

/-- The recording of a kind; of several the last one counts. -/
def recording (s : CallState P) (kind : String) : Option MediaRow :=
  (s.media.reverse.find? fun m => m.row.kind = kind).map Written.row

end CallState

/-! ### Audio -/

section

variable [Text]

/-- The keys of a stored channel map are read as integers. -/
def readChannelMap (fields : List (String × Value PyFloat)) : Except Failure (List (Int × String)) :=
  fields.mapM fun (k, v) => do
    let idx ← (intOfStr (F := PyFloat) k).mapError .ofPyError
    match v with
    | .str speaker => return (idx, speaker)
    | _ => throw (.raised "ValidationError")

/-- `_resolve_channel_map` -/
def resolveChannelMap (dsp : Dsp) (channelMap : Column) (wav : Bytes) (fromMonoPair : Bool) :
    Except Failure (List (Int × String)) :=
  match channelMap with
  | .value (.obj (e :: fields)) => readChannelMap (e :: fields)
  | _ =>
    if fromMonoPair then .ok [(0, "caller"), (1, "agent")]
    else do
      match ← dsp.identifyAgentChannel wav with
      | some idx => return [(idx, "agent"), (1 - idx, "caller")]
      | none => return [(0, "caller"), (1, "agent")]

end

/-- The uri of a recording, unless it is missing or empty. -/
def uriOf (m : Option MediaRow) : Option String :=
  (m.bind MediaRow.uri).filter (· ≠ "")

/-- A stored sample rate, unless it is missing or zero. -/
def sampleRateOf (m : Option MediaRow) : Int :=
  ((m.bind MediaRow.sampleRate).filter (· ≠ 0)).getD 8000

/-- `_audio_bytes` -/
def audioBytes (rt : Runtime P C) (s : CallState P) (creds : Option C) :
    Except Failure (Option Bytes × Int) :=
  match uriOf (s.recording "audio") with
  | some uri => do return (some (← rt.fetchBytes uri creds), sampleRateOf (s.recording "audio"))
  | none =>
    match uriOf (s.recording "audio_caller"), uriOf (s.recording "audio_agent") with
    | some caller, some agent => do
      let wav ← rt.dsp.combineStereo (← rt.fetchBytes caller creds) (← rt.fetchBytes agent creds)
      return (some wav, sampleRateOf (s.recording "audio_caller"))
    | _, _ => .ok (none, 8000)

section

variable [Text]

/-- `_load_audio` -/
def loadAudio (rt : Runtime P C) (s : CallState P) : Except Failure (Option AudioOutput) := do
  let creds ← rt.resolveCreds s.agentId
  match ← audioBytes rt s creds with
  | (none, _) => return none
  | (some wav, sr) =>
    let fromMonoPair := (s.recording "audio").isNone && (s.recording "audio_caller").isSome &&
      (s.recording "audio_agent").isSome
    let channelMap ← resolveChannelMap rt.dsp (s.columns "channel_map") wav fromMonoPair
    let audio ← analyzeAudio rt.dsp wav {
      channels := some 2
      sampleRate := some sr
      durationS := s.columns "duration_s"
      channelMap := channelMap
      t0OffsetS := s.audioT0OffsetS }
    return some audio

end

/-- `_mono_bytes` -/
def monoBytes (rt : Runtime P C) (m : Option MediaRow) (creds : Option C) :
    Except Failure (Option Bytes) :=
  match uriOf m with
  | some uri => (rt.fetchBytes uri creds).map some
  | none => .ok none

end Pulse.Worker.Process
