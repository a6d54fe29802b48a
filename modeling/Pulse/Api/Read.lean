import Pulse.Api.Access
import Pulse.Api.Export
import Pulse.Api.Timeline

/-!
# What a member reads

The read requests: `api/read.py`, the judgment of `api/judge.py`, the scatter of `api/clusters.py`
and the rows of `api/export.py`. Each filters the calls by the agents that the member sees, or finds
one call by its external id and answers for a hidden one as for none. What is joined to a call, or
looked up by its agent or prompt, is not filtered again.
-/

namespace Pulse.Api.Read

open Db
open Lib (Database lexLt nullsLast sorted)
open Pulse.Chat (Cell strip)
open Export (Correction Dialect Format JudgedCall truthy)

variable {F : Type}

/-- What the requests use besides the rows: the order of values and `ILIKE`, the types of the columns
that are no text and no integer, and the audio store. -/
structure Store (F : Type) where
  less : Value → Value → Bool
  ilike : Value → String → Bool
  /-- The present less a range of `_RANGES`. -/
  since : String → Value
  /-- A row of `event` and its position. -/
  event : Row → Worker.EventRow × Option Nat
  /-- `llm_corrections` -/
  corrections : Value → List (Correction F)
  dumps : Lib.Json F → String
  base64 : Value → String
  lower : String → String
  /-- `fetch_bytes`, with the credentials of an audio configuration. -/
  fetchBytes : String → Option Row → Option String

/-- Why a read is refused. -/
inductive Failure
  | refused (r : Refusal)
  /-- 400 -/
  | badRequest (detail : String)
  /-- 422: a parameter is out of its bounds. -/
  | unprocessable
  /-- 502 -/
  | unavailable (detail : String)
  /-- 500 -/
  | internal

/-- `HTTPException(404, …)` -/
def notFound {α : Type} (detail : String) : Except Failure α :=
  .error (.refused (.notFound detail))

/-! ### Columns -/

/-- The column of the name in a table of calls, turns or judgments. -/
def columnNamed : String → Column
  | "id" => .id
  | "call_id" => .callId
  | "external_call_id" => .externalCallId
  | "prompt_id" => .promptId
  | "agent_id" => .agentId
  | "turn_index" => .turnIndex
  | "metric_version" => .metricVersion
  | "source" => .source
  | name => .other name

/-- A row as an object of the columns. -/
def fields (names : List String) (r : Row) : List (String × Cell) :=
  names.map fun name => (name, r (columnNamed name))

/-- A value that Python takes for true; binary columns are texts. -/
def truth (c : Cell) : Bool := c.any fun v => v ≠ .int 0 && v ≠ .text ""

/-- The text of a column, or the empty one. -/
def textOf : Cell → String
  | some (.text s) => s
  | _ => ""

/-- A text column. -/
def textOf? : Cell → Option String
  | some (.text s) => some s
  | _ => none

/-- `c or {}` of a JSON column. -/
def dictOr : Cell → Value
  | some (.text "null") | some (.text "[]") | none => .text "\x7b\x7d"
  | some v => v

/-- `.desc()`: a null comes first. -/
def descending (st : Store F) : Cell → Cell → Bool
  | none, some _ => true
  | some a, some b => st.less b a
  | _, none => false

/-- `.desc().nulls_last()` -/
def descendingNullsLast (st : Store F) : Cell → Cell → Bool := nullsLast fun a b => st.less b a

/-- `.asc()` -/
def ascending (st : Store F) : Cell → Cell → Bool := nullsLast st.less

/-! ### The scope -/

/-- `Call.agent_id.in_(ids)`, if there are any. -/
def granted (ids : Option (List Cell)) (agent : Cell) : Bool :=
  ids.all fun ids => agent.isSome && ids.contains agent

/-- A filter of a request, if it is given and not empty. -/
def isText (p : Option String) (c : Cell) : Bool := (truthy p).all fun s => c = some (.text s)

/-- `get_scoped_call` -/
def getScopedCall (db : OrgDb) (m : Row) (callId : String) : Except Failure Row :=
  match (db.rows .call).find? fun c => c .externalCallId = some (.text callId) with
  | none => notFound "call not found"
  | some c =>
    match visibleAgentIds db m with
    | none => .ok c
    | some ids => if ids.contains (c .agentId) then .ok c else notFound "call not found"

/-- The rows of a table that belong to a call. -/
def rowsOf (db : OrgDb) (t : Table) (c : Row) : List Row :=
  (db.rows t).filter fun r => r .callId = c .id

/-- `_RANGES` -/
def ranges : List String := ["24h", "7d", "30d", "90d"]

/-- `func.coalesce(Call.started_at, Call.created_at) >= since` -/
def inRange (st : Store F) (range : Option String) (c : Row) : Bool :=
  (range.filter (· ∈ ranges)).all fun key =>
    ((c (.other "started_at")).or (c (.other "created_at"))).any fun t => !st.less t (st.since key)

/-- `_scope` of the clusters and of the export -/
def inScope (st : Store F) (ids : Option (List Cell)) (agentId range : Option String)
    (c : Row) : Bool :=
  granted ids (c .agentId) && isText agentId (c .agentId) && inRange st range c

/-! ### The list of calls -/

structure CallFilter where
  environment : Option String := none
  status : Option String := none
  q : Option String := none
  agentId : Option String := none
  limit : Int := 50

/-- The `where` clauses of `list_calls` -/
def CallFilter.admits (st : Store F) (ids : Option (List Cell)) (f : CallFilter) (c : Row) : Bool :=
  granted ids (c .agentId) && isText f.agentId (c .agentId) &&
    isText f.environment (c (.other "environment")) && isText f.status (c (.other "status")) &&
    (truthy f.q).all fun q => (c .externalCallId).any (st.ilike · ("%" ++ q ++ "%")) ||
      (c .source).any (st.ilike · ("%" ++ q ++ "%"))

/-- The `order_by` of `list_calls` -/
def newest (st : Store F) (a b : Row) : Bool :=
  lexLt (descendingNullsLast st) (descending st) (a (.other "started_at"), a (.other "created_at"))
    (b (.other "started_at"), b (.other "created_at"))

structure TurnStats where
  turns : Nat
  bargeIns : Nat
  p50V2vMs : Cell

/-- `_turn_stats` of one call -/
def turnStats (st : Store F) (turns : List Row) : TurnStats :=
  let interrupted (t : Row) := truth (t (.other "interrupted"))
  let v := sorted st.less ((turns.filter fun t => !interrupted t).filterMap fun t =>
    t (.other "response_latency_ms"))
  { turns := turns.length, bargeIns := turns.countP interrupted, p50V2vMs := v[v.length / 2]? }

structure ListItem where
  id : Cell
  columns : List (String × Cell)
  labels : Value
  analysed : Bool
  stats : TurnStats

/-- The columns that `_list_item` copies. -/
def listed : List String := ["started_at", "duration_s", "environment", "source", "status",
  "media_ready", "analysis_mode", "analysis_error"]

/-- `_list_item` -/
def listItem (st : Store F) (db : OrgDb) (c : Row) : ListItem where
  id := c .externalCallId
  columns := fields listed c
  labels := dictOr (c (.other "labels"))
  analysed := (c .metricVersion).isSome
  stats := turnStats st (rowsOf db .turn c)

/-- `list_calls` -/
def listCalls (st : Store F) (db : OrgDb) (m : Row) (f : CallFilter) :
    Except Failure (List ListItem) :=
  if 200 < f.limit then .error .unprocessable
  -- PostgreSQL refuses a negative limit
  else if f.limit < 0 then .error .internal
  else
    let calls := (db.rows .call).filter (f.admits st (visibleAgentIds db m))
    .ok (((sorted (newest st) calls).take f.limit.toNat).map (listItem st db))

/-! ### One call -/

/-- The columns of `Call`, less `_CALL_SKIP` -/
def headerColumns : List String := ["external_call_id", "trace_id", "source", "environment",
  "schema_version", "engine", "carrier", "stt_provider", "llm_provider", "tts_provider", "voice",
  "campaign_id", "labels", "started_at", "ended_at", "duration_s", "audio_t0_offset_s",
  "audio_t0_epoch_ns", "channel_map", "sample_rate", "terminal_reason", "hangup_by",
  "stream_duration_s", "cost_llm", "cost_stt", "cost_tts", "cost_total", "cost_currency",
  "tokens_in", "tokens_out", "tokens_cached", "tts_chars", "tts_chars_cut", "stt_seconds",
  "stt_segments_heard", "stt_segments_overheard", "stt_segments_dropped", "span_dropped_events",
  "unattributed_spans", "service_instance_id", "agent_id", "spans_complete", "media_ready",
  "status", "analysis_mode", "audio_layout", "diarization_confidence", "analysis_error",
  "last_activity_at", "bookmarked", "is_public", "retention_days", "app_version",
  "metric_version", "adapter_version", "created_at"]

/-- `_header` -/
def header (c : Row) : List (String × Cell) := ("id", c .externalCallId) :: fields headerColumns c

/-- The columns of `Turn`, less `_TURN_SKIP` -/
def turnColumns : List String := ["turn_index", "turn_id", "trigger", "interrupted", "abandoned",
  "stt_final_at", "committed_at", "llm_first_token_at", "tts_start_at", "tts_first_audio_at",
  "caller_utt_end_s", "agent_utt_start_s", "response_latency_ms", "stt_lag_ms", "endpointing_ms",
  "llm_ttft_ms", "assembly_ms", "dispatch_ms", "tts_ttfb_ms", "playout_ms", "unattributed_ms",
  "llm_ttft_reported_ms", "tts_ttfb_reported_ms", "language", "stt_confidence", "tokens_in",
  "tokens_out", "tokens_cached", "finish_reason", "tts_chars", "tts_chars_cut", "tts_cancelled",
  "cut_reason", "tts_span_present", "interruption_probability", "e2e_latency_ms",
  "caller_transcript", "llm_raw", "llm_spoken", "metric_version"]

/-- `_metric` -/
def metricView (r : Row) : List (String × Cell) := [("name", r .name),
  ("value", (r (.other "value_num")).or (r (.other "value_text"))),
  ("samples", r (.other "samples")), ("available", r (.other "available")),
  ("reason", r (.other "reason"))]

structure Trust where
  columns : List (String × Cell)
  audioAnalysis : Bool
  captureCoverage : Value
  reasons : List String

/-- The texts between the commas, stripped, that are not empty. -/
def reasonsOf (error : String) : List String :=
  ((error.toList.splitOn ',').map fun r => strip (String.ofList r)).filter (· ≠ "")

/-- `_trust` -/
def trust (st : Store F) (db : OrgDb) (c : Row) : Trust :=
  let cov := (rowsOf db .metric c).find? fun m => m .name = some (.text "capture_coverage")
  let run := (sorted (fun a b => descendingNullsLast st (a (.other "started_at"))
    (b (.other "started_at"))) (rowsOf db .ingestRun c)).head?
  { columns := fields ["spans_complete", "media_ready", "span_dropped_events",
      "unattributed_spans"] c
    audioAnalysis := cov.isSome
    captureCoverage := dictOr (cov.bind (· (.other "samples")))
    reasons := match run with
      | none => []
      | some run =>
        if run (.other "status") = some (.text "partial") then
          reasonsOf (textOf (run (.other "error")))
        else [] }

/-- What follows the prefix in the kind of a medium. -/
def kindAfter (pre : String) (m : Row) : Option String :=
  let kind := (textOf (m .kind)).toList
  if pre.toList.isPrefixOf kind then some (String.ofList (kind.drop pre.length)) else none

/-- `_peaks`, and the `channels` of `_energy` -/
def channels (st : Store F) (pre : String) (media : List Row) : List (String × String) :=
  media.foldl (fun out m =>
    match kindAfter pre m, m (.other "peaks") with
    | some name, some bytes =>
      if truth (some bytes) then Lib.upsert out name fun _ => st.base64 bytes else out
    | _, _ => out) []

structure EnergyView where
  channels : List (String × String)
  frameMs : Nat := 20
  floorDbfs : Int := -120
  encoding : String := "f32le"

/-- `_energy` -/
def energy (st : Store F) (media : List Row) : EnergyView where
  channels := channels st "energy_" media

structure AudioView where
  url : String
  columns : List (String × Cell)
  durationS : Cell

/-- `_audio` -/
def audioView (db : OrgDb) (c : Row) : Option AudioView :=
  ((rowsOf db .media c).find? fun m =>
    m .kind = some (.text "audio") && truth (m (.other "uri"))).map fun wav =>
    { url := "/v1/calls/" ++ textOf (c .externalCallId) ++ "/audio"
      columns := fields ["sample_rate", "channels"] wav
      durationS := c (.other "duration_s") }

/-- `_discrepancies` -/
def discrepancies (st : Store F) (db : OrgDb) (c : Row) : List (List (String × Cell)) :=
  (sorted (fun a b => ascending st (a .turnIndex) (b .turnIndex))
    (rowsOf db .audioDiscrepancy c)).map fun r =>
    ("turn_index", r .turnIndex) :: ("dimension", r (.other "dimension")) ::
      ("field", r .field) :: fields ["reported", "measured", "delta", "band", "verdict", "note"] r

/-- `_JUDGE_FIELDS`, and `_LLM_FIELDS` of `api/judge.py` -/
def judgeFields : List String := ["sentiment", "objective_achieved", "answered_by",
  "primary_language", "secondary_languages", "script_adherence", "escalation_requested",
  "callback_requested", "callback_time", "guardrail_violation", "guardrail_violation_points",
  "is_failure", "root_cause", "model_fault", "model_fault_detail", "hallucination",
  "hallucination_detail", "suggested_fix", "summary"]

/-- `_judgment`, and `_judgment_dict` of `api/judge.py`; the keys are in another order there. -/
def judgment (db : OrgDb) (c : Row) : Option (List (String × Cell)) :=
  (rowsOf db .judgment c).head?.map (fields (["disposition", "status", "error", "model"] ++ judgeFields))

structure ScriptView where
  sha256 : Cell
  version : Cell
  createdBy : Cell

/-- `db.get(Prompt, call.prompt_id)` -/
def promptOf (db : OrgDb) (c : Row) : Option Row :=
  (db.rows .prompt).find? fun p => c .promptId = p .id

/-- `_script` -/
def script (db : OrgDb) (c : Row) : Option ScriptView :=
  if c .promptId = none then none
  else
    let row := if truth (c .agentId) then
        (db.rows .agentScript).find? fun s => s .agentId = c .agentId && s .promptId = c .promptId
      else none
    some {
      sha256 := (promptOf db c).bind (· .templateSha256)
      version := row.bind (· .version)
      createdBy := row.bind (· .createdBy) }

structure CallView where
  call : List (String × Cell)
  turns : List (List (String × Cell))
  metrics : List (List (String × Cell))
  trust : Trust
  spans : List SpanNode
  peaks : List (String × String)
  energy : EnergyView
  audio : Option AudioView
  discrepancies : List (List (String × Cell))
  judgment : Option (List (String × Cell))
  script : Option ScriptView
  versions : List (String × Cell)

/-- The turns of a call in their order. -/
def turnsOf (st : Store F) (db : OrgDb) (c : Row) : List Row :=
  sorted (fun a b => ascending st (a .turnIndex) (b .turnIndex)) (rowsOf db .turn c)

/-- `get_call` of the call that the dependency finds -/
def callView (st : Store F) (db : OrgDb) (c : Row) : CallView where
  call := header c
  turns := (turnsOf st db c).map (fields turnColumns)
  metrics := (rowsOf db .metric c).map metricView
  trust := trust st db c
  spans := callSpans ((rowsOf db .event c).map st.event)
  peaks := channels st "peaks_" (rowsOf db .media c)
  energy := energy st (rowsOf db .media c)
  audio := audioView db c
  discrepancies := discrepancies st db c
  judgment := judgment db c
  script := script db c
  versions := fields ["metric_version", "adapter_version", "app_version"] c

/-! ### Transcripts and audio -/

structure Line where
  turnIndex : Cell
  role : String
  text : String

/-- `derive_from_turns` -/
def deriveFromTurns (turns : List Row) : List Line :=
  turns.flatMap fun t =>
    let line (role : String) (text : Option String) : List Line :=
      ((truthy text).map fun s => { turnIndex := t .turnIndex, role, text := s }).toList
    line "caller" (textOf? (t (.other "caller_transcript"))) ++
      line "agent" ((truthy (textOf? (t (.other "llm_spoken")))).or (textOf? (t (.other "llm_raw"))))

inductive TranscriptView
  | byo (source format : String) (text : Option String)
  | derived (lines : List Line)

/-- `resolve` of `transcript.py` -/
def transcript (st : Store F) (db : OrgDb) (c : Row) : Except Failure TranscriptView :=
  match (rowsOf db .transcript c).head? with
  | some byo =>
    let view text := TranscriptView.byo ((truthy (textOf? (byo .source))).getD "byo")
      ((truthy (textOf? (byo (.other "format")))).getD "text") text
    match textOf? (byo (.other "content")), truthy (textOf? (byo (.other "uri"))) with
    | none, some uri =>
      match st.fetchBytes uri none with
      | some text => .ok (view (some text))
      | none => .error .internal
    | text, _ => .ok (view text)
  | none => .ok (.derived (deriveFromTurns (turnsOf st db c)))

/-- `_AUDIO_CT` -/
def audioContentTypes : List (String × String) := [(".wav", "audio/wav"), (".mp3", "audio/mpeg"),
  (".m4a", "audio/mp4"), (".ogg", "audio/ogg"), (".oga", "audio/ogg"), (".opus", "audio/ogg"),
  (".flac", "audio/flac"), (".webm", "audio/webm")]

/-- The media type of a recording, by what follows the last dot. -/
def mediaType (st : Store F) (uri : String) : String :=
  let parts := (uri.toList.splitOn '.').map String.ofList
  let ext := if 1 < parts.length then "." ++ st.lower (parts.getLast?.getD "") else ""
  (audioContentTypes.lookup ext).getD "application/octet-stream"

/-- `audio_config` -/
def audioConfig (db : OrgDb) (agent : Cell) : Option Row :=
  if truth agent then (db.rows .agentAudioConfig).find? fun a => a .agentId = agent else none

/-- `get_audio`: the bytes and their type -/
def getAudio (st : Store F) (db : OrgDb) (c : Row) : Except Failure (String × String) :=
  match (rowsOf db .media c).find? fun m =>
      m .kind = some (.text "audio") && (m (.other "uri")).isSome with
  | none => notFound "no audio for this call"
  | some wav =>
    let uri := textOf (wav (.other "uri"))
    match st.fetchBytes uri (audioConfig db (c .agentId)) with
    | some data => .ok (data, mediaType st uri)
    | none => .error (.unavailable "audio unavailable")

/-! ### The clusters of a lever -/

/-- The keys of `LEVERS` -/
def levers : List String :=
  ["root_cause", "suggested_fix", "summary", "guardrail_points", "hallucination_detail"]

/-- `_POINT_CAP` -/
def pointCap : Nat := 3000

/-- `rows[::k]` -/
def everyNth {α : Type} (k : Nat) (as : List α) : List α :=
  (as.zipIdx.filter fun a => a.2 % k = 0).map Prod.fst

structure Scatter where
  clusters : List (List (String × Cell))
  points : List (List (String × Cell))

/-- `points` -/
def points (st : Store F) (db : OrgDb) (m : Row) (lever : String) (agentId range : Option String) :
    Except Failure Scatter :=
  if lever ∉ levers then notFound "unknown lever"
  else
    let ids := visibleAgentIds db m
    let clusters := (db.rows .cluster).filter fun c =>
      c .lever = some (.text lever) && granted ids (c .agentId) && isText agentId (c .agentId)
    let rows := ((db.rows .call).filter (inScope st ids agentId range)).flatMap fun c =>
      ((rowsOf db .callCluster c).filter fun p => p .lever = some (.text lever)).map fun p =>
        [("call_id", c .externalCallId), ("x", p (.other "x")), ("y", p (.other "y")),
          ("cluster_key", p .clusterKey)]
    .ok {
      clusters := (sorted (fun a b => descending st (a (.other "size")) (b (.other "size")))
        clusters).map fun c => [("key", c .clusterKey), ("agent_id", c .agentId),
          ("label", c (.other "label")), ("size", c (.other "size"))]
      points := if pointCap < rows.length then everyNth (rows.length / pointCap + 1) rows else rows }

/-! ### The training export -/

/-- The two sides of a row of `turn`. -/
def exportTurn (t : Row) : Export.Turn where
  callerTranscript := textOf? (t (.other "caller_transcript"))
  llmSpoken := textOf? (t (.other "llm_spoken"))

/-- What `_rows` reads of a call and its judgment. -/
def judgedCall (st : Store F) (db : OrgDb) (c j : Row) : JudgedCall F where
  externalCallId := textOf (c .externalCallId)
  agentId := textOf? (c .agentId)
  script := if truth (c .promptId) then (promptOf db c).bind fun p => textOf? (p (.other "text"))
    else none
  turns := (turnsOf st db c).map exportTurn
  objectiveAchieved := textOf? (j (.other "objective_achieved"))
  llmCorrections := ((j (.other "llm_corrections")).map st.corrections).getD []

/-- `_rows` -/
def exportRows (st : Store F) (db : OrgDb) (m : Row) (r : Export.Request)
    (agentId range : Option String) : List Export.Row :=
  ((db.rows .call).filter (inScope st (visibleAgentIds db m) agentId range)).flatMap fun c =>
    ((rowsOf db .judgment c).filter fun j => j (.other "model_fault") = some (.text "llm")).flatMap
      fun j => Export.rows st.dumps r (judgedCall st db c j)

/-- `_FORMATS` -/
def formats : List (String × Format) := [("sft", .sft), ("dpo", .dpo)]

/-- `_DIALECTS` -/
def dialects : List (String × Dialect) := [("trl", .trl), ("openai", .openai)]

structure Download where
  filename : String
  rows : List Export.Row

/-- `export_training` -/
def exportTraining (st : Store F) (db : OrgDb) (m : Row) (format dialect : String) (withMeta : Bool)
    (agentId range : Option String) : Except Failure Download :=
  match formats.lookup format, dialects.lookup dialect with
  | none, _ => .error (.badRequest "format must be one of ('sft', 'dpo')")
  | some _, none => .error (.badRequest "dialect must be one of ('trl', 'openai')")
  | some f, some d => .ok {
      filename := "pulse-" ++ format ++ "-" ++ dialect ++ "-" ++
        (truthy agentId).getD "all" ++ ".jsonl"
      rows := exportRows st db m { format := f, dialect := d, withMeta } agentId range }

/-! ### Requests -/

inductive Request
  | listCalls (f : CallFilter)
  | getCall (callId : String)
  | getTranscript (callId : String)
  | getAudio (callId : String)
  | getJudgment (callId : String)
  | points (lever : String) (agentId range : Option String)
  | exportTraining (format dialect : String) (withMeta : Bool) (agentId range : Option String)

inductive Answer
  | calls (items : List ListItem)
  | call (view : CallView)
  | transcript (view : TranscriptView)
  | audio (data mediaType : String)
  | judgment (j : List (String × Cell))
  | scatter (s : Scatter)
  | download (d : Download)

/-- The answer to a member. -/
def Request.read (st : Store F) (db : OrgDb) (m : Row) : Request → Except Failure Answer
  | .listCalls f => do return .calls (← Read.listCalls st db m f)
  | .getCall callId => do return .call (callView st db (← getScopedCall db m callId))
  | .getTranscript callId => do
    return .transcript (← Read.transcript st db (← getScopedCall db m callId))
  | .getAudio callId => do
    let (data, mediaType) ← Read.getAudio st db (← getScopedCall db m callId)
    return .audio data mediaType
  | .getJudgment callId => do
    match Read.judgment db (← getScopedCall db m callId) with
    | some j => return .judgment j
    | none => notFound "call not judged yet"
  | .points lever agentId range => do return .scatter (← Read.points st db m lever agentId range)
  | .exportTraining format dialect withMeta agentId range => do
    return .download (← Read.exportTraining st db m format dialect withMeta agentId range)

/-- The answer to a user who is authenticated. -/
def Request.answer (st : Store F) (db : OrgDb) (user : String) (r : Request) :
    Except Failure Answer := do
  r.read st db (← (currentMembership db user).mapError .refused)

/-! ### What the member may see -/

/-- The agent is one that the member sees. -/
def sees (ids : Option (List Cell)) (agent : Cell) : Bool := ids.all fun ids => ids.contains agent

/-- The tables whose rows belong to a call. -/
def callTables : List Table := [.turn, .metric, .event, .media, .ingestRun, .audioDiscrepancy,
  .judgment, .transcript, .callCluster]

/-- The tables whose rows name an agent. -/
def agentTables : List Table := [.call, .agentScript, .agentAudioConfig, .cluster]

/-- There is a call with the property that the member sees. -/
def seesCall (db : OrgDb) (m : Row) (p : Row → Bool) : Bool :=
  (db.rows .call).any fun c => sees (visibleAgentIds db m) (c .agentId) && p c

/-- A row of an agent that the member sees, of such a call, or the prompt of such a call. -/
def seen (db : OrgDb) (m : Row) (t : Table) (r : Row) : Bool :=
  if t ∈ agentTables then sees (visibleAgentIds db m) (r .agentId)
  else if t ∈ callTables then seesCall db m fun c => r .callId = c .id
  else if t = .prompt then seesCall db m fun c => c .promptId = r .id
  else false

/-- The grants of the member and the rows that the member may see are the same. -/
structure Agree (db₁ db₂ : OrgDb) (m : Row) : Prop where
  grants : (db₁.rows .agentAccess).filter (fun g => g .membershipId = m .id) =
    (db₂.rows .agentAccess).filter fun g => g .membershipId = m .id
  rows : ∀ t, (db₁.rows t).filter (seen db₁ m t) = (db₂.rows t).filter (seen db₂ m t)

/-- The schemas are the same to the user: the membership, its grants, and what it may see. -/
structure SameView (db₁ db₂ : OrgDb) (user : String) : Prop where
  memberships : (db₁.rows .membership).filter (fun m => m .userId = some (.text user)) =
    (db₂.rows .membership).filter fun m => m .userId = some (.text user)
  agree : ∀ m, currentMembership db₁ user = .ok m → Agree db₁ db₂ m

/-- A call that the member sees. -/
structure Visible (db : OrgDb) (m c : Row) : Prop where
  mem : c ∈ db.rows .call
  sees : sees (visibleAgentIds db m) (c .agentId) = true

lemma sees_of_granted {ids : Option (List Cell)} {agent : Cell} (h : granted ids agent = true) :
    sees ids agent = true := by
  cases ids with
  | none => rfl
  | some ids =>
    simp only [granted, Option.all_some, Bool.and_eq_true] at h
    exact h.2

lemma sees_of_inScope {st : Store F} {ids : Option (List Cell)} {agentId range : Option String}
    {c : Row} (h : inScope st ids agentId range c = true) : sees ids (c .agentId) = true := by
  simp only [inScope, Bool.and_eq_true] at h
  exact sees_of_granted h.1.1

lemma sees_of_admits {st : Store F} {ids : Option (List Cell)} {f : CallFilter} {c : Row}
    (h : f.admits st ids c = true) : sees ids (c .agentId) = true := by
  simp only [CallFilter.admits, Bool.and_eq_true] at h
  exact sees_of_granted h.1.1.1.1

/-- The external id is that of one call, so the search may ask for one that the member sees. -/
lemma getScopedCall_eq (db : OrgDb) (m : Row) (callId : String) :
    getScopedCall db m callId =
      match ((db.rows .call).filter fun c => c .externalCallId = some (.text callId) &&
          sees (visibleAgentIds db m) (c .agentId)).head? with
      | some c => .ok c
      | none => notFound "call not found" := by
  have hone : ∀ c ∈ db.rows .call, ∀ c' ∈ db.rows .call,
      decide (c .externalCallId = some (.text callId)) = true →
        decide (c' .externalCallId = some (.text callId)) = true → c = c' := by
    intro c hc c' hc' h h'
    have hunique : (Table.call, [Column.externalCallId]) ∈ metadata.uniques := by decide
    refine Database.eq_of_clash hunique hc hc' fun col hcol => ?_
    rw [List.mem_singleton.1 hcol, of_decide_eq_true h, of_decide_eq_true h']
    exact ⟨Option.some_ne_none _, rfl⟩
  rw [List.head?_filter, Database.find?_and hone, getScopedCall]
  cases (db.rows .call).find? fun c => c .externalCallId = some (.text callId) with
  | none => rfl
  | some c =>
    cases hids : visibleAgentIds db m with
    | none => rfl
    | some ids => by_cases hc : c .agentId ∈ ids <;> simp [sees, Option.filter, hc]

lemma getScopedCall_ok {db : OrgDb} {m c : Row} {callId : String}
    (h : getScopedCall db m callId = .ok c) : Visible db m c := by
  rw [getScopedCall_eq] at h
  split at h
  · next hc =>
    cases h
    obtain ⟨hmem, hp⟩ := List.mem_filter.1 (List.mem_of_head? hc)
    exact ⟨hmem, (Bool.and_eq_true_iff.1 hp).2⟩
  · cases h

/-! ### Each read keeps to the view -/

section

variable {db₁ db₂ : OrgDb} {m c : Row} {st : Store F}

lemma Agree.ids (h : Agree db₁ db₂ m) : visibleAgentIds db₁ m = visibleAgentIds db₂ m := by
  unfold visibleAgentIds grantsOf
  rw [h.grants]

/-- A query of a table of agents that keeps to those that the member sees. -/
lemma Agree.agentRows (h : Agree db₁ db₂ m) {t : Table} (ht : t ∈ agentTables) {p : Row → Bool}
    (hp : ∀ r, p r → sees (visibleAgentIds db₁ m) (r .agentId)) :
    (db₁.rows t).filter p = (db₂.rows t).filter p := by
  refine Database.filter_eq_of_view (h.rows t) (fun r _ hr => ?_) fun r _ hr => ?_
  · rw [seen, if_pos ht]
    exact hp r hr
  · rw [seen, if_pos ht, ← h.ids]
    exact hp r hr

lemma Agree.visible (h : Agree db₁ db₂ m) (hc : Visible db₁ m c) : Visible db₂ m c := by
  have hmem : c ∈ (db₁.rows .call).filter fun c => sees (visibleAgentIds db₁ m) (c .agentId) :=
    List.mem_filter.2 ⟨hc.mem, hc.sees⟩
  rw [h.agentRows (by decide) fun _ hr => hr] at hmem
  exact ⟨(List.mem_filter.1 hmem).1, h.ids ▸ hc.sees⟩

lemma Visible.seesCall {db : OrgDb} (hc : Visible db m c) {p : Row → Bool} (hp : p c = true) :
    seesCall db m p = true :=
  List.any_eq_true.2 ⟨c, hc.mem, by rw [hc.sees, hp]; rfl⟩

/-- What belongs to a call that the member sees. -/
lemma Agree.rowsOf (h : Agree db₁ db₂ m) (hc : Visible db₁ m c) (t : Table) (ht : t ∈ callTables) :
    rowsOf db₁ t c = rowsOf db₂ t c := by
  have hagent : t ∉ agentTables := by
    revert t
    decide
  refine Database.filter_eq_of_view (h.rows t) (fun r _ hr => ?_) fun r _ hr => ?_
  · rw [seen, if_neg hagent, if_pos ht]
    exact hc.seesCall hr
  · rw [seen, if_neg hagent, if_pos ht]
    exact (h.visible hc).seesCall hr

lemma Agree.promptOf (h : Agree db₁ db₂ m) (hc : Visible db₁ m c) :
    promptOf db₁ c = promptOf db₂ c := by
  have hagent : Table.prompt ∉ agentTables := by decide
  have hcall : Table.prompt ∉ callTables := by decide
  unfold Read.promptOf
  rw [← List.head?_filter, ← List.head?_filter, Database.filter_eq_of_view (h.rows .prompt)
    (fun r _ hr => ?_) fun r _ hr => ?_]
  · rw [seen, if_neg hagent, if_neg hcall, if_pos rfl]
    exact hc.seesCall hr
  · rw [seen, if_neg hagent, if_neg hcall, if_pos rfl]
    exact (h.visible hc).seesCall hr

lemma Agree.getScopedCall (h : Agree db₁ db₂ m) (callId : String) :
    getScopedCall db₁ m callId = getScopedCall db₂ m callId := by
  rw [getScopedCall_eq, getScopedCall_eq, ← h.ids, h.agentRows (by decide) fun c hc => ?_]
  exact (Bool.and_eq_true_iff.1 hc).2

lemma Agree.turnsOf (h : Agree db₁ db₂ m) (hc : Visible db₁ m c) :
    turnsOf st db₁ c = turnsOf st db₂ c := by
  unfold Read.turnsOf
  rw [h.rowsOf hc .turn (by decide)]

lemma Agree.judgment (h : Agree db₁ db₂ m) (hc : Visible db₁ m c) :
    judgment db₁ c = judgment db₂ c := by
  unfold Read.judgment
  rw [h.rowsOf hc .judgment (by decide)]

lemma Agree.script (h : Agree db₁ db₂ m) (hc : Visible db₁ m c) :
    script db₁ c = script db₂ c := by
  have hscript : (db₁.rows .agentScript).find? (fun s =>
      s .agentId = c .agentId && s .promptId = c .promptId) =
      (db₂.rows .agentScript).find? fun s =>
        s .agentId = c .agentId && s .promptId = c .promptId := by
    rw [← List.head?_filter, ← List.head?_filter, h.agentRows (by decide) fun s hs => ?_]
    rw [of_decide_eq_true (Bool.and_eq_true_iff.1 hs).1]
    exact hc.sees
  unfold Read.script
  rw [h.promptOf hc, hscript]

lemma Agree.audioConfig (h : Agree db₁ db₂ m) (hc : Visible db₁ m c) :
    audioConfig db₁ (c .agentId) = audioConfig db₂ (c .agentId) := by
  unfold Read.audioConfig
  rw [← List.head?_filter, ← List.head?_filter, h.agentRows (by decide) fun a ha => ?_]
  rw [of_decide_eq_true ha]
  exact hc.sees

lemma Agree.callView (h : Agree db₁ db₂ m) (hc : Visible db₁ m c) :
    callView st db₁ c = callView st db₂ c := by
  unfold Read.callView trust audioView discrepancies
  rw [h.turnsOf hc, h.script hc, h.judgment hc, h.rowsOf hc .metric (by decide),
    h.rowsOf hc .ingestRun (by decide), h.rowsOf hc .event (by decide),
    h.rowsOf hc .media (by decide), h.rowsOf hc .audioDiscrepancy (by decide)]

lemma Agree.transcript (h : Agree db₁ db₂ m) (hc : Visible db₁ m c) :
    transcript st db₁ c = transcript st db₂ c := by
  unfold Read.transcript
  rw [h.turnsOf hc, h.rowsOf hc .transcript (by decide)]

lemma Agree.getAudio (h : Agree db₁ db₂ m) (hc : Visible db₁ m c) :
    getAudio st db₁ c = getAudio st db₂ c := by
  unfold Read.getAudio
  rw [h.audioConfig hc, h.rowsOf hc .media (by decide)]

lemma Agree.listCalls (h : Agree db₁ db₂ m) (f : CallFilter) :
    listCalls st db₁ m f = listCalls st db₂ m f := by
  have hcalls : (db₁.rows .call).filter (f.admits st (visibleAgentIds db₁ m)) =
      (db₂.rows .call).filter (f.admits st (visibleAgentIds db₁ m)) :=
    h.agentRows (by decide) fun _ hc => sees_of_admits hc
  have hitems : ∀ c ∈ (sorted (newest st)
      ((db₁.rows .call).filter (f.admits st (visibleAgentIds db₁ m)))).take f.limit.toNat,
        listItem st db₁ c = listItem st db₂ c := by
    intro c hc
    obtain ⟨hmem, hadmits⟩ := List.mem_filter.1 (Lib.mem_sorted.1 (List.mem_of_mem_take hc))
    unfold listItem
    rw [h.rowsOf ⟨hmem, sees_of_admits hadmits⟩ .turn (by decide)]
  unfold Read.listCalls
  dsimp only
  rw [List.map_congr_left hitems, hcalls, h.ids]

/-- What is collected from the calls of a scope. -/
lemma Agree.flatMap_inScope (h : Agree db₁ db₂ m) {α : Type} {agentId range : Option String}
    {f g : Row → List α} (hfg : ∀ c, Visible db₁ m c → f c = g c) :
    ((db₁.rows .call).filter (inScope st (visibleAgentIds db₁ m) agentId range)).flatMap f =
      ((db₂.rows .call).filter (inScope st (visibleAgentIds db₂ m) agentId range)).flatMap g := by
  rw [← h.ids, ← h.agentRows (by decide) fun _ hc => sees_of_inScope hc]
  refine List.flatMap_congr fun c hc => ?_
  obtain ⟨hmem, hscope⟩ := List.mem_filter.1 hc
  exact hfg c ⟨hmem, sees_of_inScope hscope⟩

lemma Agree.points (h : Agree db₁ db₂ m) (lever : String) (agentId range : Option String) :
    points st db₁ m lever agentId range = points st db₂ m lever agentId range := by
  have hclusters : (db₁.rows .cluster).filter (fun c => c .lever = some (.text lever) &&
      granted (visibleAgentIds db₁ m) (c .agentId) && isText agentId (c .agentId)) =
      (db₂.rows .cluster).filter fun c => c .lever = some (.text lever) &&
        granted (visibleAgentIds db₂ m) (c .agentId) && isText agentId (c .agentId) := by
    rw [← h.ids]
    refine h.agentRows (by decide) fun c hc => sees_of_granted ?_
    exact (Bool.and_eq_true_iff.1 (Bool.and_eq_true_iff.1 hc).1).2
  unfold Read.points
  dsimp only
  rw [hclusters, h.flatMap_inScope fun c hc => ?_]
  rw [h.rowsOf hc .callCluster (by decide)]

lemma Agree.exportRows (h : Agree db₁ db₂ m) (r : Export.Request) (agentId range : Option String) :
    exportRows st db₁ m r agentId range = exportRows st db₂ m r agentId range := by
  refine h.flatMap_inScope fun c hc => ?_
  unfold judgedCall
  rw [h.rowsOf hc .judgment (by decide), h.promptOf hc, h.turnsOf hc]

lemma Agree.exportTraining (h : Agree db₁ db₂ m) (format dialect : String) (withMeta : Bool)
    (agentId range : Option String) :
    exportTraining st db₁ m format dialect withMeta agentId range =
      exportTraining st db₂ m format dialect withMeta agentId range := by
  unfold Read.exportTraining
  simp only [h.exportRows]

/-- A read of one call, which the member sees or does not. -/
lemma Agree.getScopedCall_bind (h : Agree db₁ db₂ m) (callId : String) {α : Type}
    {f g : Row → Except Failure α} (hfg : ∀ c, Visible db₁ m c → f c = g c) :
    (Read.getScopedCall db₁ m callId >>= f) = (Read.getScopedCall db₂ m callId >>= g) := by
  rw [← h.getScopedCall]
  cases hc : Read.getScopedCall db₁ m callId with
  | error e => rfl
  | ok c => exact hfg c (getScopedCall_ok hc)

lemma Agree.read (h : Agree db₁ db₂ m) (r : Request) : r.read st db₁ m = r.read st db₂ m := by
  cases r with
  | listCalls f => simp only [Request.read, h.listCalls]
  | getCall callId => exact h.getScopedCall_bind callId fun c hc => by rw [h.callView hc]
  | getTranscript callId => exact h.getScopedCall_bind callId fun c hc => by rw [h.transcript hc]
  | getAudio callId => exact h.getScopedCall_bind callId fun c hc => by rw [h.getAudio hc]
  | getJudgment callId => exact h.getScopedCall_bind callId fun c hc => by rw [h.judgment hc]
  | points lever agentId range => simp only [Request.read, h.points]
  | exportTraining format dialect withMeta agentId range =>
    simp only [Request.read, h.exportTraining]

end

lemma SameView.currentMembership {db₁ db₂ : OrgDb} {user : String} (h : SameView db₁ db₂ user) :
    currentMembership db₁ user = currentMembership db₂ user := by
  unfold Api.currentMembership
  rw [← List.head?_filter, ← List.head?_filter, h.memberships]

/-- No read tells two schemas apart that are the same to its user: not by the rows of a hidden call,
and not by whether there is one. -/
theorem answer_of_sameView {db₁ db₂ : OrgDb} {user : String} (h : SameView db₁ db₂ user)
    (st : Store F) (r : Request) : r.answer st db₁ user = r.answer st db₂ user := by
  unfold Request.answer
  rw [← h.currentMembership]
  cases hm : Api.currentMembership db₁ user with
  | error e => rfl
  | ok m => exact (h.agree m hm).read r

/-- A call of an agent that the user does not see changes nothing that the user sees. -/
lemma sameView_of_insert_call {db db' : OrgDb} {user : String} {c : Row}
    (h : db.insert .call c = .ok db') (hc : ∀ m, Api.currentMembership db user = .ok m →
      sees (visibleAgentIds db m) (c .agentId) = false) : SameView db db' user where
  memberships := by rw [Database.insert_rows_of_ne h (by decide)]
  agree m hm := by
    have hgrants : db'.rows .agentAccess = db.rows .agentAccess :=
      Database.insert_rows_of_ne h (by decide)
    have hids : visibleAgentIds db' m = visibleAgentIds db m := by
      unfold visibleAgentIds grantsOf
      rw [hgrants]
    have hseen (t : Table) : seen db' m t = seen db m t := by
      funext r
      have hcall (p : Row → Bool) : seesCall db' m p = seesCall db m p := by
        simp [seesCall, Database.insert_rows h, hids, hc m hm]
      simp only [seen, hids, hcall]
    refine ⟨by rw [hgrants], fun t => ?_⟩
    rw [hseen]
    rcases eq_or_ne t .call with rfl | ht
    · have hlast : seen db m .call c = false := by
        rw [seen, if_pos (by decide), hc m hm]
      rw [Database.insert_rows h, List.filter_append, List.filter_singleton, hlast]
      simp
    · rw [Database.insert_rows_of_ne h ht]

/-- A call as `upsert_call` adds it, by the columns that the reads name. -/
def callRow (id externalId agentId : String) : Row
  | .id => some (.text id)
  | .externalCallId => some (.text externalId)
  | .agentId => some (.text agentId)
  | _ => none

/-- Bob is granted one agent. A call of the other answers him as one that is not there. -/
theorem answer_of_sameView_bob : ∃ db db' : OrgDb,
    requestAll asciiCasing (tenant "acme" "ceo@acme") (withMember ["a1"]) = .ok db ∧
      db.insert .call (callRow "c1" "CA1" "a2") = .ok db' ∧
      ∀ (st : Store Nat), (Request.getCall "CA1").answer st db "u2" =
        (Request.getCall "CA1").answer st db' "u2" := by
  have hrun : (do
      let db ← requestAll asciiCasing (tenant "acme" "ceo@acme") (withMember ["a1"])
      let _ ← liftDb (db.insert .call (callRow "c1" "CA1" "a2"))
      let m ← currentMembership db "u2"
      return visibleAgentIds db m) = .ok (some [some (.text "a1")]) := by decide +kernel
  obtain ⟨db, hsetup, hrun⟩ := Lib.bind_eq_ok.1 hrun
  obtain ⟨db', hinsert, hrun⟩ := Lib.bind_eq_ok.1 hrun
  obtain ⟨m, hm, hrun⟩ := Lib.bind_eq_ok.1 hrun
  have hids := Except.ok.inj hrun
  refine ⟨db, db', hsetup, liftDb_ok hinsert, fun st => ?_⟩
  refine answer_of_sameView (sameView_of_insert_call (liftDb_ok hinsert) fun m' hm' => ?_) st _
  cases hm.symm.trans hm'
  rw [hids]
  decide

end Pulse.Api.Read
