import Pulse.Core.Calculator
import Pulse.Lib.PyFloat

/-!
# The waterfall of a turn

`build_turn` of `core/calculator.py` with its anchor hooks, over floats with exact arithmetic.
Spans are on the call clock, utterances on the audio clock, and a turn's times are the spans' times
less the offset.
-/

namespace Pulse.Core

open Lib (PyFloat roundTo)
open Lib.PyFloat (minimum maximum)

/-! ### Conversions -/

/-- What `int` and `float` read in a string, and what `str` and `lower` make of one. -/
class Text where
  digit : Char → Option Nat
  isSpace : Char → Bool
  lower : String → String
  /-- `float(s)`, unless it raises a `ValueError`. -/
  floatOfStr : String → Option PyFloat
  /-- `str(v)` -/
  str : Value PyFloat → String

/-- From here on, up to its sign, a number is too large for a float. -/
def floatLimit : ℚ := 2 ^ 1024 - 2 ^ 970

/-- The float of a number that is not one yet. -/
def toFloat (q : ℚ) : Except PyError PyFloat :=
  if |q| < floatLimit then .ok (.fin q) else .error .overflowError

instance [Text] : Builtins PyFloat where
  zero := .fin 0
  inf := .inf
  lt := PyFloat.lt
  ofInt i := toFloat i
  toInt
    | .fin q => .ok (if 0 ≤ q then ⌊q⌋ else ⌈q⌉)
    | .inf | .negInf => .error .overflowError
    | .nan => .error .valueError
  digit := Text.digit
  isSpace := Text.isSpace

/-- `bool(v)` -/
def Value.truthy : Value PyFloat → Bool
  | .null => false
  | .bool b => b
  | .int i => i ≠ 0
  | .float x => x ≠ .fin 0
  | .str s => s ≠ ""
  | .arr vs => !vs.isEmpty
  | .obj fields => !fields.isEmpty

mutual

/-- No integer in the value has more digits than `str` prints. -/
def printable : Value PyFloat → Bool
  | .int i => decide ((Nat.toDigits 10 i.natAbs).length ≤ 4300)
  | .arr vs => allPrintable vs
  | .obj fields => fieldsPrintable fields
  | _ => true

def allPrintable : List (Value PyFloat) → Bool
  | [] => true
  | v :: vs => printable v && allPrintable vs

def fieldsPrintable : List (String × Value PyFloat) → Bool
  | [] => true
  | (_, v) :: fields => printable v && fieldsPrintable fields

end

section

variable [Text]

/-- `str(v)` -/
def toStr (v : Value PyFloat) : Except PyError String :=
  if printable v then .ok (Text.str v) else .error .valueError

/-- `_f` -/
def floatOrNone : Value PyFloat → Except PyError (Option PyFloat)
  | .bool b => .ok (some (.fin (if b then 1 else 0)))
  | .int i => (toFloat i).map some
  | .float x => .ok (some x)
  | .str s => .ok (Text.floatOfStr s)
  | .null | .arr _ | .obj _ => .ok none

/-- `_sec_to_ms` -/
def secToMs (v : Value PyFloat) : Except PyError (Option PyFloat) := do
  return (← floatOrNone v).map fun x => (x.scale 1000).round 1

/-- `_i` -/
def intOrNone (v : Value PyFloat) : Except PyError (Option Int) :=
  match v.toInt with
  | .ok i => .ok (some i)
  | .error .overflowError => .error .overflowError
  | .error _ => .ok none

/-- The check of a field that is a string or null; a `ValidationError` is a `ValueError`. -/
def strOrNull : Value PyFloat → Except PyError (Option String)
  | .null => .ok none
  | .str s => .ok (some s)
  | _ => .error .valueError

/-! ### Reading spans -/

/-- `_children` -/
def children (spans : List (Span PyFloat)) (turnId : String) (stage : Stage) :
    List (Span PyFloat) :=
  spans.filter fun s => s.turnId = some turnId ∧ s.stage = stage

/-- An attribute that is missing or null is `none`. -/
def present (v : Option (Value PyFloat)) : Option (Value PyFloat) :=
  match v with
  | none | some .null => none
  | some v => some v

/-- `_attr`: the first value across the spans that is not null. -/
def attr (spans : List (Span PyFloat)) (key : String) : Value PyFloat :=
  (spans.findSome? fun s => present (s.attrs.lookup key)).getD .null

/-- `s.content.get(kind)` -/
def contentOf (s : Span PyFloat) (kind : String) : Value PyFloat :=
  (s.content.lookup kind).getD .null

/-- The text that is made of a content: a list is joined. -/
def contentText : Value PyFloat → Except PyError String
  | .arr vs => do return " ".intercalate (← vs.mapM toStr)
  | v => toStr v

/-- `_content`: the first content of the kind that is not empty. -/
def content (spans : List (Span PyFloat)) (kind : String) : Except PyError (Option String) :=
  match (spans.map (contentOf · kind)).find? Value.truthy with
  | some v => (contentText v).map some
  | none => .ok none

/-- `own or _content(related, kind)`, checked as a string or null. -/
def orContent (own : Value PyFloat) (related : List (Span PyFloat)) (kind : String) :
    Except PyError (Option String) :=
  if own.truthy then strOrNull own else content related kind

/-- `a or b` -/
def orElse (a b : Value PyFloat) : Value PyFloat :=
  if a.truthy then a else b

/-- `_transcript` -/
def transcript (stt : List (Span PyFloat)) : Value PyFloat :=
  match stt with
  | [] => .null
  | s :: _ => orElse (contentOf s "transcript") (contentOf s "carried")

/-- The content of the first span. -/
def firstContent (spans : List (Span PyFloat)) (kind : String) : Value PyFloat :=
  match spans with
  | [] => .null
  | s :: _ => contentOf s kind

/-- Is the value the string? -/
def isStr (v : Option (Value PyFloat)) (s : String) : Bool :=
  match v with
  | some (.str t) => t = s
  | _ => false

/-- The times of the events of a name that belong to the turn, by their span or by themselves. -/
def eventTimes (spans : List (Span PyFloat)) (name turnId : String) : List PyFloat :=
  spans.flatMap fun s => s.events.filterMap fun e =>
    if e.name = name ∧ (s.turnId = some turnId ∨ isStr (e.attrs.lookup "turn.id") turnId) then e.t
    else none

/-- `_first_event_t` -/
def firstEventT (spans : List (Span PyFloat)) (name turnId : String) : Option PyFloat :=
  minimum (eventTimes spans name turnId)

/-! ### Times -/

/-- `_to_audio` -/
def toAudio (callT : Option PyFloat) (offset : PyFloat) : Option PyFloat :=
  callT.map fun t => (t - offset).round 4

/-- `_ms`: from `a` to `b`, unless it is negative. -/
def ms (a b : Option PyFloat) : Option PyFloat := do
  let d := ((← b) - (← a)).scale 1000
  if .fin 0 ≤ d then some (d.round 1) else none

/-- `_audio_endpoints`: the end of the caller's utterance and the start of the agent's that bracket
the window. -/
def audioEndpoints (utterances : List (Utterance PyFloat)) (winStart : PyFloat)
    (winEnd : Option PyFloat) : Option PyFloat × Option PyFloat :=
  let hi := winEnd.getD .inf
  let byStart := Lib.sorted (fun u v => u.tStart.lt v.tStart) utterances
  let agentStart := (byStart.find? fun u =>
    u.channel = "agent" ∧ winStart ≤ u.tStart ∧ u.tStart ≤ hi).map Utterance.tStart
  let bound := agentStart.getD hi
  let byEnd := Lib.sorted (fun u v => u.tEnd.lt v.tEnd) utterances
  let callerEnd := (byEnd.reverse.find? fun u => u.channel = "caller" ∧ u.tEnd ≤ bound).map
    Utterance.tEnd
  (callerEnd, agentStart)

/-- The window of a span on the audio clock, if it has both ends. -/
def window (s : Span PyFloat) (offset : PyFloat) : Option (Lib.Interval PyFloat) := do
  return (← toAudio s.tStart offset, ← toAudio s.tEnd offset)

/-- `_uncovered`: the milliseconds between the caller's stop and the agent's start that neither a
span nor the endpointing hold covers. -/
def uncovered (callerStop agentOut speechEnd sttStart : Option PyFloat)
    (spans : List (Span PyFloat)) (offset : PyFloat) : Option PyFloat := do
  let lo ← callerStop
  let hi ← agentOut
  if hi ≤ lo then none
  else
    let hold := match speechEnd, sttStart with
      | some a, some b => [(a, b)]
      | _, _ => []
    let segs := hold ++ spans.filterMap fun s => window s offset
    let clipped := segs.filterMap fun (a, b) =>
      if Lib.maxOf lo a < Lib.minOf hi b then some (Lib.maxOf lo a, Lib.minOf hi b) else none
    let covered := Lib.total (Lib.merge clipped)
    some (((Lib.maxOf (.fin 0) ((hi - lo) - covered)).scale 1000).round 1)

/-- What explains the time of a turn: the endpointing hold and the windows of the spans. -/
def explained (speechEnd sttStart : Option PyFloat) (spans : List (Span PyFloat))
    (offset : PyFloat) : List (Lib.Interval PyFloat) :=
  (Option.map₂ Prod.mk speechEnd sttStart).toList ++ spans.filterMap (window · offset)

omit [Text] in
lemma uncovered_some (lo hi : PyFloat) (speechEnd sttStart : Option PyFloat)
    (spans : List (Span PyFloat)) (offset : PyFloat) :
    uncovered (some lo) (some hi) speechEnd sttStart spans offset =
      if hi ≤ lo then none
      else some (((Lib.maxOf (.fin 0) ((hi - lo) - Lib.total (Lib.merge
        ((explained speechEnd sttStart spans offset).filterMap (Lib.clip lo hi))))).scale 1000).round 1) := by
  cases speechEnd <;> cases sttStart <;> rfl

/-! ### The anchor hooks -/

/-- `end_of_speech` -/
def endOfSpeech (speech : List (Span PyFloat)) (offset : PyFloat) : Option PyFloat :=
  toAudio (maximum (speech.filterMap Span.tEnd)) offset

/-- `endpointing_ms` -/
def endpointingMs (speechEnd sttStart : Option PyFloat) (related : List (Span PyFloat)) :
    Except PyError (Option PyFloat) :=
  match ms speechEnd sttStart with
  | some v => .ok (some v)
  | none => secToMs (attr related "endpointing.delay")

/-- `first_token` -/
def firstToken (llmFirstToken llmStart llmTtftReported : Option PyFloat) (offset : PyFloat) :
    Option PyFloat :=
  match llmFirstToken, toAudio llmStart offset, llmTtftReported with
  | some t, _, _ => some t
  | none, some start, some ttft => some ((start + ttft.scale (1 / 1000)).round 4)
  | none, _, _ => none

/-- `tts_request_start` -/
def ttsRequestStart (tts : List (Span PyFloat)) (offset : PyFloat) : Option PyFloat :=
  toAudio (minimum ((tts.filter fun s => (present (s.attrs.lookup "tts.chars")).isSome).filterMap
    Span.tStart)) offset

/-- `first_audio` -/
def firstAudio (ttsFirstAudio ttsStart ttsTtfb : Option PyFloat) : Option PyFloat :=
  match ttsFirstAudio, ttsStart, ttsTtfb with
  | some t, _, _ => some t
  | none, some start, some ttfb => some ((start + ttfb.scale (1 / 1000)).round 4)
  | none, start, none => start
  | none, none, some _ => none

/-! ### The waterfall -/

/-- The fields of a turn apart from its id and its index. -/
structure Measured where
  trigger : String
  audioStartS : Option PyFloat := none
  audioEndS : Option PyFloat := none
  sttFinalAt : Option PyFloat := none
  committedAt : Option PyFloat := none
  llmFirstTokenAt : Option PyFloat := none
  ttsStartAt : Option PyFloat := none
  ttsFirstAudioAt : Option PyFloat := none
  audioOutStartS : Option PyFloat := none
  ttsSpanPresent : Bool := false
  responseLatencyMs : Option PyFloat := none
  sttLagMs : Option PyFloat := none
  endpointingMs : Option PyFloat := none
  llmTtftMs : Option PyFloat := none
  assemblyMs : Option PyFloat := none
  dispatchMs : Option PyFloat := none
  ttsTtfbMs : Option PyFloat := none
  playoutMs : Option PyFloat := none
  unattributedMs : Option PyFloat := none
  llmTtftReportedMs : Option PyFloat := none
  ttsTtfbReportedMs : Option PyFloat := none
  language : Option String := none
  sttConfidence : Option PyFloat := none
  tokensIn : Option Int := none
  tokensOut : Option Int := none
  tokensCached : Option Int := none
  finishReason : Option String := none
  ttsChars : Option Int := none
  ttsCharsCut : Option Int := none
  ttsCancelled : Bool := false
  cutReason : Option String := none
  interrupted : Bool := false
  interruptionProbability : Option PyFloat := none
  e2eLatencyMs : Option PyFloat := none
  abandoned : Bool := false
  transcript : Option String := none
  llmRaw : Option String := none
  llmSpoken : Option String := none
  deriving DecidableEq

/-- The times of a turn that no conversion can refuse. -/
structure Anchors where
  speechEnd : Option PyFloat
  sttStart : Option PyFloat
  sttFinal : Option PyFloat
  llmStart : Option PyFloat
  llmFirstToken : Option PyFloat
  ttsStart : Option PyFloat
  ttsRequestStart : Option PyFloat
  ttsFirstAudio : Option PyFloat
  committed : Option PyFloat
  callerEnd : Option PyFloat
  agentVadStart : Option PyFloat
  deriving DecidableEq

/-- The first part of `build_turn`. `llmStart` stays on the call clock. -/
def anchors (turnSpan : Span PyFloat) (tid : String) (spans : List (Span PyFloat))
    (utterances : List (Utterance PyFloat)) (offset : PyFloat) : Anchors :=
  let stt := children spans tid .stt
  let tts := children spans tid .tts
  let winStart := (toAudio turnSpan.tStart offset).getD (.fin 0)
  let endpoints := audioEndpoints utterances winStart (toAudio turnSpan.tEnd offset)
  { speechEnd := endOfSpeech (children spans tid .speech) offset
    sttStart := toAudio (stt.head?.bind Span.tStart) offset
    sttFinal := toAudio (stt.head?.bind Span.tEnd) offset
    llmStart := (children spans tid .llm).head?.bind Span.tStart
    llmFirstToken := toAudio (firstEventT spans "llm.first_token" tid) offset
    ttsStart := toAudio (minimum (tts.filterMap Span.tStart)) offset
    ttsRequestStart := ttsRequestStart tts offset
    ttsFirstAudio := toAudio (firstEventT spans "tts.first_audio" tid) offset
    committed := (toAudio (firstEventT spans "turn.committed" tid) offset).or
      (toAudio turnSpan.tStart offset)
    callerEnd := endpoints.1
    agentVadStart := endpoints.2 }

/-- `caller_stop`: the end of the caller's speech, or else of the transcription. -/
def Anchors.callerStop (a : Anchors) : Option PyFloat := a.speechEnd.or a.sttFinal

/-- `agent_out` -/
def Anchors.agentOut (a : Anchors) (ttsTtfb : Option PyFloat) : Option PyFloat :=
  firstAudio a.ttsFirstAudio a.ttsStart ttsTtfb

/-- `cut_reason`, before it is checked. -/
def cutReason (tts : List (Span PyFloat)) (cancelled interrupted : Bool) : Value PyFloat :=
  match attr tts "tts.cut_reason" with
  | .null => if cancelled then .str (if interrupted then "barge_in" else "hangup") else .null
  | v => v

/-- `build_turn`, apart from the turn's id and index. -/
def waterfall (turnSpan : Span PyFloat) (tid : String) (spans : List (Span PyFloat))
    (utterances : List (Utterance PyFloat)) (offset : PyFloat) : Except PyError Measured := do
  let stt := children spans tid .stt
  let llm := children spans tid .llm
  let tts := children spans tid .tts
  let related := spans.filter fun s => s.turnId = some tid
  let a := anchors turnSpan tid spans utterances offset
  let trigger ← toStr ((turnSpan.attrs.lookup "turn.trigger").getD (.str "endpoint"))
  let llmTtftReported ← secToMs (attr llm "metrics.ttft")
  let ttsTtfbReported ← secToMs (attr tts "metrics.ttfb")
  let endpointing ← endpointingMs a.speechEnd a.sttStart related
  let llmTtft := (ms (toAudio a.llmStart offset) a.llmFirstToken).or llmTtftReported
  let ttsTtfb := (ms a.ttsStart a.ttsFirstAudio).or ttsTtfbReported
  let firstToken := firstToken a.llmFirstToken a.llmStart llmTtftReported offset
  let callerStop := a.speechEnd.or a.sttFinal
  let agentOut := firstAudio a.ttsFirstAudio a.ttsStart ttsTtfb
  let interrupted := (attr related "turn.interrupted").truthy
  let ttsCancelled := tts.any fun s => ((s.attrs.lookup "tts.cancelled").getD .null).truthy
  let language ← strOrNull (attr stt "stt.language")
  let sttConfidence ← floatOrNone (orElse (attr stt "stt.confidence") (attr related "stt.confidence"))
  let tokensIn ← intOrNone (attr llm "gen_ai.usage.input_tokens")
  let tokensOut ← intOrNone (attr llm "gen_ai.usage.output_tokens")
  let tokensCached ← intOrNone (orElse (attr llm "gen_ai.usage.cached_tokens")
    (attr llm "gen_ai.usage.cache_read.input_tokens"))
  let finishReason ← strOrNull (attr llm "llm.finish_reason")
  let ttsChars ← intOrNone (attr tts "tts.chars")
  let ttsCharsCut ← intOrNone (attr tts "tts.chars_cut")
  let cutReason ← strOrNull (cutReason tts ttsCancelled interrupted)
  let interruptionProbability ← floatOrNone (attr related "turn.interruption_probability")
  let e2eLatency ← secToMs (attr related "metrics.e2e_latency")
  let transcript ← orContent (transcript stt) related "transcript"
  let llmRaw ← orContent (firstContent llm "llm_raw") related "llm_raw"
  let llmSpoken ← orContent (firstContent tts "llm_spoken") related "llm_spoken"
  return {
    trigger := trigger
    audioStartS := a.callerEnd
    audioEndS := a.agentVadStart
    sttFinalAt := a.sttFinal
    committedAt := a.committed
    llmFirstTokenAt := a.llmFirstToken
    ttsStartAt := a.ttsStart
    ttsFirstAudioAt := a.ttsFirstAudio
    audioOutStartS := a.agentVadStart
    ttsSpanPresent := !tts.isEmpty
    responseLatencyMs := ms callerStop agentOut
    sttLagMs := ms a.sttStart a.sttFinal
    endpointingMs := endpointing
    llmTtftMs := llmTtft
    assemblyMs := ms firstToken a.ttsStart
    dispatchMs := ms firstToken a.ttsRequestStart
    ttsTtfbMs := ttsTtfb
    playoutMs := ms a.ttsFirstAudio a.agentVadStart
    unattributedMs :=
      uncovered callerStop agentOut a.speechEnd a.sttStart (stt ++ llm ++ tts) offset
    llmTtftReportedMs := llmTtftReported
    ttsTtfbReportedMs := ttsTtfbReported
    language := language
    sttConfidence := sttConfidence
    tokensIn := tokensIn
    tokensOut := tokensOut
    tokensCached := tokensCached
    finishReason := finishReason
    ttsChars := ttsChars
    ttsCharsCut := ttsCharsCut
    ttsCancelled := ttsCancelled
    cutReason := cutReason
    interrupted := interrupted
    interruptionProbability := interruptionProbability
    e2eLatencyMs := e2eLatency
    abandoned := (attr related "turn.abandoned").truthy
    transcript := transcript
    llmRaw := llmRaw
    llmSpoken := llmSpoken }

/-- What `close` of `_turns_from_events` measures. -/
def eventTurn (group : Group PyFloat) : Measured where
  trigger := "endpoint"
  sttFinalAt := group.sttFinal
  committedAt := group.committed
  llmFirstTokenAt := group.llmFirst
  ttsFirstAudioAt := group.ttsFirst
  responseLatencyMs := ms group.sttFinal group.ttsFirst
  llmTtftMs := ms group.committed group.llmFirst
  transcript := group.transcript
  llmRaw := group.llmRaw
  llmSpoken := group.llmSpoken
  interrupted := group.interrupted

end

end Pulse.Core
