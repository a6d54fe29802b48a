import Pulse.Core.Waterfall

/-!
# Metrics and trust

The metrics that `analyze` and `audio_only_metrics` make of the audio, the agent's windows and the
turns, the trust report, and with them the canonical calculator.
-/

namespace Pulse.Core

open Lib (PyFloat roundEven)
open Lib.PyFloat (minimum maximum)

/-- The fields of `MetricConfig` that the calculator reads. -/
structure MetricConfig where
  deadAirMinS : PyFloat := .fin (3 / 2)
  partialCoverageThreshold : PyFloat := .fin (4 / 5)

inductive MetricNumber
  | num (x : PyFloat)
  | text (s : String)
  deriving DecidableEq

structure MetricValue where
  name : String
  value : Option MetricNumber
  samples : Option (List PyFloat) := none
  available : Bool := true
  reason : Option String := none
  deriving DecidableEq

/-- `_mv` -/
def mv (name : String) (ok : Bool) (value : Option MetricNumber) (reason : String := "")
    (samples : Option (List PyFloat) := none) : MetricValue where
  name := name
  value := if ok then value else none
  samples := samples
  available := ok
  reason := if ok then none else some reason

/-! ### Audio metrics -/

/-- `utts_to_intervals` -/
def uttsToIntervals (utts : List (Utterance PyFloat)) : List (Lib.Interval PyFloat) :=
  Lib.merge (utts.map fun u => (u.tStart, u.tEnd))

/-- `talk_ratio`: the fractions of the caller, of the agent and of both, if there is a duration. -/
def talkRatio (callerUtts : List (Utterance PyFloat)) (agentIv : List (Lib.Interval PyFloat))
    (duration : PyFloat) : Option (PyFloat × PyFloat × PyFloat) :=
  if duration ≤ .fin 0 then none
  else
    let callerIv := uttsToIntervals callerUtts
    let fraction (iv : List (Lib.Interval PyFloat)) := ((Lib.total iv).div duration).round 4
    some (fraction callerIv, fraction agentIv, fraction (Lib.intersect callerIv agentIv))

/-- `barge_in_count` -/
def bargeInCount (callerUtts : List (Utterance PyFloat)) (agentIv : List (Lib.Interval PyFloat)) :
    Nat :=
  callerUtts.countP fun u => agentIv.any fun i => decide (i.1 < u.tStart) && decide (u.tStart < i.2)

/-- `dead_air_s`, without padding. -/
def deadAirS (callerUtts : List (Utterance PyFloat)) (agentIv : List (Lib.Interval PyFloat))
    (duration minGap : PyFloat) : PyFloat :=
  if duration ≤ .fin 0 then .fin 0
  else
    let speech := Lib.merge (uttsToIntervals callerUtts ++ agentIv)
    let gaps := Lib.complement (.fin 0) speech duration
    (Lib.total (gaps.filter fun i => minGap ≤ i.2 - i.1)).round 4

/-- `_agent_intervals` -/
def agentIntervals (spans : List (Span PyFloat)) (offset : PyFloat) : List (Lib.Interval PyFloat) :=
  Lib.merge ((spans.filter fun s => s.stage = .tts ∨ s.stage = .playout).filterMap (window · offset))

/-- The caller's utterances. -/
def callerUtterances (audio : AudioAnalysis PyFloat) : List (Utterance PyFloat) :=
  audio.utterances.filter (·.channel = "caller")

/-- How long the call lasts: up to the last end of an utterance or of a window of the agent. -/
def duration (audio : AudioAnalysis PyFloat) (agentIv : List (Lib.Interval PyFloat)) : PyFloat :=
  (maximum (audio.utterances.map Utterance.tEnd ++ agentIv.map Prod.snd)).getD (.fin 0)

/-- `_audio_metrics` -/
def audioMetrics (audio : AudioAnalysis PyFloat) (agentIv : List (Lib.Interval PyFloat))
    (cfg : MetricConfig) : List MetricValue :=
  let caller := callerUtterances audio
  let duration := duration audio agentIv
  let coverage := audio.coverage.map Prod.snd
  let ok := !agentIv.isEmpty
  let count (n : Nat) : Option MetricNumber := some (.num (.fin n))
  let tr := talkRatio caller agentIv duration
  [mv "capture_coverage" (!coverage.isEmpty) ((minimum coverage).map fun x => .num (x.round 4))
      "no audio" (some (coverage.map (PyFloat.round 4))),
    mv "barge_in" ok (count (bargeInCount caller agentIv)) "no agent spans",
    mv "dead_air_s" ok (some (.num (deadAirS caller agentIv duration cfg.deadAirMinS)))
      "no agent spans",
    mv "talk_ratio_caller" tr.isSome (tr.map fun r => .num r.1) "no audio",
    mv "talk_ratio_agent" ok (tr.map fun r => .num r.2.1) "no agent spans",
    mv "overlap_ratio" ok (tr.map fun r => .num r.2.2) "no agent spans",
    mv "turn_count_caller" true (count caller.length),
    mv "turn_count_agent" ok (count agentIv.length) "no agent spans"]

/-- `audio_only_metrics`: the agent's side is the utterances on its channel. -/
def audioOnlyMetrics (audio : AudioAnalysis PyFloat) (cfg : MetricConfig := {}) :
    List MetricValue :=
  audioMetrics audio (uttsToIntervals (audio.utterances.filter (·.channel = "agent"))) cfg

/-! ### Metrics of the turns -/

/-- The place of the nearest rank in a list of `n`. -/
def rank (pct : ℚ) (n : Nat) : Nat :=
  (max 0 (min ((n : Int) - 1) (roundEven (pct / 100 * ((n : ℚ) - 1))))).toNat

/-- `percentile` -/
def percentile (values : List PyFloat) (pct : ℚ) : Option PyFloat :=
  (Lib.sorted PyFloat.lt values)[rank pct values.length]?

/-- The ninetieth percentile of what the turns have. -/
def percentileMetric (turns : List Measured) (name : String)
    (field : Measured → Option PyFloat) : MetricValue :=
  let s := turns.filterMap field
  mv name (!s.isEmpty) ((percentile s 90).map fun x => .num (x.round 1))
    "no spans carried this segment" (some s)

/-- `round(a / b, n) if b else None` of integers. -/
def quotient (a b : Int) (n : Nat) : Except PyError (Option MetricNumber) :=
  if b = 0 then .ok none else (toFloat ((a : ℚ) / b)).map fun x => some (.num (x.round n))

/-- `tokens_per_turn` -/
def tokensPerTurn (turns : List Measured) : Except PyError MetricValue := do
  let toks := turns.filterMap Measured.tokensOut
  let mean ← quotient toks.sum toks.length 1
  let samples ← toks.mapM fun (n : Int) => toFloat n
  return mv "tokens_per_turn" (!toks.isEmpty) mean "vendor sent no usage" (some samples)

/-- `truncation_rate` -/
def truncationRate (turns : List Measured) : Except PyError MetricValue := do
  let chars := (turns.filterMap Measured.ttsChars).sum
  let cut := (turns.filterMap Measured.ttsCharsCut).sum
  let rate ← quotient cut chars 4
  return mv "truncation_rate" (chars ≠ 0) rate "no tts chars"

/-- `cut_reason` -/
def cutReasons (turns : List Measured) : MetricValue :=
  let reasons := Lib.sorted (fun a b : String => decide (a < b))
    ((turns.filterMap Measured.cutReason).filter (· ≠ "")).dedup
  mv "cut_reason" (!reasons.isEmpty) (some (.text (",".intercalate reasons))) "no truncated turns"

/-- `_layer2_metrics` -/
def layer2Metrics (turns : List Measured) : Except PyError (List MetricValue) := do
  let segments := [percentileMetric turns "response_latency_ms" Measured.responseLatencyMs,
    percentileMetric turns "llm_ttft_ms" Measured.llmTtftMs,
    percentileMetric turns "assembly_ms" Measured.assemblyMs,
    percentileMetric turns "tts_ttfb_ms" Measured.ttsTtfbMs,
    percentileMetric turns "unattributed_ms" Measured.unattributedMs,
    percentileMetric turns "llm_ttft_reported_ms" Measured.llmTtftReportedMs,
    percentileMetric turns "tts_ttfb_reported_ms" Measured.ttsTtfbReportedMs]
  let tokens ← tokensPerTurn turns
  let truncation ← truncationRate turns
  return segments ++ [tokens, truncation, cutReasons turns]

/-! ### Trust -/

/-- The fields of `CallHeader`; a datetime is the seconds from the epoch. -/
structure CallHeader where
  callId : String
  source : String
  environment : String
  startedAt : Option ℚ := none
  engine : Option String := none
  carrier : Option String := none
  sttProvider : Option String := none
  llmProvider : Option String := none
  llmModel : Option String := none
  ttsProvider : Option String := none
  voice : Option String := none
  templateSha256 : Option String := none
  endedAt : Option ℚ := none
  labels : List (String × Value PyFloat) := []
  counters : List (String × Value PyFloat) := []

/-- The reasons that `_trust_report` gives. -/
inductive TrustReason
  | turnsDerived
  | audioDisabled
  | audioMissing
  | timingMissing
  | traceNotApplicable
  | traceMissing
  | audioPartial
  | telemetryTruncated
  deriving DecidableEq

structure TrustReport where
  reasons : List TrustReason
  captureCoverage : List (String × PyFloat)
  clockOffsetS : Option PyFloat
  clockResidualMs : Option PyFloat
  clockResidualPerTurnMs : Option (List PyFloat)
  bargeInAgreement : Option PyFloat
  layersRun : List String
  spanDroppedEvents : Int
  unattributedSpans : Nat
  deriving DecidableEq

/-- `_clock_residuals` -/
def clockResiduals (turns : List Measured) : List PyFloat :=
  turns.filterMap fun t => do
    return (((← t.ttsFirstAudioAt) - (← t.audioOutStartS)).scale 1000).round 1

/-- `_barge_in_agreement` -/
def bargeInAgreement (spans : List (Span PyFloat)) (audio : Option (AudioAnalysis PyFloat))
    (offset : PyFloat) : Option PyFloat := do
  let caller := callerUtterances (← audio)
  let agentIv := agentIntervals spans offset
  if caller.isEmpty || agentIv.isEmpty then none
  else
    let audioBi := bargeInCount caller agentIv
    let spanBi := (spans.flatMap Span.events).countP (·.name = "bargein")
    if audioBi = 0 ∧ spanBi = 0 then some (.fin 1)
    else some ((PyFloat.fin ((min audioBi spanBi : Nat) / (max audioBi spanBi : Nat))).round 4)

section

variable [Text]

/-- `int(counters.get("span_dropped_events", 0) or 0)` -/
def spanDroppedEvents (h : CallHeader) : Except PyError Int :=
  (orElse ((h.counters.lookup "span_dropped_events").getD (.int 0)) (.int 0)).toInt

/-- Has neither a span nor an event a clock? -/
def untimed (spans : List (Span PyFloat)) : Bool :=
  spans.all fun s => s.tStart.isNone && s.events.all (·.t.isNone)

/-- `_trust_report` -/
def trustReport (trace : Trace PyFloat CallHeader) (audio : Option (AudioAnalysis PyFloat))
    (turns : List Measured) (offset : PyFloat) (cfg : MetricConfig) (audioEnabled turnsDerived : Bool) :
    Except PyError TrustReport := do
  let coverage := (audio.map AudioAnalysis.coverage).getD []
  let dropped ← spanDroppedEvents trace.header
  let residuals := clockResiduals turns
  let reasons :=
    (if turnsDerived then [TrustReason.turnsDerived] else []) ++
    (if audio.isSome then [] else if audioEnabled then [.audioMissing] else [.audioDisabled]) ++
    (if trace.spans.isEmpty then
        if Text.lower (trace.header.engine.getD "") = "s2s" then [.traceNotApplicable]
        else [.traceMissing]
      else if untimed trace.spans then [.timingMissing] else []) ++
    (if (minimum (coverage.map Prod.snd)).any (·.lt cfg.partialCoverageThreshold) then
        [.audioPartial] else []) ++
    (if 0 < dropped then [.telemetryTruncated] else [])
  return {
    reasons := reasons
    captureCoverage := coverage
    clockOffsetS := audio.map fun _ => offset
    clockResidualMs := if residuals.isEmpty then none
      else some (((residuals.foldl (· + ·) 0).scale (1 / residuals.length)).round 1)
    clockResidualPerTurnMs := if residuals.isEmpty then none else some residuals
    bargeInAgreement := bargeInAgreement trace.spans audio offset
    layersRun := (if audio.isSome then ["audio"] else []) ++
      (if trace.spans.isEmpty then [] else ["events"])
    spanDroppedEvents := dropped
    unattributedSpans := trace.spans.countP fun s => s.turnId.isNone ∧ s.stage ≠ .call }

/-! ### The canonical calculator -/

structure Report where
  metrics : List MetricValue
  trust : TrustReport
  deriving DecidableEq

/-- The metrics of the turns, if there are spans and turns. -/
def turnMetrics (missing : Bool) (turns : List Measured) : Except PyError (List MetricValue) :=
  if missing then .ok [] else layer2Metrics turns

/-- The metrics and the trust report of `analyze`. The turns are derived from events when there are
some and no span is a turn. -/
def report (cfg : MetricConfig) (audioEnabled : Bool) (trace : Trace PyFloat CallHeader)
    (audio : Option (AudioAnalysis PyFloat)) (turns : List (Turn Measured)) (offset : PyFloat) :
    Except PyError Report := do
  let measured := turns.map Turn.measured
  let derived := !turns.isEmpty && trace.spans.all (·.stage ≠ .turn)
  let agentIv := agentIntervals trace.spans offset
  let layer1 := (audio.map fun a => audioMetrics a agentIv cfg).getD []
  let layer2 ← turnMetrics (trace.spans.isEmpty || turns.isEmpty) measured
  return ⟨layer1 ++ layer2, ← trustReport trace audio measured offset cfg audioEnabled derived⟩

/-- `Calculator` -/
def canonical (cfg : MetricConfig := {}) (audioEnabled : Bool := true) :
    Calculator PyFloat CallHeader Measured Report where
  waterfall := waterfall
  eventTurn := eventTurn
  report := report cfg audioEnabled

@[simp] lemma canonical_waterfall (cfg : MetricConfig) (audioEnabled : Bool) :
    (canonical cfg audioEnabled).waterfall = waterfall := rfl

@[simp] lemma canonical_eventTurn (cfg : MetricConfig) (audioEnabled : Bool) :
    (canonical cfg audioEnabled).eventTurn = eventTurn := rfl

@[simp] lemma canonical_report (cfg : MetricConfig) (audioEnabled : Bool) :
    (canonical cfg audioEnabled).report = report cfg audioEnabled := rfl

end

/-- Text of digits and letters, that holds no floats. -/
instance asciiText : Text where
  digit ch := if ch.isDigit then some (ch.toNat - 48) else none
  isSpace ch := ch.isWhitespace
  lower := String.toLower
  floatOfStr _ := none
  str
    | .null => "None"
    | .bool b => if b then "True" else "False"
    | .int i => toString i
    | .str s => s
    | .float _ | .arr _ | .obj _ => ""

end Pulse.Core
