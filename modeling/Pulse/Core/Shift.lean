import Pulse.Core.Metrics

/-!
# Shifting the call clock

Moving every span and event by some time, and the offset with them, leaves a turn that is built
from a span as it is: each of its times is taken less the offset. A turn that is derived from events
keeps the events' own times, and moves with the call clock.
-/

namespace Pulse.Core

open Lib (PyFloat)
open Lib.PyFloat (minimum maximum)

/-! ### The shift -/

def SpanEvent.shift (d : ℚ) (e : SpanEvent PyFloat) : SpanEvent PyFloat :=
  { e with t := e.t.map (· + .fin d) }

def Span.shift (d : ℚ) (s : Span PyFloat) : Span PyFloat :=
  { s with
    tStart := s.tStart.map (· + .fin d)
    tEnd := s.tEnd.map (· + .fin d)
    events := s.events.map (SpanEvent.shift d) }

def Trace.shift {H : Type} (d : ℚ) (trace : Trace PyFloat H) : Trace PyFloat H :=
  { trace with spans := trace.spans.map (Span.shift d) }

/-! ### What a turn reads -/

section

variable {d o : ℚ} {s : Span PyFloat} {spans : List (Span PyFloat)}

lemma ms_shift (a b : Option PyFloat) :
    ms (a.map (· + .fin d)) (b.map (· + .fin d)) = ms a b := by
  cases a with
  | none => cases b <;> rfl
  | some a =>
    cases b with
    | none => rfl
    | some b => simp only [ms, Option.map_some, Option.bind_eq_bind, Option.bind_some,
        PyFloat.add_fin_sub_add_fin]

lemma toAudio_shift (t : Option PyFloat) :
    toAudio (t.map (· + .fin d)) (.fin (o + d)) = toAudio t (.fin o) := by
  cases t with
  | none => rfl
  | some t => simp only [toAudio, Option.map_some, PyFloat.add_fin_sub_fin]

lemma children_shift (tid : String) (stage : Stage) :
    children (spans.map (Span.shift d)) tid stage = (children spans tid stage).map (Span.shift d) := by
  rw [children, List.filter_map]
  rfl

lemma callerSide_shift : callerSide (spans.map (Span.shift d)) = callerSide spans := by
  rw [callerSide, List.filter_map, List.map_map]
  rfl

/-- The spans of a dict, moved. -/
def shiftBest (d : ℚ) (best : List (String × Span PyFloat)) : List (String × Span PyFloat) :=
  best.map fun e => (e.1, e.2.shift d)

lemma lookup_shiftBest (best : List (String × Span PyFloat)) (k : String) :
    (shiftBest d best).lookup k = (best.lookup k).map (Span.shift d) := by
  induction best with
  | nil => rfl
  | cons e best ih =>
    rw [shiftBest, List.map_cons, List.lookup_cons, List.lookup_cons, ← shiftBest, ih]
    cases k == e.1 <;> rfl

lemma related_shift (tid : String) :
    (spans.map (Span.shift d)).filter (fun s => s.turnId = some tid) =
      (spans.filter fun s => s.turnId = some tid).map (Span.shift d) := by
  rw [List.filter_map]
  rfl

lemma attr_shift (key : String) : attr (spans.map (Span.shift d)) key = attr spans key := by
  rw [attr, List.findSome?_map]
  rfl

lemma anyCancelled_shift :
    ((spans.map (Span.shift d)).any fun s =>
      ((s.attrs.lookup "tts.cancelled").getD .null).truthy) =
    spans.any fun s => ((s.attrs.lookup "tts.cancelled").getD .null).truthy := by
  rw [List.any_map]
  rfl

lemma content_shift [Text] (kind : String) :
    content (spans.map (Span.shift d)) kind = content spans kind := by
  rw [content, List.map_map]
  rfl

lemma transcript_shift : transcript (spans.map (Span.shift d)) = transcript spans := by
  cases spans <;> rfl

lemma firstContent_shift (kind : String) :
    firstContent (spans.map (Span.shift d)) kind = firstContent spans kind := by
  cases spans <;> rfl

lemma orContent_shift [Text] (own : Value PyFloat) (kind : String) :
    orContent own (spans.map (Span.shift d)) kind = orContent own spans kind := by
  rw [orContent, content_shift]
  rfl

lemma filterMap_tStart_shift :
    (spans.map (Span.shift d)).filterMap Span.tStart = (spans.filterMap Span.tStart).map (· + .fin d) := by
  rw [List.filterMap_map, List.map_filterMap]
  rfl

lemma filterMap_tEnd_shift :
    (spans.map (Span.shift d)).filterMap Span.tEnd = (spans.filterMap Span.tEnd).map (· + .fin d) := by
  rw [List.filterMap_map, List.map_filterMap]
  rfl

lemma head_tStart_shift :
    (spans.map (Span.shift d)).head?.bind Span.tStart =
      (spans.head?.bind Span.tStart).map (· + .fin d) := by
  cases spans <;> rfl

lemma head_tEnd_shift :
    (spans.map (Span.shift d)).head?.bind Span.tEnd =
      (spans.head?.bind Span.tEnd).map (· + .fin d) := by
  cases spans <;> rfl

lemma firstEventT_shift (name tid : String) :
    firstEventT (spans.map (Span.shift d)) name tid =
      (firstEventT spans name tid).map (· + .fin d) := by
  have htimes : eventTimes (spans.map (Span.shift d)) name tid =
      (eventTimes spans name tid).map (· + .fin d) := by
    unfold eventTimes
    rw [List.flatMap_map, List.map_flatMap]
    apply List.flatMap_congr
    intro s _
    change (s.events.map (SpanEvent.shift d)).filterMap _ = _
    rw [List.filterMap_map, List.map_filterMap]
    apply List.filterMap_congr
    intro e _
    by_cases h : e.name = name ∧ (s.turnId = some tid ∨ isStr (e.attrs.lookup "turn.id") tid)
    · simp [SpanEvent.shift, Span.shift, h]
    · simp [SpanEvent.shift, Span.shift, h]
  rw [firstEventT, htimes, PyFloat.minimum_add_fin]
  rfl

lemma window_shift : window (s.shift d) (.fin (o + d)) = window s (.fin o) := by
  simp only [window, Span.shift, toAudio_shift]

lemma uncovered_shift (callerStop agentOut speechEnd sttStart : Option PyFloat) :
    uncovered callerStop agentOut speechEnd sttStart (spans.map (Span.shift d)) (.fin (o + d)) =
      uncovered callerStop agentOut speechEnd sttStart spans (.fin o) := by
  have hwindows : (spans.map (Span.shift d)).filterMap (window · (.fin (o + d))) =
      spans.filterMap (window · (.fin o)) := by
    rw [List.filterMap_map]
    exact congrArg (List.filterMap · spans) (funext fun s => window_shift)
  simp only [uncovered, hwindows]

lemma endOfSpeech_shift :
    endOfSpeech (spans.map (Span.shift d)) (.fin (o + d)) = endOfSpeech spans (.fin o) := by
  rw [endOfSpeech, filterMap_tEnd_shift, PyFloat.maximum_add_fin, toAudio_shift]
  rfl

lemma ttsRequestStart_shift :
    ttsRequestStart (spans.map (Span.shift d)) (.fin (o + d)) = ttsRequestStart spans (.fin o) := by
  rw [ttsRequestStart, List.filter_map, filterMap_tStart_shift, PyFloat.minimum_add_fin,
    toAudio_shift]
  rfl

/-- Only the start of the LLM span is on the call clock. -/
lemma anchors_shift (ts : Span PyFloat) (tid : String) (utterances : List (Utterance PyFloat)) :
    anchors (ts.shift d) tid (spans.map (Span.shift d)) utterances (.fin (o + d)) =
      { anchors ts tid spans utterances (.fin o) with
        llmStart := (anchors ts tid spans utterances (.fin o)).llmStart.map (· + .fin d) } := by
  have hstart : (ts.shift d).tStart = ts.tStart.map (· + .fin d) := rfl
  have hend : (ts.shift d).tEnd = ts.tEnd.map (· + .fin d) := rfl
  simp only [anchors, children_shift, head_tStart_shift, head_tEnd_shift, firstEventT_shift,
    filterMap_tStart_shift, PyFloat.minimum_add_fin, endOfSpeech_shift, ttsRequestStart_shift,
    hstart, hend, toAudio_shift]

lemma waterfall_shift [Text] (ts : Span PyFloat) (tid : String)
    (utterances : List (Utterance PyFloat)) :
    waterfall (ts.shift d) tid (spans.map (Span.shift d)) utterances (.fin (o + d)) =
      waterfall ts tid spans utterances (.fin o) := by
  have hattrs : (ts.shift d).attrs = ts.attrs := rfl
  have hcut (spans : List (Span PyFloat)) (cancelled interrupted : Bool) :
      cutReason (spans.map (Span.shift d)) cancelled interrupted =
        cutReason spans cancelled interrupted := by
    rw [cutReason, attr_shift]
    rfl
  have hendpointing (a b : Option PyFloat) (spans : List (Span PyFloat)) :
      endpointingMs a b (spans.map (Span.shift d)) = endpointingMs a b spans := by
    rw [endpointingMs, attr_shift]
    rfl
  have htoken (a b c : Option PyFloat) :
      firstToken a (b.map (· + .fin d)) c (.fin (o + d)) = firstToken a b c (.fin o) := by
    simp only [firstToken, toAudio_shift]
  simp only [waterfall, anchors_shift, children_shift, related_shift, attr_shift, hattrs,
    anyCancelled_shift, hcut, hendpointing, toAudio_shift, htoken, transcript_shift, firstContent_shift,
    orContent_shift, ← List.map_append, uncovered_shift, List.isEmpty_map]

end

/-! ### Which spans are turns -/

section

variable [Text] {d : ℚ}

/-- The order key of a span moves with its clock. -/
def shiftKey (d : ℚ) (k : Nat × PyFloat) : Nat × PyFloat :=
  if k.1 = 0 then (0, k.2 + .fin d) else k

lemma keyLt_shiftKey (a b : Nat × PyFloat) : keyLt (shiftKey d a) (shiftKey d b) = keyLt a b := by
  obtain ⟨m, x⟩ := a
  obtain ⟨n, y⟩ := b
  have hlt : Builtins.lt (x + .fin d) (y + .fin d) = Builtins.lt x y := PyFloat.lt_add_fin x y d
  by_cases hm : m = 0
  · by_cases hn : n = 0
    · simp [keyLt, shiftKey, hm, hn, hlt]
    · simp [keyLt, shiftKey, hm, hn, Nat.pos_of_ne_zero hn]
  · by_cases hn : n = 0
    · have hne : (m == 0) = false := by simpa using hm
      simp [keyLt, shiftKey, hm, hn, hne]
    · simp [keyLt, shiftKey, hm, hn]

lemma orderKey_shift (s : Span PyFloat) :
    orderKey (s.shift d) = (orderKey s).map (shiftKey d) := by
  cases ht : s.tStart with
  | some t => simp [orderKey, Span.shift, ht, shiftKey, Except.map]
  | none =>
    cases hn : s.sequence with
    | some n =>
      simp only [orderKey, Span.shift, ht, hn, Option.map_none]
      cases (Builtins.ofInt n : Except PyError PyFloat) <;> rfl
    | none => simp [orderKey, Span.shift, ht, hn, shiftKey, Except.map]

lemma takesPlace_shift (caller : List (Option String)) (s cur : Span PyFloat) :
    takesPlace caller (s.shift d) (cur.shift d) = takesPlace caller s cur := by
  have hkeys : (do return keyLt (← orderKey (s.shift d)) (← orderKey (cur.shift d)) :
      Except PyError Bool) = do return keyLt (← orderKey s) (← orderKey cur) := by
    rw [orderKey_shift, orderKey_shift]
    cases orderKey s with
    | error e => rfl
    | ok a =>
      cases orderKey cur with
      | error e => rfl
      | ok b => exact congrArg Except.ok (keyLt_shiftKey a b)
  unfold takesPlace
  rw [hkeys]
  rfl

lemma keepBest_shift (caller : List (Option String)) (best : List (String × Span PyFloat))
    (s : Span PyFloat) : keepBest caller (shiftBest d best) (s.shift d) =
      (keepBest caller best s).map (shiftBest d) := by
  have hexchange : (s.shift d).exchange = s.exchange := rfl
  unfold keepBest
  rw [hexchange, lookup_shiftBest]
  cases best.lookup s.exchange with
  | none => simp [shiftBest, Except.map]
  | some cur =>
    simp only [Option.map_some, takesPlace_shift]
    cases takesPlace caller s cur with
    | error e => rfl
    | ok takes =>
      cases takes with
      | false => rfl
      | true =>
        simp only [Lib.ok_bind, if_true]
        refine congrArg Except.ok ?_
        simp only [shiftBest, List.map_map]
        apply List.map_congr_left
        intro e _
        by_cases he : e.1 = s.exchange <;> simp [he]

lemma turnIndex_shift (s : Span PyFloat) (dflt : Int) :
    turnIndex (s.shift d) dflt = turnIndex s dflt := rfl

lemma turnSpans_shift (spans : List (Span PyFloat)) :
    turnSpans (spans.map (Span.shift d)) = (turnSpans spans).map (List.map (Span.shift d)) := by
  have hfilter : (spans.map (Span.shift d)).filter (·.stage = .turn) =
      (spans.filter (·.stage = .turn)).map (Span.shift d) := by
    rw [List.filter_map]
    rfl
  have hfold := Lib.foldlM_map (g := shiftBest d) (k := Span.shift d)
    (keepBest_shift (callerSide spans)) (spans.filter (·.stage = .turn)) []
  let key (e : String × Span PyFloat) : Except PyError ((Int × Nat × PyFloat) × Span PyFloat) := do
    return ((← turnIndex e.2 1000000000, ← orderKey e.2), e.2)
  let moved (r : (Int × Nat × PyFloat) × Span PyFloat) := ((r.1.1, shiftKey d r.1.2), r.2.shift d)
  have hkeyed (best : List (String × Span PyFloat)) :
      (best.map fun e => (e.1, e.2.shift d)).mapM key = (best.mapM key).map (List.map moved) := by
    refine Lib.mapM_map (fun e => ?_) best
    simp only [key, turnIndex_shift, orderKey_shift]
    cases turnIndex e.2 1000000000 with
    | error error => rfl
    | ok i => cases orderKey e.2 <;> rfl
  unfold turnSpans
  rw [hfilter, callerSide_shift]
  change (List.foldlM _ (shiftBest d []) _ >>= _) = _
  rw [hfold]
  cases (spans.filter (·.stage = .turn)).foldlM (keepBest (callerSide spans)) [] with
  | error e => rfl
  | ok best =>
    change (List.mapM _ (best.map fun e => (e.1, e.2.shift d)) >>= _) = Except.map _ (List.mapM _ best >>= _)
    rw [hkeyed]
    cases best.mapM key with
    | error e => rfl
    | ok keyed =>
      refine congrArg Except.ok ?_
      have hsorted : (Lib.sorted (fun a b => indexedLt a.1 b.1) keyed).map moved =
          Lib.sorted (fun a b => indexedLt a.1 b.1) (keyed.map moved) := by
        refine Lib.map_sorted (fun a b => ?_) keyed
        simp only [moved, indexedLt, keyLt_shiftKey]
      rw [← hsorted, List.map_map, List.map_map]
      rfl

end

/-! ### Turns derived from events -/

section

variable {d : ℚ}

def Group.shift (d : ℚ) (g : Group PyFloat) : Group PyFloat :=
  { g with
    sttFinal := g.sttFinal.map (· + .fin d)
    committed := g.committed.map (· + .fin d)
    llmFirst := g.llmFirst.map (· + .fin d)
    ttsFirst := g.ttsFirst.map (· + .fin d) }

/-- A turn whose times are on the call clock, moved with it. -/
def Measured.shift (d : ℚ) (m : Measured) : Measured :=
  { m with
    sttFinalAt := m.sttFinalAt.map (· + .fin d)
    committedAt := m.committedAt.map (· + .fin d)
    llmFirstTokenAt := m.llmFirstTokenAt.map (· + .fin d)
    ttsFirstAudioAt := m.ttsFirstAudioAt.map (· + .fin d) }

def Turn.shift (d : ℚ) (t : Turn Measured) : Turn Measured :=
  { t with measured := t.measured.shift d }

lemma eventTurn_shift (g : Group PyFloat) : eventTurn (g.shift d) = (eventTurn g).shift d := by
  simp only [eventTurn, Measured.shift, Group.shift, ms_shift]

variable [Text]

lemma Group.add_shift (g : Group PyFloat) (t : PyFloat) (e : SpanEvent PyFloat) :
    (g.shift d).add (t + .fin d) (e.shift d) = (g.add t e).shift d := by
  have hname : (e.shift d).name = e.name := rfl
  have htext : (e.shift d).text = e.text := rfl
  simp only [Group.add, hname, htext]
  split <;> split <;> simp [Group.shift]

variable {cfg : MetricConfig} {audioEnabled : Bool}

lemma close_shift (turns : List (Turn Measured)) (g : Group PyFloat) :
    (canonical cfg audioEnabled).close (turns.map (Turn.shift d)) (g.shift d) =
      ((canonical cfg audioEnabled).close turns g).map (Turn.shift d) := by
  have hturn : (canonical cfg audioEnabled).eventTurn (g.shift d) =
      Measured.shift d ((canonical cfg audioEnabled).eventTurn g) := eventTurn_shift g
  by_cases hempty : g.sttFinal.isNone ∧ g.llmSpoken.isNone ∧ g.ttsFirst.isNone
  · simp [Calculator.close, Group.shift, hempty]
  · have hempty' : ¬((g.shift d).sttFinal.isNone ∧ (g.shift d).llmSpoken.isNone ∧
        (g.shift d).ttsFirst.isNone) := by simpa [Group.shift] using hempty
    rw [Calculator.close, if_neg hempty', Calculator.close, if_neg hempty, List.map_append,
      List.length_map, hturn]
    rfl

def shiftEvents (d : ℚ) (acc : List (Turn Measured) × Option (Group PyFloat)) :
    List (Turn Measured) × Option (Group PyFloat) :=
  (acc.1.map (Turn.shift d), acc.2.map (Group.shift d))

lemma eventStep_shift (acc : List (Turn Measured) × Option (Group PyFloat))
    (e : PyFloat × SpanEvent PyFloat) :
    (canonical cfg audioEnabled).eventStep (shiftEvents d acc) (e.1 + .fin d, e.2.shift d) =
      shiftEvents d ((canonical cfg audioEnabled).eventStep acc e) := by
  obtain ⟨turns, group⟩ := acc
  have hfresh : Group.add {} (e.1 + .fin d) (e.2.shift d) = (Group.add {} e.1 e.2).shift d :=
    Group.add_shift {} e.1 e.2
  cases group with
  | none => simp [Calculator.eventStep, shiftEvents, hfresh]
  | some g =>
    have hopen : ((e.2.shift d).name = "stt.final" ∧ (g.shift d).agentSeen) =
      (e.2.name = "stt.final" ∧ g.agentSeen) := rfl
    simp only [Calculator.eventStep, shiftEvents, Option.map_some, hopen, hfresh]
    split
    · rw [close_shift]
      rfl
    · rw [Group.add_shift]
      rfl

lemma turnsFromEvents_shift (trace : Trace PyFloat CallHeader) :
    (canonical cfg audioEnabled).turnsFromEvents (trace.shift d) =
      ((canonical cfg audioEnabled).turnsFromEvents trace).map (Turn.shift d) := by
  have htimed : ((trace.shift d).spans.flatMap Span.events).filterMap (fun e => e.t.map (·, e)) =
      ((trace.spans.flatMap Span.events).filterMap fun e => e.t.map (·, e)).map
        fun e => (e.1 + .fin d, e.2.shift d) := by
    have hevents : (trace.shift d).spans.flatMap Span.events =
        (trace.spans.flatMap Span.events).map (SpanEvent.shift d) := by
      rw [List.map_flatMap]
      exact List.flatMap_map ..
    rw [hevents, List.filterMap_map, List.map_filterMap]
    apply List.filterMap_congr
    intro e _
    simp only [Function.comp_apply, SpanEvent.shift, Option.map_map]
    rfl
  have hsorted (events : List (PyFloat × SpanEvent PyFloat)) :
      (Lib.sorted (fun a b => Builtins.lt a.1 b.1) events).map
        (fun e => (e.1 + .fin d, e.2.shift d)) =
      Lib.sorted (fun a b => Builtins.lt a.1 b.1)
        (events.map fun e => (e.1 + .fin d, e.2.shift d)) :=
    Lib.map_sorted (fun a b => PyFloat.lt_add_fin a.1 b.1 d) events
  have hfold (events : List (PyFloat × SpanEvent PyFloat)) (acc) :
      (events.map fun e => (e.1 + .fin d, e.2.shift d)).foldl (canonical cfg audioEnabled).eventStep
        (shiftEvents d acc) =
      shiftEvents d (events.foldl (canonical cfg audioEnabled).eventStep acc) := by
    induction events generalizing acc with
    | nil => rfl
    | cons e events ih => rw [List.map_cons, List.foldl_cons, List.foldl_cons, eventStep_shift, ih]
  unfold Calculator.turnsFromEvents
  simp only [htimed, ← hsorted]
  have hrun (events : List (PyFloat × SpanEvent PyFloat)) :
      (events.map fun e => (e.1 + .fin d, e.2.shift d)).foldl (canonical cfg audioEnabled).eventStep
        ([], none) = shiftEvents d (events.foldl (canonical cfg audioEnabled).eventStep ([], none)) :=
    hfold events ([], none)
  rw [hrun]
  generalize (List.foldl (canonical cfg audioEnabled).eventStep ([], none) _) = acc
  obtain ⟨turns, group⟩ := acc
  cases group with
  | none => rfl
  | some g => exact close_shift turns g

end

/-! ### The analysis -/

section

variable {d o : ℚ}

lemma agentIntervals_shift (spans : List (Span PyFloat)) :
    agentIntervals (spans.map (Span.shift d)) (.fin (o + d)) = agentIntervals spans (.fin o) := by
  have hfilter : (spans.map (Span.shift d)).filter (fun s => s.stage = .tts ∨ s.stage = .playout) =
      (spans.filter fun s => s.stage = .tts ∨ s.stage = .playout).map (Span.shift d) := by
    rw [List.filter_map]
    rfl
  rw [agentIntervals, hfilter, List.filterMap_map]
  exact congrArg Lib.merge (congrArg (List.filterMap · _) (funext fun s => window_shift))

/-- The metrics of the turns read none of the times that a derived turn moves. -/
lemma layer2Metrics_shift (turns : List Measured) :
    layer2Metrics (turns.map (Measured.shift d)) = layer2Metrics turns := by
  simp only [layer2Metrics, percentileMetric, tokensPerTurn, truncationRate, cutReasons,
    List.filterMap_map]
  rfl

lemma measured_shift (turns : List (Turn Measured)) : (turns.map (Turn.shift d)).map Turn.measured =
    (turns.map Turn.measured).map (Measured.shift d) := by
  rw [List.map_map, List.map_map]
  rfl

variable [Text] {cfg : MetricConfig} {audioEnabled : Bool}

lemma trustReport_ok_iff (trace : Trace PyFloat CallHeader) (audio : Option (AudioAnalysis PyFloat))
    (turns : List Measured) (offset : PyFloat) (derived : Bool) :
    (∃ t, trustReport trace audio turns offset cfg audioEnabled derived = .ok t) ↔
      ∃ n, spanDroppedEvents trace.header = .ok n := by
  unfold trustReport
  cases spanDroppedEvents trace.header with
  | error e => exact iff_of_false (by rintro ⟨t, ht⟩; cases ht) (by rintro ⟨n, hn⟩; cases hn)
  | ok dropped => exact iff_of_true ⟨_, rfl⟩ ⟨_, rfl⟩

lemma report_shift {trace : Trace PyFloat CallHeader} {audio : Option (AudioAnalysis PyFloat)}
    {turns turns' : List (Turn Measured)} {r : Report} (hempty : turns'.isEmpty = turns.isEmpty)
    (hmetrics : layer2Metrics (turns'.map Turn.measured) = layer2Metrics (turns.map Turn.measured))
    (h : report cfg audioEnabled trace audio turns (.fin o) = .ok r) :
    ∃ r', report cfg audioEnabled (trace.shift d) audio turns' (.fin (o + d)) = .ok r' ∧
      r'.metrics = r.metrics := by
  obtain ⟨layer2, hlayer2, h⟩ := Lib.bind_eq_ok.1 h
  obtain ⟨trust, htrust, h⟩ := Lib.bind_eq_ok.1 h
  cases h
  have hlayer2' : turnMetrics ((trace.shift d).spans.isEmpty || turns'.isEmpty)
      (turns'.map Turn.measured) = .ok layer2 := by
    rw [← hlayer2, hempty, turnMetrics, turnMetrics, hmetrics, Trace.shift, List.isEmpty_map]
  obtain ⟨trust', htrust'⟩ : ∃ t, trustReport (trace.shift d) audio (turns'.map Turn.measured)
      (.fin (o + d)) cfg audioEnabled
      (!turns'.isEmpty && (trace.shift d).spans.all (·.stage ≠ .turn)) = .ok t :=
    (trustReport_ok_iff (trace.shift d) ..).2 ((trustReport_ok_iff trace ..).1 ⟨trust, htrust⟩)
  have hiv : agentIntervals (trace.shift d).spans (.fin (o + d)) =
      agentIntervals trace.spans (.fin o) := agentIntervals_shift trace.spans
  unfold report
  dsimp only
  rw [hlayer2', Lib.ok_bind, htrust', hiv]
  exact ⟨_, rfl, rfl⟩

/-- Some span is a turn. -/
def HasTurnSpan (spans : List (Span PyFloat)) : Prop :=
  ∃ s ∈ spans, s.stage = .turn

lemma keepBest_ne_nil {caller : List (Option String)} {best best' : List (String × Span PyFloat)}
    {s : Span PyFloat} (h : keepBest caller best s = .ok best') : best' ≠ [] := by
  unfold keepBest at h
  cases hfind : best.lookup s.exchange with
  | none =>
    rw [hfind] at h
    cases h
    simp
  | some cur =>
    rw [hfind] at h
    obtain ⟨takes, -, h⟩ := Lib.bind_eq_ok.1 h
    have hne : best ≠ [] := by
      rintro rfl
      cases hfind
    cases takes with
    | false =>
      cases h
      exact hne
    | true =>
      cases h
      simpa using hne

lemma turnSpans_ne_nil_iff {spans ts : List (Span PyFloat)} (h : turnSpans spans = .ok ts) :
    ts ≠ [] ↔ HasTurnSpan spans := by
  obtain ⟨best, hbest, h⟩ := Lib.bind_eq_ok.1 h
  obtain ⟨keyed, hkeyed, h⟩ := Lib.bind_eq_ok.1 h
  cases h
  have hlength : keyed.map (fun _ => ()) = best.map fun _ => () :=
    Lib.map_of_mapM_ok (fun _ _ _ => rfl) hkeyed
  have hkeyed' : keyed = [] ↔ best = [] := by
    rw [← List.map_eq_nil_iff (f := fun _ => ()), hlength, List.map_eq_nil_iff]
  have hts : (Lib.sorted (fun a b => indexedLt a.1 b.1) keyed).map Prod.snd = [] ↔ keyed = [] := by
    rw [List.map_eq_nil_iff, ← List.length_eq_zero_iff, (Lib.sorted_perm _ keyed).length_eq,
      List.length_eq_zero_iff]
  rw [ne_eq, hts, hkeyed', HasTurnSpan]
  cases hturns : spans.filter (·.stage = .turn) with
  | nil =>
    rw [hturns] at hbest
    cases hbest
    have hnone := List.filter_eq_nil_iff.1 hturns
    simpa using hnone
  | cons s rest =>
    rw [hturns, List.foldlM_cons] at hbest
    obtain ⟨best₁, hbest₁, hbest⟩ := Lib.bind_eq_ok.1 hbest
    have hne : best ≠ [] := Lib.foldlM_ok (I := fun best => best ≠ [])
      (fun _ _ _ _ _ hok => keepBest_ne_nil hok) (keepBest_ne_nil hbest₁) hbest
    have hs : s ∈ spans.filter (·.stage = .turn) := hturns ▸ List.mem_cons_self
    have hstage : s.stage = .turn := by simpa using List.of_mem_filter hs
    exact iff_of_true hne ⟨s, List.mem_of_mem_filter hs, hstage⟩

/-- What the shift does to an analysis: nothing, or it moves the derived turns. -/
theorem analyze_shift {trace : Trace PyFloat CallHeader} {audio : Option (AudioAnalysis PyFloat)}
    {a : Analysis Measured Report}
    (h : (canonical cfg audioEnabled).analyze trace audio (some (.fin o)) = .ok a) :
    ∃ a', (canonical cfg audioEnabled).analyze (trace.shift d) audio (some (.fin (o + d))) = .ok a' ∧
      a'.report.metrics = a.report.metrics ∧
      (HasTurnSpan trace.spans ∧ a'.turns = a.turns ∨
        ¬HasTurnSpan trace.spans ∧
          a.turns = (canonical cfg audioEnabled).turnsFromEvents trace ∧
          a'.turns = a.turns.map (Turn.shift d)) := by
  obtain ⟨ts, hts, h⟩ := Lib.bind_eq_ok.1 h
  obtain ⟨turns, hturns, h⟩ := Lib.bind_eq_ok.1 h
  obtain ⟨r, hr, h⟩ := Lib.bind_eq_ok.1 h
  cases h
  have hts' : turnSpans (trace.shift d).spans = .ok (ts.map (Span.shift d)) := by
    rw [Trace.shift, turnSpans_shift, hts]
    rfl
  have hturns' : ((ts.map (Span.shift d)).zipIdx.mapM fun (ts, position) =>
      (canonical cfg audioEnabled).buildTurn ts (trace.shift d).spans
        ((audio.map AudioAnalysis.utterances).getD []) (.fin (o + d)) position) = .ok turns := by
    have hbuild (e : Span PyFloat × Nat) : (canonical cfg audioEnabled).buildTurn (e.1.shift d)
        (trace.shift d).spans ((audio.map AudioAnalysis.utterances).getD []) (.fin (o + d)) e.2 =
        ((canonical cfg audioEnabled).buildTurn e.1 trace.spans
          ((audio.map AudioAnalysis.utterances).getD []) (.fin o) e.2).map id := by
      have hwaterfall (utterances : List (Utterance PyFloat)) :
          waterfall (e.1.shift d) e.1.exchange (trace.spans.map (Span.shift d)) utterances
            (.fin (o + d)) = waterfall e.1 e.1.exchange trace.spans utterances (.fin o) :=
        waterfall_shift e.1 e.1.exchange utterances
      have hid (x : Except PyError (Turn Measured)) : x.map id = x := by cases x <;> rfl
      rw [hid]
      unfold Calculator.buildTurn
      change (waterfall (e.1.shift d) e.1.exchange (trace.spans.map (Span.shift d)) _ _ >>= _) = _
      rw [hwaterfall]
      rfl
    let build (e : Span PyFloat × Nat) := (canonical cfg audioEnabled).buildTurn e.1 trace.spans
      ((audio.map AudioAnalysis.utterances).getD []) (.fin o) e.2
    let build' (e : Span PyFloat × Nat) := (canonical cfg audioEnabled).buildTurn e.1
      (trace.shift d).spans ((audio.map AudioAnalysis.utterances).getD []) (.fin (o + d)) e.2
    have hmap : (ts.zipIdx.map (Prod.map (Span.shift d) id)).mapM build' =
        (ts.zipIdx.mapM build).map (List.map id) :=
      Lib.mapM_map hbuild ts.zipIdx
    have hbuilt : ts.zipIdx.mapM build = .ok turns := hturns
    rw [hbuilt] at hmap
    rw [List.zipIdx_map]
    exact hmap.trans (congrArg Except.ok (List.map_id turns))
  have hempty : turns = [] ↔ ¬HasTurnSpan trace.spans := by
    have hlength : turns.map (fun _ => ()) = ts.zipIdx.map fun _ => () :=
      Lib.map_of_mapM_ok (fun _ _ _ => rfl) hturns
    rw [← turnSpans_ne_nil_iff hts, not_not, ← List.map_eq_nil_iff (f := fun _ => ()), hlength,
      List.map_eq_nil_iff, List.zipIdx_eq_nil_iff]
  by_cases hturn : HasTurnSpan trace.spans
  · have hne : turns.isEmpty = false := by simpa [hturn] using hempty
    rw [if_neg (by simp [hne])] at hr
    obtain ⟨r', hr', hmetrics⟩ := report_shift (d := d) rfl rfl hr
    refine ⟨⟨turns, r'⟩, ?_, hmetrics, .inl ⟨hturn, ?_⟩⟩
    · unfold Calculator.analyze
      simp only [hts', Option.getD_some, Lib.ok_bind, hturns', hne, Bool.false_eq_true, if_false,
        canonical_report, hr']
      rfl
    · simp [hne]
  · obtain rfl := hempty.2 hturn
    rw [List.isEmpty_nil, if_pos rfl] at hr
    obtain ⟨r', hr', hmetrics⟩ := report_shift (d := d) (List.isEmpty_map (f := Turn.shift d))
      (by rw [measured_shift, layer2Metrics_shift]) hr
    refine ⟨⟨_, r'⟩, ?_, hmetrics, .inr ⟨hturn, rfl, rfl⟩⟩
    unfold Calculator.analyze
    simp only [hts', Option.getD_some, Lib.ok_bind, hturns', List.isEmpty_nil, if_true,
      turnsFromEvents_shift, canonical_report, hr']
    rfl

end

end Pulse.Core
