import Pulse.Worker.Persist

/-!
# Stale derived rows

A run that reports has written all turns, metrics, events, utterances, peaks and energies of its call.
The discrepancies are written by a successful cross-check only, so those of an earlier run stay when
the overlay is off, when the cross-check fails and when the audio alone is analysed.
-/

namespace Pulse.Worker.Process

open Pulse.Core
open Lib (PyFloat Succeeds)

variable {P C : Type}

/-! ### Sequences of runs -/

/-- What happens to a call: a run over it, or its evidence is replaced. -/
inductive Action (P C : Type)
  | process (rt : Runtime P C)
  | processTrace (rt : Runtime P C) (trace : Trace PyFloat CallHeader) (adapterVersion : Int)
  | processAudioOnly (rt : Runtime P C) (useStt : Bool) (now : ℚ)
  | replaceEvidence (columns : Columns) (fragments : List P) (recordings : List MediaRow)

/-- A call without derived rows. -/
def CallState.new (columns : Columns) (fragments : List P) (recordings : List MediaRow) :
    CallState P where
  columns := columns
  fragments := fragments
  media := (recordings.filter fun m => !derivedKind m.kind).map (⟨0, ·⟩)

def CallState.nextNumber (s : CallState P) : CallState P :=
  { s with nextRun := s.nextRun + 1 }

/-- The state after a run, and the status if one is reported: a run that raises is rolled back. -/
def afterRun (s : CallState P) (outcome : Except Failure (CallState P × RunStatus)) :
    CallState P × Option RunStatus :=
  match outcome with
  | .ok (s', status) => (s'.nextNumber, some status)
  | .error _ => (s.nextNumber, none)

def step [Text] (s : CallState P) : Action P C → CallState P × Option RunStatus
  | .process rt => afterRun s (process rt s)
  | .processTrace rt trace version => afterRun s (processTrace rt s trace version)
  | .processAudioOnly rt useStt now => afterRun s (.ok (processAudioOnly rt s useStt now))
  | .replaceEvidence columns fragments recordings =>
    ({ s with
        columns := columns
        fragments := fragments
        media := (s.media.filter fun m => derivedKind m.row.kind) ++
          (recordings.filter fun m => !derivedKind m.kind).map (⟨s.nextRun, ·⟩) }, none)

/-- The run reports ok or partial. -/
def Reports (status : Option RunStatus) : Prop :=
  status = some .ok ∨ status = some .partially

/-- Every derived row was written by run `n`. -/
structure Fresh (n : Nat) (s : CallState P) : Prop where
  turns : ∀ r ∈ s.turns, r.run = n
  metrics : ∀ r ∈ s.metrics, r.run = n
  events : ∀ r ∈ s.events, r.run = n
  utterances : ∀ r ∈ s.utterances, r.run = n
  media : ∀ r ∈ s.media, derivedKind r.row.kind = true → r.run = n
  discrepancies : ∀ r ∈ s.discrepancies, r.run = n

/-- After each run that reports, every derived row is that run's. -/
def NoStaleRows [Text] (s : CallState P) : List (Action P C) → Prop
  | [] => True
  | a :: as => (Reports (step s a).2 → Fresh s.nextRun (step s a).1) ∧ NoStaleRows (step s a).1 as

/-! ### When the discrepancies are rewritten -/

/-- The agent of the call after the header is applied. -/
def CallState.agentAfter (s : CallState P) (h : CallHeader) : Option String :=
  CallState.agentId { s with columns := s.columns.setAll (headerWrites h) }

/-- The mono recordings and the settings of the speech-to-text service can be read. -/
def CrossChecks (rt : Runtime P C) (s : CallState P) (agentId : Option String) : Prop :=
  ∃ creds, rt.resolveCreds agentId = .ok creds ∧
    Succeeds (monoBytes rt (s.recording "audio_caller") creds) ∧
    Succeeds (monoBytes rt (s.recording "audio_agent") creds) ∧ Succeeds (rt.resolveStt agentId)

/-- The run switches the overlay on, and its cross-check succeeds. -/
def Rewrites [Text] (s : CallState P) : Action P C → Prop
  | .process rt => rt.audioEnabled s.agentId = true ∧
      ∀ fw trace, chooseAdapter rt s = .ok fw → fw.adapter.toTrace s.fragments = .ok trace →
        CrossChecks rt s (s.agentAfter trace.header)
  | .processTrace rt trace _ => rt.audioEnabled s.agentId = true ∧
      CrossChecks rt s (s.agentAfter trace.header)
  | .processAudioOnly _ _ _ => False
  | .replaceEvidence _ _ _ => True

/-- Each run that reports rewrites the discrepancies, or finds none. -/
def AllRewritten [Text] (s : CallState P) : List (Action P C) → Prop
  | [] => True
  | a :: as => (Reports (step s a).2 → Rewrites s a ∨ s.discrepancies = []) ∧
      AllRewritten (step s a).1 as

/-! ### One run -/

section

variable [Text] {rt : Runtime P C} {s s' : CallState P}
  {trace : Trace PyFloat CallHeader} {version : Int} {calculator : AnyCalculator}
  {status : RunStatus}

omit [Text] in
lemma fresh_nextNumber {n : Nat} : Fresh n s.nextNumber ↔ Fresh n s :=
  ⟨fun h => ⟨h.turns, h.metrics, h.events, h.utterances, h.media, h.discrepancies⟩,
    fun h => ⟨h.turns, h.metrics, h.events, h.utterances, h.media, h.discrepancies⟩⟩

omit [Text] in
lemma run_of_mem {α : Type} {n : Nat} {rows : List α} {r : Written α}
    (h : r ∈ rows.map (⟨n, ·⟩ : α → Written α)) : r.run = n := by
  obtain ⟨a, -, rfl⟩ := List.mem_map.1 h
  rfl

/-- The success of a cross-check does not depend on the turns. -/
lemma succeeds_crossCheck (turns : List (Turn Measured)) : Succeeds (crossCheck rt s turns) ↔ CrossChecks rt s s.agentId := by
  constructor
  · intro h
    obtain ⟨creds, hcreds, h⟩ := Lib.succeeds_bind.1 h
    obtain ⟨caller, hcaller, h⟩ := Lib.succeeds_bind.1 h
    obtain ⟨agent, hagent, h⟩ := Lib.succeeds_bind.1 h
    obtain ⟨stt, hstt, -⟩ := Lib.succeeds_bind.1 h
    exact ⟨creds, hcreds, ⟨caller, hcaller⟩, ⟨agent, hagent⟩, ⟨stt, hstt⟩⟩
  · rintro ⟨creds, hcreds, hcaller, hagent, hstt⟩
    refine Lib.Succeeds.bind ⟨creds, hcreds⟩ fun creds' hcreds' => ?_
    obtain rfl : creds = creds' := Except.ok.inj (hcreds.symm.trans hcreds')
    exact hcaller.bind fun _ _ => hagent.bind fun _ _ => hstt.bind fun _ _ => ⟨_, rfl⟩

/-- The discrepancies after `_reconcile` are the new ones, or the old ones. -/
lemma reconcile_cases (rt : Runtime P C) (s : CallState P) (turns : List (Turn Measured)) :
    (CrossChecks rt s s.agentId ∧ ∃ ds : List Discrepancy,
      reconcile rt s turns = { s with discrepancies := ds.map (⟨s.nextRun, ·⟩) }) ∨
    ¬CrossChecks rt s s.agentId ∧ reconcile rt s turns = s := by
  rw [← succeeds_crossCheck turns, reconcile]
  cases crossCheck rt s turns with
  | ok ds => exact .inl ⟨Lib.succeeds_ok ds, ds, rfl⟩
  | error e => exact .inr ⟨Lib.not_succeeds_error e, rfl⟩

lemma crossChecks_persisted {audio : Option AudioOutput} {analysis : Analysis Measured Report}
    {cols : Columns} {rows : NewRows}
    (h : Computed rt s trace version calculator audio analysis cols rows) :
    CrossChecks rt (s.persisted cols rows) (s.persisted cols rows).agentId ↔
      CrossChecks rt s (s.agentAfter trace.header) := by
  have hrecording (kind : String) (hkind : derivedKind kind = false) :
      (s.persisted cols rows).recording kind = s.recording kind :=
    recording_replaceRows (analysisRows_media h.makes) hkind
  have hagent : (s.persisted cols rows).agentId = s.agentAfter trace.header := by
    have hcolumn : cols "agent_id" = s.columns.setAll (headerWrites trace.header) "agent_id" :=
      persistColumns_apply (by decide) h.writes
    simp only [CallState.agentAfter, CallState.agentId, CallState.text, CallState.persisted, hcolumn]
  rw [hagent, CrossChecks, CrossChecks, hrecording "audio_caller" (by decide),
    hrecording "audio_agent" (by decide)]

omit [Text] in
/-- The rows that replace the old ones are this run's; the discrepancies are not replaced. -/
lemma fresh_replaceRows {cols : Columns} {rows : NewRows} {ds : List (Written Discrepancy)} :
    Fresh s.nextRun { s.replaceRows rows with columns := cols, discrepancies := ds } ↔
      ∀ r ∈ ds, r.run = s.nextRun := by
  refine ⟨Fresh.discrepancies, fun h => ⟨fun _ => run_of_mem, fun _ => run_of_mem,
    fun _ => run_of_mem, fun _ => run_of_mem, fun r hr hderived => ?_, h⟩⟩
  rcases List.mem_append.1 hr with hr | hr
  · have hnot := (List.mem_filter.1 hr).2
    rw [hderived] at hnot
    cases hnot
  · exact run_of_mem hr

/-- An analysis of a trace leaves fresh rows, if it rewrites the discrepancies or the old ones are
its own. -/
lemma fresh_analyseTrace (h : analyseTrace rt s trace version calculator = .ok (s', status)) :
    Fresh s.nextRun s' ↔
      (rt.audioEnabled s.agentId = true ∧ CrossChecks rt s (s.agentAfter trace.header)) ∨
        ∀ r ∈ s.discrepancies, r.run = s.nextRun := by
  obtain ⟨audio, analysis, cols, rows, hc, hfinished⟩ := analyseTrace_eq_ok.1 h
  cases hfinished
  have hold : Fresh s.nextRun (s.persisted cols rows) ↔ ∀ r ∈ s.discrepancies, r.run = s.nextRun :=
    fresh_replaceRows
  by_cases henabled : rt.audioEnabled s.agentId = true
  · rw [if_pos henabled]
    rcases reconcile_cases rt (s.persisted cols rows) analysis.turns with
      ⟨hchecks, ds, hds⟩ | ⟨hchecks, hds⟩
    · have hnew : Fresh s.nextRun (reconcile rt (s.persisted cols rows) analysis.turns) := by
        rw [hds]
        exact fresh_replaceRows.2 fun _ => run_of_mem
      exact iff_of_true hnew (.inl ⟨henabled, (crossChecks_persisted hc).1 hchecks⟩)
    · rw [hds, hold, ← crossChecks_persisted hc]
      simp [hchecks]
  · rw [if_neg henabled, hold]
    simp [henabled]

/-! ### Sequences of runs -/

/-- The discrepancies were written by earlier runs. -/
def Numbered (s : CallState P) : Prop :=
  ∀ r ∈ s.discrepancies, r.run < s.nextRun

omit [Text] in
lemma numbered_discrepancies (h : Numbered s) :
    (∀ r ∈ s.discrepancies, r.run = s.nextRun) ↔ s.discrepancies = [] := by
  constructor
  · intro hall
    refine List.eq_nil_iff_forall_not_mem.2 fun r hr => ?_
    have hrun := h r hr
    rw [hall r hr] at hrun
    exact Nat.lt_irrefl _ hrun
  · intro hnil r hr
    rw [hnil] at hr
    cases hr

/-- A run changes the discrepancies to its own, or not at all. -/
lemma analyseTrace_discrepancies (h : analyseTrace rt s trace version calculator = .ok (s', status)) :
    s'.nextRun = s.nextRun ∧ (s'.discrepancies = s.discrepancies ∨
      ∀ r ∈ s'.discrepancies, r.run = s.nextRun) := by
  obtain ⟨audio, analysis, cols, rows, hc, hfinished⟩ := analyseTrace_eq_ok.1 h
  cases hfinished
  split
  · rcases reconcile_cases rt (s.persisted cols rows) analysis.turns with
      ⟨-, ds, hds⟩ | ⟨-, hds⟩
    · rw [hds]
      exact ⟨rfl, .inr fun _ => run_of_mem⟩
    · rw [hds]
      exact ⟨rfl, .inl rfl⟩
  · exact ⟨rfl, .inl rfl⟩

omit [Text] in
lemma numbered_of_discrepancies (h : Numbered s) (hnext : s'.nextRun = s.nextRun)
    (hds : s'.discrepancies = s.discrepancies ∨ ∀ r ∈ s'.discrepancies, r.run = s.nextRun) :
    Numbered s'.nextNumber := by
  intro r hr
  change r.run < s'.nextRun + 1
  rw [hnext]
  rcases hds with hds | hds
  · exact Nat.lt_succ_of_lt (h r (hds ▸ hr))
  · exact Nat.lt_succ_of_le (hds r hr).le

lemma process_eq_ok (h : process rt s = .ok (s', status)) : ∃ fw trace,
    chooseAdapter rt s = .ok fw ∧ fw.adapter.toTrace s.fragments = .ok trace ∧
      analyseTrace rt s trace fw.adapter.version fw.calculator = .ok (s', status) := by
  obtain ⟨fw, hfw, h⟩ := Lib.bind_eq_ok.1 h
  obtain ⟨trace, htrace, h⟩ := Lib.bind_eq_ok.1 h
  exact ⟨fw, trace, hfw, htrace, h⟩

omit [Text] in
/-- An analysis of the audio alone rewrites all but the discrepancies, or fails. -/
lemma processAudioOnly_cases (rt : Runtime P C) (s : CallState P) (useStt : Bool) (now : ℚ) :
    (∃ cols rows, processAudioOnly rt s useStt now = (s.persisted cols rows, .ok)) ∨
      ∃ reason, processAudioOnly rt s useStt now = (fail s reason, .failed) := by
  unfold processAudioOnly
  cases h : analyseAudioOnly rt s useStt now with
  | error e => cases e <;> exact .inr ⟨_, rfl⟩
  | ok r =>
    cases r with
    | none => exact .inr ⟨_, rfl⟩
    | some s' =>
      obtain ⟨creds, -, h⟩ := Lib.bind_eq_ok.1 h
      obtain ⟨⟨wav, sr⟩, -, h⟩ := Lib.bind_eq_ok.1 h
      cases wav with
      | none => cases h
      | some wav =>
        obtain ⟨layout, -, h⟩ := Lib.bind_eq_ok.1 h
        obtain ⟨⟨audio, mode, confidence⟩, -, h⟩ := Lib.bind_eq_ok.1 h
        cases useStt with
        | false =>
          cases h
          exact .inl ⟨_, _, rfl⟩
        | true =>
          obtain ⟨turns, -, h⟩ := Lib.bind_eq_ok.1 h
          cases h
          exact .inl ⟨_, _, rfl⟩

/-- What one action does to the discrepancies keeps them numbered. -/
lemma numbered_step (h : Numbered s) (a : Action P C) : Numbered (step s a).1 := by
  cases a with
  | process rt =>
    change Numbered (afterRun s (process rt s)).1
    cases hrun : process rt s with
    | error e => exact numbered_of_discrepancies h rfl (.inl rfl)
    | ok r =>
      obtain ⟨fw, trace, -, -, hanalyse⟩ := process_eq_ok hrun
      obtain ⟨hnext, hds⟩ := analyseTrace_discrepancies hanalyse
      exact numbered_of_discrepancies h hnext hds
  | processTrace rt trace version =>
    change Numbered (afterRun s (processTrace rt s trace version)).1
    cases hrun : processTrace rt s trace version with
    | error e => exact numbered_of_discrepancies h rfl (.inl rfl)
    | ok r =>
      obtain ⟨hnext, hds⟩ := analyseTrace_discrepancies hrun
      exact numbered_of_discrepancies h hnext hds
  | processAudioOnly rt useStt now =>
    change Numbered (processAudioOnly rt s useStt now).1.nextNumber
    rcases processAudioOnly_cases rt s useStt now with ⟨cols, rows, hrun⟩ | ⟨reason, hrun⟩
    · rw [hrun]
      exact numbered_of_discrepancies h rfl (.inl rfl)
    · rw [hrun]
      exact numbered_of_discrepancies h rfl (.inl rfl)
  | replaceEvidence columns fragments recordings => exact h

/-- A run that reports leaves fresh rows exactly when it rewrites the discrepancies or finds none. -/
lemma fresh_step (h : Numbered s) (a : Action P C) (hreports : Reports (step s a).2) :
    Fresh s.nextRun (step s a).1 ↔ Rewrites s a ∨ s.discrepancies = [] := by
  cases a with
  | process rt =>
    change Reports (afterRun s (process rt s)).2 at hreports
    change Fresh _ (afterRun s (process rt s)).1 ↔ _
    cases hrun : process rt s with
    | error e =>
      rw [hrun] at hreports
      rcases hreports with hreports | hreports <;> cases hreports
    | ok r =>
      obtain ⟨fw, trace, hfw, htrace, hanalyse⟩ := process_eq_ok hrun
      refine fresh_nextNumber.trans ((fresh_analyseTrace hanalyse).trans ?_)
      rw [numbered_discrepancies h]
      refine or_congr (and_congr Iff.rfl ⟨fun hchecks fw' trace' hfw' htrace' => ?_, fun hchecks => ?_⟩)
        Iff.rfl
      · obtain rfl : fw = fw' := Except.ok.inj (hfw.symm.trans hfw')
        obtain rfl : trace = trace' := Except.ok.inj (htrace.symm.trans htrace')
        exact hchecks
      · exact hchecks fw trace hfw htrace
  | processTrace rt trace version =>
    change Reports (afterRun s (processTrace rt s trace version)).2 at hreports
    change Fresh _ (afterRun s (processTrace rt s trace version)).1 ↔ _
    cases hrun : processTrace rt s trace version with
    | error e =>
      rw [hrun] at hreports
      rcases hreports with hreports | hreports <;> cases hreports
    | ok r =>
      refine fresh_nextNumber.trans ((fresh_analyseTrace hrun).trans ?_)
      rw [numbered_discrepancies h]
      exact Iff.rfl
  | processAudioOnly rt useStt now =>
    change Reports (some (processAudioOnly rt s useStt now).2) at hreports
    change Fresh _ (processAudioOnly rt s useStt now).1.nextNumber ↔ _
    rcases processAudioOnly_cases rt s useStt now with ⟨cols, rows, hrun⟩ | ⟨reason, hrun⟩
    · rw [hrun]
      have hfresh : Fresh s.nextRun (s.persisted cols rows) ↔
          ∀ r ∈ s.discrepancies, r.run = s.nextRun := fresh_replaceRows
      rw [fresh_nextNumber, hfresh, numbered_discrepancies h, Rewrites, false_or]
    · rw [hrun] at hreports
      rcases hreports with hreports | hreports <;> cases hreports
  | replaceEvidence columns fragments recordings =>
    rcases hreports with hreports | hreports <;> cases hreports

lemma noStaleRows_of_numbered (h : Numbered s) (actions : List (Action P C)) :
    NoStaleRows s actions ↔ AllRewritten s actions := by
  induction actions generalizing s with
  | nil => exact Iff.rfl
  | cons a actions ih =>
    exact and_congr (forall_congr' (fresh_step h a)) (ih (numbered_step h a))

/-- From a new call on, no run that reports leaves a stale row exactly when each of them rewrites the
discrepancies or finds none. -/
theorem noStaleRows_iff (columns : Columns) (fragments : List P) (recordings : List MediaRow)
    (actions : List (Action P C)) :
    NoStaleRows (CallState.new columns fragments recordings) actions ↔
      AllRewritten (CallState.new columns fragments recordings) actions :=
  noStaleRows_of_numbered (fun _ hr => absurd hr List.not_mem_nil) actions

end

/-- A recording in which the agent speaks from the first second to the second one. -/
def lateAgent : Dsp where
  decodeWav _ channelMap := .ok ⟨channelMap.map fun e => (e.2, []), 8000⟩
  combineStereo wav _ := .ok wav
  identifyAgentChannel _ := .ok none
  detectLayout _ := .ok "separated"
  wavDurationS _ := .fin 2
  detectUtterances _ speaker _ :=
    if speaker = "agent" then [⟨speaker, .fin 1, .fin 2⟩] else []
  channelPeaks _ _ := []
  channelEnergy _ _ := []
  channelCoverage _ := .fin 1

/-- Settings with the overlay on or off. -/
def overlay (enabled : Bool) : Runtime Unit Unit where
  metricVersion := 2
  metricConfig := {}
  mapping _ := none
  frameworkFor _ := none
  audioEnabled _ := enabled
  resolveCreds _ := .ok none
  fetchBytes _ _ := .ok [0]
  dsp := lateAgent
  pricing _ := none
  resolveStt _ := .ok none
  wer _ _ := 0
  diarize _ _ := .ok none
  sttTurns _ _ _ _ := .ok []

/-- A turn whose first audio is reported a second before the agent is heard. -/
def earlyReport : Trace PyFloat CallHeader where
  header := { callId := "c", source := "s", environment := "e" }
  spans := [
    { spanId := "a", name := "turn", stage := .turn, tStart := some (.fin 0), tEnd := some (.fin 3),
      turnId := some "t", events := [{ name := "tts.first_audio", t := some (.fin 0) }] }]

/-- An analysis with the overlay, and another one without it. -/
def overlaySwitchedOff : List (Action Unit Unit) :=
  [.processTrace (overlay true) earlyReport 0, .processTrace (overlay false) earlyReport 0]

/-- The discrepancy of the first run is still there after the second one. -/
theorem discrepancy_outlives_overlay :
    ¬∀ (columns : Columns) (fragments : List Unit) (recordings : List MediaRow)
      (actions : List (Action Unit Unit)),
      NoStaleRows (CallState.new columns fragments recordings) actions := by
  intro h
  let start : CallState Unit :=
    CallState.new (fun _ => .null) [] [{ kind := "audio", uri := some "recording.wav" }]
  let first := (step start (.processTrace (overlay true) earlyReport 0)).1
  let second := step first (.processTrace (overlay false) earlyReport 0)
  obtain ⟨-, hsecond, -⟩ := h (fun _ => .null) [] [{ kind := "audio", uri := some "recording.wav" }]
    overlaySwitchedOff
  have hreports : second.2 = some .partially := by decide +kernel
  have hruns : second.1.discrepancies.map Written.run = [0] := by decide +kernel
  have hnext : first.nextRun = 1 := by decide +kernel
  have hfresh : Fresh first.nextRun second.1 := hsecond (.inr hreports)
  obtain ⟨r, hr, hrun⟩ : ∃ r ∈ second.1.discrepancies, r.run = 0 :=
    List.mem_map.1 (hruns ▸ List.mem_singleton_self 0)
  have hstale := hfresh.discrepancies r hr
  rw [hrun, hnext] at hstale
  cases hstale

end Pulse.Worker.Process
