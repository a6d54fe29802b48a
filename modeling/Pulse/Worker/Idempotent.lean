import Pulse.Worker.StaleRows

/-!
# Processing twice

A second `process` finds the columns that the first one wrote. What it reads of them is either
written by the header before it is read, or written by no run, so that it computes and writes the
same again.
-/

namespace Pulse.Worker.Process

open Pulse.Core
open Lib (PyFloat)

variable {P C : Type}

/-! ### The columns -/

/-- The identity, gate and audio columns of a call. -/
def protectedColumns : List String :=
  ["id", "external_call_id", "trace_id", "source", "environment", "agent_id", "spans_complete",
    "media_ready", "audio_t0_offset_s", "audio_t0_epoch_ns", "channel_map", "sample_rate"]

/-- No counter has the name of a protected column. -/
def SparesProtected (h : CallHeader) : Prop :=
  ∀ e ∈ h.counters, e.1 ∉ protectedColumns

/-- Writing the same again changes nothing. -/
lemma setAll_setAll_setAll_setAll (cols : Columns) (hs ws : List (String × Column)) :
    (((cols.setAll hs).setAll ws).setAll hs).setAll ws = (cols.setAll hs).setAll ws := by
  funext name
  unfold Columns.setAll
  cases ws.lookup name <;> cases hs.lookup name <;> rfl

lemma lookup_ne_none {ws : List (String × Column)} {e : String × Column} (he : e ∈ ws) :
    ∃ c, ws.lookup e.1 = some c := by
  cases h : ws.lookup e.1 with
  | some c => exact ⟨c, rfl⟩
  | none =>
    rw [List.lookup_eq_none_iff] at h
    simpa using h e he

/-- The header writes the engine and the providers. -/
lemma exists_headerWrites {h : CallHeader} {name : String}
    (hname : name ∈ ["engine", "stt_provider", "llm_provider", "tts_provider"]) :
    ∃ c, (headerWrites h).lookup name = some c := by
  have hmem : ∃ c, (name, c) ∈ headerWrites h := by
    have hfields : ∃ c, (name, c) ∈ headerFields h := by
      simp only [List.mem_cons, List.not_mem_nil, or_false] at hname
      rcases hname with rfl | rfl | rfl | rfl <;>
        exact ⟨_, List.mem_append_right _ (by simp; rfl)⟩
    obtain ⟨c, hc⟩ := hfields
    refine ⟨c, List.mem_append_right _ (List.mem_filter.2 ⟨hc, ?_⟩)⟩
    simp only [List.mem_cons, List.not_mem_nil, or_false] at hname
    rcases hname with rfl | rfl | rfl | rfl <;> simp [callColumns]
  obtain ⟨c, hc⟩ := hmem
  exact lookup_ne_none hc

/-- The header writes no protected column. -/
lemma headerWrites_protected {h : CallHeader} (hspares : SparesProtected h) {name : String}
    (hname : name ∈ protectedColumns) : (headerWrites h).lookup name = none := by
  have hkeys : ∀ e ∈ headerWrites h, e.1 ∉ protectedColumns := by
    intro e he
    rcases List.mem_append.1 he with he | he
    · rcases List.mem_append.1 he with he | he
      · have hduration : e.1 = "duration_s" := by
          split at he
          · rw [List.mem_singleton.1 he]
          · cases he
        rw [hduration]
        decide
      · simp only [List.mem_cons, List.not_mem_nil, or_false] at he
        rcases he with rfl | rfl <;> simp [protectedColumns]
    · rcases List.mem_append.1 (List.mem_of_mem_filter he) with he | he
      · obtain ⟨c, hc, rfl⟩ := List.mem_map.1 he
        exact hspares c hc
      · simp only [List.mem_cons, List.not_mem_nil, or_false] at he
        rcases he with rfl | rfl | rfl | rfl | rfl | rfl | rfl | rfl <;> simp [protectedColumns]
  rw [List.lookup_eq_none_iff]
  intro e he
  simp only [bne_iff_ne, ne_eq]
  rintro rfl
  exact hkeys e he hname

variable {rt : Runtime P C} {trace : Trace PyFloat CallHeader} {analysis : Analysis Measured Report}
  {version : Int} {cols cols' : Columns}

/-- What the rollup reads after the header is the same the second time. -/
lemma rollupInput_again (cols : Columns) {hs ws : List (String × Column)} (hws : ws.map Prod.fst = persistedColumns)
    (hhs : ∀ name ∈ ["engine", "stt_provider", "llm_provider", "tts_provider"],
      ∃ c, hs.lookup name = some c) :
    (((cols.setAll hs).setAll ws).setAll hs).rollupInput = (cols.setAll hs).rollupInput := by
  have hset (name : String)
      (hname : name ∈ ["engine", "stt_provider", "llm_provider", "tts_provider"]) :
      ((cols.setAll hs).setAll ws).setAll hs name = cols.setAll hs name := by
    obtain ⟨c, hc⟩ := hhs name hname
    rw [setAll_of_mem hc, setAll_of_mem hc]
  have hseconds : ((cols.setAll hs).setAll ws).setAll hs "stt_seconds" =
      cols.setAll hs "stt_seconds" := by
    have hkept : (cols.setAll hs).setAll ws "stt_seconds" = cols.setAll hs "stt_seconds" :=
      setAll_of_not_mem (lookup_eq_none_of_keys hws (by decide))
    cases h : hs.lookup "stt_seconds" with
    | some c => rw [setAll_of_mem h, setAll_of_mem h]
    | none => rw [setAll_of_not_mem h, hkept]
  simp only [Columns.rollupInput, hseconds, hset "engine" (by decide),
    hset "stt_provider" (by decide), hset "llm_provider" (by decide), hset "tts_provider" (by decide)]

/-- The second time the columns are what they are. -/
lemma persistColumns_again (h : persistColumns rt cols trace analysis version = .ok cols') :
    persistColumns rt cols' trace analysis version = .ok cols' := by
  obtain ⟨ws, hws, h⟩ := Lib.bind_eq_ok.1 h
  cases h
  have hinput := rollupInput_again cols (persistWrites_keys hws)
    (fun _ => exists_headerWrites (h := trace.header))
  unfold persistColumns
  simp only [hinput, hws, Lib.ok_bind]
  exact congrArg Except.ok (setAll_setAll_setAll_setAll cols (headerWrites trace.header) ws)

/-- A protected column keeps its value. -/
lemma persistColumns_protected (hspares : SparesProtected trace.header) {name : String}
    (hname : name ∈ protectedColumns)
    (h : persistColumns rt cols trace analysis version = .ok cols') : cols' name = cols name := by
  have hpersisted : name ∉ persistedColumns := by
    have hdisjoint : ∀ name ∈ protectedColumns, name ∉ persistedColumns := by decide
    exact hdisjoint name hname
  rw [persistColumns_apply hpersisted h, setAll_of_not_mem (headerWrites_protected hspares hname)]

/-! ### The second run -/

/-- The rows of a state, whichever run wrote them. -/
structure SameRows (s s' : CallState P) : Prop where
  turns : s'.turns.map Written.row = s.turns.map Written.row
  metrics : s'.metrics.map Written.row = s.metrics.map Written.row
  events : s'.events.map Written.row = s.events.map Written.row
  utterances : s'.utterances.map Written.row = s.utterances.map Written.row
  media : s'.media.map Written.row = s.media.map Written.row

section

variable [Text] {s s₁ : CallState P} {calculator : AnyCalculator} {audio : Option AudioOutput}
  {rows : NewRows} {status : RunStatus}

/-- The state that a run leaves. -/
def CallState.settled (s : CallState P) (cols : Columns) (rows : NewRows)
    (ds : List (Written Discrepancy)) : CallState P :=
  { s.persisted cols rows with discrepancies := ds }

/-- The cross-check writes nothing but discrepancies. -/
lemma finished_eq : ∃ ds, (finished rt s analysis cols rows).1 = s.settled cols rows ds := by
  unfold finished reconcile
  split
  · dsimp only
    split
    · exact ⟨_, rfl⟩
    · exact ⟨_, rfl⟩
  · exact ⟨_, rfl⟩

/-- An analysis reads the agent, the fragments, the recordings, the channel map and the offset. -/
structure SameInput (s s' : CallState P) : Prop where
  agentId : s'.agentId = s.agentId
  fragments : s'.fragments = s.fragments
  recordings : ∀ kind ∈ ["audio", "audio_caller", "audio_agent"], s'.recording kind = s.recording kind
  channelMap : s'.columns "channel_map" = s.columns "channel_map"
  offset : s'.audioT0OffsetS = s.audioT0OffsetS

omit [Text] in
lemma chooseAdapter_congr [Text] (h : SameInput s s₁) : chooseAdapter rt s₁ = chooseAdapter rt s := by
  rw [chooseAdapter, chooseAdapter, h.agentId, h.fragments]

/-- The duration of the call is handed to the audio analysis, and not read there. -/
lemma loadAudio_congr (h : SameInput s s₁) : loadAudio rt s₁ = loadAudio rt s := by
  have haudio := h.recordings "audio" (by decide)
  have hcaller := h.recordings "audio_caller" (by decide)
  have hagent := h.recordings "audio_agent" (by decide)
  unfold loadAudio audioBytes
  rw [h.agentId, haudio, hcaller, hagent, h.channelMap, h.offset]
  rfl

lemma overlayAudio_congr (h : SameInput s s₁) : overlayAudio rt s₁ = overlayAudio rt s := by
  rw [overlayAudio, overlayAudio, h.agentId, loadAudio_congr h]

/-- A run leaves what it reads. -/
lemma sameInput_persisted (ds : List (Written Discrepancy)) (hspares : SparesProtected trace.header)
    (h : Computed rt s trace version calculator audio analysis cols rows) :
    SameInput s (s.settled cols rows ds) := by
  have hcolumn (name : String) (hname : name ∈ protectedColumns) : cols name = s.columns name :=
    persistColumns_protected hspares hname h.writes
  refine ⟨?_, rfl, ?_, hcolumn "channel_map" (by decide), ?_⟩
  · simp only [CallState.agentId, CallState.text, CallState.settled, CallState.persisted,
      hcolumn "agent_id" (by decide)]
  · intro kind hkind
    refine recording_replaceRows (analysisRows_media h.makes) ?_
    have hkinds : ∀ kind ∈ ["audio", "audio_caller", "audio_agent"], derivedKind kind = false := by
      decide
    exact hkinds kind hkind
  · simp only [CallState.audioT0OffsetS, CallState.settled, CallState.persisted,
      hcolumn "audio_t0_offset_s" (by decide)]

/-- The second run computes the same. -/
lemma Computed.again {ds : List (Written Discrepancy)} (hspares : SparesProtected trace.header)
    (h : Computed rt s trace version calculator audio analysis cols rows) :
    Computed rt (s.settled cols rows ds) trace version calculator audio
      analysis cols rows := by
  have hsame := sameInput_persisted ds hspares h
  exact {
    loads := (overlayAudio_congr hsame).trans h.loads
    analyses := by
      rw [hsame.agentId, hsame.offset]
      exact h.analyses
    writes := persistColumns_again h.writes
    makes := h.makes }

omit [Text] in
/-- Replacing rows by the same ones leaves the same rows. -/
lemma sameRows_persisted {ds ds' : List (Written Discrepancy)}
    (hrows : ∀ m ∈ rows.media, derivedKind m.kind = true) :
    SameRows (s.settled cols rows ds)
      ((s.settled cols rows ds).settled cols rows ds') := by
  refine ⟨rfl, rfl, rfl, rfl, ?_⟩
  have hnew : (rows.media.map (⟨s.nextRun, ·⟩ : MediaRow → Written MediaRow)).filter
      (fun m => !derivedKind m.row.kind) = [] := by
    rw [List.filter_eq_nil_iff]
    intro m hm
    obtain ⟨r, hr, rfl⟩ := List.mem_map.1 hm
    simp [hrows r hr]
  simp only [CallState.settled, CallState.persisted, CallState.replaceRows, List.filter_append, hnew, List.append_nil,
    List.filter_filter, Bool.and_self]

/-- A second run succeeds like the first one, and changes no column and no row. -/
theorem process_idempotent (h : process rt s = .ok (s₁, status))
    (hspares : ∀ fw trace, chooseAdapter rt s = .ok fw → fw.adapter.toTrace s.fragments = .ok trace →
      SparesProtected trace.header) :
    ∃ s₂, process rt s₁ = .ok (s₂, status) ∧ s₂.columns = s₁.columns ∧ SameRows s₁ s₂ := by
  obtain ⟨fw, hfw, h⟩ := Lib.bind_eq_ok.1 h
  obtain ⟨trace, htrace, h⟩ := Lib.bind_eq_ok.1 h
  obtain ⟨audio, analysis, cols, rows, hc, hfinished⟩ := analyseTrace_eq_ok.1 h
  have hspares := hspares fw trace hfw htrace
  have hstate : (finished rt s analysis cols rows).1 = s₁ := by rw [hfinished]
  obtain ⟨ds, hds⟩ : ∃ ds, (finished rt s analysis cols rows).1 = s.settled cols rows ds := finished_eq
  obtain rfl : s.settled cols rows ds = s₁ := hds.symm.trans hstate
  have hsame := sameInput_persisted ds hspares hc
  obtain ⟨ds', hds'⟩ : ∃ ds', (finished rt (s.settled cols rows ds) analysis cols rows).1 =
    (s.settled cols rows ds).settled cols rows ds' := finished_eq
  refine ⟨(s.settled cols rows ds).settled cols rows ds', ?_, rfl,
    sameRows_persisted (analysisRows_media hc.makes)⟩
  have hstatus : (finished rt s analysis cols rows).2 = status := by rw [hfinished]
  unfold process
  rw [chooseAdapter_congr hsame, hfw, Lib.ok_bind, hsame.fragments, htrace, Lib.ok_bind]
  exact analyseTrace_eq_ok.2 ⟨audio, analysis, cols, rows, hc.again hspares, Prod.ext hds' hstatus⟩

end

/-- An adapter that makes the same trace of any fragments. -/
def oneTrace (trace : Trace PyFloat CallHeader) : Framework Unit where
  adapter := { version := 1, toTrace := fun _ => .ok trace }
  calculator := (canonical {} ·)

/-- A call with a recording is processed twice, with the overlay. -/
theorem process_idempotent_overlay : ∃ (s s₁ s₂ : CallState Unit) (status : RunStatus),
    process { overlay true with frameworkFor := fun _ => some (oneTrace earlyReport) } s =
        .ok (s₁, status) ∧
      process { overlay true with frameworkFor := fun _ => some (oneTrace earlyReport) } s₁ =
        .ok (s₂, status) ∧ s₂.columns = s₁.columns ∧ SameRows s₁ s₂ := by
  have hok : (process { overlay true with frameworkFor := fun _ => some (oneTrace earlyReport) }
      (CallState.new (fun _ => .null) [()] [{ kind := "audio", uri := some "recording.wav" }])).isOk =
      true := by decide +kernel
  cases h : process { overlay true with frameworkFor := fun _ => some (oneTrace earlyReport) }
      (CallState.new (fun _ => .null) [()] [{ kind := "audio", uri := some "recording.wav" }]) with
  | error e =>
    rw [h] at hok
    cases hok
  | ok r =>
    obtain ⟨s₂, hsecond, hcolumns, hrows⟩ := process_idempotent h (by
      rintro fw trace hfw htrace
      cases hfw
      cases htrace
      intro e he
      cases he)
    exact ⟨_, r.1, s₂, r.2, h, hsecond, hcolumns, hrows⟩

end Pulse.Worker.Process
