import Pulse.Worker.Process

/-!
# What a run leaves

The columns and the rows of a call after a run that returns. The recordings stay, and so does every
column that neither the header nor the run writes.
-/

namespace Pulse.Worker.Process

open Pulse.Core
open Lib (PyFloat Succeeds)

variable {P C : Type}

/-! ### Columns -/

lemma setAll_of_mem {cols : Columns} {writes : List (String × Column)} {name : String} {c : Column}
    (h : writes.lookup name = some c) : cols.setAll writes name = c := by
  rw [Columns.setAll, h, Option.getD_some]

lemma setAll_of_not_mem {cols : Columns} {writes : List (String × Column)} {name : String}
    (h : writes.lookup name = none) : cols.setAll writes name = cols name := by
  rw [Columns.setAll, h, Option.getD_none]

/-- The columns that `_persist` writes after the header. -/
def persistedColumns : List String :=
  ["stt_provider", "llm_provider", "tts_provider", "engine", "tokens_in", "tokens_out",
    "tokens_cached", "tts_chars", "cost_llm", "cost_stt", "cost_tts", "cost_total", "cost_currency",
    "unattributed_spans", "span_dropped_events", "metric_version", "adapter_version", "app_version"]

lemma persistWrites_keys {rt : Runtime P C} {trace : Trace PyFloat CallHeader}
    {analysis : Analysis Measured Report} {version : Int} {input : RollupInput}
    {ws : List (String × Column)} (h : persistWrites rt trace analysis version input = .ok ws) :
    ws.map Prod.fst = persistedColumns := by
  obtain ⟨rollup, hrollup, h⟩ := Lib.bind_eq_ok.1 h
  cases h
  obtain ⟨cost, -, hrollup⟩ := Lib.bind_eq_ok.1 hrollup
  cases hrollup
  rfl

lemma lookup_eq_none_of_keys {ws : List (String × Column)} {names : List String} {name : String}
    (hws : ws.map Prod.fst = names) (h : name ∉ names) : ws.lookup name = none := by
  rw [List.lookup_eq_none_iff]
  intro e he
  have hmem : e.1 ∈ names := hws ▸ List.mem_map_of_mem he
  simp only [bne_iff_ne, ne_eq]
  rintro rfl
  exact h hmem

/-- A column that no run writes has what the header leaves there. -/
lemma persistColumns_apply {rt : Runtime P C} {trace : Trace PyFloat CallHeader}
    {analysis : Analysis Measured Report} {version : Int} {cols cols' : Columns} {name : String}
    (hname : name ∉ persistedColumns) (h : persistColumns rt cols trace analysis version = .ok cols') :
    cols' name = cols.setAll (headerWrites trace.header) name := by
  obtain ⟨ws, hws, h⟩ := Lib.bind_eq_ok.1 h
  cases h
  exact setAll_of_not_mem (lookup_eq_none_of_keys (persistWrites_keys hws) hname)

/-! ### Rows -/

lemma derivedKind_peaks (channel : String) : derivedKind ("peaks_" ++ channel) = true := by
  have hstart : "peaks".length = 5 := rfl
  have hlength : "peaks_".length = 6 := rfl
  simp [derivedKind, String.toList_append]
  omega

lemma derivedKind_energy (channel : String) : derivedKind ("energy_" ++ channel) = true := by
  have hstart : "energy".length = 6 := rfl
  have hlength : "energy_".length = 7 := rfl
  simp [derivedKind, String.toList_append]
  omega

lemma derivedKind_of_mem_mediaRows {audio : AudioOutput} {m : MediaRow} (h : m ∈ mediaRows audio) :
    derivedKind m.kind = true := by
  rcases List.mem_append.1 h with h | h
  · obtain ⟨e, -, rfl⟩ := List.mem_map.1 h
    exact derivedKind_peaks e.1
  · obtain ⟨e, -, rfl⟩ := List.mem_map.1 h
    exact derivedKind_energy e.1

/-- Only rows of derived kinds come and go. -/
lemma recording_replaceRows {s : CallState P} {rows : NewRows} {kind : String}
    (hrows : ∀ m ∈ rows.media, derivedKind m.kind = true) (hkind : derivedKind kind = false) :
    (s.replaceRows rows).recording kind = s.recording kind := by
  have hnew : (rows.media.map (⟨s.nextRun, ·⟩ : MediaRow → Written MediaRow)).reverse.find?
      (fun m => m.row.kind = kind) = none := by
    rw [List.find?_eq_none]
    intro m hm
    obtain ⟨r, hr, rfl⟩ := List.mem_map.1 (List.mem_reverse.1 hm)
    have hderived := hrows r hr
    simp only [decide_eq_true_eq]
    rintro rfl
    rw [hkind] at hderived
    cases hderived
  unfold CallState.recording CallState.replaceRows
  rw [List.reverse_append, List.find?_append, hnew, Option.none_or, ← List.filter_reverse,
    List.find?_filter]
  congr 2
  funext m
  by_cases hm : m.row.kind = kind
  · simp [hm, hkind]
  · simp [hm]

lemma analysisRows_media [Text] {metricVersion : Int} {trace : Trace PyFloat CallHeader}
    {analysis : Analysis Measured Report} {audio : Option AudioOutput} {rows : NewRows}
    (h : analysisRows metricVersion trace analysis audio = .ok rows) :
    ∀ m ∈ rows.media, derivedKind m.kind = true := by
  obtain ⟨events, -, h⟩ := Lib.bind_eq_ok.1 h
  cases h
  intro m hm
  cases audio with
  | none => cases hm
  | some audio => exact derivedKind_of_mem_mediaRows hm

/-! ### Runs -/

section

variable [Text] {rt : Runtime P C} {s s' : CallState P} {trace : Trace PyFloat CallHeader}
  {version : Int} {calculator : AnyCalculator} {status : RunStatus}

/-- The state that `_persist` leaves. -/
def CallState.persisted (s : CallState P) (cols : Columns) (rows : NewRows) : CallState P :=
  { s.replaceRows rows with columns := cols }

/-- What is computed by an analysis that returns. -/
structure Computed (rt : Runtime P C) (s : CallState P) (trace : Trace PyFloat CallHeader)
    (version : Int) (calculator : AnyCalculator) (audio : Option AudioOutput)
    (analysis : Analysis Measured Report) (cols : Columns) (rows : NewRows) : Prop where
  loads : overlayAudio rt s = .ok audio
  analyses : (calculator (rt.audioEnabled s.agentId)).analyze trace
    (audio.map AudioOutput.analysis) s.audioT0OffsetS = .ok analysis
  writes : persistColumns rt s.columns trace analysis version = .ok cols
  makes : analysisRows rt.metricVersion trace analysis audio = .ok rows

/-- The end of an analysis. -/
def finished (rt : Runtime P C) (s : CallState P) (analysis : Analysis Measured Report)
    (cols : Columns) (rows : NewRows) : CallState P × RunStatus :=
  (if rt.audioEnabled s.agentId then reconcile rt (s.persisted cols rows) analysis.turns
    else s.persisted cols rows,
    if analysis.report.trust.reasons.isEmpty then .ok else .partially)

lemma analyseTrace_eq_ok : analyseTrace rt s trace version calculator = .ok (s', status) ↔
    ∃ audio analysis cols rows,
      Computed rt s trace version calculator audio analysis cols rows ∧
        finished rt s analysis cols rows = (s', status) := by
  constructor
  · intro h
    obtain ⟨audio, haudio, h⟩ := Lib.bind_eq_ok.1 h
    obtain ⟨analysis, hanalysis, h⟩ := Lib.bind_eq_ok.1 h
    obtain ⟨persisted, hpersisted, h⟩ := Lib.bind_eq_ok.1 h
    obtain ⟨cols, hcols, hpersisted⟩ := Lib.bind_eq_ok.1 (Lib.mapError_eq_ok.1 hpersisted)
    obtain ⟨rows, hrows, heq⟩ := Lib.bind_eq_ok.1 hpersisted
    cases heq
    exact ⟨audio, analysis, cols, rows, ⟨haudio, Lib.mapError_eq_ok.1 hanalysis, hcols, hrows⟩,
      Except.ok.inj h⟩
  · rintro ⟨audio, analysis, cols, rows, h, hfinished⟩
    rw [← hfinished]
    unfold analyseTrace persist
    simp only [h.loads, h.analyses, h.writes, h.makes, Lib.ok_bind, Lib.mapError_ok]
    rfl

end

end Pulse.Worker.Process
