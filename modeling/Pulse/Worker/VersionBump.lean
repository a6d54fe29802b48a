import Pulse.Lib.Run
import Pulse.Worker.Analysis

/-!
# A bump of the metric version

After a bump `flush_due` analyses the calls of older versions again, all of them by `process` over
their raw fragments. A call that came in by a manifest or as a recording has its evidence elsewhere.
-/

namespace Pulse.Worker

open Ingest

variable {F T M E : Type}

/-- The path by which a call was analysed: spans, live or backfilled; the trace that a manifest's
mappers make of the artifacts, by `process_trace`; or its recordings, by `process_audio_only`. -/
inductive AnalysisPath (F T M E : Type)
  | spans
  | manifest (processTrace : Evidence F → Except Refusal (CallRows T M E))
  | audioOnly (processAudioOnly : Evidence F → Except Refusal (CallRows T M E))

/-- The path's own analysis of what is stored. -/
def AnalysisPath.analysis (path : AnalysisPath F T M E) (e : Engine F T M E) (ev : Evidence F) :
    Except Refusal (CallRows T M E) :=
  match path with
  | .spans => e.analysis ev
  | .manifest processTrace => processTrace ev
  | .audioOnly processAudioOnly => processAudioOnly ev

/-- No more turns, metrics or events than the other has. -/
structure CallRows.AtMost (r r' : CallRows T M E) : Prop where
  turns : r.turns.length ≤ r'.turns.length
  metrics : r.metrics.length ≤ r'.metrics.length
  events : r.events.length ≤ r'.events.length

/-- A call that its path has analysed at an older version. -/
structure AnalysedBy (e : Engine F T M E) (path : AnalysisPath F T M E) (s : Schema F T M E)
    (c : Call) : Prop where
  mem : c ∈ s.db.calls
  supported : c.status ≠ .unsupported
  older : ∃ v < metricVersion, c.metricVersion = some v
  rows : path.analysis e (evidence s.db s.audio c.id) = .ok (s.rows c.id)

/-- The call is not given up, and has all the rows that its path's analysis has. -/
def KeptAnalysis (e : Engine F T M E) (path : AnalysisPath F T M E) (s : Schema F T M E) (pk : Pk) :
    Prop :=
  ∃ c ∈ s.db.calls, c.id = pk ∧ c.status ≠ .unsupported ∧
    ∀ r, path.analysis e (evidence s.db s.audio pk) = .ok r → r.AtMost (s.rows pk)

/-- `process` over the call's stored fragments makes no less of it than its rows are. -/
def RunsAgain (e : Engine F T M E) (s : Schema F T M E) (pk : Pk) : Prop :=
  ∃ r, e.analysis (evidence s.db s.audio pk) = .ok r ∧ (s.rows pk).AtMost r

/-- `flush_due` over the organisations. -/
def sweep (e : Engine F T M E) (cfg : WorkerConfig) (orgs : List (Schema F T M E)) (now : Time) :
    List (Schema F T M E) :=
  match orgs with
  | [] => []
  | s :: orgs =>
    match s.flushOrg e cfg now with
    | .ok s' => s' :: sweep e cfg orgs now
    | .error _ => s :: orgs

lemma CallRows.AtMost.refl (r : CallRows T M E) : r.AtMost r :=
  ⟨le_rfl, le_rfl, le_rfl⟩

/-- Spans are analysed again from where they are kept. -/
lemma AnalysedBy.runsAgain {e : Engine F T M E} {s : Schema F T M E} {c : Call}
    (h : AnalysedBy e .spans s c) : RunsAgain e s c.id :=
  ⟨s.rows c.id, h.rows, .refl _⟩

/-- What the sweeps leave of a schema, as far as one call of it is concerned. -/
structure Holds (e : Engine F T M E) (s₀ : Schema F T M E) (c₀ : Call) (s : Schema F T M E) :
    Prop where
  evidence : Worker.evidence s.db s.audio c₀.id = Worker.evidence s₀.db s₀.audio c₀.id
  call : c₀ ∈ s.db.calls ∨ { c₀ with metricVersion := some metricVersion } ∈ s.db.calls
  rows : (s₀.rows c₀.id).AtMost (s.rows c₀.id)

section

variable {e : Engine F T M E} {cfg : WorkerConfig} {now : Time} {s₀ s s' : Schema F T M E}
  {c₀ : Call}

lemma Holds.refl (hc : c₀ ∈ s.db.calls) : Holds e s c₀ s :=
  ⟨rfl, .inl hc, .refl _⟩

/-- An analysis of another call leaves the call alone; its own adds to it when it runs again. -/
lemma Holds.analyse (h : Holds e s₀ c₀ s) {pk : Pk} {judge : Bool}
    (hagain : pk = c₀.id → RunsAgain e s₀ c₀.id) (hok : s.analyse e pk now = .ok (s', judge)) :
    Holds e s₀ c₀ s' := by
  obtain ⟨hcalls, -, -, hrows⟩ := analyse_ok hok
  have hevidence : Worker.evidence s'.db s'.audio c₀.id =
      Worker.evidence s₀.db s₀.audio c₀.id := by
    rw [← h.evidence]
    rcases h.call with hc | hc
    · exact analyse_evidence hok hc
    · exact analyse_evidence (c := { c₀ with metricVersion := some metricVersion }) hok hc
  by_cases hpk : pk = c₀.id
  · subst hpk
    obtain ⟨r, hr, hmost⟩ := hagain rfl
    rw [← h.evidence] at hr
    rcases hrows with ⟨rfl, rows, hanalysis, hrows⟩ | ⟨-, hanalysis, -⟩
    · obtain rfl : r = rows := Except.ok.inj (hr.symm.trans hanalysis)
      refine ⟨hevidence, .inr ?_, ?_⟩
      · rw [hcalls]
        rcases h.call with hc | hc
        · refine List.mem_map.2 ⟨_, hc, ?_⟩
          simp [Store.onRow, closed]
        · refine List.mem_map.2 ⟨_, hc, ?_⟩
          simp [Store.onRow, closed]
      · rw [hrows, Function.update_self]
        exact hmost
    · rw [hr] at hanalysis
      cases hanalysis
  · have hkeep : ∀ c ∈ s.db.calls, c.id = c₀.id → c ∈ s'.db.calls := by
      intro c hc hid
      rw [hcalls]
      refine List.mem_map.2 ⟨c, hc, Store.onRow_of_ne fun heq => hpk (heq.symm.trans hid)⟩
    refine ⟨hevidence, ?_, ?_⟩
    · exact h.call.imp (fun hc => hkeep _ hc rfl) fun hc => hkeep _ hc rfl
    · rcases hrows with ⟨-, rows, -, hrows⟩ | ⟨-, -, hrows⟩
      · rw [hrows, Function.update_of_ne (Ne.symm hpk)]
        exact h.rows
      · rw [hrows]
        exact h.rows

/-- A visit analyses the call only if it is due. -/
lemma Holds.flushOrg (h : Holds e s₀ c₀ s) (hagain : isDue cfg now c₀ = true → RunsAgain e s₀ c₀.id)
    (hok : s.flushOrg e cfg now = .ok s') : Holds e s₀ c₀ s' := by
  have hdue : ∀ c ∈ (dueCalls cfg now s.db).take cfg.batch, c.id = c₀.id → RunsAgain e s₀ c₀.id := by
    intro c hc hid
    have hmem := List.mem_of_mem_take hc
    rw [dueCalls, Lib.mem_sorted, List.mem_filter] at hmem
    rcases h.call with hc₀ | hc₀
    · obtain rfl : c = c₀ := Store.eq_of_id_eq hmem.1 hc₀ hid
      exact hagain hmem.2
    · obtain rfl := Store.eq_of_id_eq hmem.1 hc₀ hid
      simp [isDue] at hmem
  refine Lib.foldlM_ok (fun s c t hc hs hstep => ?_) h hok
  obtain ⟨⟨t', judge⟩, hanalyse, rfl⟩ := Lib.map_eq_ok.1 hstep
  exact hs.analyse (hdue c hc) hanalyse

lemma sweep_get (e : Engine F T M E) (cfg : WorkerConfig) (now : Time)
    (orgs : List (Schema F T M E)) {j : Nat} (hs : orgs[j]? = some s) :
    ∃ s', (sweep e cfg orgs now)[j]? = some s' ∧ (s' = s ∨ s.flushOrg e cfg now = .ok s') := by
  induction orgs generalizing j with
  | nil => cases hs
  | cons o orgs ih =>
    rw [sweep]
    cases hflush : o.flushOrg e cfg now with
    | error error => exact ⟨s, hs, .inl rfl⟩
    | ok o' =>
      cases j with
      | zero =>
        obtain rfl : o = s := Option.some.inj hs
        exact ⟨o', rfl, .inr hflush⟩
      | succ j => exact ih hs

lemma Holds.kept {path : AnalysisPath F T M E} (hby : AnalysedBy e path s₀ c₀)
    (h : Holds e s₀ c₀ s) : KeptAnalysis e path s c₀.id := by
  have hrows : ∀ r, path.analysis e (Worker.evidence s.db s.audio c₀.id) = .ok r →
      r.AtMost (s.rows c₀.id) := by
    intro r hr
    rw [h.evidence, hby.rows] at hr
    exact Except.ok.inj hr ▸ h.rows
  rcases h.call with hc | hc
  · exact ⟨c₀, hc, rfl, hby.supported, hrows⟩
  · exact ⟨_, hc, rfl, hby.supported, hrows⟩

end

/-! ### A call of the previous version -/

/-- A complete call with its audio, analysed at version 1. -/
def olderCall : Call where
  id := 0
  externalCallId := "c1"
  source := .str "pipecat"
  environment := .str "prod"
  spansComplete := true
  mediaReady := true
  status := .ingested
  metricVersion := some 1
  lastActivityAt := 0

def olderStore (fragments : List RawFragment) (h : ∀ f ∈ fragments, ∀ p ∈ f.callId, p = 0) : Store :=
  { Store.empty with
    calls := [olderCall]
    rawFragments := fragments
    nextPk := 1
    call_lt := by decide
    call_pk := by decide
    call_external := by decide
    fragment_call := fun f hf p hp => by simp [h f hf p hp, olderCall]
    media_call := nofun }

def olderSchema (db : Store) : Schema Unit Unit Unit Unit where
  db := db
  audio := fun _ => ⟨[], none, fun _ => none⟩
  rows := fun _ => ⟨[()], [], [()]⟩

/-- The call with its one span. -/
def spanStore : Store :=
  olderStore [⟨some 0, "b1", 0, 0, ⟨[], [⟨"t1", "s1", "", [], "conversation"⟩]⟩⟩] (by simp)

end Pulse.Worker
