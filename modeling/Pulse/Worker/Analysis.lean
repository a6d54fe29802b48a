import Mathlib.Logic.Function.Basic
import Pulse.Ingest.Redelivery
import Pulse.Lib.Lists
import Pulse.Worker.Flush

/-!
# Analyses over what is stored

`process` reads the fragments of a call in the order of their numbers, its agent's mapping and, for
the audio overlay, its recordings; it replaces the call's rows and stamps the call. The adapters and
calculators are parameters. The consumer and the grace flush are those of the ingest model with this
analysis.
-/

namespace Pulse.Worker

open Ingest

variable {F T M E : Type}

/-- The rows that `_persist` writes for a call. -/
structure CallRows (T M E : Type) where
  turns : List T
  metrics : List M
  events : List E

/-- The columns that only the audio overlay reads, and the sample rates of the recordings by kind. -/
structure AudioColumns (F : Type) where
  channelMap : List (Int × String)
  t0Offset : Option F
  sampleRate : String → Option Nat

/-- One organisation's schema, with the rows of the analyses. -/
structure Schema (F T M E : Type) where
  db : Store
  audio : Pk → AudioColumns F
  rows : Pk → CallRows T M E

/-- What `process` reads of one call. -/
structure Evidence (F : Type) where
  agentId : Option String
  payloads : List Slice
  recordings : List Media
  audio : AudioColumns F

/-- The kinds that `_load_audio` looks at. -/
def recordingKinds : List String :=
  ["audio", "audio_caller", "audio_agent"]

def evidence (db : Store) (audio : Pk → AudioColumns F) (pk : Pk) : Evidence F where
  agentId := (db.calls.find? (·.id = pk)).bind Call.agentId
  payloads := (Lib.sorted (fun a b => decide (a.seq < b.seq))
    (db.rawFragments.filter (·.callId = some pk))).map RawFragment.payload
  recordings := db.media.filter fun m => m.callId = pk ∧ m.kind ∈ recordingKinds
  audio := audio pk

/-- Why an analysis has no result. -/
inductive Refusal
  | unsupportedSchema
  | raises
  deriving DecidableEq

/-- An adapter with its calculator: does it know the payload, and what it makes of a call. -/
structure Framework (F T M E : Type) where
  recognises : List Slice → Bool
  analyse : Evidence F → Except Refusal (CallRows T M E)

/-- The mappings that agents have registered, and the frameworks. -/
structure Engine (F T M E : Type) where
  mapping : String → Option (Evidence F → Except Refusal (CallRows T M E))
  frameworks : List (Framework F T M E)

/-- The analysis of `process`: an agent's mapping wins, else the first framework that recognises the
payload. -/
def Engine.analysis (e : Engine F T M E) (ev : Evidence F) : Except Refusal (CallRows T M E) :=
  match (ev.agentId.bind nonEmpty).bind e.mapping with
  | some analyse => analyse ev
  | none =>
    match e.frameworks.find? (·.recognises ev.payloads) with
    | some fw => fw.analyse ev
    | none => .error .unsupportedSchema

/-- What `process` does to the calls. -/
def Engine.process (e : Engine F T M E) (audio : Pk → AudioColumns F) : Process := fun db pk _ =>
  match e.analysis (evidence db audio pk) with
  | .ok _ =>
    match db.updateCall pk fun c => { c with metricVersion := some metricVersion } with
    | .ok db => .analysed db
    | .error _ => .raised none
  | .error .unsupportedSchema => .unsupportedSchema db
  | .error .raises => .raised (some db)

namespace Schema

/-- The rows after an analysis of the call: the old ones are deleted when there are new ones. -/
def analysedRows (s : Schema F T M E) (e : Engine F T M E) (pk : Pk) : Pk → CallRows T M E :=
  match e.analysis (evidence s.db s.audio pk) with
  | .ok rows => Function.update s.rows pk rows
  | .error _ => s.rows

/-- `_analyse` -/
def analyse (s : Schema F T M E) (e : Engine F T M E) (pk : Pk) (now : Time) :
    Except HandleError (Schema F T M E × Bool) :=
  (Ingest.analyse (e.process s.audio) s.db pk now).map fun r =>
    ({ s with db := r.1, rows := s.analysedRows e pk }, r.2)

/-- One organisation's part of `flush_due`, up to its commit. -/
def flushOrg (s : Schema F T M E) (e : Engine F T M E) (cfg : WorkerConfig) (now : Time) :
    Except HandleError (Schema F T M E) :=
  ((dueCalls cfg now s.db).take cfg.batch).foldlM
    (fun s c => (s.analyse e c.id now).map Prod.fst) s

end Schema

/-! ### What one analysis does -/

section

variable {e : Engine F T M E} {s s' : Schema F T M E} {pk : Pk} {now : Time} {judge : Bool}

/-- A call after its analysis: stamped, or refused for good. -/
def closed (ok : Bool) (c : Call) : Call :=
  if ok then { c with metricVersion := some metricVersion } else { c with status := .unsupported }

/-- An analysis that ends in a commit closes the call, and replaces its rows when it has a result. -/
lemma analyse_ok (h : s.analyse e pk now = .ok (s', judge)) :
    s'.db.calls = s.db.calls.map (Store.onRow pk (closed judge)) ∧ Store.CallsOnly s.db s'.db ∧
      s'.audio = s.audio ∧
      ((judge = true ∧ ∃ rows, e.analysis (evidence s.db s.audio pk) = .ok rows ∧
          s'.rows = Function.update s.rows pk rows) ∨
        (judge = false ∧ e.analysis (evidence s.db s.audio pk) = .error .unsupportedSchema ∧
          s'.rows = s.rows)) := by
  have hstamp := Store.updateCall_ok s.db pk
    (fun c => { c with metricVersion := some metricVersion }) fun _ _ _ => .inl rfl
  have hrefuse := Store.updateCall_ok s.db pk
    (fun c => { c with status := .unsupported }) fun _ _ _ => .inl rfl
  unfold Schema.analyse Ingest.analyse Engine.process Schema.analysedRows at h
  cases hanalysis : e.analysis (evidence s.db s.audio pk) with
  | ok rows =>
    obtain ⟨db, hok, hcalls, hframe⟩ := hstamp
    simp only [hanalysis, hok] at h
    cases h
    exact ⟨hcalls, hframe, rfl, .inl ⟨rfl, rows, rfl, rfl⟩⟩
  | error refusal =>
    cases refusal with
    | unsupportedSchema =>
      obtain ⟨db, hok, hcalls, hframe⟩ := hrefuse
      simp only [hanalysis, hok, Lib.mapError_ok, Lib.ok_bind] at h
      cases h
      exact ⟨hcalls, hframe, rfl, .inr ⟨rfl, rfl, rfl⟩⟩
    | raises =>
      simp only [hanalysis] at h
      cases h

@[simp] lemma closed_agentId (ok : Bool) (c : Call) : (closed ok c).agentId = c.agentId := by
  unfold closed
  split <;> rfl

lemma agentId_of_mem {db : Store} {c : Call} (hc : c ∈ db.calls) :
    (db.calls.find? (·.id = c.id)).bind Call.agentId = c.agentId := by
  cases h : db.calls.find? (·.id = c.id) with
  | none =>
    have := List.find?_eq_none.1 h c hc
    simp at this
  | some d =>
    have hid : d.id = c.id := by simpa using List.find?_some h
    rw [Store.eq_of_id_eq (List.mem_of_find?_eq_some h) hc hid]
    rfl

/-- The evidence of a call depends on its agent, its fragments and its recordings. -/
lemma evidence_congr {db db' : Store} {audio audio' : Pk → AudioColumns F} {c c' : Call}
    (hc : c ∈ db.calls) (hc' : c' ∈ db'.calls) (hid : c'.id = c.id) (hagent : c'.agentId = c.agentId)
    (hfragments : db'.rawFragments.filter (·.callId = some c.id) =
      db.rawFragments.filter (·.callId = some c.id))
    (hmedia : (db'.media.filter fun m => m.callId = c.id ∧ m.kind ∈ recordingKinds) =
      db.media.filter fun m => m.callId = c.id ∧ m.kind ∈ recordingKinds)
    (haudio : audio' c.id = audio c.id) : evidence db' audio' c.id = evidence db audio c.id := by
  have hagent' := agentId_of_mem hc'
  rw [hid] at hagent'
  unfold evidence
  rw [hagent', agentId_of_mem hc, hagent, hfragments, hmedia, haudio]

lemma analyse_evidence (h : s.analyse e pk now = .ok (s', judge)) {c : Call} (hc : c ∈ s.db.calls) :
    evidence s'.db s'.audio c.id = evidence s.db s.audio c.id := by
  obtain ⟨hcalls, hframe, haudio, -⟩ := analyse_ok h
  have hc' : Store.onRow pk (closed judge) c ∈ s'.db.calls := hcalls ▸ List.mem_map_of_mem hc
  apply evidence_congr hc hc'
  · exact Store.onRow_id _ _ c
  · by_cases hpk : c.id = pk <;> simp [Store.onRow, hpk]
  · rw [hframe.rawFragments]
  · rw [hframe.media]
  · rw [haudio]

/-- On the calls a flush is the one of the ingest model, with this analysis. -/
theorem flushOrg_db (cfg : WorkerConfig) (s : Schema F T M E) :
    (s.flushOrg e cfg now).map (fun s' => (s'.db, s'.audio)) =
      (Worker.flushOrg (e.process s.audio) cfg now s.db).map (·, s.audio) := by
  unfold Schema.flushOrg Worker.flushOrg
  induction (dueCalls cfg now s.db).take cfg.batch generalizing s with
  | nil => rfl
  | cons c cs ih =>
    rw [List.foldlM_cons, List.foldlM_cons, Schema.analyse]
    cases h : Ingest.analyse (e.process s.audio) s.db c.id now with
    | error error => rfl
    | ok r => exact ih { s with db := r.1, rows := s.analysedRows e c.id }

end

/-- One framework, that knows a payload by a span of it and makes a turn and an event of each. -/
def spanEngine : Engine Unit Unit Unit Unit where
  mapping := fun _ => none
  frameworks := [{
    recognises := fun payloads => payloads.any fun p => !p.spans.isEmpty
    analyse := fun ev => .ok {
      turns := ev.payloads.flatMap fun p => p.spans.map fun _ => ()
      metrics := []
      events := ev.payloads.flatMap fun p => p.spans.map fun _ => () } }]

end Pulse.Worker
