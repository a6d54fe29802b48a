import Pulse.Ingest.PullPaths
import Pulse.Ingest.Resolution
import Pulse.Lib.Run
import Pulse.Worker.Analysis

/-!
# Rows and evidence

The consumer, the artifact API, `reconcile` and the grace flush take turns on one organisation's
schema. The gate of `_ready_now` and `flush_due` looks at the metric version of a call, not at what
was stored since its analysis.
-/

namespace Pulse.Worker

open Ingest

variable {F T M E : Type}

/-- `ArtifactIn`, with the call of the path and the agent of the token. -/
structure ArtifactIn (F : Type) where
  callId : String
  tokenAgent : Option String := none
  kind : String
  uri : Option String := none
  sha256 : Option String := none
  sampleRate : Option Nat := none
  channelMap : List (Int × String) := []
  t0Offset : Option F := none

namespace ArtifactIn

/-- `body.kind.startswith("audio")` -/
def isAudio (body : ArtifactIn F) : Bool :=
  "audio".toList.isPrefixOf body.kind.toList

/-- What `register_artifact` writes on the call. -/
def touch (body : ArtifactIn F) (now : Time) (c : Call) : Call :=
  if body.isAudio then
    { c with
      mediaReady := true
      status := if c.spansComplete then .ingested else c.status
      lastActivityAt := now }
  else { c with lastActivityAt := now }

def columns (body : ArtifactIn F) (a : AudioColumns F) : AudioColumns F where
  channelMap := if body.isAudio ∧ body.channelMap ≠ [] then body.channelMap else a.channelMap
  t0Offset := if body.isAudio then body.t0Offset.or a.t0Offset else a.t0Offset
  sampleRate :=
    -- of two recordings of one kind the later one counts
    if body.kind ∈ recordingKinds then Function.update a.sampleRate body.kind body.sampleRate
    else a.sampleRate

/-- Does an analysis look at anything of the artifact? -/
def isEvidence (body : ArtifactIn F) : Bool :=
  body.kind ∈ recordingKinds || body.isAudio && (body.channelMap ≠ [] || body.t0Offset.isSome)

end ArtifactIn

def hasArtifact (db : Store) (pk : Pk) (body : ArtifactIn F) : Bool :=
  db.media.any fun m => m.callId = pk ∧ m.kind = body.kind ∧ m.sha256 = body.sha256

namespace Schema

/-- No call yet. -/
def empty (F T M E : Type) : Schema F T M E where
  db := Store.empty
  audio := fun _ => ⟨[], none, fun _ => none⟩
  rows := fun _ => ⟨[], [], []⟩

/-- `handle_record` -/
def handleRecord (s : Schema F T M E) (e : Engine F T M E) (r : Record) (now : Time) :
    Except HandleError (Schema F T M E × Option String) := do
  let some slice := r.value | throw .undecodable
  let b := identify s.db slice (r.agentId.bind nonEmpty)
  if tombstoned s.db b.callId then return (s, none)
  let db ← (assembleRecord s.db r slice now).mapError .database
  let s := { s with db := db }
  match b.callId.bind s.db.callByExternal with
  | some call =>
    if readyNow call then
      let (s, judge) ← s.analyse e call.id now
      return (s, if judge then some call.externalCallId else none)
    else return (s, none)
  | none => return (s, none)

/-- `register_artifact` -/
def registerArtifact (s : Schema F T M E) (body : ArtifactIn F) (now : Time) :
    Except EraseError (Schema F T M E) := do
  let call ← ownedCall s.db body.callId body.tokenAgent
  if hasArtifact s.db call.id body then return s
  let db ← (s.db.insertMedia ⟨call.id, body.kind, body.uri, body.sha256⟩).mapError .database
  let db ← (db.updateCall call.id (body.touch now)).mapError .database
  return { s with
    db := db
    audio := Function.update s.audio call.id (body.columns (s.audio call.id)) }

/-- `_register`: the new row has no sample rate, as before it there is none of its kind. -/
def register (s : Schema F T M E) (agentId : Option String) (callId uri kind : String) :
    Except DbError (Schema F T M E) :=
  (Ingest.register s.db agentId callId uri kind).map fun r => { s with db := r.1 }

end Schema

/-- A transaction of one of the four producers. -/
inductive EvidenceStep (F : Type)
  | record (r : Record) (now : Time)
  | artifact (body : ArtifactIn F) (now : Time)
  | reconcile (agentId : Option String) (callId uri kind : String)
  | flush (now : Time)

/-- From the committed state to the next: a raise rolls everything back. -/
def EvidenceStep.run (e : Engine F T M E) (cfg : WorkerConfig) (s : Schema F T M E) :
    EvidenceStep F → Schema F T M E
  | .record r now => ((s.handleRecord e r now).map Prod.fst).toOption.getD s
  | .artifact body now => (s.registerArtifact body now).toOption.getD s
  | .reconcile agentId callId uri kind => (s.register agentId callId uri kind).toOption.getD s
  | .flush now => (s.flushOrg e cfg now).toOption.getD s

/-- The producers in any order. -/
def Interleaved (e : Engine F T M E) (cfg : WorkerConfig) (s : Schema F T M E) (a : EvidenceStep F)
    (t : Schema F T M E) : Prop :=
  t = a.run e cfg s

def analysedNow (c : Call) : Prop :=
  c.metricVersion = some metricVersion

instance (c : Call) : Decidable (analysedNow c) :=
  inferInstanceAs (Decidable (_ = _))

/-- The step stores no evidence for a call that is analysed at the current version: it is for
another call, or what it brings is there. -/
def Timely (s : Schema F T M E) : EvidenceStep F → Prop
  | .record r _ => ∀ slice, r.value = some slice →
    let b := identify s.db slice (r.agentId.bind nonEmpty)
    tombstoned s.db b.callId = false → ∀ c, joined s.db b = some c → analysedNow c →
      hasFragment s.db c.id r.batchId r.seq = true ∧ c.agentId.or (b.agentId.bind nonEmpty) = c.agentId
  | .artifact body _ => ∀ c, ownedCall s.db body.callId body.tokenAgent = .ok c → analysedNow c →
    body.isEvidence = false ∨ hasArtifact s.db c.id body = true
  | .reconcile agentId callId _ kind => ∀ c ∈ s.db.calls, c.agentId = agentId →
    c.externalCallId = callId → analysedNow c → s.db.hasTombstone callId = false →
      kind ∈ recordingKinds → ∃ m ∈ s.db.media, m.callId = c.id ∧ m.kind = kind
  | .flush _ => True

/-- The rows of every call that is analysed at the current version are those that an analysis of
all that is stored for it gives. -/
def Converged (e : Engine F T M E) (s : Schema F T M E) : Prop :=
  ∀ c ∈ s.db.calls, analysedNow c → e.analysis (evidence s.db s.audio c.id) = .ok (s.rows c.id)

section

variable {e : Engine F T M E} {cfg : WorkerConfig} {s s' : Schema F T M E} {now : Time}

/-- A step that analyses nothing: every analysed call was there, with the same evidence. -/
lemma Converged.of_rows (h : Converged e s) (hrows : s'.rows = s.rows)
    (hcalls : ∀ c' ∈ s'.db.calls, analysedNow c' → ∃ c ∈ s.db.calls, analysedNow c ∧ c'.id = c.id ∧
      evidence s'.db s'.audio c.id = evidence s.db s.audio c.id) : Converged e s' := by
  intro c' hc' hnow'
  obtain ⟨c, hc, hnow, hid, hevidence⟩ := hcalls c' hc' hnow'
  rw [hid, hevidence, hrows]
  exact h c hc hnow

/-- An analysis brings the rows of its call up to the evidence, and leaves the others. -/
lemma Converged.analyse (h : Converged e s) {pk : Pk} {judge : Bool}
    (hok : s.analyse e pk now = .ok (s', judge)) : Converged e s' := by
  obtain ⟨hcalls, -, -, hrows⟩ := analyse_ok hok
  intro c' hc' hnow
  rw [hcalls] at hc'
  obtain ⟨c, hc, rfl⟩ := List.mem_map.1 hc'
  rw [Store.onRow_id, analyse_evidence hok hc]
  by_cases hpk : c.id = pk
  · subst hpk
    rcases hrows with ⟨-, rows, hanalysis, hrows⟩ | ⟨rfl, hanalysis, -⟩
    · rw [hanalysis, hrows, Function.update_self]
    · -- a refused analysis stamps nothing, so the call was analysed before, with a result
      have hnow' : analysedNow c := by simpa [analysedNow, Store.onRow, closed] using hnow
      rw [h c hc hnow'] at hanalysis
      cases hanalysis
  · rw [Store.onRow_of_ne hpk] at hnow
    rw [h c hc hnow]
    rcases hrows with ⟨-, rows, -, hrows⟩ | ⟨-, -, hrows⟩
    · rw [hrows, Function.update_of_ne hpk]
    · rw [hrows]

/-! ### The write path -/

/-- A timely record leaves the calls that are analysed as far as an analysis looks at them. -/
lemma assembled_analysed {r : Record} {slice : Slice} {db' : Store} (hv : r.value = some slice)
    (htimely : Timely s (.record r now)) (has : Assembled s.db r slice now db') {c' : Call}
    (hc' : c' ∈ db'.calls) (hnow : analysedNow c') :
    ∃ c ∈ s.db.calls, analysedNow c ∧ c'.id = c.id ∧ c'.agentId = c.agentId ∧
      db'.rawFragments.filter (·.callId = some c.id) =
        s.db.rawFragments.filter (·.callId = some c.id) := by
  cases has with
  | dropped x _ _ heq => exact ⟨c', heq ▸ hc', hnow, rfl, rfl, by rw [heq]⟩
  | unattributed _ hcalls _ _ hfragments =>
    refine ⟨c', hcalls ▸ hc', hnow, rfl, rfl, ?_⟩
    rw [hfragments, List.filter_append]
    simp [fragmentOf]
  | stored x d hid htomb hup hd _ _ hfragments =>
    have hother : ∀ p, p ≠ d.id → db'.rawFragments.filter (·.callId = some p) =
        s.db.rawFragments.filter (·.callId = some p) := by
      intro p hp
      rw [hfragments]
      split
      · rfl
      · rw [List.filter_append]
        simp [fragmentOf, Ne.symm hp]
    have hdid := hup.joined_id hid hd
    rcases hup.joined hid with ⟨c, hc, hjoined, hcalls⟩ | ⟨hjoined, hcalls⟩
    · rw [hjoined] at hdid
      have hdc : d.id = c.id := hdid
      rw [hcalls] at hc'
      obtain ⟨c₀, hc₀, rfl⟩ := List.mem_map.1 hc'
      by_cases hpk : c₀.id = c.id
      · -- the record is for this call, so it brings nothing new
        obtain rfl := Store.eq_of_id_eq hc₀ hc hpk
        have hnow₀ : analysedNow c₀ := by simpa [analysedNow, Store.onRow, fillIn] using hnow
        obtain ⟨hhas, hagent⟩ := htimely slice hv (by simpa [tombstoned, hid] using htomb) c₀ hjoined
          hnow₀
        refine ⟨c₀, hc₀, hnow₀, Store.onRow_id _ _ c₀, ?_, ?_⟩
        · simpa [Store.onRow, fillIn] using hagent
        · rw [hfragments, hdc, if_pos hhas]
      · rw [Store.onRow_of_ne hpk] at hnow ⊢
        exact ⟨c₀, hc₀, hnow, rfl, rfl, hother c₀.id fun heq => hpk (heq.trans hdc)⟩
    · rw [hjoined] at hdid
      have hnew : d.id = s.db.nextPk := hdid
      rw [hcalls] at hc'
      rcases List.mem_append.1 hc' with hc' | hc'
      · have hlt := s.db.call_lt c' hc'
        exact ⟨c', hc', hnow, rfl, rfl, hother c'.id (hnew ▸ Nat.ne_of_lt hlt)⟩
      · rw [List.mem_singleton.1 hc'] at hnow
        cases hnow

lemma handleRecord_ok {r : Record} {judge : Option String}
    (h : s.handleRecord e r now = .ok (s', judge)) : ∃ slice db, r.value = some slice ∧
      assembleRecord s.db r slice now = .ok db ∧ (s' = { s with db := db } ∨
        ∃ pk judged, Schema.analyse { s with db := db } e pk now = .ok (s', judged)) := by
  unfold Schema.handleRecord at h
  cases hv : r.value with
  | none =>
    rw [hv] at h
    cases h
  | some slice =>
    obtain ⟨db, hok, -⟩ := assembleRecord_spec s.db r slice now
    refine ⟨slice, db, rfl, hok, ?_⟩
    simp only [hv, hok, Lib.mapError_ok, Lib.ok_bind] at h
    split at h
    · rename_i htomb
      have hdb : s.db = db := by simpa [assembleRecord, htomb] using hok
      cases h
      exact .inl (hdb ▸ rfl)
    · split at h
      · split at h
        · obtain ⟨⟨t, judged⟩, hanalyse, h⟩ := Lib.bind_eq_ok.1 h
          cases h
          exact .inr ⟨_, judged, hanalyse⟩
        · cases h
          exact .inl rfl
      · cases h
        exact .inl rfl

/-- On the calls the consumer is the one of the ingest model, with this analysis. -/
theorem handleRecord_db (s : Schema F T M E) (r : Record) :
    (s.handleRecord e r now).map (fun out => (out.1.db, out.2)) =
      Ingest.handleRecord (e.process s.audio) s.db r now := by
  unfold Schema.handleRecord Ingest.handleRecord
  cases hv : r.value with
  | none => rfl
  | some slice =>
    obtain ⟨db, hok, -⟩ := assembleRecord_spec s.db r slice now
    simp only [hok, Lib.mapError_ok, Lib.ok_bind]
    by_cases htomb : tombstoned s.db (identify s.db slice (r.agentId.bind nonEmpty)).callId = true
    · rw [if_pos htomb, if_pos htomb]
      rfl
    · rw [if_neg htomb, if_neg htomb]
      cases hcall : (identify s.db slice (r.agentId.bind nonEmpty)).callId.bind db.callByExternal with
      | none => rfl
      | some call =>
        by_cases hready : readyNow call = true
        · simp only [if_pos hready, Schema.analyse]
          cases Ingest.analyse (e.process s.audio) db call.id now with
          | error error => rfl
          | ok out => rfl
        · simp only [if_neg hready]
          rfl

lemma Converged.handleRecord (h : Converged e s) {r : Record} {judge : Option String}
    (htimely : Timely s (.record r now)) (hok : s.handleRecord e r now = .ok (s', judge)) :
    Converged e s' := by
  obtain ⟨slice, db, hv, hassemble, hrest⟩ := handleRecord_ok hok
  have hstored : Converged e { s with db := db } := by
    obtain ⟨db', hok', has⟩ := assembleRecord_spec s.db r slice now
    rw [hassemble] at hok'
    cases hok'
    refine h.of_rows rfl fun c' hc' hnow => ?_
    obtain ⟨c, hc, hnow₀, hid, hagent, hfragments⟩ := assembled_analysed hv htimely has hc' hnow
    refine ⟨c, hc, hnow₀, hid, evidence_congr hc hc' hid hagent hfragments ?_ rfl⟩
    rw [assembleRecord_media hassemble]
  rcases hrest with rfl | ⟨pk, judged, hanalyse⟩
  · exact hstored
  · exact hstored.analyse hanalyse

/-! ### Recordings -/

/-- A new artifact of a call that is not analysed, or one that an analysis does not look at. -/
lemma Converged.attach (h : Converged e s) {db : Store} {m : Media} {f : Call → Call}
    (hmedia : s.db.insertMedia m = .ok db) (hcall : db.updateCall m.callId f = .ok s'.db)
    (hrows : s'.rows = s.rows) (hagent : ∀ c, (f c).agentId = c.agentId)
    (hversion : ∀ c, (f c).metricVersion = c.metricVersion)
    (haudio : ∀ p, p ≠ m.callId → s'.audio p = s.audio p)
    (hnothing : ∀ c ∈ s.db.calls, c.id = m.callId → analysedNow c →
      m.kind ∉ recordingKinds ∧ s'.audio c.id = s.audio c.id) : Converged e s' := by
  have hadded : db.calls = s.db.calls ∧ db.rawFragments = s.db.rawFragments ∧
      db.media = s.db.media ++ [m] := by
    unfold Store.insertMedia at hmedia
    split at hmedia
    · cases hmedia
      exact ⟨rfl, rfl, rfl⟩
    · cases hmedia
  obtain ⟨hcalls₁, hfragments₁, hmedia₁⟩ := hadded
  obtain ⟨hcalls, hframe⟩ := Store.updateCall_calls hcall
  refine h.of_rows hrows fun c' hc' hnow' => ?_
  have hmem := hc'
  rw [hcalls, hcalls₁] at hmem
  obtain ⟨c, hc, rfl⟩ := List.mem_map.1 hmem
  have hnow : analysedNow c := by
    by_cases hpk : c.id = m.callId <;> simpa [analysedNow, Store.onRow, hpk, hversion] using hnow'
  refine ⟨c, hc, hnow, Store.onRow_id _ _ c, evidence_congr hc hc' (Store.onRow_id _ _ c) ?_ ?_ ?_ ?_⟩
  · by_cases hpk : c.id = m.callId <;> simp [Store.onRow, hpk, hagent]
  · rw [hframe.rawFragments, hfragments₁]
  · rw [hframe.media, hmedia₁, List.filter_append]
    by_cases hpk : c.id = m.callId
    · simp [(hnothing c hc hpk hnow).1]
    · simp [Ne.symm hpk]
  · by_cases hpk : c.id = m.callId
    · exact (hnothing c hc hpk hnow).2
    · exact haudio c.id hpk

lemma ArtifactIn.columns_eq {body : ArtifactIn F} (h : body.isEvidence = false)
    (a : AudioColumns F) : body.columns a = a := by
  obtain ⟨hkind, haudio⟩ : body.kind ∉ recordingKinds ∧
      (body.isAudio = true → body.channelMap = [] ∧ body.t0Offset = none) := by
    simpa [isEvidence] using h
  cases hbody : body.isAudio with
  | false => simp [columns, hbody, hkind]
  | true => simp [columns, hbody, hkind, haudio hbody]

lemma Converged.registerArtifact (h : Converged e s) {body : ArtifactIn F}
    (htimely : Timely s (.artifact body now)) (hok : s.registerArtifact body now = .ok s') :
    Converged e s' := by
  obtain ⟨call, howned, hok⟩ := Lib.bind_eq_ok.1 hok
  obtain ⟨hcall, -⟩ := Store.callByExternal_some (ownedCall_ok howned)
  split at hok
  · cases hok
    exact h
  · rename_i hhas
    obtain ⟨db, hmedia, hok⟩ := Lib.bind_eq_ok.1 hok
    obtain ⟨db', hupdate, hok⟩ := Lib.bind_eq_ok.1 hok
    cases hok
    refine h.attach (f := body.touch now) (Lib.mapError_eq_ok.1 hmedia)
      (Lib.mapError_eq_ok.1 hupdate) rfl ?_ ?_ ?_ ?_
    · intro c
      unfold ArtifactIn.touch
      split <;> rfl
    · intro c
      unfold ArtifactIn.touch
      split <;> rfl
    · exact fun p hp => Function.update_of_ne hp _ _
    · intro c hc hpk hnow
      obtain rfl := Store.eq_of_id_eq hc hcall hpk
      have hnot : body.isEvidence = false := (htimely c howned hnow).resolve_right hhas
      constructor
      · have := hnot
        simp only [ArtifactIn.isEvidence, Bool.or_eq_false_iff, decide_eq_false_iff_not] at this
        exact this.1
      · exact (Function.update_self _ _ _).trans (ArtifactIn.columns_eq hnot _)

lemma Converged.register (h : Converged e s) {agentId : Option String} {callId uri kind : String}
    (htimely : Timely s (.reconcile agentId callId uri kind))
    (hok : s.register agentId callId uri kind = .ok s') : Converged e s' := by
  obtain ⟨⟨db, registered⟩, hregister, rfl⟩ := Lib.map_eq_ok.1 hok
  unfold Ingest.register at hregister
  split at hregister
  · cases hregister
    exact h
  · rename_i call hfind
    obtain ⟨hagent, hid⟩ : call.agentId = agentId ∧ call.externalCallId = callId := by
      simpa using List.find?_some hfind
    split at hregister
    · cases hregister
      exact h
    · rename_i htomb
      split at hregister
      · cases hregister
        exact h
      · rename_i hmedia
        obtain ⟨db₁, hinsert, hregister⟩ := Lib.bind_eq_ok.1 hregister
        obtain ⟨db₂, hupdate, hregister⟩ := Lib.bind_eq_ok.1 hregister
        cases hregister
        refine h.attach hinsert hupdate rfl (fun _ => rfl) (fun _ => rfl) (fun _ _ => rfl) ?_
        intro c hc hpk hnow
        obtain rfl := Store.eq_of_id_eq hc (List.mem_of_find?_eq_some hfind) hpk
        refine ⟨fun hkind => hmedia ?_, rfl⟩
        obtain ⟨m, hm, hmpk⟩ := htimely c hc hagent hid hnow (by simpa using htomb) hkind
        exact List.any_eq_true.2 ⟨m, hm, by simpa using hmpk⟩

/-! ### Runs -/

lemma Converged.flushOrg (h : Converged e s) (hok : s.flushOrg e cfg now = .ok s') :
    Converged e s' := by
  refine Lib.foldlM_ok (fun s c t _ hs hstep => ?_) h hok
  obtain ⟨⟨t', judge⟩, hanalyse, rfl⟩ := Lib.map_eq_ok.1 hstep
  exact hs.analyse hanalyse

lemma Converged.committed {ε : Type} {x : Except ε (Schema F T M E)} (h : Converged e s)
    (hx : ∀ t, x = .ok t → Converged e t) : Converged e (x.toOption.getD s) := by
  cases x with
  | error error => exact h
  | ok t => exact hx t rfl

lemma Converged.step (h : Converged e s) {a : EvidenceStep F} (htimely : Timely s a) :
    Converged e (a.run e cfg s) := by
  cases a with
  | record r now =>
    refine h.committed fun t ht => ?_
    obtain ⟨⟨t', judge⟩, hok, rfl⟩ := Lib.map_eq_ok.1 ht
    exact h.handleRecord htimely hok
  | artifact body now => exact h.committed fun t ht => h.registerArtifact htimely ht
  | reconcile agentId callId uri kind => exact h.committed fun t ht => h.register htimely ht
  | flush now => exact h.committed fun t ht => h.flushOrg ht

/-- Whatever the order of records, registrations and flushes, the rows of the calls reflect what is
stored, as long as nothing new is stored for a call that is analysed. -/
theorem rows_reflect_evidence {steps : List (EvidenceStep F)}
    (h : Lib.Run (Lib.guarded (Interleaved e cfg) Timely) (Schema.empty F T M E) steps s) :
    Converged e s := by
  refine h.invariant_guarded (fun s a t hs htimely hstep => ?_) (fun c hc => nomatch hc)
  rw [hstep]
  exact hs.step htimely

lemma timely_of_not_analysed (h : ∀ c ∈ s.db.calls, ¬analysedNow c)
    (a : EvidenceStep F) : Timely s a := by
  cases a with
  | record r now =>
    intro slice _ b _ c hc hnow
    obtain ⟨x, -, hc⟩ := Option.bind_eq_some_iff.1 hc
    rcases Option.or_eq_some_iff.1 hc with hc | ⟨-, hc⟩
    · exact absurd hnow (h c (Store.callByExternal_some hc).1)
    · split at hc
      · cases hc
      · exact absurd hnow (h c (Store.callByTrace_some hc).1)
  | artifact body now =>
    intro c hc hnow
    exact absurd hnow (h c (Store.callByExternal_some (ownedCall_ok hc)).1)
  | reconcile agentId callId uri kind => exact fun c hc _ _ hnow => absurd hnow (h c hc)
  | flush now => trivial

lemma dueCalls_eq_nil {db : Store} (h : ∀ c ∈ db.calls, analysedNow c) :
    dueCalls cfg now db = [] := by
  have hnone : db.calls.filter (isDue cfg now) = [] := by
    rw [List.filter_eq_nil_iff]
    intro c hc
    have hnow : c.metricVersion = some metricVersion := h c hc
    simp [isDue, hnow]
  rw [dueCalls, hnone]
  rfl

end

/-! ### Two runs -/

/-- The audio of the call "c1". -/
def callAudio : ArtifactIn Unit where
  callId := "c1"
  kind := "audio"
  uri := some "s3://bucket/c1.wav"
  channelMap := [(0, "caller"), (1, "agent")]

theorem rows_reflect_evidence_audio :
    ∃ s, (∃ c ∈ s.db.calls, analysedNow c) ∧ Converged spanEngine s := by
  have hrun : Lib.Run (Lib.guarded (Interleaved spanEngine ⟨60, 10⟩) Timely)
      (Schema.empty Unit Unit Unit Unit)
      [.record childrenRecord 1, .record rootRecord 2, .artifact callAudio 3, .flush 4] _ :=
    .cons ⟨rfl, timely_of_not_analysed (by decide) _⟩ <|
      .cons ⟨rfl, timely_of_not_analysed (by decide) _⟩ <|
      .cons ⟨rfl, timely_of_not_analysed (by decide) _⟩ <| .single ⟨rfl, trivial⟩
  refine ⟨_, ?_, rows_reflect_evidence hrun⟩
  decide

/-- A batch without the root comes after the grace flush has analysed the root's. -/
theorem late_record_not_reflected :
    ∃ s, Lib.Run (Interleaved spanEngine ⟨60, 10⟩) (Schema.empty Unit Unit Unit Unit)
        [.record rootRecord 1, .flush 100, .record childrenRecord 101, .flush 200] s ∧
      (∃ c ∈ s.db.calls, analysedNow c) ∧ (∀ now, dueCalls ⟨60, 10⟩ now s.db = []) ∧
      ¬Converged spanEngine s := by
  refine ⟨_, .cons rfl <| .cons rfl <| .cons rfl <| .single rfl, ?_, ?_, ?_⟩
  · decide
  · exact fun now => dueCalls_eq_nil (by decide)
  · intro h
    have hturns := congrArg (fun r => r.map fun r => r.turns.length) (h _ List.mem_cons_self rfl)
    revert hturns
    decide
end Pulse.Worker
