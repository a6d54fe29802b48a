import Pulse.Ingest.PullPaths
import Pulse.Worker.BackfillJob

/-!
# The calls of a backfill job

`run_job` processes one discovered call after the other, by a recording, a trace file or a manifest.
This file has the three with the points where an exception can come up: each statement of the
source is preceded by such a point, an exception there leaves what was written so far in the
session, and one from the database leaves nothing that can be committed. What an analysis writes up
to its end is given with the call.
-/

namespace Pulse.Worker

open Ingest

variable {R : Type}

inductive RunStatus
  | running
  | ok
  | withReasons
  | failed
  deriving DecidableEq

structure IngestRun where
  callId : Pk
  status : RunStatus

/-- What a job's session holds of a schema: beside the calls and what belongs to them, the runs and
the rows (turns, metrics, events and so on) of their analyses. -/
structure Records (R : Type) where
  db : Store
  runs : List IngestRun
  rows : Pk → List R

inductive Fault
  | raises (e : String)
  | database

/-- The points of a call's processing, each before the statement of its name. -/
inductive Point
  | fetch
  | decode
  | identify
  | upsert
  | fragment
  | ensure
  | artifact (i : Nat)
  | register
  | assemble
  | flush
  | analysis
  deriving DecidableEq

inductive AnalysisEnd
  | done (reasons : Bool)
  | unsupportedSchema (e : String)
  | raises (e : String)
  | database

/-- What the job discovered of a call: recordings by kind, a trace file or a manifest's items. -/
inductive Artifacts
  | audio (kinds : List (String × String))
  | otlp (file : Slice) (batchId : String)
  | manifest (items : List ManifestItem)

/-- A discovered call, when it is processed and how that goes. -/
structure FoundCall (R : Type) where
  callId : String
  artifacts : Artifacts
  now : Time
  faults : Point → Option Fault
  ends : AnalysisEnd
  writes : Store → (Pk → List R) → Pk → Store × (Pk → List R)

/-- A unit of work in the job's session. A raise carries its message and the session it leaves. -/
abbrev JobSession (R : Type) := Except (Option (Records R × String))

/-- What goes wrong at a point. `process_audio_only` records an exception as the call's failure,
and so does `_process_otlp_call` with an unsupported schema. -/
def FoundCall.trouble (c : FoundCall R) : Point → Option Fault
  | .analysis =>
    match c.artifacts, c.ends with
    | _, .done _ => none
    | _, .database => some .database
    | .audio _, _ => none
    | .otlp _ _, .unsupportedSchema _ => none
    | _, .unsupportedSchema e | _, .raises e => some (.raises e)
  | p => c.faults p

def reach (c : FoundCall R) (p : Point) (w : Records R) : JobSession R Unit :=
  match c.trouble p with
  | none => .ok ()
  | some (.raises e) => .error (some (w, e))
  | some .database => .error none

/-- A statement. -/
def execute {α : Type} (x : Except DbError α) : JobSession R α :=
  x.mapError fun _ => none

/-- The session after an analysis, which begins with a row for its run. -/
def Records.analysed (w : Records R) (c : FoundCall R) (pk : Pk) (status : RunStatus) : Records R :=
  let written := c.writes w.db w.rows pk
  { db := written.1, runs := w.runs ++ [⟨pk, status⟩], rows := written.2 }

/-- The failure columns of a call. -/
def Records.fail (w : Records R) (pk : Pk) (reason : String) : JobSession R (Records R) := do
  let db ← execute (w.db.updateCall pk fun c =>
    { c with status := .failed, analysisError := some reason })
  return { w with db := db }

/-- `_process_otlp_call`: is the call completed? -/
def processOtlpCall (agentId : Option String) (c : FoundCall R) (file : Slice) (batchId : String)
    (w : Records R) : JobSession R (Records R × Bool) := do
  reach c .fetch w
  reach c .decode w
  if file.spans = [] then return (w, false)
  reach c .identify w
  let b := identify w.db file agentId
  if b.callId = none then return (w, false)
  reach c .upsert w
  let db ← execute (upsertCall w.db b c.now)
  let w := { w with db := db }
  reach c .fragment w
  let db ← execute (storeFragment w.db b batchId 0 c.now)
  let w := { w with db := db }
  match b.callId.bind w.db.callByExternal with
  | none => throw (some (w, "process(db, None)"))
  | some call =>
    match c.ends with
    | .done reasons =>
      return (w.analysed c call.id (if reasons then .withReasons else .ok), true)
    | .unsupportedSchema e =>
      let w ← (w.analysed c call.id .running).fail call.id ("unsupported OTLP schema: " ++ e)
      return (w, false)
    | .raises e => throw (some (w.analysed c call.id .running, e))
    | .database => throw none

/-- The loop of `process_manifest_call` that fetches, decodes and maps the artifacts. -/
def readArtifacts (c : FoundCall R) (w : Records R) :
    List (ManifestItem × Nat) → JobSession R Unit
  | [] => return ()
  | (.audio _ _, _) :: items => readArtifacts c w items
  | (.artifact _, i) :: items => do
    reach c (.artifact i) w
    readArtifacts c w items

/-- `process_trace` -/
def processTrace (c : FoundCall R) (w : Records R) (pk : Pk) : JobSession R (Records R × Bool) :=
  match c.ends with
  | .done reasons => return (w.analysed c pk (if reasons then .withReasons else .ok), true)
  | .unsupportedSchema e | .raises e => throw (some (w.analysed c pk .running, e))
  | .database => throw none

/-- `process_manifest_call` -/
def processManifestCall (agentId : Option String) (c : FoundCall R) (items : List ManifestItem)
    (w : Records R) : JobSession R (Records R × Bool) := do
  reach c .ensure w
  let (db, pk) ← execute (ensureAudioCall w.db agentId c.callId c.now)
  let db ← execute (db.updateCall pk fun c =>
    if c.source.truthy then c else { c with source := .str "files" })
  let w := { w with db := db }
  readArtifacts c w items.zipIdx
  if audioKinds items ≠ [] then reach c .register w
  let db ← execute (registerMedia w.db pk (audioKinds items))
  let w := { w with db := db }
  reach c .assemble w
  let db ← execute (w.db.updateCall pk fun c => { c with spansComplete := true })
  let w := { w with db := db }
  reach c .flush w
  processTrace c w pk

/-- `process_audio_only` -/
def processAudioOnly (c : FoundCall R) (w : Records R) (pk : Pk) :
    JobSession R (Records R × Bool) :=
  match c.ends with
  | .done _ => return (w.analysed c pk .ok, true)
  | .unsupportedSchema e | .raises e => do
    let w ← (w.analysed c pk .failed).fail pk e
    return (w, false)
  | .database => throw none

/-- The audio branch of `run_job`. -/
def audioCall (agentId : Option String) (c : FoundCall R) (kinds : List (String × String))
    (w : Records R) : JobSession R (Records R × Bool) := do
  reach c .ensure w
  let (db, pk) ← execute (ensureAudioCall w.db agentId c.callId c.now)
  let w := { w with db := db }
  reach c .register w
  let db ← execute (registerMedia w.db pk kinds)
  processAudioOnly c { w with db := db } pk

/-- One turn of the loop of `run_job`. -/
def FoundCall.run (agentId : Option String) (c : FoundCall R) (w : Records R) :
    JobSession R (Records R × Bool) :=
  match c.artifacts with
  | .audio kinds => audioCall agentId c kinds w
  | .otlp file batchId => processOtlpCall agentId c file batchId w
  | .manifest items => processManifestCall agentId c items w

/-! ### What the statements change -/

/-- Rows of a call were rewritten, and recordings were added. -/
structure Edits (db db' : Store) (pk : Pk) (f : Call → Call) (new : List Media) : Prop where
  calls : db'.calls = db.calls.map (Store.onRow pk f)
  media : db'.media = db.media ++ new
  rawFragments : db'.rawFragments = db.rawFragments
  tombstones : db'.tombstones = db.tombstones
  agentScripts : db'.agentScripts = db.agentScripts
  nextPk : db'.nextPk = db.nextPk

namespace Edits

variable {a b db db' : Store} {pk : Pk} {f g : Call → Call} {m n : List Media}

lemma refl (db : Store) (pk : Pk) : Edits db db pk id [] := by
  refine ⟨?_, by simp, rfl, rfl, rfl, rfl⟩
  have hid : Store.onRow pk id = id := by
    funext c
    unfold Store.onRow
    split <;> rfl
  rw [hid, List.map_id]

lemma trans (h : Edits a b pk f m) (h' : Edits b db pk g n) (hid : ∀ c, (f c).id = c.id) :
    Edits a db pk (g ∘ f) (m ++ n) := by
  refine ⟨?_, ?_, h'.rawFragments.trans h.rawFragments, h'.tombstones.trans h.tombstones,
    h'.agentScripts.trans h.agentScripts, h'.nextPk.trans h.nextPk⟩
  · have hkeep : (fun c => g { f c with id := c.id }) = g ∘ f := by
      funext c
      rw [← hid c]
      rfl
    rw [h'.calls, h.calls, Store.map_onRow_onRow, hkeep]
  · rw [h'.media, h.media, List.append_assoc]

lemma of_updateCall (h : db.updateCall pk f = .ok db') : Edits db db' pk f [] := by
  unfold Store.updateCall at h
  split at h
  · cases h
    exact ⟨rfl, by simp, rfl, rfl, rfl, rfl⟩
  · cases h

lemma length (h : Edits db db' pk f m) : db'.calls.length = db.calls.length := by
  rw [h.calls, List.length_map]

/-- Nothing has changed when the call's row is as it was and no recording came in. -/
lemma eq_iff (h : Edits db db' pk f m) (hid : ∀ c, (f c).id = c.id) {c : Call} (hc : c ∈ db.calls)
    (hpk : c.id = pk) : db' = db ↔ f c = c ∧ m = [] := by
  have honRow : Store.onRow pk f c = f c := by
    rw [Store.onRow, if_pos hpk, ← hid c]
  constructor
  · intro heq
    subst heq
    refine ⟨?_, by simpa using h.media⟩
    have hrow := List.map_inj_left.1 ((List.map_id _).trans h.calls).symm c hc
    exact honRow.symm.trans hrow
  · rintro ⟨hrow, hm⟩
    have hcalls : db'.calls = db.calls := by
      rw [h.calls]
      conv_rhs => rw [← List.map_id db.calls]
      apply List.map_congr_left
      intro d hd
      by_cases hdp : d.id = pk
      · obtain rfl : d = c := Store.eq_of_id_eq hd hc (hdp.trans hpk.symm)
        exact honRow.trans hrow
      · exact Store.onRow_of_ne hdp
    have hmedia : db'.media = db.media := by rw [h.media, hm, List.append_nil]
    obtain ⟨calls, fragments, tombs, media, scripts, next, _, _, _, _, _, _⟩ := db
    obtain ⟨calls', fragments', tombs', media', scripts', next', _, _, _, _, _, _⟩ := db'
    obtain rfl := hcalls
    obtain rfl := hmedia
    obtain rfl := h.rawFragments
    obtain rfl := h.tombstones
    obtain rfl := h.agentScripts
    obtain rfl := h.nextPk
    rfl

end Edits

/-- The recordings that `_register_media` adds. -/
def missing (media : List Media) (pk : Pk) (kinds : List (String × String)) : List Media :=
  (kinds.filter fun k => !media.any fun m => m.callId = pk ∧ m.kind = k.1).map fun k =>
    ⟨pk, k.1, some k.2, none⟩

/-- The gate that `_register_media` opens. -/
def audioReady (kinds : List (String × String)) (c : Call) : Call :=
  if kinds = [] then c else { c with mediaReady := true }

section

variable {db db' : Store} {pk : Pk} {f : Call → Call}

lemma updateCall_edits (db : Store) (pk : Pk) (f : Call → Call)
    (hext : ∀ c, (f c).externalCallId = c.externalCallId) :
    ∃ db', db.updateCall pk f = .ok db' ∧ Edits db db' pk f [] := by
  obtain ⟨db', hok, -, -⟩ := Store.updateCall_ok db pk f fun c _ _ => .inl (hext c)
  exact ⟨db', hok, .of_updateCall hok⟩

lemma insertMedia_edits {m : Media} (hm : m.callId ∈ db.calls.map Call.id) (pk : Pk) :
    ∃ db', db.insertMedia m = .ok db' ∧ Edits db db' pk id [m] := by
  unfold Store.insertMedia
  rw [dif_pos hm]
  exact ⟨_, rfl, (Edits.refl db pk).calls, rfl, rfl, rfl, rfl, rfl⟩

lemma insertAll_edits (pk : Pk) (ks : List (String × String)) (hpk : pk ∈ db.calls.map Call.id) :
    ∃ db', ks.foldlM (fun db (k : String × String) => db.insertMedia ⟨pk, k.1, some k.2, none⟩) db =
      .ok db' ∧ Edits db db' pk id (ks.map fun k => ⟨pk, k.1, some k.2, none⟩) := by
  induction ks generalizing db with
  | nil => exact ⟨db, rfl, .refl db pk⟩
  | cons k ks ih =>
    obtain ⟨db₁, hok₁, h₁⟩ := insertMedia_edits (m := ⟨pk, k.1, some k.2, none⟩) hpk pk
    have hpk₁ : pk ∈ db₁.calls.map Call.id := by
      rw [h₁.calls, Store.map_onRow_id]
      exact hpk
    obtain ⟨db', hok, h⟩ := ih hpk₁
    refine ⟨db', ?_, h₁.trans h fun _ => rfl⟩
    rw [List.foldlM_cons, hok₁]
    exact hok

lemma registerMedia_edits (kinds : List (String × String)) (hpk : pk ∈ db.calls.map Call.id) :
    ∃ db', registerMedia db pk kinds = .ok db' ∧
      Edits db db' pk (audioReady kinds) (missing db.media pk kinds) := by
  obtain ⟨db₁, hok₁, h₁⟩ := insertAll_edits pk
    (kinds.filter fun k => !db.media.any fun m => m.callId = pk ∧ m.kind = k.1) hpk
  by_cases hk : kinds = []
  · subst hk
    exact ⟨db, rfl, .refl db pk⟩
  · obtain ⟨db', hok, h⟩ := updateCall_edits db₁ pk (fun c => { c with mediaReady := true })
      fun _ => rfl
    refine ⟨db', ?_, ?_⟩
    · have hstatements : registerMedia db pk kinds =
          ((kinds.filter fun k => !db.media.any fun m => m.callId = pk ∧ m.kind = k.1).foldlM
            (fun db (k : String × String) => db.insertMedia ⟨pk, k.1, some k.2, none⟩) db >>=
          fun db => if kinds = [] then .ok db else
            db.updateCall pk fun c => { c with mediaReady := true }) := rfl
      rw [hstatements, hok₁]
      exact (if_neg hk).trans hok
    · have hready : audioReady kinds = fun c => { c with mediaReady := true } := by
        funext c
        simp [audioReady, hk]
      rw [hready]
      simpa [missing] using h₁.trans h fun _ => rfl

lemma ensureAudioCall_found {agentId : Option String} {callId : String} {now : Time} {c : Call}
    (h : db.callByExternal callId = some c) :
    ensureAudioCall db agentId callId now = .ok (db, c.id) := by
  rw [ensureAudioCall, h]

lemma ensureAudioCall_created (agentId : Option String) {callId : String} (now : Time)
    (h : db.callByExternal callId = none) : ∃ db',
    ensureAudioCall db agentId callId now = .ok (db', db.nextPk) ∧
      db'.calls.length = db.calls.length + 1 ∧ db.nextPk ∈ db'.calls.map Call.id := by
  obtain ⟨db', hok, hcalls, -⟩ := Store.insertCall_ok db {
    id := 0, externalCallId := callId, agentId, source := .str "backfill",
    environment := .str "prod", status := .awaitingMedia, analysisMode := .audioOnly,
    lastActivityAt := now } h
  refine ⟨db', ?_, ?_, ?_⟩
  · rw [ensureAudioCall, h, hok]
    rfl
  · rw [hcalls, List.length_append, List.length_singleton]
  · rw [hcalls, List.map_append]
    exact List.mem_append_right _ (List.mem_singleton.2 rfl)

lemma ensureAudioCall_ok (db : Store) (agentId : Option String) (callId : String) (now : Time) :
    ∃ db' pk, ensureAudioCall db agentId callId now = .ok (db', pk) ∧ pk ∈ db'.calls.map Call.id := by
  cases h : db.callByExternal callId with
  | some c =>
    exact ⟨db, c.id, ensureAudioCall_found h, List.mem_map_of_mem (Store.callByExternal_some h).1⟩
  | none =>
    obtain ⟨db', hok, -, hpk⟩ := ensureAudioCall_created agentId now h
    exact ⟨db', db.nextPk, hok, hpk⟩

/-- Nothing has been written since the call was ensured exactly when it was there before and stays as
it was. -/
lemma ensured_eq_iff {agentId : Option String} {callId : String} {now : Time} {db₁ : Store}
    {m : List Media} (hok : ensureAudioCall db agentId callId now = .ok (db₁, pk))
    (h : Edits db₁ db' pk f m) (hid : ∀ c, (f c).id = c.id) :
    db' = db ↔ ∃ c, db.callByExternal callId = some c ∧ f c = c ∧ m = [] := by
  cases hfound : db.callByExternal callId with
  | some c =>
    obtain ⟨rfl, rfl⟩ : db = db₁ ∧ c.id = pk := by
      simpa using (ensureAudioCall_found hfound).symm.trans hok
    rw [h.eq_iff hid (Store.callByExternal_some hfound).1 rfl]
    simp
  | none =>
    obtain ⟨db₂, hcreated, hmore, -⟩ := ensureAudioCall_created agentId now hfound
    obtain ⟨rfl, rfl⟩ : db₂ = db₁ ∧ db.nextPk = pk := by
      simpa using hcreated.symm.trans hok
    refine iff_of_false (fun heq => ?_) (by simp)
    have hlength := h.length
    rw [heq] at hlength
    omega

end

end Pulse.Worker
