import Pulse.Ingest.Erase

/-!
# The pull paths

Calls also enter from storage: `ensure_audio_call` for recordings, `_process_otlp_call` for
trace files and `process_manifest_call` for manifests, run by a backfill job or by the poller.
`reconcile` attaches recordings to calls that are there. This file models one transaction of
each, and asks which of them can bring an erased external id back.
-/

namespace Pulse.Ingest

open Lib (Ends)

/-- A unit of work inside a caller's transaction. A raise leaves the state that the caller could
still commit, or nothing after a database error. -/
abbrev Session := Except (Option Store)

def written {α : Type} (x : Except DbError α) : Session α :=
  x.mapError fun _ => none

def Processed.session : Processed → Session Store
  | .analysed db => .ok db
  | .unsupportedSchema db => .error (some db)
  | .raised left => .error left

/-- `get_session` commits, or rolls back on a raise. -/
def committed {ε : Type} (db : Store) : Except ε Store → Store
  | .ok db' => db'
  | .error _ => db

/-- `run_job` logs a raise and commits. -/
def jobCommits (db : Store) : Session Store → Store
  | .ok db' => db'
  | .error left => left.getD db

/-- `ensure_audio_call` -/
def ensureAudioCall (db : Store) (agentId : Option String) (externalCallId : String) (now : Time) :
    Except DbError (Store × Pk) :=
  match db.callByExternal externalCallId with
  | some call => .ok (db, call.id)
  | none => do
    let db' ← db.insertCall {
      id := 0, externalCallId, agentId, source := .str "backfill", environment := .str "prod",
      status := .awaitingMedia, analysisMode := .audioOnly, lastActivityAt := now }
    return (db', db.nextPk)

/-- `_register_media`: one row for each kind that the call did not have. -/
def registerMedia (db : Store) (pk : Pk) (kinds : List (String × String)) : Except DbError Store := do
  let missing := kinds.filter fun (kind, _) => !db.media.any fun m => m.callId = pk ∧ m.kind = kind
  let db ← missing.foldlM (fun db (kind, uri) => db.insertMedia ⟨pk, kind, some uri, none⟩) db
  if kinds = [] then return db
  db.updateCall pk fun c => { c with mediaReady := true }

/-- The audio branch of `run_job`. -/
def audioCall (processAudioOnly : Process) (db : Store) (agentId : Option String) (callId : String)
    (kinds : List (String × String)) (now : Time) : Session Store := do
  let (db, pk) ← written (ensureAudioCall db agentId callId now)
  let db ← written (registerMedia db pk kinds)
  (processAudioOnly db pk now).session

/-- `_process_otlp_call`, from the decoded file on: the first resource with the spans of all. -/
def processOtlpCall (process : Process) (db : Store) (agentId : Option String) (file : Slice)
    (batchId : String) (now : Time) : Session Store := do
  if file.spans = [] then return db
  let b := identify db file agentId
  if b.callId = none then return db
  let db ← written (upsertCall db b now)
  let db ← written (storeFragment db b batchId 0 now)
  match b.callId.bind db.callByExternal with
  | none => throw (some db)
  | some call =>
    match process db call.id now with
    | .unsupportedSchema db => written (db.updateCall call.id fun c =>
        { c with status := .failed, analysisError := some "unsupported OTLP schema" })
    | outcome => outcome.session

/-- What a manifest matched to a call: a recording of some layout, or an artifact that may fail
to be fetched, decoded or mapped. -/
inductive ManifestItem
  | audio (layout uri : String)
  | artifact (readable : Bool)

/-- `audio_kinds`: of two recordings of one kind the later one stays. -/
def audioKinds (items : List ManifestItem) : List (String × String) :=
  items.foldl (fun kinds item => match item with
    | .audio layout uri =>
      let kind := if layout = "dual_mono" then "audio_caller" else "audio"
      kinds.filter (·.1 ≠ kind) ++ [(kind, uri)]
    | .artifact _ => kinds) []

/-- `process_manifest_call` -/
def processManifestCall (processTrace : Process) (db : Store) (agentId : Option String)
    (callId : String) (items : List ManifestItem) (now : Time) : Session Store := do
  let (db, pk) ← written (ensureAudioCall db agentId callId now)
  let db ← written (db.updateCall pk fun c =>
    if c.source.truthy then c else { c with source := .str "files" })
  if items.any fun item => match item with
    | .artifact readable => !readable
    | .audio _ _ => false then throw (some db)
  let db ← written (registerMedia db pk (audioKinds items))
  let db ← written (db.updateCall pk fun c => { c with spansComplete := true })
  (processTrace db pk now).session

/-- `_register` of `reconcile`: the only pull path that looks for a tombstone. -/
def register (db : Store) (agentId : Option String) (callId uri kind : String) :
    Except DbError (Store × Bool) :=
  match db.calls.find? fun c => c.agentId = agentId ∧ c.externalCallId = callId with
  | none => .ok (db, false)
  | some call =>
    if db.hasTombstone callId then .ok (db, false)
    else if db.media.any fun m => m.callId = call.id ∧ m.kind = kind then .ok (db, false)
    else do
      let db ← db.insertMedia ⟨call.id, kind, some uri, none⟩
      let db ← db.updateCall call.id fun c =>
        { c with mediaReady := true, status := if c.spansComplete then .ingested else c.status }
      return (db, true)

/-- The analyses that the paths end in. -/
structure Analyses where
  process : Process
  processTrace : Process
  processAudioOnly : Process

inductive PullStep
  | erase (allowDelete : Bool) (q : EraseRequest)
  | audioBackfill (agentId : Option String) (callId : String) (kinds : List (String × String))
      (now : Time)
  | otlpBackfill (agentId : Option String) (file : Slice) (batchId : String) (now : Time)
  | manifestBackfill (agentId : Option String) (callId : String) (items : List ManifestItem)
      (now : Time)
  | manifestPoll (agentId : Option String) (callId : String) (items : List ManifestItem) (now : Time)
  | reconcile (agentId : Option String) (callId uri kind : String)
  | consume (d : Delivery)

/-- One transaction, from the committed state to the next. -/
def PullStep.run (a : Analyses) (db : Store) : PullStep → Store
  | .erase allowDelete q => committed db (eraseCall allowDelete db q)
  | .audioBackfill agentId callId kinds now =>
    jobCommits db (audioCall a.processAudioOnly db agentId callId kinds now)
  | .otlpBackfill agentId file batchId now =>
    jobCommits db (processOtlpCall a.process db agentId file batchId now)
  | .manifestBackfill agentId callId items now =>
    jobCommits db (processManifestCall a.processTrace db agentId callId items now)
  | .manifestPoll agentId callId items now =>
    committed db (processManifestCall a.processTrace db agentId callId items now)
  | .reconcile agentId callId uri kind =>
    committed db ((register db agentId callId uri kind).map (·.1))
  | .consume d => deliver a.process db d

/-! ### Names that a transaction adds -/

/-- The tombstones stay, and every external id was there before or is the one in `x`. -/
structure OnlyNames (x : Option String) (db db' : Store) : Prop where
  calls : ∀ c' ∈ db'.calls, x = some c'.externalCallId ∨
    ∃ c ∈ db.calls, c.externalCallId = c'.externalCallId
  tombstones : db'.tombstones = db.tombstones

namespace OnlyNames

variable {x : Option String} {a b c : Store}

lemma refl (x : Option String) (db : Store) : OnlyNames x db db :=
  ⟨fun c hc => .inr ⟨c, hc, rfl⟩, rfl⟩

lemma trans (h : OnlyNames x a b) (h' : OnlyNames x b c) : OnlyNames x a c := by
  refine ⟨fun c' hc' => ?_, h'.tombstones.trans h.tombstones⟩
  rcases h'.calls c' hc' with hx | ⟨d, hd, he⟩
  · exact .inl hx
  · rw [← he]
    exact h.calls d hd

lemma of_calls (hcalls : b.calls = a.calls) (htombs : b.tombstones = a.tombstones) :
    OnlyNames x a b :=
  ⟨fun c hc => .inr ⟨c, hcalls ▸ hc, rfl⟩, htombs⟩

lemma of_sameIdentity (h : SameIdentity a b) : OnlyNames x a b := by
  refine ⟨fun c' hc' => .inr ?_, h.tombstones⟩
  obtain ⟨c, hc, -, he, -⟩ := h.exists_call hc'
  exact ⟨c, hc, he⟩

lemma insertCall {call : Call} (h : a.insertCall call = .ok b) :
    OnlyNames (some call.externalCallId) a b := by
  obtain ⟨hcalls, hframe⟩ := Store.insertCall_calls h
  refine ⟨fun c hc => ?_, hframe.tombstones⟩
  rw [hcalls] at hc
  rcases List.mem_append.1 hc with hc | hc
  · exact .inr ⟨c, hc, rfl⟩
  · exact .inl (by rw [List.mem_singleton.1 hc])

lemma updateCall {p : Pk} {f : Call → Call} (h : a.updateCall p f = .ok b)
    (hext : ∀ c, (f c).externalCallId = c.externalCallId) : OnlyNames x a b := by
  obtain ⟨hcalls, hframe⟩ := Store.updateCall_calls h
  refine ⟨fun c' hc' => .inr ?_, hframe.tombstones⟩
  rw [hcalls] at hc'
  obtain ⟨c, hc, rfl⟩ := List.mem_map.1 hc'
  refine ⟨c, hc, ?_⟩
  by_cases hp : c.id = p <;> simp [Store.onRow, hp, hext]

lemma insertMedia {m : Media} (h : a.insertMedia m = .ok b) : OnlyNames x a b :=
  of_calls (Store.insertMedia_rows h).1 (Store.insertMedia_rows h).2

lemma upsertCall {batch : Batch} {now : Time} {y : String} (hy : batch.callId = some y)
    (h : Ingest.upsertCall a batch now = .ok b) : OnlyNames (some y) a b := by
  obtain ⟨db', hok, hframe, hup⟩ := upsertCall_spec a batch now hy
  rw [h] at hok
  cases hok
  refine ⟨fun c' hc' => ?_, hframe.tombstones⟩
  rcases (hup.origin hc').1 with he | ⟨c, hc, -, he⟩
  · exact .inl (congrArg some he.symm)
  · exact .inr ⟨c, hc, he⟩

lemma storeFragment {batch : Batch} {batchId : String} {seq : Int} {now : Time}
    (h : Ingest.storeFragment a batch batchId seq now = .ok b) : OnlyNames x a b := by
  simp only [Ingest.storeFragment] at h
  split at h
  · cases h
    exact .refl x _
  · obtain ⟨hcalls, htombs⟩ := Store.insertFragment_rows h
    exact of_calls hcalls htombs

lemma ensureAudioCall {agentId : Option String} {callId : String} {now : Time} {r : Store × Pk}
    (h : Ingest.ensureAudioCall a agentId callId now = .ok r) : OnlyNames (some callId) a r.1 := by
  unfold Ingest.ensureAudioCall at h
  cases hc : a.callByExternal callId with
  | some call =>
    simp only [hc] at h
    cases h
    exact .refl _ a
  | none =>
    simp only [hc] at h
    obtain ⟨db', hinsert, h⟩ := Lib.bind_eq_ok.1 h
    cases h
    exact insertCall hinsert

lemma registerMedia {pk : Pk} {kinds : List (String × String)}
    (h : Ingest.registerMedia a pk kinds = .ok b) : OnlyNames x a b := by
  obtain ⟨db, hfold, h⟩ := Lib.bind_eq_ok.1 h
  have hmedia : OnlyNames x a db :=
    Lib.foldlM_ok (fun _ _ _ _ hs hm => hs.trans (insertMedia hm)) (.refl x a) hfold
  split at h
  · cases h
    exact hmedia
  · exact hmedia.trans (updateCall h fun _ => rfl)

end OnlyNames

/-- Whatever of a session is committed, it adds no name but `x`. -/
def Adds (x : Option String) (db : Store) : Session Store → Prop :=
  Ends (OnlyNames x db) fun left => ∀ db' ∈ left, OnlyNames x db db'

lemma Adds.jobCommits {x : Option String} {db : Store} {r : Session Store} (h : Adds x db r) :
    OnlyNames x db (jobCommits db r) := by
  cases r with
  | ok db' => exact h
  | error left =>
    cases left with
    | none => exact .refl x db
    | some db' => exact h db' rfl

lemma Adds.committed {x : Option String} {db : Store} {r : Session Store} (h : Adds x db r) :
    OnlyNames x db (committed db r) := by
  cases r with
  | ok db' => exact h
  | error left => exact .refl x db

lemma Adds.written {α : Type} {x : Option String} {db : Store} {stmt : Except DbError α} {Q : α → Prop}
    {f : α → Session Store} (hstmt : ∀ a, stmt = .ok a → Q a) (hf : ∀ a, Q a → Adds x db (f a)) :
    Adds x db (written stmt >>= f) := by
  refine Ends.bind (Q := Q) ?_ hf
  cases stmt with
  | error e => exact fun db' h => nomatch h
  | ok a => exact hstmt a rfl

lemma Adds.last {x : Option String} {db : Store} {stmt : Except DbError Store}
    (hstmt : ∀ a, stmt = .ok a → OnlyNames x db a) : Adds x db (Ingest.written stmt) := by
  cases stmt with
  | error e => exact fun db' h => nomatch h
  | ok a => exact hstmt a rfl

lemma Adds.analysis {x : Option String} {db base : Store} {process : Process} {pk : Pk} {now : Time}
    (hprocess : KeepsIdentity process) (h : OnlyNames x base db) :
    Adds x base (process db pk now).session := by
  have hleaves := hprocess db pk now
  cases hp : process db pk now with
  | analysed db' =>
    exact h.trans (.of_sameIdentity (hleaves db' (hp ▸ .analysed db')))
  | unsupportedSchema db' =>
    rintro db'' ⟨⟩
    exact h.trans (.of_sameIdentity (hleaves db' (hp ▸ .unsupportedSchema db')))
  | raised left =>
    rintro db' ⟨⟩
    exact h.trans (.of_sameIdentity (hleaves db' (hp ▸ .raised db')))

/-! ### Each path -/

section Paths

variable {process : Process} (hprocess : KeepsIdentity process) (db : Store)
  (agentId : Option String) (now : Time)
include hprocess

lemma audioCall_adds (callId : String) (kinds : List (String × String)) :
    Adds (some callId) db (audioCall process db agentId callId kinds now) := by
  unfold audioCall
  refine Adds.written (Q := fun r => OnlyNames (some callId) db r.1)
    (fun _ h => .ensureAudioCall h) fun ⟨db₁, pk⟩ h₁ => ?_
  refine Adds.written (Q := OnlyNames (some callId) db) (fun _ h => h₁.trans (.registerMedia h))
    fun db₂ h₂ => ?_
  exact Adds.analysis hprocess h₂

lemma processManifestCall_adds (callId : String) (items : List ManifestItem) :
    Adds (some callId) db (processManifestCall process db agentId callId items now) := by
  unfold processManifestCall
  refine Adds.written (Q := fun r => OnlyNames (some callId) db r.1)
    (fun _ h => .ensureAudioCall h) fun ⟨db₁, pk⟩ h₁ => ?_
  refine Adds.written (Q := OnlyNames (some callId) db)
    (fun _ h => h₁.trans (.updateCall h fun c => ?_)) fun db₂ h₂ => ?_
  · split <;> rfl
  split
  · rintro db' ⟨⟩
    exact h₂
  · refine Adds.written (Q := OnlyNames (some callId) db) (fun _ h => h₂.trans (.registerMedia h))
      fun db₃ h₃ => ?_
    refine Adds.written (Q := OnlyNames (some callId) db) (fun _ h => h₃.trans (.updateCall h fun _ => rfl))
      fun db₄ h₄ => ?_
    exact Adds.analysis hprocess h₄

omit hprocess in
lemma identify_callId_eq {file : Slice} {x : String}
    (h : (identify db file agentId).callId = some x) : x = joinedId db file := by
  cases hc : file.callId with
  | some y =>
    rw [identify_callId_explicit hc] at h
    simpa [joinedId, hc] using h.symm
  | none =>
    by_cases ht : file.traceId = ""
    · simp [identify, hc, ht, nonEmpty] at h
    · rw [identify_joinedId ht] at h
      exact (Option.some.inj h).symm

lemma processOtlpCall_adds (file : Slice) (batchId : String) :
    Adds (some (joinedId db file)) db (processOtlpCall process db agentId file batchId now) := by
  set x := joinedId db file with hx
  unfold processOtlpCall
  split
  · exact OnlyNames.refl _ db
  dsimp only
  cases hid : (identify db file agentId).callId with
  | none => exact OnlyNames.refl _ db
  | some y =>
    obtain rfl : y = x := identify_callId_eq db agentId hid
    rw [if_neg (by simp)]
    refine Adds.written (Q := OnlyNames (some x) db) (fun _ h => .upsertCall hid h) fun db₁ h₁ => ?_
    refine Adds.written (Q := OnlyNames (some x) db) (fun _ h => h₁.trans (.storeFragment h))
      fun db₂ h₂ => ?_
    simp only [Option.bind_some]
    cases hcall : db₂.callByExternal x with
    | none =>
      rintro db' ⟨⟩
      exact h₂
    | some call =>
      have hleaves : Adds (some x) db (process db₂ call.id now).session := .analysis hprocess h₂
      cases hp : process db₂ call.id now with
      | analysed db₃ =>
        rw [hp] at hleaves
        simpa only [hp] using hleaves
      | raised left =>
        rw [hp] at hleaves
        simpa only [hp] using hleaves
      | unsupportedSchema db₃ =>
        rw [hp] at hleaves
        have h₃ : OnlyNames (some x) db db₃ := hleaves db₃ rfl
        simp only [hp]
        exact .last fun _ h => h₃.trans (.updateCall h fun _ => rfl)

omit hprocess in
lemma register_onlyNames {callId uri kind : String} {r : Store × Bool}
    (h : register db agentId callId uri kind = .ok r) :
    OnlyNames none db r.1 := by
  unfold register at h
  split at h
  · cases h
    exact .refl none db
  · split at h
    · cases h
      exact .refl none db
    · split at h
      · cases h
        exact .refl none db
      · obtain ⟨db₁, h₁, h⟩ := Lib.bind_eq_ok.1 h
        obtain ⟨db₂, h₂, h⟩ := Lib.bind_eq_ok.1 h
        cases h
        exact (OnlyNames.insertMedia h₁).trans (.updateCall h₂ fun _ => rfl)

end Paths

/-! ### The tombstone under the pull paths -/

/-- No call has the tombstoned id `x`. -/
def StaysErased (x : String) (db : Store) : Prop :=
  db.hasTombstone x = true → db.callByExternal x = none

/-- A step of the pull paths does not take up the id `x` after its erasure. -/
def Spares (x : String) (db : Store) : PullStep → Prop
  | .audioBackfill _ callId _ _ => callId = x → db.hasTombstone x = false
  | .otlpBackfill _ file _ _ => joinedId db file = x → db.hasTombstone x = false
  | .manifestBackfill _ callId _ _ => callId = x → db.hasTombstone x = false
  | .manifestPoll _ callId _ _ => callId = x → db.hasTombstone x = false
  | _ => True

lemma StaysErased.onlyNames {x : String} {y : Option String} {db db' : Store}
    (h : StaysErased x db) (hnames : OnlyNames y db db')
    (hy : y = some x → db.hasTombstone x = false) : StaysErased x db' := by
  intro htomb
  have htomb' : db.hasTombstone x = true := by
    simpa only [Store.hasTombstone, hnames.tombstones] using htomb
  rw [Store.callByExternal_eq_none]
  intro c' hc' hx
  rcases hnames.calls c' hc' with he | ⟨c, hc, he⟩
  · rw [hy (hx ▸ he)] at htomb'
    cases htomb'
  · exact Store.callByExternal_eq_none.1 (h htomb') c hc (he.trans hx)

lemma StaysErased.sameIdentity {x : String} {db db' : Store} (h : StaysErased x db)
    (hsame : SameIdentity db db') : StaysErased x db' :=
  h.onlyNames (y := none) (.of_sameIdentity hsame) (fun hn => nomatch hn)

lemma StaysErased.erase {x : String} {db db' : Store} {allowDelete : Bool} {q : EraseRequest}
    (h : StaysErased x db) (herase : eraseCall allowDelete db q = .ok db') : StaysErased x db' := by
  obtain ⟨k, hk, hcalls, htombs⟩ := eraseCall_ok herase
  intro htomb
  rw [Store.callByExternal_eq_none, hcalls]
  intro c hc hx
  obtain ⟨hc, hid⟩ := List.mem_filter.1 hc
  rw [Store.hasTombstone_append htombs, Bool.or_eq_true, decide_eq_true_iff] at htomb
  rcases htomb with htomb | hq
  · exact Store.callByExternal_eq_none.1 (h htomb) c hc hx
  · -- the call that was found by the erased id is the one deleted
    have hcall := Store.callByExternal_of_mem hc
    rw [hx, ← hq, hk] at hcall
    rw [Option.some.inj hcall] at hid
    simp at hid

lemma StaysErased.deliver {process : Process} (hprocess : KeepsIdentity process) {x : String}
    {db : Store} {d : Delivery} (h : StaysErased x db) : StaysErased x (deliver process db d) := by
  rcases deliver_spec hprocess db d with hsame | ⟨slice, db₁, -, has, hsame⟩
  · rw [hsame]
    exact h
  · refine StaysErased.sameIdentity ?_ hsame
    cases has with
    | dropped _ _ _ heq => exact heq ▸ h
    | unattributed _ hcalls htombs =>
      exact h.onlyNames (y := none) (.of_calls hcalls htombs) (fun hn => nomatch hn)
    | stored y _ _ hlive hup _ htombs =>
      have hnames : OnlyNames (some y) db db₁ := by
        refine ⟨fun c' hc' => ?_, htombs⟩
        rcases (hup.origin hc').1 with he | ⟨c, hc, -, he⟩
        · exact .inl (congrArg some he.symm)
        · exact .inr ⟨c, hc, he⟩
      exact h.onlyNames hnames fun hy => Option.some.inj hy ▸ hlive

lemma StaysErased.run {a : Analyses} (hprocess : KeepsIdentity a.process)
    (htrace : KeepsIdentity a.processTrace) (haudio : KeepsIdentity a.processAudioOnly) {x : String}
    {db : Store} {step : PullStep} (h : StaysErased x db) (hspares : Spares x db step) :
    StaysErased x (step.run a db) := by
  have hname : ∀ {y : String}, (y = x → db.hasTombstone x = false) →
      some y = some x → db.hasTombstone x = false := fun hy he => hy (Option.some.inj he)
  cases step with
  | erase allowDelete q =>
    simp only [PullStep.run]
    cases he : eraseCall allowDelete db q with
    | error e => exact h
    | ok db' => exact h.erase he
  | audioBackfill agentId callId kinds now =>
    exact h.onlyNames (audioCall_adds haudio db agentId now callId kinds).jobCommits
      (hname hspares)
  | otlpBackfill agentId file batchId now =>
    exact h.onlyNames (processOtlpCall_adds hprocess db agentId now file batchId).jobCommits
      (hname hspares)
  | manifestBackfill agentId callId items now =>
    exact h.onlyNames (processManifestCall_adds htrace db agentId now callId items).jobCommits
      (hname hspares)
  | manifestPoll agentId callId items now =>
    exact h.onlyNames (processManifestCall_adds htrace db agentId now callId items).committed
      (hname hspares)
  | reconcile agentId callId uri kind =>
    simp only [PullStep.run]
    cases hr : register db agentId callId uri kind with
    | error e => exact h
    | ok r => exact h.onlyNames (register_onlyNames db agentId hr) (fun hn => nomatch hn)
  | consume d => exact h.deliver hprocess

/-- A step of the pull paths. -/
def Pulls (a : Analyses) (db : Store) (step : PullStep) (db' : Store) : Prop :=
  db' = step.run a db

/-- An erased id stays erased in every run whose pull steps do not take it up. -/
theorem erased_id_stays_erased {a : Analyses} (hprocess : KeepsIdentity a.process)
    (htrace : KeepsIdentity a.processTrace) (haudio : KeepsIdentity a.processAudioOnly) {x : String}
    {db db' : Store} {steps : List PullStep} (h : StaysErased x db)
    (hrun : Lib.Run (Lib.guarded (Pulls a) (Spares x)) db steps db') : StaysErased x db' := by
  refine hrun.invariant_guarded (fun db step db' h hspares hstep => ?_) h
  rw [hstep]
  exact h.run hprocess htrace haudio hspares

/-! ### Taking up an erased id -/

instance (x : String) (db : Store) : Decidable (StaysErased x db) :=
  inferInstanceAs (Decidable (_ → _))

/-- Analyses that change nothing. -/
def noAnalyses : Analyses := ⟨noAnalysis, noAnalysis, noAnalysis⟩

/-- `c1` is erased, its recording is found again, and another call is backfilled. -/
theorem erased_id_stays_erased_reconciled : ∃ db',
    Lib.Run (Pulls noAnalyses) rootStore [.erase true ⟨"c1", "c1", none⟩,
      .reconcile none "c1" "s3://b/c1.wav" "audio",
      .audioBackfill none "c2" [("audio", "s3://b/c2.wav")] 2] db' ∧ StaysErased "c1" db' := by
  have hrun : Lib.Run (Lib.guarded (Pulls noAnalyses) (Spares "c1")) rootStore
      [.erase true ⟨"c1", "c1", none⟩, .reconcile none "c1" "s3://b/c1.wav" "audio",
        .audioBackfill none "c2" [("audio", "s3://b/c2.wav")] 2] _ :=
    .cons ⟨rfl, trivial⟩ (.cons ⟨rfl, trivial⟩ (.cons ⟨rfl, fun h => absurd h (by decide)⟩ (.nil _)))
  exact ⟨_, hrun.of_guarded, erased_id_stays_erased noAnalysis_keepsIdentity
    noAnalysis_keepsIdentity noAnalysis_keepsIdentity (by decide) hrun⟩

/-- Each of the three paths that create calls brings an erased id back. -/
theorem erased_id_taken_up : StaysErased "c1" erasedStore ∧
    ¬StaysErased "c1" (PullStep.run noAnalyses erasedStore
      (.audioBackfill none "c1" [("audio", "s3://b/c1.wav")] 2)) ∧
    ¬StaysErased "c1" (PullStep.run noAnalyses erasedStore
      (.otlpBackfill none ⟨[], [⟨"t1", "s1", "", [("voice.call_id", .str "c1")], ""⟩]⟩ "b9" 2)) ∧
    ¬StaysErased "c1" (PullStep.run noAnalyses erasedStore
      (.manifestPoll none "c1" [.artifact true] 2)) := by
  decide

end Pulse.Ingest
