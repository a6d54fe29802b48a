import Pulse.Worker.BackfillCalls

/-!
# What a failing call leaves behind

The processing of a call ends by the first thing that goes wrong on its path. An exception leaves
the session as it was exactly when the statements before it had nothing left to write.
-/

namespace Pulse.Worker

open Ingest

variable {R : Type}

/-- The points at which artifacts are read. -/
def artifactPoints (items : List (ManifestItem × Nat)) : List Point :=
  items.filterMap fun
    | (.audio _ _, _) => none
    | (.artifact _, i) => some (.artifact i)

/-- The points that the processing of a call passes when nothing goes wrong. -/
def FoundCall.path (agentId : Option String) (c : FoundCall R) (w : Records R) : List Point :=
  match c.artifacts with
  | .audio _ => [.ensure, .register, .analysis]
  | .otlp file _ =>
    if file.spans = [] then [.fetch, .decode]
    else if (identify w.db file agentId).callId = none then [.fetch, .decode, .identify]
    else [.fetch, .decode, .identify, .upsert, .fragment, .analysis]
  | .manifest items =>
    .ensure :: (artifactPoints items.zipIdx ++
      ((if audioKinds items ≠ [] then [.register] else []) ++ [.assemble, .flush, .analysis]))

/-- The first thing on the path that goes wrong. -/
def FoundCall.firstTrouble (c : FoundCall R) (path : List Point) : Option (Point × Fault) :=
  path.findSome? fun p => (c.trouble p).map (p, ·)

/-- The call has a row, with all that the file's spans fill in. -/
def Filled (db : Store) (b : Batch) (now : Time) : Prop :=
  ∃ c, b.callId.bind db.callByExternal = some c ∧ fillIn db b now c = c

/-- The call has a row, with a source. -/
def Sourced (db : Store) (callId : String) : Prop :=
  ∃ c, db.callByExternal callId = some c ∧ c.source.truthy = true

/-- The call has a row, its recordings, and its gate is open. -/
def Registered (db : Store) (callId : String) (kinds : List (String × String)) : Prop :=
  ∃ c, db.callByExternal callId = some c ∧ missing db.media c.id kinds = [] ∧
    (kinds ≠ [] → c.mediaReady = true)

/-- The call has a row that is complete. -/
def Completed (db : Store) (callId : String) : Prop :=
  ∃ c, db.callByExternal callId = some c ∧ c.spansComplete = true

/-- The statements before the point have nothing left to write. An analysis always writes the row of
its run. -/
def FoundCall.Unwritten (agentId : Option String) (c : FoundCall R) (w : Records R) (p : Point) :
    Prop :=
  match c.artifacts, p with
  | _, .analysis => False
  | .audio _, .register => (w.db.callByExternal c.callId).isSome = true
  | .otlp file _, .fragment => Filled w.db (identify w.db file agentId) c.now
  | .manifest _, .artifact _ => Sourced w.db c.callId
  | .manifest _, .register => Sourced w.db c.callId
  | .manifest items, .assemble =>
    Sourced w.db c.callId ∧ Registered w.db c.callId (audioKinds items)
  | .manifest items, .flush =>
    Sourced w.db c.callId ∧ Registered w.db c.callId (audioKinds items) ∧ Completed w.db c.callId
  | _, _ => True

/-- A session from `w₀` ends by the first trouble on the path. `U` tells where nothing has been
written. -/
def FoundCall.Meets (c : FoundCall R) (U : Point → Prop) (w₀ : Records R) (path : List Point)
    (r : JobSession R (Records R × Bool)) : Prop :=
  match c.firstTrouble path with
  | none => ∃ s, r = .ok s
  | some (_, .database) => r = .error none
  | some (p, .raises e) => ∃ left, r = .error (some (left, e)) ∧ (left = w₀ ↔ U p)

section

variable {c : FoundCall R} {U : Point → Prop} {w₀ w : Records R} {p : Point} {path : List Point}

lemma meets_done (U : Point → Prop) (w₀ : Records R) (s : Records R × Bool) :
    c.Meets U w₀ [] (.ok s) :=
  ⟨s, rfl⟩

lemma meets_reach {f : Unit → JobSession R (Records R × Bool)} (hw : w = w₀ ↔ U p)
    (h : c.Meets U w₀ path (f ())) : c.Meets U w₀ (p :: path) (reach c p w >>= f) := by
  unfold FoundCall.Meets FoundCall.firstTrouble reach at *
  rw [List.findSome?_cons]
  cases ht : c.trouble p with
  | none => exact h
  | some fault =>
    cases fault with
    | raises e => exact ⟨w, rfl, hw⟩
    | database => rfl

lemma meets_artifacts {f : Unit → JobSession R (Records R × Bool)} (items : List (ManifestItem × Nat))
    (hw : ∀ i, w = w₀ ↔ U (.artifact i)) (h : c.Meets U w₀ path (f ())) :
    c.Meets U w₀ (artifactPoints items ++ path) (readArtifacts c w items >>= f) := by
  induction items with
  | nil => exact h
  | cons item items ih =>
    match item with
    | (.audio _ _, _) => exact ih
    | (.artifact _, i) =>
      rw [readArtifacts, bind_assoc]
      exact meets_reach (hw i) ih

lemma meets_ok (ht : c.trouble p = none) (s : Records R × Bool) : c.Meets U w₀ [p] (.ok s) := by
  rw [FoundCall.Meets, FoundCall.firstTrouble, List.findSome?_cons, ht]
  exact ⟨s, rfl⟩

lemma meets_database (ht : c.trouble p = some .database) : c.Meets U w₀ [p] (.error none) := by
  rw [FoundCall.Meets, FoundCall.firstTrouble, List.findSome?_cons, ht]
  rfl

lemma meets_raise {e : String} (ht : c.trouble p = some (.raises e)) (hw : w = w₀ ↔ U p) :
    c.Meets U w₀ [p] (.error (some (w, e))) := by
  rw [FoundCall.Meets, FoundCall.firstTrouble, List.findSome?_cons, ht]
  exact ⟨w, rfl, hw⟩

end

/-- An analysis that has begun has written the row of its run. -/
lemma analysed_ne (c : FoundCall R) {w w₀ : Records R} (h : w.runs = w₀.runs) (pk : Pk)
    (status : RunStatus) : w.analysed c pk status ≠ w₀ := by
  intro heq
  have hruns := congrArg (fun w => w.runs.length) heq
  simp [Records.analysed, h] at hruns

lemma withDb_eq_iff {w : Records R} {db : Store} : { w with db := db } = w ↔ db = w.db := by
  obtain ⟨db', runs, rows⟩ := w
  simp

lemma meets_fail {c : FoundCall R} {U : Point → Prop} {w₀ : Records R} {p : Point}
    (ht : c.trouble p = none) (w : Records R) (pk : Pk) (reason : String) :
    c.Meets U w₀ [p] (do let w ← w.fail pk reason; return (w, false)) := by
  obtain ⟨db', hok, -⟩ := updateCall_edits w.db pk
    (fun c => { c with status := .failed, analysisError := some reason }) fun _ => rfl
  rw [Records.fail, hok]
  exact meets_ok ht _

@[simp] lemma execute_ok {α : Type} (a : α) : (execute (.ok a) : JobSession R α) = .ok a := rfl

/-! ### The analyses -/

lemma processAudioOnly_meets {c : FoundCall R} {kinds : List (String × String)}
    (hc : c.artifacts = .audio kinds) {U : Point → Prop} (w₀ w : Records R) (pk : Pk) :
    c.Meets U w₀ [.analysis] (processAudioOnly c w pk) := by
  unfold processAudioOnly
  cases hends : c.ends with
  | done reasons =>
    have ht : c.trouble .analysis = none := by simp [FoundCall.trouble, hends]
    exact meets_ok ht _
  | unsupportedSchema e =>
    have ht : c.trouble .analysis = none := by simp [FoundCall.trouble, hc, hends]
    exact meets_fail ht _ pk e
  | raises e =>
    have ht : c.trouble .analysis = none := by simp [FoundCall.trouble, hc, hends]
    exact meets_fail ht _ pk e
  | database =>
    have ht : c.trouble .analysis = some .database := by simp [FoundCall.trouble, hends]
    exact meets_database ht

lemma processTrace_meets {c : FoundCall R} {items : List ManifestItem}
    (hc : c.artifacts = .manifest items) {U : Point → Prop} (hU : ¬U .analysis) {w₀ w : Records R}
    (hruns : w.runs = w₀.runs) (pk : Pk) : c.Meets U w₀ [.analysis] (processTrace c w pk) := by
  unfold processTrace
  cases hends : c.ends with
  | done reasons =>
    have ht : c.trouble .analysis = none := by simp [FoundCall.trouble, hends]
    exact meets_ok ht _
  | unsupportedSchema e =>
    have ht : c.trouble .analysis = some (.raises e) := by simp [FoundCall.trouble, hc, hends]
    exact meets_raise ht (iff_of_false (analysed_ne c hruns pk .running) hU)
  | raises e =>
    have ht : c.trouble .analysis = some (.raises e) := by simp [FoundCall.trouble, hc, hends]
    exact meets_raise ht (iff_of_false (analysed_ne c hruns pk .running) hU)
  | database =>
    have ht : c.trouble .analysis = some .database := by simp [FoundCall.trouble, hends]
    exact meets_database ht

/-! ### The three ways to process a call -/

section

variable (agentId : Option String) (c : FoundCall R) (w : Records R)

lemma audioCall_meets {kinds : List (String × String)} (hc : c.artifacts = .audio kinds) :
    c.Meets (c.Unwritten agentId w) w (c.path agentId w) (audioCall agentId c kinds w) := by
  have hpath : c.path agentId w = [.ensure, .register, .analysis] := by
    rw [FoundCall.path, hc]
  rw [hpath]
  unfold audioCall
  refine meets_reach (iff_of_true rfl (by simp [FoundCall.Unwritten])) ?_
  obtain ⟨db₁, pk, hensure, hpk⟩ := ensureAudioCall_ok w.db agentId c.callId c.now
  have hensured : db₁ = w.db ↔ (w.db.callByExternal c.callId).isSome = true := by
    rw [ensured_eq_iff hensure (.refl db₁ pk) fun _ => rfl, Option.isSome_iff_exists]
    simp
  rw [hensure, execute_ok]
  refine meets_reach (withDb_eq_iff.trans (hensured.trans (by simp [FoundCall.Unwritten, hc]))) ?_
  obtain ⟨db₂, hregister, -⟩ := registerMedia_edits kinds hpk
  simp only
  rw [hregister, execute_ok]
  exact processAudioOnly_meets hc _ _ pk

/-- An upsert writes nothing exactly when the call's row has all that it fills in. -/
lemma upsertCall_eq_iff {db db' : Store} {b : Batch} {now : Time} {x : String}
    (hx : b.callId = some x) (hok : upsertCall db b now = .ok db') : db' = db ↔ Filled db b now := by
  have hfilled : Filled db b now ↔ ∃ c, db.callByExternal x = some c ∧ fillIn db b now c = c := by
    rw [Filled, hx]
    rfl
  obtain ⟨db₁, hsame, -, hup⟩ := upsertCall_spec db b now hx
  obtain rfl : db' = db₁ := Except.ok.inj (hok.symm.trans hsame)
  rw [hfilled]
  cases hup with
  | found c hc hcalls =>
    have hupdate : db.updateCall c.id (fillIn db b now) = .ok db' := by
      rw [← hok, upsertCall]
      simp [hx, hc, pure, Except.pure, bind, Except.bind]
    rw [(Edits.of_updateCall hupdate).eq_iff (fun _ => rfl) (Store.callByExternal_some hc).1 rfl]
    simp [hc]
  | promoted c hnone _ hc hcalls =>
    refine iff_of_false (fun heq => ?_) (by simp [hnone])
    obtain ⟨hm, -⟩ := Store.callByTrace_some hc
    rw [heq] at hcalls
    have hrow := List.map_inj_left.1 (hcalls.symm.trans (List.map_id _).symm) c hm
    have hext : c.externalCallId = x := by
      have := congrArg Call.externalCallId hrow
      simpa [Store.onRow] using this.symm
    exact Store.callByExternal_eq_none.1 hnone c hm hext
  | created hnone _ hcalls =>
    refine iff_of_false (fun heq => ?_) (by simp [hnone])
    have hlength := congrArg List.length hcalls
    rw [heq] at hlength
    simp at hlength

/-- After an upsert the call is there, and storing a fragment goes through. -/
lemma storeFragment_upserted {db db₁ : Store} {b : Batch} {now : Time} {x : String}
    (hx : b.callId = some x) (hok : upsertCall db b now = .ok db₁) (batchId : String) :
    ∃ db₂ call, storeFragment db₁ b batchId 0 now = .ok db₂ ∧ db₂.callByExternal x = some call := by
  obtain ⟨db', hsame, -, hup⟩ := upsertCall_spec db b now hx
  obtain rfl : db₁ = db' := Except.ok.inj (hok.symm.trans hsame)
  obtain ⟨call, hcall, hcallx⟩ := hup.exists_call
  have hfind : db₁.callByExternal x = some call := hcallx ▸ Store.callByExternal_of_mem hcall
  have hpk : callPk db₁ b.callId = some call.id := by simp [callPk, hx, hfind]
  unfold storeFragment
  rw [hpk]
  by_cases hhas : hasFragment db₁ call.id batchId 0
  · exact ⟨db₁, call, by simp [hhas], hfind⟩
  · obtain ⟨db₂, hinsert, hcalls, -⟩ := insertFragment_ok db₁
      ⟨some call.id, batchId, 0, now, ⟨b.attrs, b.spans⟩⟩ (by simpa using ⟨call, hcall, rfl⟩)
    refine ⟨db₂, call, by simpa [hhas] using hinsert, ?_⟩
    simpa only [Store.callByExternal, hcalls] using hfind

lemma processOtlpCall_meets {file : Slice} {batchId : String}
    (hc : c.artifacts = .otlp file batchId) : c.Meets (c.Unwritten agentId w) w (c.path agentId w)
      (processOtlpCall agentId c file batchId w) := by
  unfold processOtlpCall
  have hfree : ∀ p, p ≠ .fragment → p ≠ .analysis → (w = w ↔ c.Unwritten agentId w p) := by
    intro p hfragment hanalysis
    refine iff_of_true rfl ?_
    cases p <;> simp_all [FoundCall.Unwritten]
  by_cases hspans : file.spans = []
  · rw [FoundCall.path, hc]
    simp only [hspans, if_pos]
    exact meets_reach (hfree _ nofun nofun) (meets_reach (hfree _ nofun nofun) (meets_done _ _ _))
  cases hx : (identify w.db file agentId).callId with
  | none =>
    rw [FoundCall.path, hc]
    simp only [hspans, hx, if_pos]
    exact meets_reach (hfree _ nofun nofun) (meets_reach (hfree _ nofun nofun)
      (meets_reach (hfree _ nofun nofun) (meets_done _ _ _)))
  | some x =>
    obtain ⟨db₁, hupsert, -, -⟩ := upsertCall_spec w.db (identify w.db file agentId) c.now hx
    have hwritten : db₁ = w.db ↔ c.Unwritten agentId w .fragment := by
      simp only [upsertCall_eq_iff hx hupsert, FoundCall.Unwritten, hc]
    obtain ⟨db₂, call, hstore, hcall⟩ := storeFragment_upserted hx hupsert batchId
    rw [FoundCall.path, hc]
    simp only [hspans, hx, if_false, reduceCtorEq]
    refine meets_reach (hfree _ nofun nofun) (meets_reach (hfree _ nofun nofun)
      (meets_reach (hfree _ nofun nofun) (meets_reach (hfree _ nofun nofun) ?_)))
    rw [hupsert, execute_ok, Lib.ok_bind]
    refine meets_reach (withDb_eq_iff.trans hwritten) ?_
    rw [hstore, execute_ok, Lib.ok_bind, Option.bind_some]
    simp only [hcall]
    cases hends : c.ends with
    | done reasons =>
      have ht : c.trouble .analysis = none := by simp [FoundCall.trouble, hends]
      exact meets_ok ht _
    | unsupportedSchema e =>
      have ht : c.trouble .analysis = none := by simp [FoundCall.trouble, hc, hends]
      exact meets_fail ht _ call.id _
    | raises e =>
      have ht : c.trouble .analysis = some (.raises e) := by simp [FoundCall.trouble, hc, hends]
      have hruns : ({ w with db := db₂ } : Records R).runs = w.runs := rfl
      exact meets_raise ht (iff_of_false (analysed_ne c hruns call.id .running)
        (by simp [FoundCall.Unwritten]))
    | database =>
      have ht : c.trouble .analysis = some .database := by simp [FoundCall.trouble, hends]
      exact meets_database ht

/-- The source that `process_manifest_call` gives a call that has none. -/
def withSource (c : Call) : Call :=
  if c.source.truthy then c else { c with source := .str "files" }

lemma withSource_eq_iff (c : Call) : withSource c = c ↔ c.source.truthy = true := by
  constructor
  · intro h
    by_contra hfalsy
    have hsource := congrArg Call.source h
    rw [withSource, if_neg hfalsy] at hsource
    exact hfalsy (hsource ▸ rfl)
  · exact fun h => if_pos h

@[simp] lemma withSource_id (c : Call) : (withSource c).id = c.id := by
  unfold withSource
  split <;> rfl

@[simp] lemma withSource_spansComplete (c : Call) :
    (withSource c).spansComplete = c.spansComplete := by
  unfold withSource
  split <;> rfl

section

variable (kinds : List (String × String)) (c : Call)

@[simp] lemma audioReady_id : (audioReady kinds c).id = c.id := by
  unfold audioReady
  split <;> rfl

@[simp] lemma audioReady_spansComplete :
    (audioReady kinds c).spansComplete = c.spansComplete := by
  unfold audioReady
  split <;> rfl

lemma ready_eq_iff : audioReady kinds (withSource c) = c ↔
    c.source.truthy = true ∧ (kinds ≠ [] → c.mediaReady = true) := by
  have hready : ∀ c, audioReady kinds c = c ↔ (kinds ≠ [] → c.mediaReady = true) := by
    intro c
    unfold audioReady
    by_cases hk : kinds = []
    · simp [hk]
    · obtain ⟨⟩ := c
      simp [hk, eq_comm]
  have hsource : ∀ c, (audioReady kinds c).source = c.source := by
    intro c
    unfold audioReady
    split <;> rfl
  constructor
  · intro h
    have hs := congrArg Call.source h
    rw [hsource] at hs
    have htruthy : c.source.truthy = true := by
      by_contra hfalsy
      rw [withSource, if_neg hfalsy] at hs
      exact hfalsy (hs ▸ rfl)
    rw [(withSource_eq_iff c).2 htruthy, hready] at h
    exact ⟨htruthy, h⟩
  · rintro ⟨hs, hr⟩
    rw [(withSource_eq_iff c).2 hs, hready]
    exact hr

end

lemma complete_eq_iff {c d : Call} (h : d.spansComplete = c.spansComplete) :
    { d with spansComplete := true } = c ↔ d = c ∧ c.spansComplete = true := by
  constructor
  · intro heq
    have hcomplete : c.spansComplete = true := (congrArg Call.spansComplete heq).symm
    refine ⟨?_, hcomplete⟩
    rw [← heq, ← hcomplete, ← h]
  · rintro ⟨rfl, hcomplete⟩
    rw [← hcomplete]

/-- The statements of `process_manifest_call` go through. Each of them leaves the session as it was
when it and those before it find what they would write. -/
lemma manifest_statements (db : Store) (callId : String) (now : Time) (kinds : List (String × String)) :
    ∃ db₁ db₂ db₃ db₄ pk, ensureAudioCall db agentId callId now = .ok (db₁, pk) ∧
      db₁.updateCall pk withSource = .ok db₂ ∧ registerMedia db₂ pk kinds = .ok db₃ ∧
      db₃.updateCall pk (fun c => { c with spansComplete := true }) = .ok db₄ ∧
      (db₂ = db ↔ Sourced db callId) ∧
      (db₃ = db ↔ Sourced db callId ∧ Registered db callId kinds) ∧
      (db₄ = db ↔ Sourced db callId ∧ Registered db callId kinds ∧ Completed db callId) := by
  obtain ⟨db₁, pk, hensure, hpk₁⟩ := ensureAudioCall_ok db agentId callId now
  obtain ⟨db₂, hsource, h₂⟩ := updateCall_edits db₁ pk withSource fun c => by
    unfold withSource
    split <;> rfl
  have hpk₂ : pk ∈ db₂.calls.map Call.id := by
    rw [h₂.calls, Store.map_onRow_id]
    exact hpk₁
  obtain ⟨db₃, hregister, h₃⟩ := registerMedia_edits kinds hpk₂
  obtain ⟨db₄, hcomplete, h₄⟩ := updateCall_edits db₃ pk (fun c => { c with spansComplete := true })
    fun _ => rfl
  have h₂₃ := h₂.trans h₃ withSource_id
  have h₂₄ := h₂₃.trans h₄ fun c => by simp
  refine ⟨db₁, db₂, db₃, db₄, pk, hensure, hsource, hregister, hcomplete, ?_⟩
  rw [ensured_eq_iff hensure h₂ withSource_id, ensured_eq_iff hensure h₂₃ fun c => by simp,
    ensured_eq_iff hensure h₂₄ fun c => by simp]
  cases hfound : db.callByExternal callId with
  | none => simp [Sourced, hfound]
  | some call =>
    obtain ⟨rfl, rfl⟩ : db = db₁ ∧ call.id = pk := by
      simpa using (ensureAudioCall_found hfound).symm.trans hensure
    have hmedia : db₂.media = db.media := by simpa using h₂.media
    have hgates : { audioReady kinds (withSource call) with spansComplete := true } = call ↔ _ :=
      complete_eq_iff (by simp)
    simp only [Sourced, Registered, Completed, hfound, hmedia, Option.some.injEq, exists_eq_left',
      Function.comp_apply, withSource_eq_iff, ready_eq_iff, hgates, List.nil_append, List.append_nil,
      and_true]
    tauto

lemma processManifestCall_meets {items : List ManifestItem} (hc : c.artifacts = .manifest items) :
    c.Meets (c.Unwritten agentId w) w (c.path agentId w)
      (processManifestCall agentId c items w) := by
  obtain ⟨db₁, db₂, db₃, db₄, pk, hensure, hsource, hregister, hcomplete, hsourced, hregistered,
    hcompleted⟩ := manifest_statements agentId w.db c.callId c.now (audioKinds items)
  rw [FoundCall.path, hc]
  unfold processManifestCall
  refine meets_reach (iff_of_true rfl (by simp [FoundCall.Unwritten])) ?_
  rw [hensure, execute_ok, Lib.ok_bind]
  have hsource' : (db₁.updateCall pk fun c =>
      if c.source.truthy then c else { c with source := .str "files" }) = .ok db₂ := hsource
  simp only [hsource', execute_ok, Lib.ok_bind]
  refine meets_artifacts _ (fun i => ?_) ?_
  · rw [withDb_eq_iff, hsourced]
    simp [FoundCall.Unwritten, hc]
  have hrest : c.Meets (c.Unwritten agentId w) w [.assemble, .flush, .analysis] (do
      let db ← execute (registerMedia db₂ pk (audioKinds items))
      let w := { w with db := db }
      reach c .assemble w
      let db ← execute (w.db.updateCall pk fun c => { c with spansComplete := true })
      let w := { w with db := db }
      reach c .flush w
      processTrace c w pk) := by
    rw [hregister, execute_ok, Lib.ok_bind]
    refine meets_reach ?_ ?_
    · rw [withDb_eq_iff, hregistered]
      simp [FoundCall.Unwritten, hc]
    rw [hcomplete, execute_ok, Lib.ok_bind]
    have hlast : ¬c.Unwritten agentId w .analysis := by simp [FoundCall.Unwritten]
    have hruns : ({ w with db := db₄ } : Records R).runs = w.runs := rfl
    refine meets_reach ?_ (processTrace_meets hc hlast hruns pk)
    refine withDb_eq_iff.trans (hcompleted.trans ?_)
    simp [FoundCall.Unwritten, hc]
  by_cases hkinds : audioKinds items = []
  · simpa [hkinds] using hrest
  · simp only [hkinds, ne_eq, not_false_eq_true, if_true]
    refine meets_reach ?_ hrest
    rw [withDb_eq_iff, hsourced]
    simp [FoundCall.Unwritten, hc]

/-- The processing of a call ends by the first trouble on its path. -/
theorem run_meets : c.Meets (c.Unwritten agentId w) w (c.path agentId w) (c.run agentId w) := by
  unfold FoundCall.run
  cases hc : c.artifacts with
  | audio kinds => exact audioCall_meets agentId c w hc
  | otlp file batchId => exact processOtlpCall_meets agentId c w hc
  | manifest items => exact processManifestCall_meets agentId c w hc

end

end Pulse.Worker
