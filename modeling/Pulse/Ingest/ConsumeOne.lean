import Pulse.Ingest.Redelivery

/-!
# Retries and the dead-letter topic

`_consume_one` of `worker/run.py` takes a record through `handle_record` in a session of its own,
again after each failure, and sends it to the dead-letter topic when the attempts are used up. A
failed analysis rolls the record's fragment back with everything else, so the evidence ends either
in the store or in the dead-letter topic.
-/

namespace Pulse.Ingest

/-- One attempt: when it is made, whether its commit goes through, and whether the call can be
queued for judging afterwards. -/
structure Attempt where
  now : Time
  commits : Bool
  enqueues : Bool

/-- What `_to_dlq` sends: the record as it came, with an error header. -/
structure DeadLetter where
  record : Record
  error : String
  deriving DecidableEq

/-- `_consume_one`, on as many attempts as `kafka_max_retries` allows: the store that is left and
what went to the dead-letter topic. -/
def consumeOne (process : Process) (r : Record) : List Attempt → Store → Store × Option DeadLetter
  | [], db => (db, some ⟨r, "max retries exceeded"⟩)
  | a :: attempts, db =>
    match handleRecord process db r a.now with
    | .error _ => consumeOne process r attempts db
    | .ok (db', judge) =>
      if a.commits then
        -- the offset is committed unless the call cannot be queued
        if (judge.bind nonEmpty).isSome && !a.enqueues then consumeOne process r attempts db'
        else (db', none)
      else consumeOne process r attempts db

/-- An analysis writes no fragment and removes none. -/
def KeepsFragments (process : Process) : Prop :=
  ∀ db pk now db', (process db pk now).Leaves db' → db'.rawFragments = db.rawFragments

/-- The record's fragment is in the store, under the call that the record resolved to in `db`, or
under none when it resolved to none. -/
def Archived (db : Store) (r : Record) (slice : Slice) (now : Time) (db' : Store) : Prop :=
  ∃ db₁, assembleRecord db r slice now = .ok db₁ ∧
    ∃ f ∈ db'.rawFragments, f.batchId = r.batchId ∧ f.seq = r.seq ∧
      (f.payload = slice ∨ f ∈ db.rawFragments) ∧
      match (identify db slice (r.agentId.bind nonEmpty)).callId with
      | some x => ∃ c, db₁.callByExternal x = some c ∧ f.callId = some c.id
      | none => f.callId = none

section

variable {process : Process} {db db' db₁ : Store} {r : Record} {slice : Slice} {now : Time}

lemma analyse_fragments (hprocess : KeepsFragments process) {pk : Pk} {judge : Bool}
    (h : analyse process db pk now = .ok (db', judge)) : db'.rawFragments = db.rawFragments := by
  unfold analyse at h
  cases hp : process db pk now with
  | analysed db₁ =>
    simp only [hp] at h
    cases h
    exact hprocess db pk now db' (hp ▸ .analysed db')
  | raised left =>
    simp only [hp] at h
    cases h
  | unsupportedSchema db₁ =>
    simp only [hp] at h
    obtain ⟨db₂, hu, h⟩ := Lib.bind_eq_ok.1 h
    cases h
    have hframe := (Store.updateCall_calls (Lib.mapError_eq_ok.1 hu)).2
    exact hframe.rawFragments.trans (hprocess db pk now db₁ (hp ▸ .unsupportedSchema db₁))

lemma handled_fragments (hprocess : KeepsFragments process)
    (h : db' = db ∨ ∃ pk judged, analyse process db pk now = .ok (db', judged)) :
    db'.rawFragments = db.rawFragments := by
  rcases h with rfl | ⟨pk, judged, ha⟩
  · rfl
  · exact analyse_fragments hprocess ha

lemma Assembled.fragments (h : Assembled db r slice now db') :
    ∀ f ∈ db.rawFragments, f ∈ db'.rawFragments := by
  intro f hf
  cases h with
  | dropped _ _ _ heq => exact heq ▸ hf
  | unattributed _ _ _ _ hfrags => exact hfrags ▸ List.mem_append_left _ hf
  | stored _ c _ _ _ _ _ _ hfrags =>
    rw [hfrags]
    split
    · exact hf
    · exact List.mem_append_left _ hf

/-- The write path drops the record of a tombstoned call and stores any other. -/
lemma Assembled.archived (hok : assembleRecord db r slice now = .ok db₁)
    (h : Assembled db r slice now db₁) :
    db₁ = db ∧ tombstoned db (identify db slice (r.agentId.bind nonEmpty)).callId = true ∨
      Archived db r slice now db₁ := by
  cases h with
  | dropped x hx htomb heq => exact .inl ⟨heq, by simp [hx, tombstoned, htomb]⟩
  | unattributed hnone _ _ _ hfrags =>
    refine .inr ⟨db₁, hok, fragmentOf none r slice now, ?_, rfl, rfl, .inl rfl, ?_⟩
    · rw [hfrags]
      exact List.mem_append_right _ (List.mem_singleton_self _)
    · rw [hnone]
      rfl
  | stored x c hx _ _ hfind _ _ hfrags =>
    by_cases hhas : hasFragment db c.id r.batchId r.seq = true
    · rw [if_pos hhas] at hfrags
      simp only [hasFragment, List.any_eq_true, decide_eq_true_eq] at hhas
      obtain ⟨f, hf, hpk, hb, hs⟩ := hhas
      refine .inr ⟨db₁, hok, f, hfrags ▸ hf, hb, hs, .inr hf, ?_⟩
      rw [hx]
      exact ⟨c, hfind, hpk⟩
    · rw [if_neg hhas] at hfrags
      refine .inr ⟨db₁, hok, fragmentOf (some c.id) r slice now, ?_, rfl, rfl, .inl rfl, ?_⟩
      · rw [hfrags]
        exact List.mem_append_right _ (List.mem_singleton_self _)
      · rw [hx]
        exact ⟨c, hfind, rfl⟩

lemma Archived.mono (h : Archived db r slice now db₁)
    (hsub : ∀ f ∈ db₁.rawFragments, f ∈ db'.rawFragments) : Archived db r slice now db' := by
  obtain ⟨db₂, hok, f, hf, hrest⟩ := h
  exact ⟨db₂, hok, f, hsub f hf, hrest⟩

/-- Further attempts lose no fragment. -/
lemma consumeOne_fragments (hprocess : KeepsFragments process) (attempts : List Attempt)
    (db : Store) : ∀ f ∈ db.rawFragments, f ∈ (consumeOne process r attempts db).1.rawFragments := by
  induction attempts generalizing db with
  | nil => exact fun f hf => hf
  | cons a attempts ih =>
    intro f hf
    unfold consumeOne
    cases h : handleRecord process db r a.now with
    | error e => exact ih db f hf
    | ok result =>
      obtain ⟨db', judge⟩ := result
      obtain ⟨slice, db₁, -, -, has, hrest⟩ := handleRecord_ok h
      have hf' : f ∈ db'.rawFragments := handled_fragments hprocess hrest ▸ has.fragments f hf
      dsimp only
      split
      · split
        · exact ih db' f hf'
        · exact hf'
      · exact ih db f hf

end

/-! ### An analysis that always fails -/

/-- An analysis that raises. -/
def failingAnalysis : Process := fun db _ _ => .raised (some db)

/-- A call that is complete and has its audio. -/
def readyStore : Store where
  calls := [{
    id := 0, externalCallId := "c1", traceId := some "t1", source := .str "pipecat",
    environment := .str "prod", spansComplete := true, mediaReady := true, lastActivityAt := 0 }]
  rawFragments := []
  tombstones := []
  media := []
  agentScripts := []
  nextPk := 1
  call_lt := by decide
  call_pk := by decide
  call_external := by decide
  fragment_call := nofun
  media_call := nofun
  tombstone_pk := .nil

end Pulse.Ingest
