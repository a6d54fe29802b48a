import Pulse.Api.Boards
import Pulse.Lib.Run

/-!
# The change cursor of the boards

`_cursor` of `api/boards.py` is compared before each push of the stream. Of the transactions that
write what a snapshot reads, an analysis on its own and a judgment of a call that has one already
write none of the columns that the cursor reads.
-/

namespace Pulse.Api.Boards

open Lib (PyFloat Run guarded tally)

/-! ### The cursor -/

/-- The calls of a scope. -/
def scopeCalls (db : Tables) (scope : Scope) : List Call := db.calls.filter scope.includes

/-- `max` of a column, its nulls apart. -/
def maxOf : List Int → Option Int
  | [] => none
  | t :: ts => some ((maxOf ts).elim t fun t' => if t < t' then t' else t)

/-- The count of the calls, and `max` of `last_activity_at`, `created_at` and `judged_at`. -/
abbrev Cursor := Nat × Option Instant × Option Instant × Option Instant

/-- `_cursor` -/
def cursor (db : Tables) (scope : Scope) : Cursor :=
  ((scopeCalls db scope).length,
    maxOf ((scopeCalls db scope).filterMap Call.lastActivityAt),
    maxOf ((scopeCalls db scope).map Call.createdAt),
    maxOf ((joined (scopeCalls db scope) db.judgments Judgment.callId).map fun r => r.2.judgedAt))

/-- A round of `_stream`: a cursor that is not the last one is kept, and the snapshot sent. -/
def poll (db : Tables) (scope : Scope) (rangeKey : String) (now : Instant) (cur : Cursor) :
    Cursor × Option Snapshot :=
  if cursor db scope ≠ cur then (cursor db scope, some (buildSnapshot db scope rangeKey now))
  else (cur, none)

/-! ### Transactions -/

/-- The columns of a call that a counter of the header can name. -/
structure Counters where
  status : Option String := none
  agentId : Option (Option String) := none
  createdAt : Option Instant := none
  lastActivityAt : Option (Option Instant) := none

/-- What `_persist` writes: the start of the header, the costs, and the rows in place of those that
are there. -/
structure Persisted where
  startedAt : Option Instant := none
  costTotal : Option PyFloat := none
  costLlm : Option PyFloat := none
  costStt : Option PyFloat := none
  costTts : Option PyFloat := none
  counters : Counters := {}
  turns : List Turn := []
  events : List Event := []

def Persisted.apply (p : Persisted) (c : Call) : Call :=
  { c with
    startedAt := p.startedAt
    costTotal := p.costTotal
    costLlm := p.costLlm
    costStt := p.costStt
    costTts := p.costTts
    status := p.counters.status.getD c.status
    agentId := p.counters.agentId.getD c.agentId
    createdAt := p.counters.createdAt.getD c.createdAt
    lastActivityAt := p.counters.lastActivityAt.getD c.lastActivityAt }

/-- What an analysis comes to. -/
inductive Outcome
  | persisted (p : Persisted)
  /-- `UnsupportedSchema` -/
  | unsupported
  /-- `UnsupportedSchema` in a backfill, and `_fail` -/
  | failed

def Outcome.apply : Outcome → Call → Call
  | .persisted p, c => p.apply c
  | .unsupported, c => { c with status := "unsupported" }
  | .failed, c => { c with status := "failed" }

lemma Outcome.apply_id (o : Outcome) (c : Call) : (o.apply c).id = c.id := by
  cases o <;> rfl

lemma keys_map {α : Type} {key : α → String} {id : String} {f : α → α} (hf : ∀ a, key (f a) = key a)
    (as : List α) : (as.map fun a => if key a = id then f a else a).map key = as.map key := by
  rw [List.map_map]
  refine List.map_congr_left fun a _ => ?_
  by_cases hid : key a = id <;> simp [hid, hf]

lemma nodup_keys_append {α : Type} {key : α → String} {as : List α} {a : α}
    (has : (as.map key).Nodup) (ha : key a ∉ as.map key) : ((as ++ [a]).map key).Nodup := by
  rw [List.map_append, List.map_singleton, ← List.concat_eq_append]
  exact has.concat ha

/-- One call is written. -/
def Tables.updateCall (db : Tables) (id : String) (f : Call → Call) (hf : ∀ c, (f c).id = c.id) :
    Tables :=
  { db with
    calls := db.calls.map fun c => if c.id = id then f c else c
    calls_nodup := by
      rw [keys_map hf]
      exact db.calls_nodup }

def Tables.addCall (db : Tables) (c : Call) (h : c.id ∉ db.calls.map Call.id) : Tables :=
  { db with
    calls := db.calls ++ [c]
    calls_nodup := nodup_keys_append db.calls_nodup h }

/-- The rows of a call are deleted and inserted. -/
def Tables.replaceRows (db : Tables) (id : String) (turns : List Turn) (events : List Event) :
    Tables :=
  { db with
    turns := db.turns.filter (·.callId ≠ id) ++ turns.map ({ · with callId := id })
    events := db.events.filter (·.callId ≠ id) ++ events.map ({ · with callId := id }) }

/-- `_analyse`, or `process_trace` -/
def analyse (id : String) (o : Outcome) (db : Tables) : Tables :=
  let written := db.updateCall id o.apply o.apply_id
  match o with
  | .persisted p => written.replaceRows id p.turns p.events
  | .unsupported => written
  | .failed => written

/-- `upsert_call` of a call that is there. -/
def Call.touch (agentId : Option String) (now : Instant) (c : Call) : Call :=
  { c with agentId := c.agentId.or agentId, lastActivityAt := some now }

/-- `upsert_call`, of a batch whose call has this key if it is there. -/
def upsertCall (id environment : String) (agentId : Option String) (now createdAt : Instant)
    (db : Tables) : Tables :=
  if h : id ∈ db.calls.map Call.id then
    db.updateCall id (Call.touch agentId now) fun _ => rfl
  else
    db.addCall { id, agentId, environment, createdAt, lastActivityAt := some now } h

/-- `register_artifact` -/
def Call.registered (now : Instant) (ingested : Bool) (c : Call) : Call :=
  { c with status := if ingested then "ingested" else c.status, lastActivityAt := some now }

/-- A call that a backfill makes. -/
def audioCall (id : String) (agentId : Option String) (now createdAt : Instant) : Call :=
  { id, agentId, environment := "prod", createdAt, lastActivityAt := some now }

/-- `ensure_audio_call` -/
def ensureAudioCall (id : String) (agentId : Option String) (now createdAt : Instant)
    (db : Tables) : Tables :=
  if h : id ∈ db.calls.map Call.id then db
  else db.addCall (audioCall id agentId now createdAt) h

/-- `_persist_audio_only` -/
def Call.audioOnly (now : Instant) (c : Call) : Call :=
  { c with status := "ingested", lastActivityAt := some now }

/-- `process_audio_only`: the turns of a transcription, or none when there is nothing to analyse. -/
def processAudioOnly (id : String) (now : Instant) (turns : Option (List Turn)) (db : Tables) :
    Tables :=
  match turns with
  | none => analyse id .failed db
  | some turns =>
    (db.updateCall id (Call.audioOnly now) fun _ => rfl).replaceRows id turns []

def Judgment.write (disposition status : String) (guardrailViolation : Option Bool)
    (j : Judgment) : Judgment :=
  { j with disposition := some disposition, status, guardrailViolation }

/-- `judge_call`, by the columns that the boards read. A call that is not there is not judged. -/
def judgeCall (id disposition status : String) (guardrailViolation : Option Bool)
    (judgedAt : Instant) (db : Tables) : Tables :=
  if id ∈ db.calls.map Call.id then
    if h : id ∈ db.judgments.map Judgment.callId then
      { db with
        judgments := db.judgments.map fun j =>
          if j.callId = id then j.write disposition status guardrailViolation else j
        judgments_nodup := by
          rw [keys_map (f := Judgment.write disposition status guardrailViolation) fun _ => rfl]
          exact db.judgments_nodup }
    else
      { db with
        judgments := db.judgments ++
          [{ callId := id, disposition := some disposition, status, guardrailViolation, judgedAt }]
        judgments_nodup := nodup_keys_append db.judgments_nodup h }
  else db

inductive Transaction
  /-- `handle_record` or `_process_otlp_call`: with the analysis of a call that is ready, or none -/
  | handleRecord (id environment : String) (agentId : Option String) (now createdAt : Instant)
      (outcome : Option Outcome)
  /-- `register_artifact`: a recording of a call with all of its spans makes it `ingested` -/
  | registerArtifact (id : String) (now : Instant) (ingested : Bool)
  /-- `flush_due`, in the schema of one organisation -/
  | flushDue (analyses : List (String × Outcome))
  /-- `process_manifest_call`, of a backfill and of each sweep of the poller -/
  | processManifestCall (id : String) (agentId : Option String) (now createdAt : Instant)
      (p : Persisted)
  /-- a backfill of recordings -/
  | processAudioOnly (id : String) (agentId : Option String) (now createdAt : Instant)
      (turns : Option (List Turn))
  /-- `judge_call`; `judgedAt` is for a row that is new -/
  | judgeCall (id disposition status : String) (guardrailViolation : Option Bool)
      (judgedAt : Instant)

def Transaction.run : Transaction → Tables → Tables
  | .handleRecord id environment agentId now createdAt outcome, db =>
    let db := upsertCall id environment agentId now createdAt db
    outcome.elim db fun o => analyse id o db
  | .registerArtifact id now ingested, db =>
    db.updateCall id (Call.registered now ingested) fun _ => rfl
  | .flushDue analyses, db => analyses.foldl (fun db a => analyse a.1 a.2 db) db
  | .processManifestCall id agentId now createdAt p, db =>
    analyse id (.persisted p) (ensureAudioCall id agentId now createdAt db)
  | .processAudioOnly id agentId now createdAt turns, db =>
    Boards.processAudioOnly id now turns (ensureAudioCall id agentId now createdAt db)
  | .judgeCall id disposition status guardrailViolation judgedAt, db =>
    Boards.judgeCall id disposition status guardrailViolation judgedAt db

/-- One transaction commits after another. -/
def step (db : Tables) (t : Transaction) (db' : Tables) : Prop := db' = t.run db

/-! ### The condition -/

/-- The clock is after every activity of the scope. -/
def Later (scope : Scope) (db : Tables) (now : Instant) : Prop :=
  ∀ c ∈ scopeCalls db scope, ∀ t ∈ c.lastActivityAt, t < now

/-- No counter has the name of a column that the cursor reads, or that of the agent. -/
def Outcome.KeepsCursor : Outcome → Prop
  | .persisted p => p.counters.agentId = none ∧ p.counters.createdAt = none ∧
      p.counters.lastActivityAt = none
  | .unsupported => True
  | .failed => True

/-- The latencies of a call that are measured. -/
def latencies (turns : List Turn) : List (Option PyFloat) :=
  (turns.filter measurable).map Turn.responseLatencyMs

/-- The tool calls of a call, by whether they failed. -/
def toolErrors (events : List Event) : List (Option Bool) :=
  (events.filter fun e => e.kind = "span" && e.type = "tool").map Event.error

/-- The analysis writes what a snapshot reads of the call as it is there. -/
def Outcome.Same (db : Tables) (id : String) (o : Outcome) : Prop :=
  (∀ c ∈ db.calls, c.id = id → o.apply c = c) ∧
    match o with
    | .persisted p => latencies p.turns = latencies (db.turns.filter (·.callId = id)) ∧
        toolErrors p.events = toolErrors (db.events.filter (·.callId = id))
    | .unsupported => True
    | .failed => True

/-- The call is of another scope, and stays so. -/
def Outcome.Unseen (scope : Scope) (db : Tables) (id : String) (o : Outcome) : Prop :=
  ∀ c ∈ db.calls, c.id = id → scope.includes c = false ∧ scope.includes (o.apply c) = false

/-- The analysis, on its own, changes nothing that a snapshot of the scope reads. -/
def Outcome.Quiet (scope : Scope) (db : Tables) (id : String) (o : Outcome) : Prop :=
  o.Unseen scope db id ∨ o.Same db id

/-- Each analysis of a flush, where its turn comes. -/
def AllQuiet (scope : Scope) : Tables → List (String × Outcome) → Prop
  | _, [] => True
  | db, (id, o) :: analyses => o.Quiet scope db id ∧ AllQuiet scope (analyse id o db) analyses

/-- The transaction moves the cursor of the scope, or changes nothing that its snapshot reads. -/
def Moves (scope : Scope) (db : Tables) : Transaction → Prop
  | .handleRecord _ _ _ now _ outcome => Later scope db now ∧ ∀ o ∈ outcome, o.KeepsCursor
  | .registerArtifact _ now _ => Later scope db now
  | .flushDue analyses => AllQuiet scope db analyses
  | .processManifestCall id _ now _ p =>
    if id ∈ db.calls.map Call.id then Outcome.Quiet scope db id (.persisted p)
    else Later scope db now ∧ Outcome.KeepsCursor (.persisted p)
  | .processAudioOnly id _ now _ turns =>
    if turns = none ∧ id ∈ db.calls.map Call.id then Outcome.Quiet scope db id .failed
    else Later scope db now
  | .judgeCall id disposition _ guardrailViolation judgedAt =>
    ∀ c ∈ scopeCalls db scope, c.id = id →
      (∀ j ∈ db.judgments, j.callId = id →
        j.disposition = some disposition ∧ j.guardrailViolation = guardrailViolation) ∧
      (id ∉ db.judgments.map Judgment.callId → ∀ j ∈ db.judgments,
        j.callId ∈ (scopeCalls db scope).map Call.id → j.judgedAt < judgedAt)

/-! ### What a snapshot reads -/

/-- What the boards read of a judgment. -/
def Judgment.shown (j : Judgment) : Option String × Option Bool × Instant :=
  (j.disposition, j.guardrailViolation, j.judgedAt)

/-- The calls of the scope are the same, and so is what is read of the rows of each. -/
structure SameBoard (scope : Scope) (db db' : Tables) : Prop where
  calls : scopeCalls db' scope = scopeCalls db scope
  judgments : ∀ c ∈ scopeCalls db scope,
    (db'.judgments.filter (·.callId = c.id)).map Judgment.shown =
      (db.judgments.filter (·.callId = c.id)).map Judgment.shown
  turns : ∀ c ∈ scopeCalls db scope,
    latencies (db'.turns.filter (·.callId = c.id)) = latencies (db.turns.filter (·.callId = c.id))
  events : ∀ c ∈ scopeCalls db scope,
    toolErrors (db'.events.filter (·.callId = c.id)) =
      toolErrors (db.events.filter (·.callId = c.id))

section

variable {ρ γ : Type}

/-- Joined rows by what is read of them. -/
lemma joined_congr {calls : List Call} (rows rows' : List ρ) (callId : ρ → String) (f : ρ → γ)
    (h : ∀ c ∈ calls, (rows'.filter fun row => callId row = c.id).map f =
      (rows.filter fun row => callId row = c.id).map f) :
    (joined calls rows' callId).map (fun r => (r.1, f r.2)) =
      (joined calls rows callId).map fun r => (r.1, f r.2) := by
  have hmap (rows : List ρ) (c : Call) :
      ((rows.filter fun row => callId row = c.id).map fun row => (c, row)).map
          (fun r => (r.1, f r.2)) =
        ((rows.filter fun row => callId row = c.id).map f).map fun x => (c, x) := by
    rw [List.map_map, List.map_map]
    rfl
  rw [joined, joined, List.map_flatMap, List.map_flatMap, List.flatMap_def, List.flatMap_def]
  refine congrArg _ (List.map_congr_left fun c hc => ?_)
  rw [hmap, hmap, h c hc]

/-- Rows are counted by what is read of them. -/
lemma tally_congr {β : Type} (key : Call → Int) (f : ρ → γ) (step : β → γ → β)
    {rows rows' : List (Call × ρ)}
    (h : rows'.map (fun r => (r.1, f r.2)) = rows.map fun r => (r.1, f r.2)) (keys : List Int)
    (xs : List β) :
    tally keys (fun r => key r.1) (fun x r => step x (f r.2)) xs rows' =
      tally keys (fun r => key r.1) (fun x r => step x (f r.2)) xs rows := by
  have hmap (rows : List (Call × ρ)) :
      tally keys (fun r => key r.1) (fun x r => step x (f r.2)) xs rows =
        tally keys (fun r : Call × γ => key r.1) (fun x r => step x r.2) xs
          (rows.map fun r => (r.1, f r.2)) := by
    unfold tally
    rw [List.foldl_map]
  rw [hmap, hmap, h]

lemma countRows_congr (f : ρ → γ) (p : γ → Bool) {rows rows' : List (Call × ρ)}
    (h : rows'.map (fun r => (r.1, f r.2)) = rows.map fun r => (r.1, f r.2)) (keys : List Int)
    (bucketS : Int) (xs : List Nat) :
    countRows keys bucketS (fun row => p (f row)) xs rows' =
      countRows keys bucketS (fun row => p (f row)) xs rows :=
  tally_congr (keyOf bucketS) f (fun n x => if p x then n + 1 else n) h keys xs

lemma foldl_congr {β : Type} (f : ρ → γ) (step : β → γ → β) {rows rows' : List (Call × ρ)}
    (h : rows'.map (fun r => (r.1, f r.2)) = rows.map fun r => (r.1, f r.2)) (x : β) :
    rows'.foldl (fun x r => step x (f r.2)) x = rows.foldl (fun x r => step x (f r.2)) x := by
  have hfold := congrArg (List.foldl (fun x (r : Call × γ) => step x r.2) x) h
  rwa [List.foldl_map, List.foldl_map] at hfold

end

lemma inWindow_eq (db : Tables) (scope : Scope) (since : Instant) :
    inWindow db scope since = (scopeCalls db scope).filter fun c => since ≤ callTime c := by
  rw [inWindow, scopeCalls, List.filter_filter]
  exact List.filter_congr fun c _ => Bool.and_comm _ _

lemma mem_scopeCalls {db : Tables} {scope : Scope} {since : Instant} {c : Call}
    (hc : c ∈ inWindow db scope since) : c ∈ scopeCalls db scope := by
  rw [inWindow_eq] at hc
  exact List.mem_of_mem_filter hc

namespace SameBoard

variable {scope : Scope} {db db' : Tables} (h : SameBoard scope db db')

include h

lemma cursor_eq : cursor db scope = cursor db' scope := by
  have hjudged := joined_congr db.judgments db'.judgments Judgment.callId Judgment.shown h.judgments
  have hmap := congrArg (List.map fun r : Call × Option String × Option Bool × Instant => r.2.2.2)
    hjudged
  rw [List.map_map, List.map_map] at hmap
  unfold cursor
  rw [h.calls]
  exact congrArg (fun js : List Instant => (_, _, _, maxOf js)) hmap.symm

lemma inWindow_eq (since : Instant) : inWindow db' scope since = inWindow db scope since := by
  rw [Boards.inWindow_eq, Boards.inWindow_eq, h.calls]

lemma joined_judgments (since : Instant) :
    (joined (inWindow db scope since) db'.judgments Judgment.callId).map
        (fun r => (r.1, r.2.shown)) =
      (joined (inWindow db scope since) db.judgments Judgment.callId).map
        fun r => (r.1, r.2.shown) :=
  joined_congr db.judgments db'.judgments Judgment.callId Judgment.shown
    fun c hc => h.judgments c (mem_scopeCalls hc)

lemma joined_turns (since : Instant) :
    (joined (inWindow db scope since) (db'.turns.filter measurable) Turn.callId).map
        (fun r => (r.1, r.2.responseLatencyMs)) =
      (joined (inWindow db scope since) (db.turns.filter measurable) Turn.callId).map
        fun r => (r.1, r.2.responseLatencyMs) := by
  refine joined_congr (db.turns.filter measurable) (db'.turns.filter measurable) Turn.callId
    Turn.responseLatencyMs fun c hc => ?_
  have hturns := h.turns c (mem_scopeCalls hc)
  unfold latencies at hturns
  rwa [List.filter_comm, List.filter_comm (l := db.turns)] at hturns

lemma joined_events (since : Instant) :
    (joined (inWindow db scope since)
        (db'.events.filter fun e => e.kind = "span" && e.type = "tool") Event.callId).map
        (fun r => (r.1, r.2.error)) =
      (joined (inWindow db scope since)
        (db.events.filter fun e => e.kind = "span" && e.type = "tool") Event.callId).map
        fun r => (r.1, r.2.error) := by
  refine joined_congr (db.events.filter fun e => e.kind = "span" && e.type = "tool")
    (db'.events.filter fun e => e.kind = "span" && e.type = "tool") Event.callId Event.error
    fun c hc => ?_
  have hevents := h.events c (mem_scopeCalls hc)
  unfold toolErrors at hevents
  rwa [List.filter_comm, List.filter_comm (l := db.events)] at hevents

lemma snapshot_eq (rangeKey : String) (now : Instant) :
    buildSnapshot db scope rangeKey now = buildSnapshot db' scope rangeKey now := by
  have hjudgments := h.joined_judgments (sinceOf rangeKey now)
  have hevents := h.joined_events (sinceOf rangeKey now)
  have hlatencies := tally_congr (keyOf (ranges rangeKey).2) Turn.responseLatencyMs
    (fun (xs : List PyFloat) x => xs ++ x.toList) (h.joined_turns (sinceOf rangeKey now))
  -- each counter of the judgments and of the tools
  have hmissed := countRows_congr Judgment.shown (fun v => v.1.any (· ≠ "connected")) hjudgments
  have hviolations (keys : List Int) (bucketS : Int) (xs : List Nat) :
      countRows keys bucketS (fun j : Judgment => j.guardrailViolation = some true) xs
          (joined _ db'.judgments Judgment.callId) =
        countRows keys bucketS (fun j : Judgment => j.guardrailViolation = some true) xs
          (joined _ db.judgments Judgment.callId) :=
    countRows_congr Judgment.shown (fun v => v.2.1 = some true) hjudgments keys bucketS xs
  have hjudged := countRows_congr Judgment.shown (fun v => v.2.1.isSome) hjudgments
  have hdisposition := foldl_congr Judgment.shown (fun (d : Disposition) v => d.count v.1)
    hjudgments
  have hcalls := countRows_congr Event.error (fun _ => true) hevents
  have herrors := countRows_congr Event.error (fun x => x = some true) hevents
  unfold buildSnapshot
  dsimp only
  unfold missed
  dsimp only [Judgment.shown] at hmissed hjudged hdisposition
  simp only [h.inWindow_eq, hmissed, hviolations, hjudged, hlatencies, hdisposition, hcalls,
    herrors]

end SameBoard

/-! ### Cursors that move -/

/-- The second is a time, and one that is not earlier, when the first is. -/
def NotAfter (t t' : Option Instant) : Prop := ∀ i ∈ t, ∃ i' ∈ t', i ≤ i'

lemma NotAfter.refl (t : Option Instant) : NotAfter t t := fun i hi => ⟨i, hi, le_rfl⟩

lemma NotAfter.trans {t t' t'' : Option Instant} (h : NotAfter t t') (h' : NotAfter t' t'') :
    NotAfter t t'' := by
  intro i hi
  obtain ⟨i', hi', hle⟩ := h i hi
  obtain ⟨i'', hi'', hle'⟩ := h' i' hi'
  exact ⟨i'', hi'', hle.trans hle'⟩

lemma NotAfter.antisymm {t t' : Option Instant} (h : NotAfter t t') (h' : NotAfter t' t) :
    t = t' := by
  cases t with
  | none =>
    cases t' with
    | none => rfl
    | some i' =>
      obtain ⟨i, hi, -⟩ := h' i' rfl
      cases hi
  | some i =>
    obtain ⟨i', heq, hle⟩ := h i rfl
    obtain ⟨i'', heq', hle'⟩ := h' i' heq
    obtain rfl : i = i'' := Option.some_inj.1 heq'
    exact (congrArg some (le_antisymm hle hle')).trans heq.symm

lemma mem_of_maxOf {ts : List Int} {t : Int} (h : maxOf ts = some t) : t ∈ ts := by
  induction ts generalizing t with
  | nil => cases h
  | cons t' ts ih =>
    rw [maxOf, Option.some_inj] at h
    cases hmax : maxOf ts with
    | none =>
      rw [hmax, Option.elim_none] at h
      exact h ▸ List.mem_cons_self
    | some t'' =>
      rw [hmax, Option.elim_some] at h
      split at h
      · exact List.mem_cons_of_mem _ (ih (h ▸ hmax))
      · exact h ▸ List.mem_cons_self

lemma le_maxOf {ts : List Int} {t : Int} (h : t ∈ ts) : ∃ t' ∈ maxOf ts, t ≤ t' := by
  induction ts with
  | nil => cases h
  | cons t' ts ih =>
    refine ⟨_, rfl, ?_⟩
    rw [List.mem_cons] at h
    cases hmax : maxOf ts with
    | none =>
      rw [Option.elim_none]
      obtain rfl | h := h
      · exact le_rfl
      · obtain ⟨_, hnone, -⟩ := ih h
        rw [hmax] at hnone
        cases hnone
    | some t'' =>
      rw [Option.elim_some]
      obtain rfl | h := h
      · split <;> omega
      · obtain ⟨i, hi, hle⟩ := ih h
        rw [hmax] at hi
        cases hi
        split <;> omega

lemma maxOf_mono {ts ts' : List Int} (h : ∀ t ∈ ts, t ∈ ts') :
    NotAfter (maxOf ts) (maxOf ts') :=
  fun t ht => le_maxOf (h t (mem_of_maxOf ht))

/-- A time that is later than all others moves the maximum. -/
lemma maxOf_ne {ts ts' : List Instant} {t : Instant} (h : ∀ t' ∈ ts, t' < t) (ht : t ∈ ts') :
    maxOf ts ≠ maxOf ts' := by
  intro heq
  obtain ⟨t', ht', hle⟩ := le_maxOf ht
  rw [← heq] at ht'
  exact absurd (h t' (mem_of_maxOf ht')) (not_lt.2 hle)

/-- No component goes back. -/
structure Forward (cur cur' : Cursor) : Prop where
  count : cur.1 ≤ cur'.1
  active : NotAfter cur.2.1 cur'.2.1
  created : NotAfter cur.2.2.1 cur'.2.2.1
  judged : NotAfter cur.2.2.2 cur'.2.2.2

namespace Forward

variable {cur cur' cur'' : Cursor}

lemma trans (h : Forward cur cur') (h' : Forward cur' cur'') : Forward cur cur'' where
  count := h.count.trans h'.count
  active := h.active.trans h'.active
  created := h.created.trans h'.created
  judged := h.judged.trans h'.judged

lemma antisymm (h : Forward cur cur') (h' : Forward cur' cur) : cur = cur' :=
  Prod.ext (le_antisymm h.count h'.count) (Prod.ext (h.active.antisymm h'.active)
    (Prod.ext (h.created.antisymm h'.created) (h.judged.antisymm h'.judged)))

end Forward

/-! ### Steps -/

/-- The cursor moves forward, or stands and the snapshots are the same. -/
def Advances (scope : Scope) (db db' : Tables) : Prop :=
  cursor db scope = cursor db' scope ∧
      (∀ rangeKey now, buildSnapshot db scope rangeKey now = buildSnapshot db' scope rangeKey now) ∨
    Forward (cursor db scope) (cursor db' scope) ∧ cursor db scope ≠ cursor db' scope

lemma SameBoard.advances {scope : Scope} {db db' : Tables} (h : SameBoard scope db db') :
    Advances scope db db' :=
  .inl ⟨h.cursor_eq, h.snapshot_eq⟩

namespace Advances

variable {scope : Scope} {db db' db'' : Tables}

lemma refl : Advances scope db db := .inl ⟨rfl, fun _ _ => rfl⟩

lemma trans (h : Advances scope db db') (h' : Advances scope db' db'') :
    Advances scope db db'' := by
  obtain ⟨heq, hsame⟩ | ⟨hforward, hne⟩ := h
  · obtain ⟨heq', hsame'⟩ | hmoved := h'
    · exact .inl ⟨heq.trans heq', fun rangeKey now => (hsame rangeKey now).trans (hsame' _ _)⟩
    · rw [← heq] at hmoved
      exact .inr hmoved
  · obtain ⟨heq', -⟩ | ⟨hforward', -⟩ := h'
    · rw [heq'] at hforward hne
      exact .inr ⟨hforward, hne⟩
    · refine .inr ⟨hforward.trans hforward', fun heq => ?_⟩
      rw [← heq] at hforward'
      exact hne (hforward.antisymm hforward')

end Advances

section

variable {scope : Scope} {db db' : Tables} {id : String}

/-- Writing a call that the scope does not see, or writing nothing to it, leaves the scope. -/
lemma scopeCalls_update {f : Call → Call} (h : ∀ c ∈ db.calls, c.id = id →
      f c = c ∨ scope.includes c = false ∧ scope.includes (f c) = false)
    (hcalls : db'.calls = db.calls.map fun c => if c.id = id then f c else c) :
    scopeCalls db' scope = scopeCalls db scope := by
  unfold scopeCalls
  rw [hcalls]
  generalize db.calls = calls at h
  induction calls with
  | nil => rfl
  | cons c calls ih =>
    rw [List.forall_mem_cons] at h
    rw [List.map_cons, List.filter_cons, List.filter_cons, ih h.2]
    by_cases hid : c.id = id
    · rw [if_pos hid]
      obtain heq | ⟨hc, hf⟩ := h.1 hid
      · rw [heq]
      · rw [hc, hf]
        rfl
    · rw [if_neg hid]

/-- An activity that is later than all others moves the cursor when no call, creation or judgment
is lost. -/
lemma advances_of_active {now : Instant} (hlater : Later scope db now)
    (hlength : (scopeCalls db scope).length ≤ (scopeCalls db' scope).length)
    (hjudgments : db'.judgments = db.judgments)
    (hcalls : ∀ c ∈ scopeCalls db scope, ∃ c' ∈ scopeCalls db' scope,
      c'.id = c.id ∧ c'.createdAt = c.createdAt)
    (hactive : ∃ c ∈ scopeCalls db' scope, c.lastActivityAt = some now) :
    Advances scope db db' := by
  have hnow : now ∈ (scopeCalls db' scope).filterMap Call.lastActivityAt := by
    obtain ⟨c, hc, hlast⟩ := hactive
    exact List.mem_filterMap.2 ⟨c, hc, hlast⟩
  have hlast : ∀ t ∈ (scopeCalls db scope).filterMap Call.lastActivityAt, t < now := by
    intro t ht
    obtain ⟨c, hc, ht⟩ := List.mem_filterMap.1 ht
    exact hlater c hc t ht
  have hmoved := maxOf_ne hlast hnow
  refine .inr ⟨⟨hlength, ?_, ?_, ?_⟩, fun heq => hmoved (congrArg (fun cur => cur.2.1) heq)⟩
  · intro t ht
    obtain ⟨t', ht', hle⟩ := le_maxOf hnow
    exact ⟨t', ht', (hlast t (mem_of_maxOf ht)).le.trans hle⟩
  · refine maxOf_mono fun t ht => ?_
    obtain ⟨c, hc, rfl⟩ := List.mem_map.1 ht
    obtain ⟨c', hc', -, hcreated⟩ := hcalls c hc
    exact List.mem_map.2 ⟨c', hc', hcreated⟩
  · refine maxOf_mono fun t ht => ?_
    obtain ⟨r, hr, rfl⟩ := List.mem_map.1 ht
    obtain ⟨c, hc, hr⟩ := List.mem_flatMap.1 hr
    obtain ⟨j, hj, rfl⟩ := List.mem_map.1 hr
    obtain ⟨c', hc', hid, -⟩ := hcalls c hc
    refine List.mem_map.2 ⟨(c', j), List.mem_flatMap.2 ⟨c', hc', ?_⟩, rfl⟩
    rw [hjudgments, hid]
    exact List.mem_map_of_mem hj

/-- The judgments stay, and the rows of all calls but one. -/
structure RowsElsewhere (id : String) (db db' : Tables) : Prop where
  judgments : db'.judgments = db.judgments
  turns : ∀ id', id' ≠ id → db'.turns.filter (·.callId = id') = db.turns.filter (·.callId = id')
  events : ∀ id', id' ≠ id → db'.events.filter (·.callId = id') = db.events.filter (·.callId = id')

lemma RowsElsewhere.trans {db'' : Tables} (h : RowsElsewhere id db db')
    (h' : RowsElsewhere id db' db'') : RowsElsewhere id db db'' where
  judgments := h'.judgments.trans h.judgments
  turns id' hne := (h'.turns id' hne).trans (h.turns id' hne)
  events id' hne := (h'.events id' hne).trans (h.events id' hne)

/-- Of calls that are not written the rows are the same. -/
lemma RowsElsewhere.sameBoard (h : RowsElsewhere id db db')
    (hcalls : scopeCalls db' scope = scopeCalls db scope)
    (hid : ∀ c ∈ scopeCalls db scope, c.id ≠ id) : SameBoard scope db db' where
  calls := hcalls
  judgments c _ := by rw [h.judgments]
  turns c hc := by rw [h.turns c.id (hid c hc)]
  events c hc := by rw [h.events c.id (hid c hc)]

section

variable {α : Type} {key : α → String} {rows new : List α} {id' : String}

/-- Rows in place of those of a call are the rows of the call. -/
lemma filter_replaced (hnew : ∀ row ∈ new, key row = id) :
    (rows.filter (key · ≠ id) ++ new).filter (key · = id) = new := by
  have hnone : (rows.filter (key · ≠ id)).filter (key · = id) = [] := by
    rw [List.filter_eq_nil_iff]
    intro row hrow hid
    exact of_decide_eq_true (List.mem_filter.1 hrow).2 (of_decide_eq_true hid)
  rw [List.filter_append, hnone, List.nil_append, List.filter_eq_self]
  exact fun row hrow => decide_eq_true (hnew row hrow)

lemma filter_replaced_of_ne (hne : id' ≠ id) (hnew : ∀ row ∈ new, key row = id) :
    (rows.filter (key · ≠ id) ++ new).filter (key · = id') = rows.filter (key · = id') := by
  have hnone : new.filter (key · = id') = [] := by
    rw [List.filter_eq_nil_iff]
    intro row hrow hid
    exact hne ((of_decide_eq_true hid).symm.trans (hnew row hrow))
  rw [List.filter_append, hnone, List.append_nil, List.filter_filter]
  refine List.filter_congr fun row _ => ?_
  by_cases hid : key row = id'
  · simp [hid, hne]
  · simp [hid]

end

lemma analyse_calls (o : Outcome) :
    (analyse id o db).calls = db.calls.map fun c => if c.id = id then o.apply c else c := by
  cases o <;> rfl

lemma updateCall_elsewhere {f : Call → Call} (hf : ∀ c, (f c).id = c.id) :
    RowsElsewhere id db (db.updateCall id f hf) :=
  ⟨rfl, fun _ _ => rfl, fun _ _ => rfl⟩

lemma replaceRows_elsewhere (db : Tables) (id : String) (turns : List Turn) (events : List Event) :
    RowsElsewhere id db (db.replaceRows id turns events) := by
  have hturns : ∀ t ∈ turns.map (fun t => { t with callId := id }), t.callId = id := by
    simp
  have hevents : ∀ e ∈ events.map (fun e => { e with callId := id }), e.callId = id := by
    simp
  exact ⟨rfl, fun id' hne => filter_replaced_of_ne hne hturns,
    fun id' hne => filter_replaced_of_ne hne hevents⟩

lemma analyse_elsewhere (db : Tables) (id : String) (o : Outcome) :
    RowsElsewhere id db (analyse id o db) := by
  cases o with
  | persisted p => exact (updateCall_elsewhere _).trans (replaceRows_elsewhere _ _ _ _)
  | unsupported => exact updateCall_elsewhere (Outcome.apply_id .unsupported)
  | failed => exact updateCall_elsewhere (Outcome.apply_id .failed)

/-- A write that is an activity later than all others. -/
lemma advances_of_touch {now : Instant} {f : Call → Call} (hid : ∀ c, (f c).id = c.id)
    (hcalls : db'.calls = db.calls.map fun c => if c.id = id then f c else c)
    (hrows : RowsElsewhere id db db')
    (hin : ∀ c, scope.includes c = true → scope.includes (f c) = true)
    (hlast : ∀ c, (f c).lastActivityAt = some now) (hcreated : ∀ c, (f c).createdAt = c.createdAt)
    (hlater : Later scope db now) : Advances scope db db' := by
  by_cases hunseen : ∀ c ∈ db.calls, c.id = id →
      scope.includes c = false ∧ scope.includes (f c) = false
  · have hscope := scopeCalls_update (fun c hc h => .inr (hunseen c hc h)) hcalls
    refine (hrows.sameBoard hscope fun c hc h => ?_).advances
    obtain ⟨hmem, hincludes⟩ := List.mem_filter.1 hc
    rw [(hunseen c hmem h).1] at hincludes
    cases hincludes
  · push Not at hunseen
    obtain ⟨c₀, hc₀, hid₀, hseen⟩ := hunseen
    have hkeep (c : Call) (hc : scope.includes c = true) :
        scope.includes (if c.id = id then f c else c) = true := by
      split
      · exact hin c hc
      · exact hc
    refine advances_of_active hlater ?_ hrows.judgments (fun c hc => ?_) ?_
    · rw [scopeCalls, scopeCalls, hcalls, ← List.countP_eq_length_filter,
        ← List.countP_eq_length_filter, List.countP_map]
      exact List.countP_mono_left fun c _ hc => hkeep c hc
    · obtain ⟨hmem, hincludes⟩ := List.mem_filter.1 hc
      refine ⟨if c.id = id then f c else c, List.mem_filter.2 ⟨?_, hkeep c hincludes⟩, ?_⟩
      · rw [hcalls]
        exact List.mem_map_of_mem hmem
      · split
        · exact ⟨hid c, hcreated c⟩
        · exact ⟨rfl, rfl⟩
    · refine ⟨f c₀, List.mem_filter.2 ⟨?_, ?_⟩, hlast c₀⟩
      · rw [hcalls]
        exact List.mem_map.2 ⟨c₀, hc₀, if_pos hid₀⟩
      · by_cases hc : scope.includes c₀ = true
        · exact hin c₀ hc
        · exact Bool.eq_true_of_not_eq_false (hseen (Bool.eq_false_iff.2 hc))

/-- A call that is new, with an activity later than all others. -/
lemma advances_of_new {now : Instant} {c₀ : Call} (hcalls : db'.calls = db.calls ++ [c₀])
    (hnew : id ∉ db.calls.map Call.id) (hrows : RowsElsewhere id db db')
    (hlast : c₀.lastActivityAt = some now) (hlater : Later scope db now) :
    Advances scope db db' := by
  have hscope : scopeCalls db' scope =
      scopeCalls db scope ++ if scope.includes c₀ then [c₀] else [] := by
    rw [scopeCalls, scopeCalls, hcalls, List.filter_append, List.filter_singleton]
    cases scope.includes c₀ <;> rfl
  by_cases hin : scope.includes c₀ = true
  · rw [if_pos hin] at hscope
    refine advances_of_active hlater ?_ hrows.judgments (fun c hc => ?_) ?_
    · rw [hscope, List.length_append]
      omega
    · exact ⟨c, hscope ▸ List.mem_append_left _ hc, rfl, rfl⟩
    · exact ⟨c₀, hscope ▸ List.mem_append_right _ List.mem_cons_self, hlast⟩
  · rw [if_neg hin, List.append_nil] at hscope
    refine (hrows.sameBoard hscope fun c hc h => ?_).advances
    exact hnew (List.mem_map.2 ⟨c, List.mem_of_mem_filter hc, h⟩)

/-- Analyses of a call that is written before. -/
lemma map_update_update {f g : Call → Call} (hf : ∀ c, (f c).id = c.id) (calls : List Call) :
    ((calls.map fun c => if c.id = id then f c else c).map fun c => if c.id = id then g c else c) =
      calls.map fun c => if c.id = id then g (f c) else c := by
  rw [List.map_map]
  refine List.map_congr_left fun c _ => ?_
  by_cases hid : c.id = id
  · simp [hid, hf]
  · simp [hid]

lemma map_update_new {g : Call → Call} (c₀ : Call) (hnew : c₀.id ∉ db.calls.map Call.id) :
    ((db.calls ++ [c₀]).map fun c => if c.id = c₀.id then g c else c) = db.calls ++ [g c₀] := by
  have hold : (db.calls.map fun c => if c.id = c₀.id then g c else c) = db.calls := by
    refine (List.map_congr_left fun c hc => if_neg fun hid => ?_).trans (List.map_id _)
    exact hnew (hid ▸ List.mem_map_of_mem hc)
  rw [List.map_append, hold, List.map_singleton, if_pos rfl]

lemma includes_congr {c c' : Call} (hagent : c'.agentId = c.agentId)
    (henvironment : c'.environment = c.environment) : scope.includes c' = scope.includes c := by
  rw [Scope.includes, hagent, henvironment, Scope.includes]

/-- A call without an agent is only in scopes of all agents. -/
lemma includes_touch {c : Call} {agentId : Option String} {now : Instant}
    (hc : scope.includes c = true) : scope.includes (c.touch agentId now) = true := by
  cases hagent : c.agentId with
  | some a =>
    have hkeep : (c.touch agentId now).agentId = c.agentId := by
      rw [Call.touch, hagent, Option.some_or]
    exact (includes_congr hkeep rfl).trans hc
  | none =>
    obtain ⟨visible, agent, environment⟩ := scope
    simp only [Scope.includes, hagent, Bool.and_eq_true] at hc ⊢
    obtain ⟨⟨hvisible, hagentId⟩, henvironment⟩ := hc
    refine ⟨⟨?_, ?_⟩, henvironment⟩
    · cases visible with
      | none => rfl
      | some ids => cases hvisible
    · cases agent with
      | none => rfl
      | some a =>
        simp at hagentId
        simp [hagentId]

lemma Outcome.KeepsCursor.includes {o : Outcome} (h : o.KeepsCursor) (c : Call) :
    scope.includes (o.apply c) = scope.includes c := by
  cases o with
  | persisted p =>
    refine includes_congr ?_ rfl
    rw [Outcome.apply, Persisted.apply, h.1, Option.getD_none]
  | unsupported => rfl
  | failed => rfl

lemma Outcome.KeepsCursor.createdAt {o : Outcome} (h : o.KeepsCursor) (c : Call) :
    (o.apply c).createdAt = c.createdAt := by
  cases o with
  | persisted p => rw [Outcome.apply, Persisted.apply, h.2.1, Option.getD_none]
  | unsupported => rfl
  | failed => rfl

lemma Outcome.KeepsCursor.lastActivityAt {o : Outcome} (h : o.KeepsCursor) (c : Call) :
    (o.apply c).lastActivityAt = c.lastActivityAt := by
  cases o with
  | persisted p => rw [Outcome.apply, Persisted.apply, h.2.2, Option.getD_none]
  | unsupported => rfl
  | failed => rfl

lemma latencies_callId (turns : List Turn) :
    latencies (turns.map ({ · with callId := id })) = latencies turns := by
  rw [latencies, List.filter_map, List.map_map]
  rfl

lemma toolErrors_callId (events : List Event) :
    toolErrors (events.map ({ · with callId := id })) = toolErrors events := by
  rw [toolErrors, List.filter_map, List.map_map]
  rfl

lemma sameBoard_analyse {o : Outcome} (h : o.Quiet scope db id) :
    SameBoard scope db (analyse id o db) := by
  obtain hunseen | ⟨hsame, hrows⟩ := h
  · have hscope := scopeCalls_update (fun c hc hid => .inr (hunseen c hc hid)) (analyse_calls o)
    refine (analyse_elsewhere _ _ o).sameBoard hscope fun c hc hid => ?_
    obtain ⟨hmem, hincludes⟩ := List.mem_filter.1 hc
    rw [(hunseen c hmem hid).1] at hincludes
    cases hincludes
  · have hscope : scopeCalls (analyse id o db) scope = scopeCalls db scope :=
      scopeCalls_update (fun c hc hid => .inl (hsame c hc hid)) (analyse_calls o)
    have helsewhere := analyse_elsewhere db id o
    refine ⟨hscope, fun c _ => by rw [helsewhere.judgments], fun c _ => ?_, fun c _ => ?_⟩
    · by_cases hid : c.id = id
      · cases o with
        | persisted p =>
          have hturns : (analyse id (.persisted p) db).turns.filter (·.callId = c.id) =
              p.turns.map ({ · with callId := id }) := by
            rw [hid]
            exact filter_replaced (by simp)
          rw [hturns, latencies_callId, hid]
          exact hrows.1
        | unsupported => rfl
        | failed => rfl
      · rw [helsewhere.turns c.id hid]
    · by_cases hid : c.id = id
      · cases o with
        | persisted p =>
          have hevents : (analyse id (.persisted p) db).events.filter (·.callId = c.id) =
              p.events.map ({ · with callId := id }) := by
            rw [hid]
            exact filter_replaced (by simp)
          rw [hevents, toolErrors_callId, hid]
          exact hrows.2
        | unsupported => rfl
        | failed => rfl
      · rw [helsewhere.events c.id hid]

lemma advances_flush {analyses : List (String × Outcome)} (h : AllQuiet scope db analyses) :
    Advances scope db (analyses.foldl (fun db a => analyse a.1 a.2 db) db) := by
  induction analyses generalizing db with
  | nil => exact .refl
  | cons a analyses ih => exact (sameBoard_analyse h.1).advances.trans (ih h.2)

/-- A call that is new and analysed at once. -/
lemma advances_of_analysed {now : Instant} {c₀ : Call} (hnew : c₀.id ∉ db.calls.map Call.id)
    {o : Outcome} (ho : o.KeepsCursor) (hlast : c₀.lastActivityAt = some now)
    (hlater : Later scope db now) : Advances scope db (analyse c₀.id o (db.addCall c₀ hnew)) := by
  have hcalls : (analyse c₀.id o (db.addCall c₀ hnew)).calls = db.calls ++ [o.apply c₀] :=
    (analyse_calls o).trans (map_update_new c₀ hnew)
  have hrows : RowsElsewhere c₀.id db (analyse c₀.id o (db.addCall c₀ hnew)) := by
    have helsewhere := analyse_elsewhere (db.addCall c₀ hnew) c₀.id o
    exact ⟨helsewhere.judgments, helsewhere.turns, helsewhere.events⟩
  exact advances_of_new hcalls hnew hrows ((ho.lastActivityAt c₀).trans hlast) hlater

lemma advances_upsertCall {environment : String} {agentId : Option String}
    {now createdAt : Instant} (hlater : Later scope db now) :
    Advances scope db (upsertCall id environment agentId now createdAt db) := by
  unfold upsertCall
  split
  · exact advances_of_touch (f := Call.touch agentId now) (fun _ => rfl) rfl
      (updateCall_elsewhere _) (fun _ hc => includes_touch hc) (fun _ => rfl) (fun _ => rfl) hlater
  · next hnew => exact advances_of_new rfl hnew ⟨rfl, fun _ _ => rfl, fun _ _ => rfl⟩ rfl hlater

lemma advances_handleRecord {environment : String} {agentId : Option String}
    {now createdAt : Instant} {o : Outcome} (hlater : Later scope db now) (ho : o.KeepsCursor) :
    Advances scope db (analyse id o (upsertCall id environment agentId now createdAt db)) := by
  unfold upsertCall
  split
  · have hcalls : (analyse id o (db.updateCall id (Call.touch agentId now) fun _ => rfl)).calls =
        db.calls.map fun c => if c.id = id then o.apply (c.touch agentId now) else c :=
      (analyse_calls o).trans
        (map_update_update (f := Call.touch agentId now) (fun _ => rfl) db.calls)
    exact advances_of_touch (f := fun c => o.apply (c.touch agentId now)) (fun c => o.apply_id _)
      hcalls
      ((updateCall_elsewhere _).trans (analyse_elsewhere _ _ o))
      (fun c hc => (ho.includes _).trans (includes_touch hc))
      (fun c => ho.lastActivityAt _) (fun c => ho.createdAt _) hlater
  · next hnew => exact advances_of_analysed hnew ho rfl hlater

lemma advances_processAudioOnly {agentId : Option String} {now createdAt : Instant}
    {turns : List Turn} (hlater : Later scope db now) :
    Advances scope db
      (processAudioOnly id now (some turns) (ensureAudioCall id agentId now createdAt db)) := by
  unfold ensureAudioCall
  split
  · exact advances_of_touch (f := Call.audioOnly now) (fun _ => rfl) rfl
      ((updateCall_elsewhere _).trans (replaceRows_elsewhere _ _ turns []))
      (fun _ hc => hc) (fun _ => rfl) (fun _ => rfl) hlater
  · next hnew =>
    have hrows := replaceRows_elsewhere db id turns []
    have hcalls := map_update_new (g := Call.audioOnly now)
      (audioCall id agentId now createdAt) hnew
    exact advances_of_new hcalls hnew ⟨hrows.judgments, hrows.turns, hrows.events⟩
      rfl hlater

/-- Judgments that are written as they are. -/
lemma map_shown_update {g : Judgment → Judgment} {js : List Judgment}
    (hg : ∀ j, (g j).callId = j.callId) {id' : String}
    (h : ∀ j ∈ js, j.callId = id' → (g j).shown = j.shown) :
    ((js.map g).filter (·.callId = id')).map Judgment.shown =
      (js.filter (·.callId = id')).map Judgment.shown := by
  have hkey : ((fun j : Judgment => decide (j.callId = id')) ∘ g) =
      fun j => decide (j.callId = id') := by
    funext j
    rw [Function.comp_apply, hg]
  rw [List.filter_map, hkey, List.map_map]
  refine List.map_congr_left fun j hj => ?_
  obtain ⟨hmem, hid⟩ := List.mem_filter.1 hj
  exact h j hmem (of_decide_eq_true hid)

/-- A judgment that is later than all others of the scope moves the cursor. -/
lemma advances_of_judged {j₀ : Judgment} (hcalls : db'.calls = db.calls)
    (hjudgments : db'.judgments = db.judgments ++ [j₀])
    (hscope : ∃ c ∈ scopeCalls db scope, c.id = j₀.callId)
    (hlater : ∀ j ∈ db.judgments, j.callId ∈ (scopeCalls db scope).map Call.id →
      j.judgedAt < j₀.judgedAt) : Advances scope db db' := by
  have hsame : scopeCalls db' scope = scopeCalls db scope := by
    rw [scopeCalls, hcalls, scopeCalls]
  have hold : ∀ t ∈ (joined (scopeCalls db scope) db.judgments Judgment.callId).map
      (fun r => r.2.judgedAt), t < j₀.judgedAt := by
    intro t ht
    obtain ⟨r, hr, rfl⟩ := List.mem_map.1 ht
    obtain ⟨c, hc, hr⟩ := List.mem_flatMap.1 hr
    obtain ⟨j, hj, rfl⟩ := List.mem_map.1 hr
    obtain ⟨hj, hid⟩ := List.mem_filter.1 hj
    exact hlater j hj (List.mem_map.2 ⟨c, hc, (of_decide_eq_true hid).symm⟩)
  have hnew : j₀.judgedAt ∈ (joined (scopeCalls db' scope) db'.judgments Judgment.callId).map
      fun r => r.2.judgedAt := by
    obtain ⟨c, hc, hid⟩ := hscope
    rw [hsame, hjudgments]
    refine List.mem_map.2 ⟨(c, j₀), List.mem_flatMap.2 ⟨c, hc, ?_⟩, rfl⟩
    exact List.mem_map_of_mem (List.mem_filter.2 ⟨List.mem_append_right _ List.mem_cons_self,
      decide_eq_true hid.symm⟩)
  have hmoved := maxOf_ne hold hnew
  refine .inr ⟨⟨?_, ?_, ?_, ?_⟩, fun heq => hmoved (congrArg (fun cur => cur.2.2.2) heq)⟩
  · rw [cursor, cursor, hsame]
  · rw [cursor, cursor, hsame]
    exact .refl _
  · rw [cursor, cursor, hsame]
    exact .refl _
  · intro t ht
    obtain ⟨t', ht', hle⟩ := le_maxOf hnew
    exact ⟨t', ht', (hold t (mem_of_maxOf ht)).le.trans hle⟩

lemma advances_judgeCall {disposition status : String} {guardrailViolation : Option Bool}
    {judgedAt : Instant}
    (h : Moves scope db (.judgeCall id disposition status guardrailViolation judgedAt)) :
    Advances scope db (judgeCall id disposition status guardrailViolation judgedAt db) := by
  unfold judgeCall
  split
  · split
    · refine (SameBoard.advances ⟨rfl, fun c hc => ?_, fun _ _ => rfl, fun _ _ => rfl⟩)
      refine map_shown_update (fun j => ?_) fun j hj hid => ?_
      · split <;> rfl
      · split
        · next hjid =>
          obtain ⟨hdisposition, hviolation⟩ := (h c hc (hid.symm.trans hjid)).1 j hj hjid
          rw [Judgment.shown, Judgment.write, ← hdisposition, ← hviolation]
          rfl
        · rfl
    · next hnew =>
      by_cases hscope : ∃ c ∈ scopeCalls db scope, c.id = id
      · obtain ⟨c, hc, hid⟩ := hscope
        exact advances_of_judged rfl rfl ⟨c, hc, hid⟩ ((h c hc hid).2 hnew)
      · refine (SameBoard.advances ⟨rfl, fun c hc => ?_, fun _ _ => rfl, fun _ _ => rfl⟩)
        have hne : id ≠ c.id := fun hid => hscope ⟨c, hc, hid.symm⟩
        dsimp only
        rw [List.filter_append, List.filter_singleton, decide_eq_false hne]
        exact congrArg _ (List.append_nil _)
  · exact .refl

lemma advances_processManifestCall {agentId : Option String} {now createdAt : Instant}
    {p : Persisted} (h : Moves scope db (.processManifestCall id agentId now createdAt p)) :
    Advances scope db
      (analyse id (.persisted p) (ensureAudioCall id agentId now createdAt db)) := by
  unfold ensureAudioCall
  by_cases hmem : id ∈ db.calls.map Call.id
  · rw [Moves, if_pos hmem] at h
    rw [dif_pos hmem]
    exact (sameBoard_analyse h).advances
  · rw [Moves, if_neg hmem] at h
    rw [dif_neg hmem]
    exact advances_of_analysed hmem h.2 rfl h.1

lemma advances_failed {agentId : Option String} {now createdAt : Instant}
    (h : Moves scope db (.processAudioOnly id agentId now createdAt none)) :
    Advances scope db (analyse id .failed (ensureAudioCall id agentId now createdAt db)) := by
  unfold ensureAudioCall
  by_cases hmem : id ∈ db.calls.map Call.id
  · rw [Moves, if_pos ⟨rfl, hmem⟩] at h
    rw [dif_pos hmem]
    exact (sameBoard_analyse h).advances
  · rw [Moves, if_neg fun hand => hmem hand.2] at h
    rw [dif_neg hmem]
    exact advances_of_analysed (o := .failed) hmem trivial rfl h

/-- A transaction that meets the condition. -/
lemma advances {t : Transaction} (h : Moves scope db t) : Advances scope db (t.run db) := by
  cases t with
  | handleRecord id environment agentId now createdAt outcome =>
    cases outcome with
    | none => exact advances_upsertCall h.1
    | some o => exact advances_handleRecord h.1 (h.2 o rfl)
  | registerArtifact id now ingested =>
    have hrows : RowsElsewhere id db
        (db.updateCall id (Call.registered now ingested) fun _ => rfl) :=
      updateCall_elsewhere _
    exact advances_of_touch (f := Call.registered now ingested) (fun _ => rfl) rfl hrows
      (fun _ hc => hc) (fun _ => rfl) (fun _ => rfl) h
  | flushDue analyses => exact advances_flush h
  | processManifestCall id agentId now createdAt p => exact advances_processManifestCall h
  | processAudioOnly id agentId now createdAt turns =>
    cases turns with
    | some turns => exact advances_processAudioOnly h
    | none => exact advances_failed h
  | judgeCall id disposition status guardrailViolation judgedAt => exact advances_judgeCall h

end

/-- In a run whose transactions all meet the condition, a snapshot that is different is sent. -/
theorem poll_sends_of_ne {scope : Scope} {db db' : Tables} {ts : List Transaction}
    (h : Run (guarded step (Moves scope)) db ts db') {rangeKey : String} {now : Instant}
    (hne : buildSnapshot db scope rangeKey now ≠ buildSnapshot db' scope rangeKey now) :
    cursor db scope ≠ cursor db' scope ∧
      (poll db' scope rangeKey now (cursor db scope)).2 =
        some (buildSnapshot db' scope rangeKey now) := by
  have hadvances : Advances scope db db' := by
    refine h.invariant_guarded (I := Advances scope db) (fun s t s' hI hmoves hstep => ?_) .refl
    obtain rfl : s' = t.run s := hstep
    exact hI.trans (advances hmoves)
  have hcursor : cursor db scope ≠ cursor db' scope := by
    obtain ⟨-, hsame⟩ | ⟨-, hmoved⟩ := hadvances
    · exact absurd (hsame rangeKey now) hne
    · exact hmoved
  refine ⟨hcursor, ?_⟩
  rw [poll, if_pos hcursor.symm]

/-- A call that nobody answered, as the spans tell it. -/
def unanswered : List Transaction :=
  [.handleRecord "a" "prod" none 1000000 1000000 none, .flushDue [("a", .persisted {})],
    .judgeCall "a" "no_answer" "skipped" none 2000000]

/-- With the transcript that is uploaded it is judged again. -/
def judgedAgain : Transaction := .judgeCall "a" "connected" "ok" (some false) 3000000

def committed (ts : List Transaction) : Tables := ts.foldl (fun db t => t.run db) {}

lemma run_foldl (ts : List Transaction) (db : Tables) :
    Run step db ts (ts.foldl (fun db t => t.run db) db) := by
  induction ts generalizing db with
  | nil => exact .nil db
  | cons t ts ih => exact .cons rfl (ih (t.run db))

theorem poll_sends_two :
    cursor (committed (unanswered.take 2)) {} ≠ cursor (committed unanswered) {} ∧
      (poll (committed unanswered) {} "24h" 4000000
          (cursor (committed (unanswered.take 2)) {})).2 =
        some (buildSnapshot (committed unanswered) {} "24h" 4000000) := by
  have hrun : Run (guarded step (Moves {})) (committed (unanswered.take 2))
      [.judgeCall "a" "no_answer" "skipped" none 2000000] (committed unanswered) := by
    refine .single ⟨rfl, fun c _ _ => ⟨?_, fun _ => ?_⟩⟩
    · exact fun j hj => absurd hj List.not_mem_nil
    · exact fun j hj => absurd hj List.not_mem_nil
  refine poll_sends_of_ne hrun fun heq => ?_
  have hcount := congrArg (fun s : Snapshot => s.disposition.noAnswer) heq
  exact absurd hcount (by decide +kernel)

/-- The judgment is another and the cursor is not. -/
theorem judged_again_unseen : ¬∀ (scope : Scope) (db db' : Tables) (past ts : List Transaction)
    (rangeKey : String) (now : Instant), Run step {} past db → Run step db ts db' →
      (∀ c ∈ db.calls ++ db'.calls, sinceOf rangeKey now ≤ callTime c ∧ callTime c ≤ now) →
      buildSnapshot db scope rangeKey now ≠ buildSnapshot db' scope rangeKey now →
      cursor db scope ≠ cursor db' scope := by
  intro h
  refine h {} (committed unanswered) (judgedAgain.run (committed unanswered)) unanswered
    [judgedAgain] "24h" 4000000 (run_foldl _ _) (.single rfl) (by decide +kernel) (fun heq => ?_)
    (by decide +kernel)
  have hcount := congrArg (fun s : Snapshot => s.disposition.noAnswer) heq
  exact absurd hcount (by decide +kernel)

end Pulse.Api.Boards
