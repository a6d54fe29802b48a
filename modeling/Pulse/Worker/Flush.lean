import Mathlib.Logic.Function.Iterate
import Pulse.Ingest.Consumer
import Pulse.Lib.Lists

/-!
# The grace flush

`flush_due` of `worker/run.py` sweeps the organisations in order and analyses the due calls of
each, the longest quiet first and a batch at a time, one commit for each organisation. An exception
ends the sweep: the organisation's batch is rolled back, and the next sweep begins with the first
organisation and meets the same call again.
-/

namespace Pulse.Worker

open Ingest

/-- `worker_grace_s` and `worker_batch`. -/
structure WorkerConfig where
  graceS : Time
  batch : Nat

/-- The conditions of the sweep's `select`. -/
def isDue (cfg : WorkerConfig) (now : Time) (c : Call) : Bool :=
  c.spansComplete && c.status ≠ .unsupported &&
    (c.mediaReady || decide (c.lastActivityAt + cfg.graceS < now)) &&
    c.metricVersion ≠ some metricVersion

/-- The due calls in the order of their last activity. -/
def dueCalls (cfg : WorkerConfig) (now : Time) (db : Store) : List Call :=
  Lib.sorted (Lib.byKey Call.lastActivityAt) (db.calls.filter (isDue cfg now))

/-- One organisation's part of a sweep, up to its commit. -/
def flushOrg (process : Process) (cfg : WorkerConfig) (now : Time) (db : Store) :
    Except HandleError Store :=
  ((dueCalls cfg now db).take cfg.batch).foldlM
    (fun db c => (analyse process db c.id now).map Prod.fst) db

/-- An organisation's schema. -/
structure Org where
  schema : String
  db : Store

/-- `flush_due` -/
def flushDue (process : String → Process) (cfg : WorkerConfig) (now : Time) : List Org → List Org
  | [] => []
  | o :: orgs =>
    match flushOrg (process o.schema) cfg now o.db with
    | .ok db => ⟨o.schema, db⟩ :: flushDue process cfg now orgs
    | .error _ => o :: orgs

inductive ProcessOutcome
  | ok
  | unsupported
  | raises
  deriving DecidableEq

/-- The columns that the sweep looks at. -/
structure SweepRow where
  id : Pk
  spansComplete : Bool
  mediaReady : Bool
  status : CallStatus
  metricVersion : Option Nat
  lastActivityAt : Time
  deriving DecidableEq

def SweepRow.of (c : Call) : SweepRow where
  id := c.id
  spansComplete := c.spansComplete
  mediaReady := c.mediaReady
  status := c.status
  metricVersion := c.metricVersion
  lastActivityAt := c.lastActivityAt

def sweepRows (db : Store) : List SweepRow :=
  db.calls.map SweepRow.of

/-- An analysis ends as assigned to the call. One that succeeds stamps the call with the current
metric version; none touches another column that the sweep looks at, of this or another call. -/
structure Assigns (process : Process) (outcome : Pk → ProcessOutcome) : Prop where
  ok : ∀ db pk now, outcome pk = .ok → ∃ db', process db pk now = .analysed db' ∧
    sweepRows db' = (sweepRows db).map fun r =>
      if r.id = pk then { r with metricVersion := some metricVersion } else r
  unsupported : ∀ db pk now, outcome pk = .unsupported → ∃ db',
    process db pk now = .unsupportedSchema db' ∧ sweepRows db' = sweepRows db
  raises : ∀ db pk now, outcome pk = .raises → ∃ left, process db pk now = .raised left

/-! ### The due rows -/

def SweepRow.isDue (cfg : WorkerConfig) (now : Time) (r : SweepRow) : Bool :=
  r.spansComplete && r.status ≠ .unsupported &&
    (r.mediaReady || decide (r.lastActivityAt + cfg.graceS < now)) &&
    r.metricVersion ≠ some Ingest.metricVersion

def dueRows (cfg : WorkerConfig) (now : Time) (rows : List SweepRow) : List SweepRow :=
  Lib.sorted (Lib.byKey SweepRow.lastActivityAt) (rows.filter (SweepRow.isDue cfg now))

lemma dueCalls_rows (cfg : WorkerConfig) (now : Time) (db : Store) :
    (dueCalls cfg now db).map SweepRow.of = dueRows cfg now (sweepRows db) := by
  have hdue : isDue cfg now = SweepRow.isDue cfg now ∘ SweepRow.of := rfl
  rw [dueRows, sweepRows, List.filter_map, dueCalls, hdue]
  refine Lib.map_sorted (fun a b => ?_) _
  rfl

/-- What the analysis of a call leaves of its row. -/
def SweepRow.settle (outcome : Pk → ProcessOutcome) (r : SweepRow) : SweepRow :=
  match outcome r.id with
  | .ok => { r with metricVersion := some Ingest.metricVersion }
  | .unsupported => { r with status := .unsupported }
  | .raises => r

@[simp] lemma SweepRow.settle_id (outcome : Pk → ProcessOutcome) (r : SweepRow) :
    (r.settle outcome).id = r.id := by
  unfold settle
  split <;> rfl

@[simp] lemma SweepRow.settle_settle (outcome : Pk → ProcessOutcome) (r : SweepRow) :
    (r.settle outcome).settle outcome = r.settle outcome := by
  have hid := r.settle_id outcome
  unfold settle at hid ⊢
  cases ho : outcome r.id <;> simp [ho]

lemma SweepRow.settle_not_due {outcome : Pk → ProcessOutcome} {r : SweepRow} (cfg : WorkerConfig)
    (now : Time) (h : outcome r.id ≠ .raises) : (r.settle outcome).isDue cfg now = false := by
  unfold settle
  cases ho : outcome r.id with
  | ok => simp [isDue]
  | unsupported => simp [isDue]
  | raises => exact absurd ho h

section

variable {process : Process} {outcome : Pk → ProcessOutcome} {cfg : WorkerConfig} {now : Time}
  {db db' : Store}

lemma analyse_raises (h : Assigns process outcome) {pk : Pk} (hpk : outcome pk = .raises) :
    analyse process db pk now = .error .analysis := by
  obtain ⟨left, hleft⟩ := h.raises db pk now hpk
  simp [analyse, hleft]

lemma analyse_settles (h : Assigns process outcome) (db : Store) (now : Time) {pk : Pk}
    (hpk : outcome pk ≠ .raises) :
    ∃ db', (analyse process db pk now).map Prod.fst = .ok db' ∧
      sweepRows db' = (sweepRows db).map fun r => if r.id = pk then r.settle outcome else r := by
  cases ho : outcome pk with
  | raises => exact absurd ho hpk
  | ok =>
    obtain ⟨db', hok, hrows⟩ := h.ok db pk now ho
    refine ⟨db', by simp [analyse, hok, Except.map], ?_⟩
    rw [hrows]
    apply List.map_congr_left
    intro r _
    by_cases hr : r.id = pk
    · simp [hr, SweepRow.settle, ho]
    · simp [hr]
  | unsupported =>
    obtain ⟨db₁, hok, hrows⟩ := h.unsupported db pk now ho
    obtain ⟨db', hu, hcalls, -⟩ := Store.updateCall_ok db₁ pk
      (fun c => { c with status := .unsupported }) (fun _ _ _ => .inl rfl)
    refine ⟨db', ?_, ?_⟩
    · simp [analyse, hok, hu, bind, Except.bind, pure, Except.pure, Except.map]
    · have hupdated : sweepRows db' = (sweepRows db₁).map fun r =>
          if r.id = pk then { r with status := .unsupported } else r := by
        rw [sweepRows, hcalls, sweepRows, List.map_map, List.map_map]
        apply List.map_congr_left
        intro c _
        by_cases hc : c.id = pk
        · simp [Store.onRow, SweepRow.of, hc]
        · simp [Store.onRow, SweepRow.of, hc]
      rw [hupdated, hrows]
      apply List.map_congr_left
      intro r _
      by_cases hr : r.id = pk
      · simp [hr, SweepRow.settle, ho]
      · simp [hr]

lemma flushAll_raises (h : Assigns process outcome) (cs : List Call)
    (hraise : ∃ c ∈ cs, outcome c.id = .raises) :
    ∃ e, cs.foldlM (fun db c => (analyse process db c.id now).map Prod.fst) db = .error e := by
  induction cs generalizing db with
  | nil => simp at hraise
  | cons c cs ih =>
    rw [List.foldlM_cons]
    by_cases hc : outcome c.id = .raises
    · exact ⟨.analysis, by rw [analyse_raises h hc]; rfl⟩
    · obtain ⟨db', hok, -⟩ := analyse_settles h db now hc
      rw [hok]
      refine ih ?_
      obtain ⟨d, hd, hraises⟩ := hraise
      rcases List.mem_cons.1 hd with rfl | hd
      · exact absurd hraises hc
      · exact ⟨d, hd, hraises⟩

lemma flushAll_settles (h : Assigns process outcome) (db : Store) (now : Time) (cs : List Call)
    (hok : ∀ c ∈ cs, outcome c.id ≠ .raises) :
    ∃ db', cs.foldlM (fun db c => (analyse process db c.id now).map Prod.fst) db = .ok db' ∧
      sweepRows db' = (sweepRows db).map fun r =>
        if r.id ∈ cs.map Call.id then r.settle outcome else r := by
  induction cs generalizing db with
  | nil => exact ⟨db, rfl, by simp⟩
  | cons c cs ih =>
    obtain ⟨db₁, hok₁, hrows₁⟩ := analyse_settles h db now (hok c List.mem_cons_self)
    obtain ⟨db', hok', hrows⟩ := ih db₁ fun d hd => hok d (List.mem_cons_of_mem c hd)
    refine ⟨db', ?_, ?_⟩
    · rw [List.foldlM_cons, hok₁]
      exact hok'
    · rw [hrows, hrows₁, List.map_map]
      apply List.map_congr_left
      intro r _
      by_cases hc : r.id = c.id
      · by_cases hcs : r.id ∈ cs.map Call.id <;> simp_all
      · simp [hc]

/-- The rows after the calls `ids` have been settled. -/
def settleAll (outcome : Pk → ProcessOutcome) (ids : List Pk) (rows : List SweepRow) :
    List SweepRow :=
  rows.map fun r => if r.id ∈ ids then r.settle outcome else r

/-- Settled calls are due no more; nothing else changes. -/
lemma dueRows_settleAll (ids : List Pk) (rows : List SweepRow)
    (h : ∀ pk ∈ ids, outcome pk ≠ .raises) :
    dueRows cfg now (settleAll outcome ids rows) =
      (dueRows cfg now rows).filter (·.id ∉ ids) := by
  rw [dueRows, dueRows, Lib.sorted_filter, settleAll, List.filter_map, List.filter_filter]
  congr 1
  have hsame : ∀ r ∈ rows, ((SweepRow.isDue cfg now ∘ fun r =>
      if r.id ∈ ids then r.settle outcome else r) r) =
        (decide (r.id ∉ ids) && r.isDue cfg now) := by
    intro r _
    by_cases hr : r.id ∈ ids
    · simp [hr, SweepRow.settle_not_due cfg now (h r.id hr)]
    · simp [hr]
  rw [List.filter_congr hsame]
  conv_rhs => rw [← List.map_id (List.filter _ rows)]
  apply List.map_congr_left
  intro r hr
  have hout : r.id ∉ ids := by
    have := (List.mem_filter.1 hr).2
    simp only [Bool.and_eq_true, decide_eq_true_eq] at this
    exact this.1
  simp [hout]

end

section

variable {process : Process} {outcome : Pk → ProcessOutcome} {cfg : WorkerConfig} {now : Time}
  {db db' : Store}

lemma sweepRows_nodup (db : Store) : ((sweepRows db).map SweepRow.id).Nodup := by
  have hids : (sweepRows db).map SweepRow.id = db.calls.map Call.id := by
    rw [sweepRows, List.map_map]
    rfl
  exact hids ▸ db.call_pk

lemma dueRows_nodup (cfg : WorkerConfig) (now : Time) {rows : List SweepRow}
    (h : (rows.map SweepRow.id).Nodup) : ((dueRows cfg now rows).map SweepRow.id).Nodup := by
  unfold dueRows
  rw [((Lib.sorted_perm _ _).map SweepRow.id).nodup_iff]
  exact (List.filter_sublist.map _).nodup h

/-- The sweeps' visits to an organisation, as long as none is rolled back. -/
def visits (process : Process) (cfg : WorkerConfig) (now : Time) : Nat → Store →
    Except HandleError Store
  | 0, db => .ok db
  | k + 1, db => visits process cfg now k db >>= flushOrg process cfg now

lemma settleAll_append (ids ids' : List Pk) (rows : List SweepRow) :
    settleAll outcome (ids ++ ids') rows = settleAll outcome ids' (settleAll outcome ids rows) := by
  rw [settleAll, settleAll, settleAll, List.map_map]
  apply List.map_congr_left
  intro r _
  by_cases hr : r.id ∈ ids <;> by_cases hr' : r.id ∈ ids' <;> simp [hr, hr']

lemma batch_ids (cfg : WorkerConfig) (now : Time) (db : Store) :
    ((dueCalls cfg now db).take cfg.batch).map Call.id =
      ((dueRows cfg now (sweepRows db)).take cfg.batch).map SweepRow.id := by
  rw [← dueCalls_rows, ← List.map_take, List.map_map]
  rfl

/-- A visit goes through unless a call of the batch raises. -/
lemma flushOrg_ok (h : Assigns process outcome) (db : Store)
    (hok : ∀ r ∈ (dueRows cfg now (sweepRows db)).take cfg.batch, outcome r.id ≠ .raises) :
    ∃ db', flushOrg process cfg now db = .ok db' ∧ sweepRows db' = settleAll outcome
      (((dueRows cfg now (sweepRows db)).take cfg.batch).map SweepRow.id) (sweepRows db) := by
  have hids : ∀ pk ∈ ((dueCalls cfg now db).take cfg.batch).map Call.id, outcome pk ≠ .raises := by
    rw [batch_ids]
    intro pk hpk
    obtain ⟨r, hr, rfl⟩ := List.mem_map.1 hpk
    exact hok r hr
  obtain ⟨db', hflush, hrows⟩ := flushAll_settles h db now
    ((dueCalls cfg now db).take cfg.batch) fun c hc => hids c.id (List.mem_map_of_mem hc)
  refine ⟨db', hflush, ?_⟩
  rw [hrows, batch_ids]
  rfl

lemma flushOrg_raises (h : Assigns process outcome) (cfg : WorkerConfig) (now : Time) (db : Store)
    (hraise : ∃ r ∈ (dueRows cfg now (sweepRows db)).take cfg.batch, outcome r.id = .raises) :
    ∃ e, flushOrg process cfg now db = .error e := by
  apply flushAll_raises h
  obtain ⟨r, hr, hraises⟩ := hraise
  have hid : r.id ∈ ((dueCalls cfg now db).take cfg.batch).map Call.id := by
    rw [batch_ids]
    exact List.mem_map_of_mem hr
  obtain ⟨c, hc, hcr⟩ := List.mem_map.1 hid
  exact ⟨c, hc, hcr ▸ hraises⟩

/-- `k` visits settle the first `k` batches, when none of their calls raises. -/
lemma visits_ok (h : Assigns process outcome) (k : Nat)
    (hok : ∀ r ∈ (dueRows cfg now (sweepRows db)).take (cfg.batch * k), outcome r.id ≠ .raises) :
    ∃ db', visits process cfg now k db = .ok db' ∧
      dueRows cfg now (sweepRows db') = (dueRows cfg now (sweepRows db)).drop (cfg.batch * k) ∧
      sweepRows db' = settleAll outcome
        (((dueRows cfg now (sweepRows db)).take (cfg.batch * k)).map SweepRow.id) (sweepRows db) := by
  induction k with
  | zero => exact ⟨db, rfl, by simp, by simp [settleAll]⟩
  | succ k ih =>
    set due := dueRows cfg now (sweepRows db) with hdue
    have htake : due.take (cfg.batch * (k + 1)) =
        due.take (cfg.batch * k) ++ (due.drop (cfg.batch * k)).take cfg.batch := by
      rw [Nat.mul_succ, List.take_add]
    rw [htake] at hok ⊢
    obtain ⟨db₁, hvisits, hdue₁, hrows₁⟩ := ih fun r hr => hok r (List.mem_append_left _ hr)
    obtain ⟨db', hflush, hrows⟩ := flushOrg_ok h db₁ (by
      rw [hdue₁]
      exact fun r hr => hok r (List.mem_append_right _ hr))
    rw [hdue₁] at hrows
    refine ⟨db', ?_, ?_, ?_⟩
    · rw [visits, hvisits]
      exact hflush
    · rw [hrows, dueRows_settleAll, hdue₁, Lib.filter_not_mem_take, List.drop_drop, Nat.mul_succ]
      · exact (List.drop_sublist _ _).map _ |>.nodup (dueRows_nodup cfg now (sweepRows_nodup db))
      · intro pk hpk
        obtain ⟨r, hr, rfl⟩ := List.mem_map.1 hpk
        exact hok r (List.mem_append_right _ hr)
    · rw [hrows, hrows₁, List.map_append, settleAll_append]

end

end Pulse.Worker
