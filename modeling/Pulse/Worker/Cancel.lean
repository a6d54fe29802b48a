import Pulse.Lib.Run
import Pulse.Lib.Trace
import Pulse.Worker.BackfillJob
import Mathlib.Tactic.Common

/-!
# Cancelling a backfill job

The steps of `claim_next` and `run_job` on one job, interleaved with the transactions of the cancel
endpoint. The worker keeps the job in its session: a commit writes the columns that it has changed
since it loaded them, and only the cancellation check looks at the row again. So a cancellation is
final when a check is still ahead of the worker, and is overwritten when none is.
-/

namespace Pulse.Worker

/-- Where the worker is. The calls `i, …, n - 1` are still to be checked and processed before
`before i n`. -/
inductive Pc
  | idle
  | claiming
  | claimed
  | scanning
  | before (i n : Nat)
  | calling (i n : Nat)
  | cancelling
  | clustering
  | ended
  deriving DecidableEq

/-- One job: its committed row, the worker's copy of it (nothing when it is expired), where the
worker is, the cancel requests that have read a status and not yet committed, and the number of
calls started. -/
structure JobSystem where
  row : BackfillJob
  loaded : Option BackfillJob
  pc : Pc
  requests : List JobStatus
  started : Nat
  deriving DecidableEq

inductive JobEvent
  | read
  | claim
  | noStorage
  | scan
  | noManifest
  | discoverFails (message : String)
  | found (n : Nat)
  | check
  | refresh
  | counted (result : CallResult)
  | finishCancelled
  | cluster
  | finish
  | crash
  | cancelRead
  | cancelCommit (k : Nat)
  deriving DecidableEq

/-- A column after a flush: it is written when the copy differs from what was loaded. -/
def flushed {α : Type} [DecidableEq α] (row loaded copy : α) : α :=
  if copy = loaded then row else copy

/-- The row after a flush. -/
def BackfillJob.flush (row loaded copy : BackfillJob) : BackfillJob where
  status := flushed row.status loaded.status copy.status
  phase := flushed row.phase loaded.phase copy.phase
  total := flushed row.total loaded.total copy.total
  completed := flushed row.completed loaded.completed copy.completed
  failed := flushed row.failed loaded.failed copy.failed
  error := flushed row.error loaded.error copy.error

/-- The endpoint leaves a job alone that has ended. -/
def JobStatus.terminal : JobStatus → Bool
  | .done | .failed | .cancelled => true
  | _ => false

namespace JobSystem

/-- The worker changes its copy and commits. -/
def commit (s : JobSystem) (job : BackfillJob) (f : BackfillJob → BackfillJob) (pc : Pc) : JobSystem :=
  { s with row := s.row.flush job (f job), loaded := some (f job), pc := pc }

/-- A job that was just enqueued. -/
def created : JobSystem where
  row := .created
  loaded := none
  pc := .idle
  requests := []
  started := 0

end JobSystem

open BackfillJob in
/-- The steps of the worker and of the cancel endpoint. -/
inductive JobStep : JobSystem → JobEvent → JobSystem → Prop
  | read {s : JobSystem} : s.pc = .idle → s.row.status = .queued →
      JobStep s .read { s with loaded := some s.row, pc := .claiming }
  | claim {s : JobSystem} {job : BackfillJob} : s.pc = .claiming → s.loaded = some job →
      JobStep s .claim (s.commit job scan .claimed)
  | noStorage {s : JobSystem} {job : BackfillJob} : s.pc = .claimed → s.loaded = some job →
      JobStep s .noStorage
        (s.commit job (finish · .failed (some "storage not configured for agent")) .ended)
  | scan {s : JobSystem} {job : BackfillJob} : s.pc = .claimed → s.loaded = some job →
      JobStep s .scan (s.commit job scan .scanning)
  | noManifest {s : JobSystem} {job : BackfillJob} : s.pc = .scanning → s.loaded = some job →
      JobStep s .noManifest
        (s.commit job (finish · .failed (some "no integration manifest registered")) .ended)
  | discoverFails {s : JobSystem} {job : BackfillJob} (message : String) : s.pc = .scanning →
      s.loaded = some job → JobStep s (.discoverFails message)
        (s.commit job (finish · .failed (some ("discover failed: " ++ message))) .ended)
  | found {s : JobSystem} {job : BackfillJob} (n : Nat) : s.pc = .scanning → s.loaded = some job →
      JobStep s (.found n) (s.commit job (analyzing · n) (.before 0 n))
  /-- `_is_cancelled` expires the copy and reads the row. -/
  | checkCancelled {s : JobSystem} {i n : Nat} : s.pc = .before i n → i < n →
      s.row.status = .cancelled → JobStep s .check { s with loaded := none, pc := .cancelling }
  | check {s : JobSystem} {i n : Nat} : s.pc = .before i n → i < n → s.row.status ≠ .cancelled →
      JobStep s .check { s with loaded := none, pc := .calling i n, started := s.started + 1 }
  | refresh {s : JobSystem} {i n : Nat} : s.pc = .calling i n →
      JobStep s .refresh { s with loaded := some s.row }
  | counted {s : JobSystem} {job : BackfillJob} {i n : Nat} (result : CallResult) :
      s.pc = .calling i n → s.loaded = some job →
      JobStep s (.counted result) (s.commit job (count · result) (.before (i + 1) n))
  /-- The copy is expired, so every column that is set is written. -/
  | finishCancelled {s : JobSystem} : s.pc = .cancelling →
      JobStep s .finishCancelled { s with row := s.row.finish .cancelled none, pc := .ended }
  | cluster {s : JobSystem} {job : BackfillJob} {n : Nat} : s.pc = .before n n →
      s.loaded = some job → JobStep s .cluster (s.commit job cluster .clustering)
  | finish {s : JobSystem} {job : BackfillJob} : s.pc = .clustering → s.loaded = some job →
      JobStep s .finish (s.commit job (finish · .done none) .ended)
  /-- A worker that starts again claims only queued jobs. -/
  | crash {s : JobSystem} : JobStep s .crash { s with loaded := none, pc := .idle }
  | cancelRead {s : JobSystem} :
      JobStep s .cancelRead { s with requests := s.requests ++ [s.row.status] }
  | cancelCommit {s : JobSystem} {status : JobStatus} (k : Nat) : s.requests[k]? = some status →
      JobStep s (.cancelCommit k) { s with
        row := if status.terminal then s.row else { s.row with status := .cancelled }
        requests := s.requests.eraseIdx k }

/-- The worker has not read the job yet, or it will check for a cancellation before it writes a
status again, or it writes no other status any more. -/
def Pc.Heeds : Pc → Prop
  | .idle | .cancelling | .ended => True
  | .before i n => i < n
  | .calling i n => i + 1 < n
  | .claiming | .claimed | .scanning | .clustering => False

/-! ### A cancellation that is heeded -/

lemma flushed_of_ne {α : Type} [DecidableEq α] {row loaded copy : α} (h : copy ≠ loaded) :
    flushed row loaded copy = copy :=
  if_neg h

@[simp] lemma flushed_self {α : Type} [DecidableEq α] (row loaded : α) :
    flushed row loaded loaded = row :=
  if_pos rfl

@[simp] lemma commit_status (s : JobSystem) (job : BackfillJob) (f : BackfillJob → BackfillJob)
    (pc : Pc) : (s.commit job f pc).row.status = flushed s.row.status job.status (f job).status := rfl

@[simp] lemma BackfillJob.count_status (job : BackfillJob) (result : CallResult) :
    (job.count result).status = job.status := by
  cases result <;> rfl

/-- A cancelled job whose worker heeds it stays so, and no call is started. -/
lemma heeded_step {s t : JobSystem} {e : JobEvent} (hheeds : s.pc.Heeds)
    (hcancelled : s.row.status = .cancelled) (hstep : JobStep s e t) :
    t.pc.Heeds ∧ t.row.status = .cancelled ∧ t.started = s.started := by
  cases hstep with
  | read _ hqueued =>
    rw [hcancelled] at hqueued
    cases hqueued
  | claim hpc | noStorage hpc | scan hpc | noManifest hpc | discoverFails _ hpc | found _ hpc
  | finish hpc =>
    rw [hpc] at hheeds
    exact hheeds.elim
  | checkCancelled => exact ⟨trivial, hcancelled, rfl⟩
  | check _ _ hne => exact absurd hcancelled hne
  | refresh => exact ⟨hheeds, hcancelled, rfl⟩
  | counted result hpc =>
    rw [hpc] at hheeds
    exact ⟨hheeds, by simpa using hcancelled, rfl⟩
  | finishCancelled => exact ⟨trivial, rfl, rfl⟩
  | cluster hpc =>
    rw [hpc] at hheeds
    exact absurd hheeds (Nat.lt_irrefl _)
  | crash => exact ⟨trivial, hcancelled, rfl⟩
  | cancelRead => exact ⟨hheeds, hcancelled, rfl⟩
  | cancelCommit k =>
    refine ⟨hheeds, ?_, rfl⟩
    dsimp only
    split
    · exact hcancelled
    · rfl

/-! ### The worker's copy -/

/-- What the worker's copy holds at each place. -/
def CopyHolds (s : JobSystem) : Prop :=
  match s.pc with
  | .claiming => ∃ job, s.loaded = some job ∧ job.status = .queued
  | .claimed | .scanning => ∃ job, s.loaded = some job ∧ job.status = .scanning
  | .before i n => i ≤ n ∧ (s.row.status = .running ∨ s.row.status = .cancelled) ∧
      ∃ job, s.loaded = some job ∧ (job.status = .running ∨ job.status = .cancelled)
  | .calling i n => i < n ∧ (s.row.status = .running ∨ s.row.status = .cancelled) ∧
      ∀ job ∈ s.loaded, job.status = .running ∨ job.status = .cancelled
  | .clustering => ∃ job, s.loaded = some job ∧ job.status = .clustering
  | .idle | .cancelling | .ended => True

lemma CopyHolds.step {s t : JobSystem} {e : JobEvent} (h : CopyHolds s) (hstep : JobStep s e t) :
    CopyHolds t := by
  unfold CopyHolds at h
  cases hstep with
  | read _ hqueued => exact ⟨s.row, rfl, hqueued⟩
  | claim hpc hloaded => exact ⟨_, rfl, rfl⟩
  | scan hpc hloaded => exact ⟨_, rfl, rfl⟩
  | noStorage | noManifest | discoverFails | checkCancelled | finishCancelled | finish | crash =>
    trivial
  | found n hpc hloaded =>
    rw [hpc] at h
    obtain ⟨job', hjob', hstatus⟩ := h
    cases hloaded.symm.trans hjob'
    refine ⟨n.zero_le, .inl ?_, _, rfl, .inl rfl⟩
    rw [commit_status]
    exact flushed_of_ne (by simp [BackfillJob.analyzing, hstatus])
  | check hpc hlt =>
    rw [hpc] at h
    exact ⟨hlt, h.2.1, by simp⟩
  | @refresh i n hpc =>
    rw [hpc] at h
    have hcopy : ∀ job ∈ some s.row, job.status = .running ∨ job.status = .cancelled := by
      rintro job ⟨⟩
      exact h.2.1
    simpa only [CopyHolds, hpc] using ⟨h.1, h.2.1, hcopy⟩
  | counted result hpc hloaded =>
    rw [hpc] at h
    refine ⟨h.1, ?_, _, rfl, ?_⟩
    · simpa using h.2.1
    · simpa using h.2.2 _ hloaded
  | cluster hpc hloaded => exact ⟨_, rfl, rfl⟩
  | cancelRead => exact h
  | @cancelCommit status k hstatus =>
    have hrow : s.row.status = .running ∨ s.row.status = .cancelled →
        (if status.terminal then s.row else { s.row with status := .cancelled }).status = .running ∨
        (if status.terminal then s.row else { s.row with status := .cancelled }).status =
          .cancelled := by
      intro h
      split
      · exact h
      · exact .inr rfl
    unfold CopyHolds
    split <;> simp_all

lemma created_copyHolds : CopyHolds .created :=
  trivial

lemma overwrites_of_commit {s : JobSystem} {e : JobEvent} {job : BackfillJob}
    {f : BackfillJob → BackfillJob} {pc : Pc} (hstep : JobStep s e (s.commit job f pc))
    (hchanged : (f job).status ≠ job.status) (hother : (f job).status ≠ .cancelled) :
    ∃ later u, Lib.Run JobStep s later u ∧ u.row.status ≠ .cancelled := by
  refine ⟨[e], _, .single hstep, ?_⟩
  rw [commit_status, flushed_of_ne hchanged]
  exact hother

/-- Where the worker does not heed it, a cancellation can be overwritten. -/
lemma CopyHolds.overwrites {s : JobSystem} (h : CopyHolds s) (hnot : ¬s.pc.Heeds) :
    ∃ later u, Lib.Run JobStep s later u ∧ u.row.status ≠ .cancelled := by
  unfold CopyHolds at h
  cases hpc : s.pc with
  | idle | cancelling | ended =>
    rw [hpc] at hnot
    exact absurd trivial hnot
  | claiming =>
    rw [hpc] at h
    obtain ⟨job, hloaded, hstatus⟩ := h
    exact overwrites_of_commit (.claim hpc hloaded) (by simp [BackfillJob.scan, hstatus])
      (by simp [BackfillJob.scan])
  | claimed =>
    rw [hpc] at h
    obtain ⟨job, hloaded, hstatus⟩ := h
    exact overwrites_of_commit (.noStorage hpc hloaded) (by simp [BackfillJob.finish, hstatus])
      (by simp [BackfillJob.finish])
  | scanning =>
    rw [hpc] at h
    obtain ⟨job, hloaded, hstatus⟩ := h
    exact overwrites_of_commit (.found 0 hpc hloaded) (by simp [BackfillJob.analyzing, hstatus])
      (by simp [BackfillJob.analyzing])
  | clustering =>
    rw [hpc] at h
    obtain ⟨job, hloaded, hstatus⟩ := h
    exact overwrites_of_commit (.finish hpc hloaded) (by simp [BackfillJob.finish, hstatus])
      (by simp [BackfillJob.finish])
  | before i n =>
    rw [hpc] at h hnot
    obtain ⟨hle, -, job, hloaded, hstatus⟩ := h
    obtain rfl : i = n := Nat.le_antisymm hle (Nat.not_lt.1 hnot)
    exact overwrites_of_commit (.cluster hpc hloaded) (by rcases hstatus with h | h <;>
      simp [BackfillJob.cluster, h]) (by simp [BackfillJob.cluster])
  | calling i n =>
    rw [hpc] at h hnot
    obtain ⟨hlt, hrow, -⟩ := h
    obtain rfl : n = i + 1 := Nat.le_antisymm (Nat.not_lt.1 hnot) hlt
    -- the last call is counted, and no check follows
    have hrefresh : JobStep s .refresh { s with loaded := some s.row } := .refresh hpc
    have hcounted : JobStep { s with loaded := some s.row } (.counted .ok) _ :=
      .counted .ok hpc rfl
    obtain ⟨later, u, hlater, hu⟩ := overwrites_of_commit (.cluster rfl rfl : JobStep
        (JobSystem.commit { s with loaded := some s.row } s.row (·.count .ok) (.before (i + 1) (i + 1)))
        .cluster _) (by rcases hrow with h | h <;> simp [BackfillJob.cluster, h])
      (by simp [BackfillJob.cluster])
    exact ⟨_, u, .cons hrefresh (.cons hcounted hlater), hu⟩

/-- Once the cancel endpoint has committed, the job stays cancelled and starts no call in every
continuation, exactly when the worker heeds it at that moment. -/
theorem cancel_final_iff {s t : JobSystem} {events : List JobEvent} {k : Nat}
    (hrun : Lib.Run JobStep .created events s) (hstep : JobStep s (.cancelCommit k) t)
    (hcancelled : t.row.status = .cancelled) :
    (∀ later u, Lib.Run JobStep t later u → u.row.status = .cancelled ∧ u.started = t.started) ↔
      s.pc.Heeds := by
  have hpc : t.pc = s.pc := by
    cases hstep with
    | cancelCommit k => rfl
  constructor
  · intro hfinal
    have hholds : CopyHolds t :=
      (hrun.invariant (fun _ _ _ h hs => h.step hs) created_copyHolds).step hstep
    by_contra hnot
    obtain ⟨later, u, hlater, hu⟩ := hholds.overwrites (hpc ▸ hnot)
    exact hu (hfinal later u hlater).1
  · intro hheeds later u hlater
    have hkept : ∀ a e b, (a.pc.Heeds ∧ a.row.status = .cancelled ∧ a.started = t.started) →
        JobStep a e b → b.pc.Heeds ∧ b.row.status = .cancelled ∧ b.started = t.started := by
      rintro a e b ⟨ha, hrow, hstarted⟩ hs
      obtain ⟨hb, hrow', hstarted'⟩ := heeded_step ha hrow hs
      exact ⟨hb, hrow', hstarted'.trans hstarted⟩
    exact (hlater.invariant hkept ⟨hpc ▸ hheeds, hcancelled, rfl⟩).2

/-- A job that is cancelled before a worker has read it. -/
theorem cancel_final_iff_queued :
    ∃ s t, Lib.Run JobStep .created [.cancelRead] s ∧ JobStep s (.cancelCommit 0) t ∧
      ∀ later u, Lib.Run JobStep t later u → u.row.status = .cancelled ∧ u.started = t.started := by
  have hrun : Lib.Run JobStep .created [.cancelRead] _ := .single .cancelRead
  have hstep : JobStep { JobSystem.created with requests := [.queued] } (.cancelCommit 0) _ :=
    .cancelCommit 0 rfl
  exact ⟨_, _, hrun, hstep, (cancel_final_iff hrun hstep rfl).2 trivial⟩

/-- A job that is cancelled between `claim_next` and the scan runs all the same. -/
theorem cancel_overwritten :
    ∃ s t u, Lib.Run JobStep .created [.read, .claim, .cancelRead] s ∧
      JobStep s (.cancelCommit 0) t ∧ t.row.status = .cancelled ∧
      Lib.Run JobStep t [.scan, .found 1, .check] u ∧ u.row.status = .running ∧
      u.started = t.started + 1 := by
  have hclaim : Lib.Run JobStep .created [.read, .claim, .cancelRead] _ :=
    .cons (.read rfl rfl) (.cons (.claim rfl rfl) (.single .cancelRead))
  refine ⟨_, _, _, hclaim, .cancelCommit 0 rfl, rfl,
    .cons (.scan rfl rfl) (.cons (.found 1 rfl rfl) (.single (.check rfl Nat.zero_lt_one ?_))), rfl,
    rfl⟩
  decide

end Pulse.Worker
