import Mathlib.Tactic.Lemma

/-!
# The row of a backfill job

The columns of `BackfillJob` that `run_job` writes, and its writes. The timestamps are left out.
-/

namespace Pulse.Worker

inductive JobStatus
  | queued
  | scanning
  | running
  | clustering
  | done
  | failed
  | cancelled
  deriving DecidableEq, Repr

structure BackfillJob where
  status : JobStatus
  phase : Option String
  total : Nat
  completed : Nat
  failed : Nat
  error : Option String
  deriving DecidableEq, Repr

/-- How the processing of one call ends. -/
inductive CallResult
  | ok
  | failed
  | raised (message : String)
  deriving DecidableEq, Repr

namespace BackfillJob

/-- A job as the API enqueues it. -/
def created : BackfillJob where
  status := .queued
  phase := none
  total := 0
  completed := 0
  failed := 0
  error := none

def scan (job : BackfillJob) : BackfillJob :=
  { job with status := .scanning }

def analyzing (job : BackfillJob) (total : Nat) : BackfillJob :=
  { job with total := total, status := .running, phase := some "analyzing" }

/-- What the loop counts for one call. The first error stays. -/
def count (job : BackfillJob) : CallResult → BackfillJob
  | .ok => { job with completed := job.completed + 1 }
  | .failed => { job with failed := job.failed + 1 }
  | .raised message => { job with failed := job.failed + 1, error := job.error.or (some message) }

def cluster (job : BackfillJob) : BackfillJob :=
  { job with status := .clustering, phase := some "clustering" }

/-- `_finish` -/
def finish (job : BackfillJob) (status : JobStatus) (error : Option String) : BackfillJob :=
  { job with status := status, phase := none, error := error.or job.error }

end BackfillJob

end Pulse.Worker
