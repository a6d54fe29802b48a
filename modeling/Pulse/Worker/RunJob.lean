import Pulse.Lib.Lists
import Pulse.Worker.BackfillFaults

/-!
# Failing calls in a backfill job

`run_job` of `worker/backfill.py`, when nobody cancels it: the discovered calls are processed in
the order of their ids, with a commit after each. An exception is counted and the session committed
as it is; after a database error the session takes no more statements, so that the count itself
raises and the job is left as it was last committed. Queueing a call for the judge is left out.
-/

namespace Pulse.Worker

open Ingest

variable {R : Type}

inductive Discovery (R : Type)
  | noStorage
  | noManifest
  | fails (message : String)
  | found (calls : List (FoundCall R))

/-- How `recluster` ends. -/
inductive ClusterEnd
  | done
  | raises
  | database
  deriving DecidableEq

/-- A call's turn in the loop: what was committed before it and after it. -/
structure CallTurn (R : Type) where
  call : FoundCall R
  before : Records R
  after : Records R

/-- What a job has committed. -/
structure JobState (R : Type) where
  records : Records R
  job : BackfillJob
  turns : List (CallTurn R)

/-- The commit at the end of a call's turn. -/
def JobState.commit (s : JobState R) (c : FoundCall R) (w : Records R) (result : CallResult) :
    JobState R where
  records := w
  job := s.job.count result
  turns := s.turns ++ [⟨c, s.records, w⟩]

/-- The loop of `run_job`. Does it get to its end? -/
def processCalls (agentId : Option String) : List (FoundCall R) → JobState R → JobState R × Bool
  | [], s => (s, true)
  | c :: cs, s =>
    match c.run agentId s.records with
    | .ok (w, completed) =>
      processCalls agentId cs (s.commit c w (if completed then .ok else .failed))
    | .error (some (w, e)) =>
      processCalls agentId cs (s.commit c w (.raised (c.callId ++ ": " ++ e)))
    | .error none => (s, false)

/-- `sorted(found)`, cut off at the limit. -/
def callsOf (limit : Option Int) (found : List (FoundCall R)) : List (FoundCall R) :=
  let calls := Lib.sorted (fun a b => decide (a.callId < b.callId)) found
  match limit with
  | none | some 0 => calls
  | some n => calls.take (if n < 0 then calls.length + n else n).toNat

/-- `run_job` on a claimed job. -/
def runJob (agentId : Option String) (discovery : Discovery R) (limit : Option Int)
    (recluster : ClusterEnd) (w : Records R) (job : BackfillJob) : JobState R :=
  match discovery with
  | .noStorage => ⟨w, job.finish .failed (some "storage not configured for agent"), []⟩
  | .noManifest => ⟨w, job.scan.finish .failed (some "no integration manifest registered"), []⟩
  | .fails message => ⟨w, job.scan.finish .failed (some ("discover failed: " ++ message)), []⟩
  | .found found =>
    let calls := callsOf limit found
    match processCalls agentId calls ⟨w, job.scan.analyzing calls.length, []⟩ with
    | (s, false) => s
    | (s, true) =>
      let s := { s with job := s.job.cluster }
      match recluster with
      | .database => s
      | _ => { s with job := s.job.finish .done none }

/-- What a call leaves that is processed alone: its result, or nothing after a raise. -/
def alone (agentId : Option String) (w : Records R) (c : FoundCall R) : Records R :=
  match c.run agentId w with
  | .ok (w', _) => w'
  | .error _ => w

/-- The job is done, it has counted every call, and every call's turn left what the call leaves
alone. -/
structure JobIsolates (agentId : Option String) (calls : List (FoundCall R)) (w : Records R)
    (s : JobState R) : Prop where
  done : s.job.status = .done
  total : s.job.total = calls.length ∧ s.job.completed + s.job.failed = s.job.total
  every : s.turns.map CallTurn.call = calls
  turns : ∀ t ∈ s.turns, t.after = alone agentId t.before t.call
  records : s.records = calls.foldl (alone agentId) w

/-- The first thing that goes wrong with the call, if any, is an exception before its first write. -/
def FoundCall.Safe (agentId : Option String) (c : FoundCall R) (w : Records R) : Prop :=
  match c.firstTrouble (c.path agentId w) with
  | none => True
  | some (_, .database) => False
  | some (p, .raises _) => c.Unwritten agentId w p

/-- Every call is safe where it is processed. -/
def AllSafe (agentId : Option String) : List (FoundCall R) → Records R → Prop
  | [], _ => True
  | c :: cs, w => c.Safe agentId w ∧ AllSafe agentId cs (alone agentId w c)

section

variable {agentId : Option String} {c : FoundCall R} {cs : List (FoundCall R)} {w : Records R}
  {s s' : JobState R}

lemma safe_iff : c.Safe agentId w ↔ c.run agentId w ≠ .error none ∧
    ∀ left e, c.run agentId w = .error (some (left, e)) → left = w := by
  have hmeets := run_meets agentId c w
  unfold FoundCall.Meets at hmeets
  unfold FoundCall.Safe
  cases htrouble : c.firstTrouble (c.path agentId w) with
  | none =>
    rw [htrouble] at hmeets
    obtain ⟨r, hr⟩ := hmeets
    simp [hr]
  | some trouble =>
    obtain ⟨p, fault⟩ := trouble
    rw [htrouble] at hmeets
    cases fault with
    | database =>
      have hr : c.run agentId w = .error none := hmeets
      simp [hr]
    | raises e =>
      obtain ⟨left, hr, hleft⟩ := hmeets
      simp only
      rw [← hleft, hr]
      simp

/-- A safe call's turn ends in a commit of what the call leaves alone. -/
lemma processCalls_safe (hc : c.Safe agentId s.records) (cs : List (FoundCall R)) : ∃ result,
    processCalls agentId (c :: cs) s =
      processCalls agentId cs (s.commit c (alone agentId s.records c) result) := by
  obtain ⟨hdatabase, hraise⟩ := safe_iff.1 hc
  rw [processCalls, alone]
  cases hr : c.run agentId s.records with
  | ok r => exact ⟨_, rfl⟩
  | error left =>
    cases left with
    | none => exact absurd hr hdatabase
    | some left =>
      obtain ⟨left, e⟩ := left
      obtain rfl := hraise left e hr
      exact ⟨_, rfl⟩

lemma count_columns (job : BackfillJob) (result : CallResult) :
    (job.count result).status = job.status ∧ (job.count result).total = job.total ∧
      (job.count result).completed + (job.count result).failed = job.completed + job.failed + 1 := by
  cases result <;> simp [BackfillJob.count] <;> omega

/-- Safe calls are all processed, each as if it were alone. -/
lemma processCalls_allSafe (h : AllSafe agentId cs s.records)
    (hturns : ∀ t ∈ s.turns, t.after = alone agentId t.before t.call) :
    ∃ s', processCalls agentId cs s = (s', true) ∧
      s'.records = cs.foldl (alone agentId) s.records ∧
      s'.turns.map CallTurn.call = s.turns.map CallTurn.call ++ cs ∧
      (∀ t ∈ s'.turns, t.after = alone agentId t.before t.call) ∧
      s'.job.status = s.job.status ∧ s'.job.total = s.job.total ∧
      s'.job.completed + s'.job.failed = s.job.completed + s.job.failed + cs.length := by
  induction cs generalizing s with
  | nil => exact ⟨s, rfl, rfl, by simp, hturns, rfl, rfl, rfl⟩
  | cons c cs ih =>
    obtain ⟨result, hstep⟩ := processCalls_safe h.1 cs
    obtain ⟨hstatus₁, htotal₁, hcount₁⟩ := count_columns s.job result
    obtain ⟨s', hrun, hrecords, hcalls, hall, hstatus, htotal, hcount⟩ :=
      ih (s := s.commit c (alone agentId s.records c) result) h.2 fun t ht => by
        rcases List.mem_append.1 ht with ht | ht
        · exact hturns t ht
        · rw [List.mem_singleton.1 ht]
    refine ⟨s', hstep.trans hrun, hrecords, ?_, hall, hstatus.trans hstatus₁,
      htotal.trans htotal₁, ?_⟩
    · rw [hcalls]
      simp [JobState.commit]
    · have hcommit : (s.commit c (alone agentId s.records c) result).job = s.job.count result := rfl
      rw [hcommit] at hcount
      rw [hcount, hcount₁, List.length_cons]
      omega

lemma turns_prefix_commit (s : JobState R) (c : FoundCall R) (w : Records R) (result : CallResult) :
    s.turns <+: (s.commit c w result).turns :=
  List.prefix_append _ _

/-- The loop adds turns to those before it, and leaves the status alone. -/
lemma processCalls_frame (agentId : Option String) (cs : List (FoundCall R)) (s : JobState R) :
    s.turns <+: (processCalls agentId cs s).1.turns ∧
      (processCalls agentId cs s).1.job.status = s.job.status := by
  induction cs generalizing s with
  | nil => exact ⟨List.prefix_refl _, rfl⟩
  | cons c cs ih =>
    have hcommit : ∀ w result, s.turns <+: (processCalls agentId cs (s.commit c w result)).1.turns ∧
        (processCalls agentId cs (s.commit c w result)).1.job.status = s.job.status := by
      intro w result
      obtain ⟨hturns, hstatus⟩ := ih (s.commit c w result)
      exact ⟨(turns_prefix_commit s c w result).trans hturns,
        hstatus.trans (count_columns s.job result).1⟩
    rw [processCalls]
    split
    · exact hcommit _ _
    · exact hcommit _ _
    · exact ⟨List.prefix_refl _, rfl⟩

/-- When the loop gets to its end and every turn left what its call leaves alone, every call was
safe. -/
lemma allSafe_of_turns (hrun : (processCalls agentId cs s).2 = true)
    (hturns : ∀ t ∈ (processCalls agentId cs s).1.turns, t.after = alone agentId t.before t.call) :
    AllSafe agentId cs s.records := by
  induction cs generalizing s with
  | nil => trivial
  | cons c cs ih =>
    rw [processCalls] at hrun hturns
    cases hr : c.run agentId s.records with
    | ok r =>
      simp only [hr] at hrun hturns
      have hsafe : c.Safe agentId s.records := safe_iff.2 (by simp [hr])
      have halone : alone agentId s.records c = r.1 := by rw [alone, hr]
      exact ⟨hsafe, halone ▸ ih hrun hturns⟩
    | error left =>
      cases left with
      | none =>
        simp [hr] at hrun
      | some left =>
        obtain ⟨left, e⟩ := left
        simp only [hr] at hrun hturns
        have halone : alone agentId s.records c = s.records := by rw [alone, hr]
        have hleft : left = s.records := by
          have := hturns ⟨c, s.records, left⟩ ((processCalls_frame agentId cs _).1.subset
            (List.mem_append_right _ List.mem_cons_self))
          exact this.trans halone
        have hsafe : c.Safe agentId s.records := by
          refine safe_iff.2 ⟨by simp [hr], fun left' e' hr' => ?_⟩
          rw [hr] at hr'
          obtain ⟨rfl, -⟩ := Prod.mk.inj (Option.some.inj (Except.error.inj hr'))
          exact hleft
        have hrest := ih hrun hturns
        rw [hleft] at hrest
        exact ⟨hsafe, halone.symm ▸ hrest⟩

end

def emptyRecords : Records Unit where
  db := Store.empty
  runs := []
  rows := fun _ => []

def brokenManifest : FoundCall Unit where
  callId := "c1"
  artifacts := .manifest [.artifact false]
  now := 1
  faults := fun p => if p = .artifact 0 then some (.raises "not found") else none
  ends := .done false
  writes := fun db rows _ => (db, rows)

end Pulse.Worker
