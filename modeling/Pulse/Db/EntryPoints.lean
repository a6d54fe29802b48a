import Pulse.Db.Session
import Pulse.Lib.Trace

/-!
# What the sessions execute

The database operations of each entry point that opens a session, in order: the requests, the
event streams and the workers. Of a data statement only the organisation it is executed for is
kept, and how often a loop runs and how its steps end are parameters of the entry point.
-/

namespace Pulse.Db

/-- An operation of a session. -/
inductive Op
  /-- A statement that reads no organisation's schema: `org_schema_keys`. -/
  | catalog
  /-- `use_org_schema` -/
  | pin (org : String)
  | data (org : String)
  | commit
  | rollback
  deriving DecidableEq, Repr

def reads (org : String) (n : Nat) : List Op := List.replicate n (.data org)

/-- The end of a unit of work: a commit, or a rollback after an error. -/
def ending (ok : Bool) : Op := if ok then .commit else .rollback

/-- One call of a worker's loop, or one job's worth of statements up to a commit. -/
def unit (org : String) (work : Nat × Bool) : List Op := reads org work.1 ++ [ending work.2]

/-- A sweep of the organisations: pin each one, work in it, and perhaps commit. -/
def sweep (orgs : List (String × Nat × Bool)) : List Op :=
  .catalog :: orgs.flatMap (fun (org, n, commits) =>
    .pin org :: (reads org n ++ if commits then [.commit] else [])) ++ [.commit]

/-- A sweep that ends a transaction after each unit of work. -/
def unitSweep (orgs : List (String × List (Nat × Bool) × Nat)) : List Op :=
  .catalog :: orgs.flatMap (fun (org, units, rest) =>
    .pin org :: (units.flatMap (unit org) ++ reads org rest)) ++ [.commit]

/-- The reads of a stream that ends its transaction before each poll. -/
def polling (org : String) (polls : List Nat) : List Op :=
  polls.flatMap fun n => .rollback :: reads org n

inductive Entry
  /-- An API request: the schema is pinned by `current_user`, `ingest_identity` or the endpoint
  itself, and again by `provision_org`. -/
  | request (parts : List (String × Nat)) (ok : Bool)
  /-- `login` under dev-open, which commits the seeded user. -/
  | devLogin (n m : Nat) (ok : Bool)
  /-- `handle_record` and `handle_judge` -/
  | record (org : String) (n : Nat) (ok : Bool)
  | flushDue (orgs : List (String × Nat))
  | reconcile (orgs : List (String × Nat))
  /-- The clustering worker; `recluster` commits unless it has nothing to do. -/
  | recluster (orgs : List (String × Nat × Bool))
  /-- The poller: `_poll_agent` commits after each call, or rolls it back. -/
  | poll (orgs : List (String × List (Nat × Bool) × Nat))
  /-- The backfill worker: `claim_next` and `run_job` commit after each step. -/
  | backfill (orgs : List (String × List Nat × Nat))
  /-- `_stream` of `api/boards.py` -/
  | boardsStream (org : String) (n : Nat) (polls : List Nat)
  /-- `_stream` of `api/backfill.py` -/
  | backfillStream (org : String) (n : Nat) (polls : List Nat)
  /-- `_run` of `api/chat.py` and of `api/call_chat.py` -/
  | chatRun (org : String) (n m : Nat)
  deriving Repr

def Entry.ops : Entry → List Op
  | .request parts ok => parts.flatMap (fun (org, n) => .pin org :: reads org n) ++ [ending ok]
  | .devLogin n m ok => .pin defaultOrg :: (reads defaultOrg 1 ++ .pin defaultOrg ::
      (unit defaultOrg (n, true) ++ unit defaultOrg (m, ok)))
  | .record org n ok => .pin org :: unit org (n, ok)
  | .flushDue orgs => sweep (orgs.map fun (org, n) => (org, n, true))
  | .reconcile orgs => sweep (orgs.map fun (org, n) => (org, n, false))
  | .recluster orgs => sweep orgs
  | .poll orgs => unitSweep orgs
  | .backfill orgs => unitSweep (orgs.map fun (org, jobs, rest) =>
      (org, jobs.map fun n => (n, true), rest))
  | .boardsStream org n polls => reads org n ++ polling org polls ++ [.rollback]
  | .backfillStream org n polls => .pin org :: (reads org n ++ polling org polls ++ [.rollback])
  | .chatRun org n m => .pin org :: (unit org (n, true) ++ unit org (m, true) ++ [.rollback])

/-- The entry points that pin the schema in each of their transactions. -/
def Entry.Pins : Entry → Bool
  | .request _ _ | .record _ _ _ | .flushDue _ | .reconcile _ | .recluster _ => true
  | _ => false

/-! ### Which organisation a transaction is for -/

/-- What a session's open transaction is for. -/
inductive Held
  | nothing
  | unpinned
  | under (org : String)
  deriving DecidableEq, Repr

/-- How an operation takes a session's transaction further. A data statement has to be for the
organisation that the transaction is for; it may open one, unless the monitor is `strict`. -/
def Held.next (strict : Bool) : Held → Op → Option Held
  | .nothing, .catalog => some .unpinned
  | h, .catalog => some h
  | _, .pin org => some (.under org)
  | .nothing, .data org => if strict then none else some (.under org)
  | .unpinned, .data _ => none
  | .under slug, .data org => if slug = org then some (.under org) else none
  | _, .commit => some .nothing
  | _, .rollback => some .nothing

abbrev Leads (strict : Bool) := Lib.Leads (Held.next strict)

section

variable {strict : Bool} {org slug : String} {n : Nat}

lemma Held.next_pin (h : Held) : h.next strict (.pin org) = some (.under org) := by
  cases h <;> rfl

lemma Held.next_commit (h : Held) : h.next strict .commit = some .nothing := by
  cases h <;> rfl

lemma Held.next_rollback (h : Held) : h.next strict .rollback = some .nothing := by
  cases h <;> rfl

lemma Held.next_under : (Held.under slug).next strict (.data org) =
    if slug = org then some (.under org) else none := rfl

lemma leads_pin {ops : List Op} {P Q : Held → Prop} (h : Leads strict (· = .under org) ops Q) :
    Leads strict P (.pin org :: ops) Q :=
  .cons (Q := (· = .under org)) (fun h _ => ⟨.under org, h.next_pin, rfl⟩) h

lemma leads_end {ops : List Op} {op : Op} {P Q : Held → Prop} (hop : op = .commit ∨ op = .rollback)
    (h : Leads strict (· = .nothing) ops Q) : Leads strict P (op :: ops) Q := by
  refine .cons (Q := (· = .nothing)) (fun h _ => ⟨.nothing, ?_, rfl⟩) h
  rcases hop with rfl | rfl
  · exact h.next_commit
  · exact h.next_rollback

lemma leads_ending {ok : Bool} {P : Held → Prop} :
    Leads strict P [ending ok] (· = .nothing) := by
  apply leads_end _ .nil
  cases ok
  · exact .inr rfl
  · exact .inl rfl

lemma leads_reads : Leads strict (· = .under org) (reads org n) (· = .under org) :=
  .replicate (by rintro _ rfl; exact ⟨.under org, if_pos rfl, rfl⟩) n

/-- No transaction, or one for the organisation. -/
def For (org : String) (h : Held) : Prop := h = .nothing ∨ h = .under org

lemma leads_reads_any : Leads false (For org) (reads org n) (For org) := by
  refine .replicate ?_ n
  rintro h (rfl | rfl)
  · exact ⟨.under org, rfl, .inr rfl⟩
  · exact ⟨.under org, if_pos rfl, .inr rfl⟩

lemma leads_unit {work : Nat × Bool} : Leads false (For org) (unit org work) (· = .nothing) :=
  leads_reads_any.append leads_ending

lemma leads_polling {polls : List Nat} : Leads false (For org) (polling org polls) (For org) := by
  refine .flatMap fun n _ => leads_end (.inr rfl) ?_
  exact leads_reads_any.mono (fun _ h => .inl h) (fun _ h => h)

lemma leads_sweep {orgs : List (String × Nat × Bool)} :
    Leads strict (· = .nothing) (sweep orgs) (· = .nothing) := by
  refine .cons (Q := fun _ => True) ?_ (.append (Q := fun _ => True) ?_ (leads_end (.inl rfl) .nil))
  · rintro _ rfl
    exact ⟨.unpinned, rfl, trivial⟩
  · refine .flatMap fun ⟨org, n, commits⟩ _ => leads_pin (leads_reads.append ?_)
    cases commits
    · exact Lib.Leads.nil.mono (fun _ _ => trivial) (fun _ h => h)
    · exact leads_end (.inl rfl) (Lib.Leads.nil.mono (fun _ _ => trivial) (fun _ h => h))

lemma leads_unitSweep {orgs : List (String × List (Nat × Bool) × Nat)} :
    Leads false (· = .nothing) (unitSweep orgs) (· = .nothing) := by
  refine .cons (Q := fun _ => True) ?_ (.append (Q := fun _ => True) ?_ (leads_end (.inl rfl) .nil))
  · rintro _ rfl
    exact ⟨.unpinned, rfl, trivial⟩
  · refine .flatMap fun ⟨org, units, rest⟩ _ => leads_pin ?_
    have hunits : Leads false (For org) (units.flatMap (unit org)) (For org) :=
      .flatMap fun work _ => leads_unit.mono (fun _ h => h) (fun _ h => .inl h)
    exact (hunits.append leads_reads_any).mono (fun _ h => .inr h) (fun _ _ => trivial)

/-- An entry point that pins executes its data statements under a pin of their own
organisation, in one transaction. -/
theorem Entry.leads_of_pins {e : Entry} (h : e.Pins = true) :
    Leads true (· = .nothing) e.ops (· = .nothing) := by
  cases e with
  | request parts ok =>
    have hparts : Leads true (fun _ => True)
        (parts.flatMap fun (org, n) => .pin org :: reads org n) (fun _ => True) :=
      .flatMap fun _ _ => leads_pin (leads_reads.mono (fun _ h => h) (fun _ _ => trivial))
    exact (hparts.append leads_ending).mono (fun _ _ => trivial) (fun _ h => h)
  | record org n ok => exact leads_pin (leads_reads.append leads_ending)
  | flushDue orgs => exact leads_sweep
  | reconcile orgs => exact leads_sweep
  | recluster orgs => exact leads_sweep
  | _ => cases h

lemma next_of_strict (h : Held) (op : Op) (h' : Held) (hnext : h.next true op = some h') :
    h.next false op = some h' := by
  -- the monitors differ in a data statement that opens a transaction
  cases h <;> cases op <;> first | exact hnext | cases hnext

/-- No entry point executes a data statement in another organisation's transaction. -/
theorem Entry.leads (e : Entry) : Leads false (· = .nothing) e.ops (· = .nothing) := by
  have hpinned : ∀ {P : Held → Prop} {ops : List Op} {org : String},
      Leads false (For org) ops (· = .nothing) →
        Leads false P (.pin org :: ops) (· = .nothing) :=
    fun h => leads_pin (h.mono (fun _ h => .inr h) (fun _ h => h))
  have hunits : ∀ {org : String} {a b : Nat × Bool},
      Leads false (For org) (unit org a ++ unit org b) (· = .nothing) :=
    leads_unit.append (leads_unit.mono (fun _ h => .inl h) (fun _ h => h))
  have hstream : ∀ {org : String} {n : Nat} {polls : List Nat},
      Leads false (For org) (reads org n ++ polling org polls ++ [.rollback]) (· = .nothing) :=
    (leads_reads_any.append leads_polling).append (leads_end (.inr rfl) .nil)
  cases e with
  | devLogin n m ok => exact leads_pin (leads_reads.append (hpinned hunits))
  | poll orgs => exact leads_unitSweep
  | backfill orgs => exact leads_unitSweep
  | boardsStream org n polls => exact hstream.mono (fun _ h => .inl h) (fun _ h => h)
  | backfillStream org n polls => exact hpinned hstream
  | chatRun org n m => exact hpinned (hunits.append (leads_end (.inr rfl) .nil))
  | _ => exact (Entry.leads_of_pins rfl).of_le next_of_strict

end

end Pulse.Db
