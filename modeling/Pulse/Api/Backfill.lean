import Pulse.Api.Read
import Pulse.Lib.Run
import Pulse.Ui.EventStream

/-!
# The stream of a backfill

`_stream` and `_new_calls` of `api/backfill.py`. The generator has its own session and looks at the
job and then at the calls, in a transaction of its own for each poll, while the worker and everybody
else commit what they like. The two looks are statements under READ COMMITTED, so the calls are at
least as new as the job.
-/

namespace Pulse.Api.Backfill

open Db
open Lib (Json FloatText Run nullsLast sorted)
open Pulse.Chat (Cell)

/-- The order of times, and what `json.dumps(…, default=str)` is given for a value of a column. -/
structure Values where
  less : Value → Value → Bool
  json : String → Value → Json FloatText

/-- A column by its name; `None` is `null`. -/
def Values.column (v : Values) (r : Row) (name : String) : String × Json FloatText :=
  (name, (r (Read.columnNamed name)).elim .null (v.json name))

def jobColumns : List String := ["id", "agent_id", "source", "status", "phase", "total",
  "completed", "failed", "error", "created_at", "finished_at"]

/-- `_job_dict` -/
def jobDict (v : Values) (j : Row) : Json FloatText := .obj (jobColumns.map (v.column j))

/-- `_list_item(c, None)` -/
def listItem (v : Values) (c : Row) : Json FloatText :=
  .obj ([("id", (c .externalCallId).elim .null (v.json "external_call_id"))] ++
    ["started_at", "duration_s", "environment", "source"].map (v.column c) ++
    [("labels", v.json "labels" (Read.dictOr (c (.other "labels"))))] ++
    ["status", "media_ready"].map (v.column c) ++
    [("analysed", .bool (c .metricVersion).isSome)] ++
    ["analysis_mode", "analysis_error"].map (v.column c) ++
    [("turns", .int 0), ("barge_ins", .int 0), ("p50_v2v_ms", .null)])

/-- `db.get(BackfillJob, job_id)` -/
def getJob (db : OrgDb) (jobId : String) : Option Row :=
  (db.rows .backfillJob).find? fun j => j .id = some (.text jobId)

/-- `job.completed`, which is an integer and not null. -/
def completed (job : Row) : Int :=
  match job (.other "completed") with
  | some (.int n) => n
  | _ => 0

/-- `job.status in ("done", "failed", "cancelled")` -/
def terminal (job : Row) : Bool :=
  ["done", "failed", "cancelled"].any fun status => job (.other "status") = some (.text status)

/-- `Call.created_at >= job.created_at` -/
def since (v : Values) (job c : Row) : Bool :=
  match job (.other "created_at"), c (.other "created_at") with
  | some start, some created => !v.less created start
  | _, _ => false

/-- The query of `_new_calls` -/
def matching (v : Values) (job : Row) (db : OrgDb) : List Row :=
  sorted (fun a b => nullsLast v.less (a (.other "created_at")) (b (.other "created_at")))
    ((db.rows .call).filter fun c => since v job c &&
      ["ingested", "failed"].any (fun status => c (.other "status") = some (.text status)) &&
      (!Read.truth (job .agentId) || decide (c .agentId = job .agentId)))

/-- The loop of `_new_calls`: the calls that were not seen, and what has been seen then. -/
def newCalls (seen : List Cell) : List Row → List Cell × List Row
  | [] => (seen, [])
  | c :: cs =>
    if seen.contains (c .id) then newCalls seen cs
    else ((newCalls (c .id :: seen) cs).1, c :: (newCalls (c .id :: seen) cs).2)

/-- What the generator yields, before `_sse`. -/
inductive Update
  | progress (job : Row)
  | callAnalyzed (c : Row)
  | boardsRefresh
  | done (job : Row)
  | error (message : String)
  | keepAlive

def Update.yielded (v : Values) : Update → Yielded
  | .progress job => .event [("type", .str "progress"), ("data", jobDict v job)]
  | .callAnalyzed c => .event [("type", .str "call-analyzed"), ("data", listItem v c)]
  | .boardsRefresh => .event [("type", .str "boards-refresh")]
  | .done job => .event [("type", .str "done"), ("data", jobDict v job)]
  | .error message => .event [("type", .str "error"), ("error", .str message)]
  | .keepAlive => .keepAlive

/-- Where the generator is: before it has looked for the job, before a poll, and between the two
looks of a poll. -/
inductive Pc
  | opening
  | polling
  | listing (job : Row)
  | over

/-- The schema as it is committed, and the generator. -/
structure Watch where
  db : OrgDb
  pc : Pc := .opening
  seen : List Cell := []
  lastBoards : Int := 0
  idle : Nat := 0
  yielded : List Update := []

/-- `_HEARTBEAT_EVERY` -/
def heartbeatEvery : Nat := 15

/-- `_BOARDS_EVERY` -/
def boardsEvery : Int := 200

namespace Watch

def enter (jobId : String) (s : Watch) : Watch :=
  match getJob s.db jobId with
  | none => { s with pc := .over, yielded := s.yielded ++ [.error "job not found"] }
  | some _ => { s with pc := .polling }

/-- The job anew, at the beginning of the transaction. Without it `_job_dict` raises, and the stream
breaks off. -/
def poll (jobId : String) (s : Watch) : Watch :=
  match getJob s.db jobId with
  | none => { s with pc := .over }
  | some job => { s with pc := .listing job, yielded := s.yielded ++ [.progress job] }

/-- The calls that were not seen. -/
def emitCalls (v : Values) (job : Row) (s : Watch) : Watch :=
  let new := newCalls s.seen (matching v job s.db)
  { s with
    seen := new.1
    idle := if new.2 = [] then s.idle else 0
    yielded := s.yielded ++ new.2.map Update.callAnalyzed }

def refreshBoards (job : Row) (s : Watch) : Watch :=
  if boardsEvery ≤ completed job - s.lastBoards then
    { s with lastBoards := completed job, yielded := s.yielded ++ [.boardsRefresh] }
  else s

/-- The end of the loop's body. -/
def rest (job : Row) (s : Watch) : Watch :=
  if terminal job then { s with pc := .over, yielded := s.yielded ++ [.done job] }
  else if (s.idle + 1) % heartbeatEvery = 0 then
    { s with pc := .polling, idle := s.idle + 1, yielded := s.yielded ++ [.keepAlive] }
  else { s with pc := .polling, idle := s.idle + 1 }

/-- What follows the second look. -/
def list (v : Values) (job : Row) (s : Watch) : Watch :=
  ((s.emitCalls v job).refreshBoards job).rest job

end Watch

inductive Event
  /-- Any transaction of anybody. -/
  | written (db : OrgDb)
  | opened
  | polled (job : Option Row)
  | listed (job : Row) (db : OrgDb)

inductive Acts (v : Values) (jobId : String) : Watch → Event → Watch → Prop
  | written {s : Watch} (db : OrgDb) : Acts v jobId s (.written db) { s with db := db }
  | opened {s : Watch} : s.pc = .opening → Acts v jobId s .opened (s.enter jobId)
  | polled {s : Watch} : s.pc = .polling →
      Acts v jobId s (.polled (getJob s.db jobId)) (s.poll jobId)
  | listed {s : Watch} {job : Row} : s.pc = .listing job →
      Acts v jobId s (.listed job s.db) (s.list v job)

/-! ### What one look gives -/

/-- What `newCalls` does to what was seen. -/
structure NewCalls (seen : List Cell) (cs : List Row) (seen' : List Cell) (new : List Row) :
    Prop where
  mem : ∀ k, k ∈ seen' ↔ k ∈ seen ∨ k ∈ new.map (· .id)
  fresh : ∀ c ∈ new, c .id ∉ seen
  nodup : (new.map (· .id)).Nodup
  subset : ∀ c ∈ new, c ∈ cs
  all : ∀ c ∈ cs, c .id ∈ seen'

lemma newCalls_spec (seen : List Cell) (cs : List Row) :
    NewCalls seen cs (newCalls seen cs).1 (newCalls seen cs).2 := by
  induction cs generalizing seen with
  | nil => exact ⟨by simp [newCalls], nofun, .nil, nofun, nofun⟩
  | cons c cs ih =>
    simp only [newCalls, List.contains_iff_mem]
    split
    · next hc =>
      have h := ih seen
      refine ⟨h.mem, h.fresh, h.nodup, fun d hd => List.mem_cons_of_mem _ (h.subset d hd), ?_⟩
      exact List.forall_mem_cons.2 ⟨(h.mem _).2 (.inl hc), h.all⟩
    · next hc =>
      have h := ih (c .id :: seen)
      have hmem : ∀ k, k ∈ (newCalls (c .id :: seen) cs).1 ↔
          k ∈ seen ∨ k ∈ (c :: (newCalls (c .id :: seen) cs).2).map (· .id) := by
        intro k
        rw [h.mem, List.map_cons, List.mem_cons, List.mem_cons]
        tauto
      refine ⟨hmem, ?_, ?_, ?_, ?_⟩
      · refine List.forall_mem_cons.2 ⟨hc, fun d hd hseen => ?_⟩
        exact h.fresh d hd (List.mem_cons_of_mem _ hseen)
      · rw [List.map_cons, List.nodup_cons]
        refine ⟨fun hmem => ?_, h.nodup⟩
        obtain ⟨d, hd, heq⟩ := List.mem_map.1 hmem
        exact h.fresh d hd (heq ▸ List.mem_cons_self)
      · exact List.forall_mem_cons.2
          ⟨List.mem_cons_self, fun d hd => List.mem_cons_of_mem _ (h.subset d hd)⟩
      · refine List.forall_mem_cons.2 ⟨(hmem _).2 (.inr ?_), h.all⟩
        exact List.mem_cons_self

/-! ### A run of the stream -/

/-- The call of an event. -/
def Update.call? : Update → Option Row
  | .callAnalyzed c => some c
  | _ => none

def Update.isRefresh : Update → Bool
  | .boardsRefresh => true
  | _ => false

/-- The toast is told that it is over. -/
def Update.Settles : Update → Prop
  | .done _ | .error _ => True
  | _ => False

/-- The calls that were yielded. -/
def calls (us : List Update) : List Row := us.filterMap Update.call?

/-- The job was read at its end, and then the calls; since then the stream has looked at nothing. -/
structure Settled (past : List Event) (yielded : List Update) (job : Row) : Prop where
  terminal : terminal job = true
  last : ∃ us, yielded = us ++ [.done job] ∧ ∀ u ∈ us, ¬u.Settles
  listed : ∃ before db after, past = before ++ .listed job db :: after ∧
    .polled (some job) ∈ before ∧ ∀ e ∈ after, ∃ db, e = .written db

inductive Ended (past : List Event) (yielded : List Update) : Prop
  | notFound (h : yielded = [.error "job not found"])
  | vanished (h : .polled none ∈ past) (hus : ∀ u ∈ yielded, ¬u.Settles)
  | done (job : Row) (h : Settled past yielded job)

/-- What has been yielded, by what was looked at. -/
structure Emitted (v : Values) (past : List Event) (s : Watch) : Prop where
  seen : ∀ k, k ∈ s.seen ↔ k ∈ (calls s.yielded).map (· .id)
  nodup : ((calls s.yielded).map (· .id)).Nodup
  matched : ∀ c ∈ calls s.yielded, ∃ job db, .listed job db ∈ past ∧ c ∈ matching v job db
  complete : ∀ job db, .listed job db ∈ past → ∀ c ∈ matching v job db, c .id ∈ s.seen
  refreshes : boardsEvery * s.yielded.countP Update.isRefresh ≤ s.lastBoards
  lastBoards : s.lastBoards = 0 ∨ ∃ job db, .listed job db ∈ past ∧ completed job = s.lastBoards

structure Watched (v : Values) (past : List Event) (s : Watch) : Prop where
  emitted : Emitted v past s
  opening : s.pc = .opening → s.yielded = []
  listing : ∀ job, s.pc = .listing job → .polled (some job) ∈ past
  live : s.pc ≠ .over → ∀ u ∈ s.yielded, ¬u.Settles
  ending : s.pc = .over → Ended past s.yielded

section

variable {v : Values} {past : List Event} {s s' : Watch} {job : Row} {jobId : String}

lemma calls_append (us us' : List Update) : calls (us ++ us') = calls us ++ calls us' :=
  List.filterMap_append

lemma calls_map_callAnalyzed (cs : List Row) : calls (cs.map .callAnalyzed) = cs := by
  rw [calls, List.filterMap_map]
  exact List.filterMap_some

lemma forall_mem_snoc {u : Update} {us : List Update} (hus : ∀ u ∈ us, ¬u.Settles)
    (hu : ¬u.Settles) : ∀ w ∈ us ++ [u], ¬w.Settles :=
  List.forall_mem_append.2 ⟨hus, List.forall_mem_singleton.2 hu⟩

/-- No calls are looked at, and none are yielded. -/
lemma Emitted.of_quiet (h : Emitted v past s) {past' : List Event} {us : List Update}
    (hpast : past ⊆ past') (hold : ∀ job db, .listed job db ∈ past' → .listed job db ∈ past)
    (hseen : s'.seen = s.seen) (hlast : s'.lastBoards = s.lastBoards)
    (hyielded : s'.yielded = s.yielded ++ us) (hcalls : calls us = [])
    (hquiet : us.countP Update.isRefresh = 0) : Emitted v past' s' where
  seen k := by rw [hseen, hyielded, calls_append, hcalls, List.append_nil, h.seen]
  nodup := by
    rw [hyielded, calls_append, hcalls, List.append_nil]
    exact h.nodup
  matched c hc := by
    rw [hyielded, calls_append, hcalls, List.append_nil] at hc
    obtain ⟨job, db, hlisted, hmatch⟩ := h.matched c hc
    exact ⟨job, db, hpast hlisted, hmatch⟩
  complete job db hlisted c hc := by
    rw [hseen]
    exact h.complete job db (hold job db hlisted) c hc
  refreshes := by
    rw [hyielded, hlast, List.countP_append, hquiet, Nat.add_zero]
    exact h.refreshes
  lastBoards := by
    rw [hlast]
    refine h.lastBoards.imp_right ?_
    rintro ⟨job, db, hlisted, heq⟩
    exact ⟨job, db, hpast hlisted, heq⟩

lemma listed_of_snoc {e : Event} (he : ∀ job db, e ≠ .listed job db) (job : Row) (db : OrgDb)
    (h : .listed job db ∈ past ++ [e]) : .listed job db ∈ past :=
  (List.mem_append.1 h).resolve_right fun h => he job db (List.mem_singleton.1 h).symm

/-- An event that looks at no calls. -/
lemma Emitted.snoc (h : Emitted v past s) {e : Event} (he : ∀ job db, e ≠ .listed job db)
    {us : List Update} (hseen : s'.seen = s.seen) (hlast : s'.lastBoards = s.lastBoards)
    (hyielded : s'.yielded = s.yielded ++ us) (hcalls : calls us = [])
    (hquiet : us.countP Update.isRefresh = 0) : Emitted v (past ++ [e]) s' :=
  h.of_quiet (List.subset_append_left ..) (listed_of_snoc he) hseen hlast hyielded hcalls hquiet

lemma Emitted.emitCalls (h : Emitted v past s) (job : Row) :
    Emitted v (past ++ [.listed job s.db]) (s.emitCalls v job) := by
  have hnew := newCalls_spec s.seen (matching v job s.db)
  have hcalls : calls (s.emitCalls v job).yielded =
      calls s.yielded ++ (newCalls s.seen (matching v job s.db)).2 := by
    rw [Watch.emitCalls, calls_append, calls_map_callAnalyzed]
  refine ⟨fun k => ?_, ?_, fun c hc => ?_, fun job' db hlisted c hc => ?_, ?_, ?_⟩
  · rw [hcalls, List.map_append, List.mem_append, ← h.seen]
    exact hnew.mem k
  · rw [hcalls, List.map_append]
    refine List.nodup_append.2 ⟨h.nodup, hnew.nodup, ?_⟩
    rintro k hk _ hk' rfl
    obtain ⟨c, hc, rfl⟩ := List.mem_map.1 hk'
    exact hnew.fresh c hc ((h.seen _).2 hk)
  · rw [hcalls] at hc
    obtain hc | hc := List.mem_append.1 hc
    · obtain ⟨job', db, hlisted, hmatch⟩ := h.matched c hc
      exact ⟨job', db, List.mem_append_left _ hlisted, hmatch⟩
    · exact ⟨job, s.db, List.mem_append_right _ List.mem_cons_self, hnew.subset c hc⟩
  · obtain hlisted | hlisted := List.mem_append.1 hlisted
    · exact (hnew.mem _).2 (.inl (h.complete job' db hlisted c hc))
    · cases List.mem_singleton.1 hlisted
      exact hnew.all c hc
  · have hcount : ((newCalls s.seen (matching v job s.db)).2.map Update.callAnalyzed).countP
        Update.isRefresh = 0 := by
      rw [List.countP_map, List.countP_eq_zero]
      exact fun _ _ => Bool.false_ne_true
    rw [Watch.emitCalls, List.countP_append, hcount, Nat.add_zero]
    exact h.refreshes
  · refine h.lastBoards.imp_right ?_
    rintro ⟨job', db, hlisted, heq⟩
    exact ⟨job', db, List.mem_append_left _ hlisted, heq⟩

lemma Emitted.refreshBoards (h : Emitted v past s) {db : OrgDb} (hlisted : .listed job db ∈ past) :
    Emitted v past (s.refreshBoards job) := by
  rw [Watch.refreshBoards]
  split
  · next hmany =>
    have hcalls : calls (s.yielded ++ [.boardsRefresh]) = calls s.yielded :=
      (calls_append ..).trans (List.append_nil _)
    refine ⟨fun k => ?_, ?_, fun c hc => ?_, h.complete, ?_, .inr ⟨job, db, hlisted, rfl⟩⟩
    · rw [hcalls]
      exact h.seen k
    · rw [hcalls]
      exact h.nodup
    · rw [hcalls] at hc
      exact h.matched c hc
    · have := h.refreshes
      rw [List.countP_append, show [Update.boardsRefresh].countP Update.isRefresh = 1 from rfl]
      push_cast
      linarith
  · exact h

lemma Emitted.rest (h : Emitted v past s) (job : Row) : Emitted v past (s.rest job) := by
  have hquiet {s' : Watch} {u : Update} (hseen : s'.seen = s.seen)
      (hlast : s'.lastBoards = s.lastBoards) (hyielded : s'.yielded = s.yielded ++ [u])
      (hcall : u.call? = none) (hrefresh : u.isRefresh = false) : Emitted v past s' :=
    h.of_quiet (List.Subset.refl _) (fun _ _ => id) hseen hlast hyielded
      (List.filterMap_cons_none hcall) (by simp [hrefresh])
  rw [Watch.rest]
  split
  · exact hquiet rfl rfl rfl rfl rfl
  · split
    · exact hquiet rfl rfl rfl rfl rfl
    · exact ⟨h.seen, h.nodup, h.matched, h.complete, h.refreshes, h.lastBoards⟩

/-- The events of a look that come before the end of the loop's body. -/
lemma live_of_listing (h : ∀ u ∈ s.yielded, ¬u.Settles) (v : Values) (job : Row) :
    ∀ u ∈ ((s.emitCalls v job).refreshBoards job).yielded, ¬u.Settles := by
  have hemit : ∀ u ∈ (s.emitCalls v job).yielded, ¬u.Settles := by
    refine List.forall_mem_append.2 ⟨h, ?_⟩
    intro u hu
    obtain ⟨c, -, rfl⟩ := List.mem_map.1 hu
    exact not_false
  rw [Watch.refreshBoards]
  split
  · exact forall_mem_snoc hemit not_false
  · exact hemit

lemma Ended.written (h : Ended past s.yielded) (db : OrgDb) :
    Ended (past ++ [.written db]) s.yielded := by
  cases h with
  | notFound h => exact .notFound h
  | vanished h hus => exact .vanished (List.mem_append_left _ h) hus
  | done job h =>
    refine .done job ⟨h.terminal, h.last, ?_⟩
    obtain ⟨before, db', after, rfl, hpolled, hafter⟩ := h.listed
    refine ⟨before, db', after ++ [.written db], by simp, hpolled, ?_⟩
    exact List.forall_mem_append.2 ⟨hafter, List.forall_mem_singleton.2 ⟨db, rfl⟩⟩

lemma Watched.list (h : Watched v past s) (hpc : s.pc = .listing job) :
    Watched v (past ++ [.listed job s.db]) (s.list v job) := by
  have hpolled := h.listing job hpc
  have hlive := live_of_listing (h.live (by simp [hpc])) v job
  have hemitted := ((h.emitted.emitCalls job).refreshBoards
    (List.mem_append_right _ List.mem_cons_self)).rest job
  refine ⟨hemitted, ?_, ?_, ?_, ?_⟩
  all_goals rw [Watch.list, Watch.rest]
  · split_ifs <;> exact nofun
  · split_ifs <;> exact fun _ hpc => nomatch hpc
  · split_ifs
    · exact fun hpc => absurd rfl hpc
    · exact fun _ => forall_mem_snoc hlive not_false
    · exact fun _ => hlive
  · split_ifs with hterminal
    · refine fun _ => .done job ⟨hterminal, ⟨_, rfl, hlive⟩, past, s.db, [], rfl, hpolled, nofun⟩
    · exact nofun
    · exact nofun

lemma Watched.acts {e : Event} (h : Watched v past s) (hacts : Acts v jobId s e s') :
    Watched v (past ++ [e]) s' := by
  have hpast : past ⊆ past ++ [e] := List.subset_append_left ..
  cases hacts with
  | written db =>
    have hemitted : Emitted v (past ++ [.written db]) { s with db := db } :=
      h.emitted.snoc nofun rfl rfl (List.append_nil _).symm rfl rfl
    exact ⟨hemitted, h.opening, fun job hpc => hpast (h.listing job hpc), h.live,
      fun hpc => (h.ending hpc).written db⟩
  | opened hpc =>
    have hnone : s.yielded = [] := h.opening hpc
    rw [Watch.enter]
    split
    · refine ⟨?_, nofun, nofun, fun hpc => absurd rfl hpc, fun _ => .notFound (by simp [hnone])⟩
      exact h.emitted.snoc nofun rfl rfl rfl rfl rfl
    · refine ⟨?_, nofun, nofun, fun _ => h.live (by simp [hpc]), nofun⟩
      exact h.emitted.snoc nofun rfl rfl (List.append_nil _).symm rfl rfl
  | polled hpc =>
    have hlive := h.live (by simp [hpc])
    rw [Watch.poll]
    split
    · next hjob =>
      refine ⟨?_, nofun, nofun, fun hpc => absurd rfl hpc, fun _ => .vanished ?_ hlive⟩
      · exact h.emitted.snoc nofun rfl rfl (List.append_nil _).symm rfl rfl
      · rw [hjob]
        exact List.mem_append_right _ List.mem_cons_self
    · next job hjob =>
      refine ⟨?_, nofun, fun job' hpc => ?_, fun _ => forall_mem_snoc hlive not_false, nofun⟩
      · exact h.emitted.snoc nofun rfl rfl rfl rfl rfl
      · cases hpc
        rw [hjob]
        exact List.mem_append_right _ List.mem_cons_self
  | listed hpc => exact h.list hpc

/-- What has been yielded at any moment, whatever is committed between the looks. -/
theorem watched {db : OrgDb} {es : List Event} (hrun : Run (Acts v jobId) { db := db } es s) :
    Watched v es s := by
  have hstart : Watched v [] { db := db } :=
    ⟨⟨by simp [calls], .nil, nofun, nofun, le_rfl, .inl rfl⟩, fun _ => rfl, nofun, nofun, nofun⟩
  exact hrun.history_of_mem (fun _ _ _ _ _ h hacts => h.acts hacts) hstart

end

end Pulse.Api.Backfill
