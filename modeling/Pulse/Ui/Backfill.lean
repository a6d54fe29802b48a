import Pulse.Api.Backfill
import Pulse.Ui.EventStream

/-!
# A backfill as it is watched

The callback of `BackfillProvider.tsx` that `streamBackfill` calls for each event, behind the stream
of `api/backfill.py`. The toast and the list of calls show what the provider holds.
-/

namespace Pulse.Ui

open Lib (Json FloatText Run dumps)
open Api.Backfill

/-- `BackfillState`; `stopRef.current` is set while the stream is read. -/
structure Provider where
  job : Option (Json FloatText) := none
  analyzedCalls : List (Json FloatText) := []
  boardsRefreshToken : Nat := 0
  streaming : Bool := false

/-- `c.id`, which is a text. -/
def idOf (c : Json FloatText) : Option String :=
  match c.get? "id" with
  | some (.str id) => some id
  | _ => none

/-- `{ ...j, status: "failed", error }` -/
def failJob (j error : Json FloatText) : Json FloatText :=
  match j with
  | .obj fields =>
    .obj (Lib.upsert (Lib.upsert fields "status" fun _ => .str "failed") "error" fun _ => error)
  | j => j

namespace Provider

/-- `start`, up to `subscribe`: the reply is that of `createBackfill`. -/
def start (p : Provider) (reply : Json FloatText) : Provider :=
  { p with job := some reply, analyzedCalls := [], streaming := true }

/-- The callback of `subscribe` -/
def onEvent (p : Provider) (e : Json FloatText) : Provider :=
  let data := (e.get? "data").getD .null
  match e.get? "type" with
  | some (.str "progress") => { p with job := some data }
  | some (.str "done") => { p with job := some data, streaming := false }
  | some (.str "call-analyzed") =>
    { p with analyzedCalls := data :: p.analyzedCalls.filter fun c => idOf c ≠ idOf data }
  | some (.str "boards-refresh") => { p with boardsRefreshToken := p.boardsRefreshToken + 1 }
  | some (.str "error") =>
    { p with
      job := p.job.map (failJob · ((e.get? "error").getD .null))
      streaming := false }
  | _ => p

end Provider

/-- The event that arrives for what was yielded, if it arrives whole. -/
def objectOf : Api.Yielded → Option (Json FloatText)
  | .event fields => some (.obj fields)
  | .keepAlive => none

def eventOf (v : Values) (u : Update) : Option (Json FloatText) := objectOf (u.yielded v)

/-- The provider after some updates. -/
def after (v : Values) (p : Provider) (us : List Update) : Provider :=
  (us.filterMap (eventOf v)).foldl Provider.onEvent p

section

variable {v : Values} {p : Provider} {us : List Update}

lemma after_snoc (v : Values) (p : Provider) (us : List Update) (u : Update) :
    after v p (us ++ [u]) = ((eventOf v u).elim (after v p us) (after v p us).onEvent) := by
  rw [after, List.filterMap_append, List.foldl_append, after]
  cases h : eventOf v u with
  | none => rw [List.filterMap_cons_none h]; rfl
  | some e => rw [List.filterMap_cons_some h]; rfl

@[simp] lemma onEvent_progress (p : Provider) (v : Values) (job : Db.Row) :
    (eventOf v (.progress job)).elim p p.onEvent = { p with job := some (jobDict v job) } := rfl

@[simp] lemma onEvent_done (p : Provider) (v : Values) (job : Db.Row) :
    (eventOf v (.done job)).elim p p.onEvent =
      { p with job := some (jobDict v job), streaming := false } := rfl

@[simp] lemma onEvent_callAnalyzed (p : Provider) (v : Values) (c : Db.Row) :
    (eventOf v (.callAnalyzed c)).elim p p.onEvent = { p with
      analyzedCalls := listItem v c ::
        p.analyzedCalls.filter fun d => idOf d ≠ idOf (listItem v c) } := rfl

@[simp] lemma onEvent_boardsRefresh (p : Provider) (v : Values) :
    (eventOf v .boardsRefresh).elim p p.onEvent =
      { p with boardsRefreshToken := p.boardsRefreshToken + 1 } := rfl

@[simp] lemma onEvent_error (p : Provider) (v : Values) (message : String) :
    (eventOf v (.error message)).elim p p.onEvent =
      { p with job := p.job.map (failJob · (.str message)), streaming := false } := rfl

@[simp] lemma onEvent_keepAlive (p : Provider) (v : Values) :
    (eventOf v .keepAlive).elim p p.onEvent = p := rfl

lemma token_after (v : Values) (p : Provider) (us : List Update) :
    (after v p us).boardsRefreshToken = p.boardsRefreshToken + us.countP Update.isRefresh := by
  induction us using List.reverseRecOn with
  | nil => rfl
  | append_singleton us u ih =>
    rw [after_snoc, List.countP_append, ← Nat.add_assoc, ← ih]
    cases u <;> rfl

lemma streaming_after (h : p.streaming = true) (v : Values) (us : List Update) :
    (after v p us).streaming = true ↔ ∀ u ∈ us, ¬u.Settles := by
  induction us using List.reverseRecOn with
  | nil => exact ⟨fun _ => nofun, fun _ => h⟩
  | append_singleton us u ih =>
    rw [after_snoc, List.forall_mem_append, ← ih, List.forall_mem_singleton]
    cases u <;> simp [Update.Settles]

/-- The list of the provider, by the calls that were sent. -/
structure Lists (v : Values) (cs : List Db.Row) (items : List (Json FloatText)) : Prop where
  distinct : (items.map idOf).Nodup
  sent : ∀ item ∈ items, ∃ c ∈ cs, item = listItem v c
  complete : ∀ c ∈ cs, ∃ item ∈ items, idOf item = idOf (listItem v c)

lemma Lists.snoc {cs : List Db.Row} {items : List (Json FloatText)} (h : Lists v cs items)
    (c : Db.Row) : Lists v (cs ++ [c])
      (listItem v c :: items.filter fun d => idOf d ≠ idOf (listItem v c)) where
  distinct := by
    refine List.nodup_cons.2 ⟨fun hmem => ?_, h.distinct.sublist (List.filter_sublist.map _)⟩
    obtain ⟨d, hd, heq⟩ := List.mem_map.1 hmem
    exact of_decide_eq_true (List.mem_filter.1 hd).2 heq
  sent := by
    refine List.forall_mem_cons.2 ⟨⟨c, List.mem_append_right _ List.mem_cons_self, rfl⟩, ?_⟩
    intro item hitem
    obtain ⟨d, hd, rfl⟩ := h.sent item (List.mem_filter.1 hitem).1
    exact ⟨d, List.mem_append_left _ hd, rfl⟩
  complete := by
    refine List.forall_mem_append.2 ⟨fun d hd => ?_, List.forall_mem_singleton.2 ?_⟩
    · obtain ⟨item, hitem, heq⟩ := h.complete d hd
      by_cases hid : idOf item = idOf (listItem v c)
      · exact ⟨_, List.mem_cons_self, hid.symm.trans heq⟩
      · exact ⟨item, List.mem_cons_of_mem _ (List.mem_filter.2 ⟨hitem, decide_eq_true hid⟩), heq⟩
    · exact ⟨_, List.mem_cons_self, rfl⟩

lemma lists_after (h : p.analyzedCalls = []) (v : Values) (us : List Update) :
    Lists v (calls us) (after v p us).analyzedCalls := by
  induction us using List.reverseRecOn with
  | nil =>
    have hnil : (after v p []).analyzedCalls = [] := h
    rw [hnil]
    exact ⟨.nil, nofun, nofun⟩
  | append_singleton us u ih =>
    rw [after_snoc, calls_append]
    cases u with
    | callAnalyzed c => exact ih.snoc c
    | progress _ | boardsRefresh | done _ | error _ | keepAlive =>
      exact (List.append_nil (calls us)).symm ▸ ih

/-! ### Behind the stream -/

/-- `JSON.parse` reads the events as they were. -/
def Parses (parse : List Char → Option (Json FloatText)) (ys : List Api.Yielded) : Prop :=
  ∀ fields, .event fields ∈ ys → parse (dumps (.obj fields)) = some (.obj fields)

lemma Parses.events {parse : List Char → Option (Json FloatText)} {ys : List Api.Yielded}
    (h : Parses parse ys) :
    (parseEach parse (ys.filterMap Api.Yielded.json?)).events = ys.filterMap objectOf := by
  induction ys with
  | nil => rfl
  | cons y ys ih =>
    have hrest := ih fun fields hmem => h fields (List.mem_cons_of_mem _ hmem)
    cases y with
    | keepAlive => exact hrest
    | event fields =>
      have htexts : (Api.Yielded.event fields :: ys).filterMap Api.Yielded.json? =
          dumps (.obj fields) :: ys.filterMap Api.Yielded.json? := rfl
      have hobjects : (Api.Yielded.event fields :: ys).filterMap objectOf =
          .obj fields :: ys.filterMap objectOf := rfl
      rw [htexts, hobjects, parseEach, h fields List.mem_cons_self, ← hrest]

lemma exists_after {parse : List Char → Option (Json FloatText)}
    (hparse : Parses parse (us.map (Update.yielded v))) {reads : List (List Char)}
    (hreads : reads.flatten <+: Api.body (us.map (Update.yielded v))) (p : Provider) :
    ∃ n, (readStream parse reads).events.foldl Provider.onEvent p = after v p (us.take n) ∧
      (reads.flatten = Api.body (us.map (Update.yielded v)) → us.take n = us) := by
  obtain ⟨n, hn, hread, hwhole⟩ := readStream_of_prefix parse _ reads hreads
  rw [List.length_map] at hn hwhole
  refine ⟨n, ?_, fun heq => ?_⟩
  · have htake : Parses parse ((us.map (Update.yielded v)).take n) :=
      fun fields hmem => hparse fields (List.mem_of_mem_take hmem)
    rw [hread, htake.events, ← List.map_take, List.filterMap_map]
    rfl
  · have hall : us.length ≤ n := by
      refine (hwhole us.length le_rfl).1 ?_
      rw [heq, ← List.map_take, List.take_length]
    exact List.take_of_length_le hall

/-! ### What the user sees -/

/-- The calls of a listing are in the provider's list, each by its row at the time when it was first
seen. -/
def Covers (v : Values) (es : List Event) (q : Provider) : Prop :=
  ∀ job db, .listed job db ∈ es → ∀ c ∈ matching v job db, ∃ job' db' c',
    .listed job' db' ∈ es ∧ c' ∈ matching v job' db' ∧ c' .id = c .id ∧
      ∃ item ∈ q.analyzedCalls, idOf item = idOf (listItem v c')

/-- The provider `q`, which began to watch as `p`. -/
structure Shows (v : Values) (es : List Event) (p q : Provider) : Prop where
  distinct : (q.analyzedCalls.map idOf).Nodup
  analysed : ∀ item ∈ q.analyzedCalls, ∃ job db, .listed job db ∈ es ∧
    ∃ c ∈ matching v job db, item = listItem v c
  refreshed : q.boardsRefreshToken = p.boardsRefreshToken ∨ ∃ job db, .listed job db ∈ es ∧
    boardsEvery * (q.boardsRefreshToken - p.boardsRefreshToken : Int) ≤ completed job
  settled : q.streaming = false →
    q.job = p.job.map (failJob · (.str "job not found")) ∨
      ∃ job, q.job = some (jobDict v job) ∧ terminal job = true ∧ Covers v es q ∧
        ∃ before db rest, es = before ++ .listed job db :: rest ∧ .polled (some job) ∈ before ∧
          ∀ e ∈ rest, ∃ db, e = .written db

lemma covers_of_watched {es : List Event} {s : Watch} {q : Provider} (h : Watched v es s)
    (hlists : Lists v (calls s.yielded) q.analyzedCalls) : Covers v es q := by
  intro job db hlisted c hc
  have hseen : c .id ∈ s.seen := h.emitted.complete job db hlisted c hc
  obtain ⟨c', hc', hid⟩ := List.mem_map.1 ((h.emitted.seen _).1 hseen)
  obtain ⟨job', db', hlisted', hmatch⟩ := h.emitted.matched c' hc'
  exact ⟨job', db', c', hlisted', hmatch, hid, hlists.complete c' hc'⟩

/-- The end comes last, so whoever has seen it has seen everything. -/
lemma take_eq_of_settles {u w : Update} {n : Nat} (hus : ∀ u ∈ us, ¬u.Settles)
    (hu : u ∈ (us ++ [w]).take n) (hsettles : u.Settles) : (us ++ [w]).take n = us ++ [w] := by
  refine List.take_of_length_le (Nat.le_of_not_lt fun hlt => ?_)
  rw [List.length_append, List.length_singleton, Nat.lt_succ_iff] at hlt
  rw [List.take_append_of_le_length hlt] at hu
  exact hus u (List.mem_of_mem_take hu) hsettles

lemma settled_of_watched {es : List Event} {s : Watch} (h : Watched v es s) {n : Nat}
    (hcalls : p.analyzedCalls = []) (hsettles : ∃ u ∈ s.yielded.take n, u.Settles) :
    (after v p (s.yielded.take n)).job = p.job.map (failJob · (.str "job not found")) ∨
      ∃ job, (after v p (s.yielded.take n)).job = some (jobDict v job) ∧ terminal job = true ∧
        Covers v es (after v p (s.yielded.take n)) ∧
        ∃ before db rest, es = before ++ .listed job db :: rest ∧ .polled (some job) ∈ before ∧
          ∀ e ∈ rest, ∃ db, e = .written db := by
  obtain ⟨u, hu, hsettles⟩ := hsettles
  have hover : s.pc = .over := by
    by_contra hpc
    exact h.live hpc u (List.mem_of_mem_take hu) hsettles
  cases h.ending hover with
  | notFound hyielded =>
    rw [hyielded] at hu ⊢
    have hnone : ∀ u ∈ ([] : List Update), ¬u.Settles := nofun
    have htake := take_eq_of_settles hnone hu hsettles
    rw [List.nil_append] at htake
    rw [htake]
    exact .inl rfl
  | vanished _ hlive => exact absurd hsettles (hlive u (List.mem_of_mem_take hu))
  | done job hjob =>
    obtain ⟨us, hyielded, hlive⟩ := hjob.last
    have htake : s.yielded.take n = s.yielded := by
      rw [hyielded] at hu ⊢
      exact take_eq_of_settles hlive hu hsettles
    rw [htake]
    refine .inr ⟨job, ?_, hjob.terminal, covers_of_watched h (lists_after hcalls v _), hjob.listed⟩
    rw [hyielded, after_snoc]
    rfl

lemma refreshed_of_watched {es : List Event} {s : Watch} (h : Watched v es s) (n : Nat) :
    (after v p (s.yielded.take n)).boardsRefreshToken = p.boardsRefreshToken ∨
      ∃ job db, .listed job db ∈ es ∧ boardsEvery *
        ((after v p (s.yielded.take n)).boardsRefreshToken - p.boardsRefreshToken : Int) ≤
          completed job := by
  have hle : (s.yielded.take n).countP Update.isRefresh ≤ s.yielded.countP Update.isRefresh :=
    (List.take_sublist ..).countP_le
  have hmany := h.emitted.refreshes
  rw [token_after]
  obtain hlast | ⟨job, db, hlisted, hlast⟩ := h.emitted.lastBoards
  · refine .inl ?_
    rw [hlast, boardsEvery] at hmany
    omega
  · refine .inr ⟨job, db, hlisted, ?_⟩
    rw [hlast]
    rw [boardsEvery] at hmany ⊢
    push_cast
    omega

end

/-! ### One backfill -/

/-- Timestamps and statuses as the texts that they are. -/
def plainValues : Values where
  less a b := match a, b with
    | .int m, .int n => m < n
    | _, _ => false
  json _
    | .text s => .str s
    | .int n => .int n

def jobRow (status : String) (completed : Int) : Db.Row
  | .id => some (.text "j1")
  | .other "status" => some (.text status)
  | .other "completed" => some (.int completed)
  | .other "created_at" => some (.int 5)
  | _ => none

def callRow : Db.Row
  | .id => some (.text "c1")
  | .externalCallId => some (.text "CA1")
  | .other "status" => some (.text "ingested")
  | .other "created_at" => some (.int 6)
  | _ => none

/-- The schema with the job and, when the worker has got so far, its call. -/
def committed (status : String) (completed : Int) (analysed : Bool) : Db.OrgDb where
  rows
    | .backfillJob => [jobRow status completed]
    | .call => if analysed then [callRow] else []
    | _ => []
  key_some t := by cases t <;> cases analysed <;> simp [jobRow, callRow, Db.metadata]
  key_nodup t := by cases t <;> cases analysed <;> simp
  refs := by
    intro fk hfk
    have hcolumn : fk.table ≠ .backfillJob ∧ (fk.table = .call → fk.column = .promptId) := by
      revert fk
      decide
    obtain ⟨t, column, target⟩ := fk
    cases t <;> cases analysed <;> simp_all [callRow]
  unique := by
    rintro ⟨t, columns⟩ -
    cases t <;> cases analysed <;> simp

/-- The job is running at the first poll; its call is committed before the calls are listed. -/
def firstLooks : List Event := [.opened, .polled (some (jobRow "running" 0)),
  .written (committed "done" 1 true), .listed (jobRow "running" 0) (committed "done" 1 true)]

def lastLooks : List Event := [.polled (some (jobRow "done" 1)),
  .listed (jobRow "done" 1) (committed "done" 1 true)]

def updates : List Update := [.progress (jobRow "running" 0), .callAnalyzed callRow,
  .progress (jobRow "done" 1), .done (jobRow "done" 1)]

def response : List Char := Api.body (updates.map (Update.yielded plainValues))

/-- `JSON.parse` on the texts of the response. -/
def parsed (text : List Char) : Option (Json FloatText) :=
  (updates.filterMap (eventOf plainValues)).find? fun e => dumps e = text

lemma watch_run : ∃ s, Run (Api.Backfill.Acts plainValues "j1")
    { db := committed "running" 0 false } (firstLooks ++ lastLooks) s ∧ s.yielded = updates ∧
    s.pc = .over := by
  refine ⟨_, .cons (.opened rfl) (.cons (.polled rfl) (.cons (.written _) (.cons (.listed rfl)
    (.cons (.polled rfl) (.cons (.listed rfl) (.nil _)))))), ?_, ?_⟩
  · rfl
  · rfl

lemma parsed_updates : Parses parsed (updates.map (Update.yielded plainValues)) := by
  have hnodup : ((updates.filterMap (eventOf plainValues)).map dumps).Nodup := by decide +kernel
  intro fields hmem
  obtain ⟨u, hu, hyielded⟩ := List.mem_map.1 hmem
  refine Lib.find?_key hnodup (List.mem_filterMap.2 ⟨u, hu, ?_⟩)
  rw [eventOf, hyielded]
  rfl

end Pulse.Ui
