import Pulse.Judge.Gate
import Pulse.Lib.Lists
import Pulse.Lib.Run
import Pulse.Lib.Sessions

/-!
# Uploads of call parameters against the judge queue

`upload_call_params` of `api/agents.py`, the ingestion and analysis of calls, and the judge consumer
as transactions under READ COMMITTED, one action a statement. The upload sends its messages before
its rows are committed, so the judge may read the parameters too early, and nothing asks it again.
-/

namespace Pulse.Judge

open Lib (Run guarded Sessions session_iff session_cases)

variable {P J F : Type}

/-- How far a session is. -/
inductive Tx (P J F : Type)
  /-- An analysis is committed and its message is yet to be sent. -/
  | enqueue (call : String)
  /-- An upload has written its rows, and has messages to send once it has matched the calls. -/
  | upload (agentId : String) (rows : List (String × P)) (unsent : Option (List String))
  /-- The judge has taken the message of a call, has read the row of its judgment and will write
  another one. -/
  | judging (message callId : String) (loaded : Option (Judgment J F)) (new : Judgment J F)

/-- The committed rows, the messages of the judge queue and the sessions. -/
structure State (P J F : Type) where
  calls : List Call := []
  params : String → String → Option P := fun _ _ => none
  judgments : String → Option (Judgment J F) := fun _ => none
  queue : List String := []
  session : Sessions (Tx P J F) := fun _ => none

/-- A row of `CallParams` is inserted, or the one that is there gets its parameters. -/
def putParams (agentId : String) (params : String → String → Option P) (row : String × P) :
    String → String → Option P :=
  Function.update params agentId (Function.update (params agentId) row.1 (some row.2))

namespace State

variable (s : State P J F)

def put (i : Nat) (tx : Tx P J F) : State P J F :=
  { s with session := Function.update s.session i (some tx) }

def release (i : Nat) : State P J F :=
  { s with session := Function.update s.session i none }

/-- `select(Call).where(Call.external_call_id == call_id)` -/
def find (externalCallId : String) : Option Call :=
  s.calls.find? (·.externalCallId = externalCallId)

/-- The call under a key is changed. -/
def setCall (id : String) (f : Call → Call) : State P J F :=
  { s with calls := s.calls.map fun c => if c.id = id then f c else c }

/-- `resolve_params` -/
def resolveParams (c : Call) : Option P := c.agentId.bind fun a => s.params a c.externalCallId

/-- The calls among the keys that the agent has. -/
def matched (agentId : String) (keys : List String) : List String :=
  keys.eraseDups.filter fun k => (s.find k).any (·.agentId = some agentId)

/-- The rows of an upload, each over those before it. -/
def withParams (agentId : String) (rows : List (String × P)) : State P J F :=
  { s with params := rows.foldl (putParams agentId) s.params }

end State

/-- What a flush leaves in a row: the columns that differ from the ones that were loaded are set. -/
def flush [DecidableEq J] [DecidableEq F] (loaded new current : Judgment J F) : Judgment J F where
  disposition := if new.disposition = loaded.disposition then current.disposition else new.disposition
  status := if new.status = loaded.status then current.status else new.status
  model := if new.model = loaded.model then current.model else new.model
  error := if new.error = loaded.error then current.error else new.error
  judge := if new.judge = loaded.judge then current.judge else new.judge
  failure := if new.failure = loaded.failure then current.failure else new.failure

/-- What an analysis makes of a call. -/
structure Findings where
  transcript : Transcript
  hangupBy : Option String
  durationS : Option ℚ
  status : String

def Call.analyse (f : Findings) (c : Call) : Call :=
  { c with transcript := f.transcript, hangupBy := f.hangupBy, durationS := f.durationS,
           status := f.status, analysed := true }

/-- What a slice makes of a call that is there. -/
def Call.ingest (externalCallId : String) (agentId : Option String) (c : Call) : Call :=
  { c with externalCallId, agentId := c.agentId.or agentId }

inductive Action (P : Type)
  /-- A slice of a call is ingested: a new call, or one that gets another external id or an agent. -/
  | ingest (id externalCallId : String) (agentId : Option String)
  | analyse (i : Nat) (id : String) (findings : Findings)
  | enqueue (i : Nat)
  | upload (i : Nat) (agentId : String) (rows : List (String × P))
  | matchCalls (i : Nat)
  | send (i : Nat)
  | commitUpload (i : Nat)
  | deliver (i : Nat) (message : String)
  | commitJudgment (i : Nat)
  | abort (i : Nat)

section

variable [DecidableEq J] [DecidableEq F]

/-- The state after an action, if it can be taken now. Uploads of one key do not wait for each other
here: the database lets fewer orders happen. -/
def act (m : Models P J F) (required : String → Bool) (s : State P J F) : Action P →
    Option (State P J F)
  | .ingest id externalCallId agentId =>
    match s.calls.find? (·.id = id) with
    | none =>
      if (s.find externalCallId).isNone then
        some { s with calls := s.calls ++ [{ id, externalCallId, agentId }] }
      else none
    | some c =>
      if c.externalCallId = externalCallId ∨ (s.find externalCallId).isNone then
        some (s.setCall id (Call.ingest externalCallId agentId))
      else none
  | .analyse i id findings =>
    match s.calls.find? (·.id = id), s.session i with
    | some c, none => some ((s.setCall id (Call.analyse findings)).put i (.enqueue c.externalCallId))
    | _, _ => none
  | .enqueue i =>
    match s.session i with
    | some (.enqueue call) => some { s.release i with queue := call :: s.queue }
    | _ => none
  | .upload i agentId rows =>
    match s.session i with
    | none => some (s.put i (.upload agentId rows none))
    | some _ => none
  | .matchCalls i =>
    match s.session i with
    | some (.upload agentId rows none) =>
      some (s.put i (.upload agentId rows (some (s.matched agentId (rows.map Prod.fst)))))
    | _ => none
  | .send i =>
    match s.session i with
    | some (.upload agentId rows (some (call :: unsent))) =>
      some { s.put i (.upload agentId rows (some unsent)) with queue := call :: s.queue }
    | _ => none
  | .commitUpload i =>
    match s.session i with
    | some (.upload agentId rows (some [])) => some ((s.release i).withParams agentId rows)
    | _ => none
  | .deliver i message =>
    match s.session i with
    | some _ => none
    | none =>
      if message ∉ s.queue then none
      else
        let s := { s with queue := s.queue.erase message }
        match s.find message with
        | none => some s
        | some c =>
          let row := s.judgments c.id
          let paramsRequired := c.agentId.any required
          some (s.put i (.judging message c.id row
            (judgeCall m paramsRequired (s.resolveParams c) c row)))
  | .commitJudgment i =>
    match s.session i with
    | some (.judging _ callId loaded new) =>
      match loaded, s.judgments callId with
      | none, none =>
        some { s.release i with judgments := Function.update s.judgments callId (some new) }
      | some loaded, some current => some { s.release i with
          judgments := Function.update s.judgments callId (some (flush loaded new current)) }
      -- another session has inserted the row
      | _, _ => none
    | _ => none
  | .abort i =>
    match s.session i with
    | some (.upload _ _ _) => some (s.release i)
    -- the message is not acknowledged and comes again
    | some (.judging message _ _ _) => some { s.release i with queue := message :: s.queue }
    | _ => none

def Acts (m : Models P J F) (required : String → Bool) (s : State P J F) (a : Action P)
    (t : State P J F) : Prop :=
  act m required s a = some t

end

/-! ### What a run keeps -/

section

variable {m : Models P J F} {required : String → Bool} {s t : State P J F} {i j : Nat}

lemma withParams_params {agentId agent key : String} {rows : List (String × P)}
    (h : agent = agentId → key ∉ rows.map Prod.fst) :
    (s.withParams agentId rows).params agent key = s.params agent key := by
  have hfold (params : String → String → Option P) :
      rows.foldl (putParams agentId) params agent key = params agent key := by
    induction rows generalizing params with
    | nil => rfl
    | cons row rows ih =>
      rw [List.foldl_cons, ih fun he hk => h he (List.mem_cons_of_mem _ hk), putParams]
      by_cases he : agent = agentId
      · have hne : key ≠ row.1 := fun hk => h he (hk ▸ List.mem_cons_self)
        rw [he, Function.update_self, Function.update_of_ne hne]
      · rw [Function.update_of_ne he]
  exact hfold s.params

/-- The judge will be asked for the call. -/
def Pending (s : State P J F) (externalCallId : String) : Prop :=
  externalCallId ∈ s.queue ∨ ∃ i, s.session i = some (.enqueue externalCallId)

/-- What holds between the actions of a run in which no judge reads the parameters of a call while
they are uploaded. -/
structure Inv (m : Models P J F) (s : State P J F) : Prop where
  ids : (s.calls.map Call.id).Nodup
  externals : (s.calls.map Call.externalCallId).Nodup
  /-- An upload that has a key and is past its message has left the message to the judge. -/
  sent : ∀ c ∈ s.calls, c.analysed = true → ∀ a, c.agentId = some a → ∀ i rows unsent,
    s.session i = some (.upload a rows (some unsent)) → c.externalCallId ∈ rows.map Prod.fst →
    c.externalCallId ∉ unsent → Pending s c.externalCallId
  /-- A call that the judge will not be asked for is judged with its parameters, or is being. -/
  judged : ∀ c ∈ s.calls, c.analysed = true → c.connected = true → ∀ p,
    s.resolveParams c = some p → ¬Pending s c.externalCallId →
    (∀ i message loaded new, s.session i = some (.judging message c.id loaded new) →
      new = m.judgedWith c p) ∧
    ((∀ i message loaded new, s.session i ≠ some (.judging message c.id loaded new)) →
      s.judgments c.id = some (m.judgedWith c p))
  alone : ∀ i j id message message' loaded loaded' new new',
    s.session i = some (.judging message id loaded new) →
    s.session j = some (.judging message' id loaded' new') → i = j
  current : ∀ i message id loaded new,
    s.session i = some (.judging message id loaded new) → loaded = s.judgments id
  named : ∀ i message id loaded new, s.session i = some (.judging message id loaded new) →
    ∀ c ∈ s.calls, c.id = id → c.analysed = true → message ≠ c.externalCallId →
    Pending s c.externalCallId

lemma Inv.init : Inv m {} := by
  constructor <;> simp

/-- What a step has to keep that takes no message and commits no judgment. -/
lemma Inv.of_step (h : Inv m s) (hids : (t.calls.map Call.id).Nodup)
    (hexternals : (t.calls.map Call.externalCallId).Nodup)
    (hcalls : ∀ c ∈ t.calls, c.analysed = true → c ∈ s.calls ∨ Pending t c.externalCallId)
    (hparams : ∀ c ∈ s.calls, c.analysed = true → ¬Pending t c.externalCallId →
      t.resolveParams c = s.resolveParams c)
    (hjudgments : t.judgments = s.judgments)
    (hpending : ∀ c ∈ s.calls, Pending s c.externalCallId → Pending t c.externalCallId)
    (hjudging : ∀ i message id loaded new, t.session i = some (.judging message id loaded new) ↔
      s.session i = some (.judging message id loaded new))
    (huploads : ∀ c ∈ s.calls, c.analysed = true → ∀ a, c.agentId = some a → ∀ i rows unsent,
      t.session i = some (.upload a rows (some unsent)) → c.externalCallId ∈ rows.map Prod.fst →
      c.externalCallId ∉ unsent → s.session i = some (.upload a rows (some unsent)) ∨
        Pending t c.externalCallId) : Inv m t where
  ids := hids
  externals := hexternals
  sent c hc hanalysed a ha i rows unsent hi hkey hunsent := by
    rcases hcalls c hc hanalysed with hc | hpend
    · rcases huploads c hc hanalysed a ha i rows unsent hi hkey hunsent with hi | hpend
      · exact hpending c hc (h.sent c hc hanalysed a ha i rows unsent hi hkey hunsent)
      · exact hpend
    · exact hpend
  judged c hc hanalysed hconnected p hp hpend := by
    rcases hcalls c hc hanalysed with hc | hpend'
    · have hjudged := h.judged c hc hanalysed hconnected p (hparams c hc hanalysed hpend ▸ hp)
        fun hs => hpend (hpending c hc hs)
      simpa only [hjudging, ne_eq, hjudgments] using hjudged
    · exact absurd hpend' hpend
  alone i j id message message' loaded loaded' new new' hi hj :=
    h.alone i j id message message' loaded loaded' new new' ((hjudging _ _ _ _ _).1 hi)
      ((hjudging _ _ _ _ _).1 hj)
  current i message id loaded new hi := by
    rw [hjudgments]
    exact h.current i message id loaded new ((hjudging _ _ _ _ _).1 hi)
  named i message id loaded new hi c hc hid hanalysed hne := by
    rcases hcalls c hc hanalysed with hc | hpend
    · exact hpending c hc
        (h.named i message id loaded new ((hjudging _ _ _ _ _).1 hi) c hc hid hanalysed hne)
    · exact hpend

/-! ### The steps -/

/-- No judge reads a call while its parameters are uploaded or while another one judges it, and a
slice leaves the id and the agent of a call that is analysed. -/
def Undisturbed (s : State P J F) : Action P → Prop
  | .deliver _ message => ∀ c, s.find message = some c →
    (∀ i agentId rows unsent, s.session i = some (.upload agentId rows unsent) →
      c.agentId = some agentId → c.externalCallId ∉ rows.map Prod.fst) ∧
    ∀ i other loaded new, s.session i ≠ some (.judging other c.id loaded new)
  | .ingest id externalCallId agentId => ∀ c ∈ s.calls, c.id = id → c.analysed = true →
    c.externalCallId = externalCallId ∧ c.agentId.or agentId = c.agentId
  | _ => True

lemma find_some {externalCallId : String} {c : Call} (h : s.find externalCallId = some c) :
    c ∈ s.calls ∧ c.externalCallId = externalCallId :=
  ⟨List.mem_of_find?_eq_some h, by simpa using List.find?_some h⟩

lemma find_call {id : String} {c : Call} (h : s.calls.find? (·.id = id) = some c) :
    c ∈ s.calls ∧ c.id = id :=
  ⟨List.mem_of_find?_eq_some h, by simpa using List.find?_some h⟩

lemma mem_setCall {id : String} {f : Call → Call} {c : Call} :
    c ∈ (s.setCall id f).calls ↔ ∃ d ∈ s.calls, (if d.id = id then f d else d) = c :=
  List.mem_map

lemma setCall_ids {id : String} {f : Call → Call} (hf : ∀ c, (f c).id = c.id) :
    (s.setCall id f).calls.map Call.id = s.calls.map Call.id := by
  rw [State.setCall, List.map_map]
  refine List.map_congr_left fun c _ => ?_
  rw [Function.comp_apply]
  split
  · exact hf c
  · rfl

/-- Sessions apart from one, which neither enqueues nor judges, leave what is pending. -/
lemma Pending.of_session {externalCallId : String} (h : Pending s externalCallId)
    (hqueue : ∀ x ∈ s.queue, x ∈ t.queue)
    (hsession : ∀ j, s.session j = some (.enqueue externalCallId) →
      t.session j = some (.enqueue externalCallId) ∨ externalCallId ∈ t.queue) :
    Pending t externalCallId := by
  rcases h with h | ⟨j, hj⟩
  · exact .inl (hqueue _ h)
  · rcases hsession j hj with hj | h
    · exact .inr ⟨j, hj⟩
    · exact .inl h

/-- A slice opens a call. -/
lemma Inv.addCall (h : Inv m s) {id externalCallId : String} {agentId : Option String}
    (hid : ∀ c ∈ s.calls, c.id ≠ id) (hname : ∀ c ∈ s.calls, c.externalCallId ≠ externalCallId) :
    Inv m { s with calls := s.calls ++ [{ id, externalCallId, agentId }] } := by
  refine h.of_step ?_ ?_ (fun c hc hanalysed => .inl ?_) (fun _ _ _ _ => rfl) rfl
    (fun _ _ hp => hp) (fun _ _ _ _ _ => Iff.rfl) (fun _ _ _ _ _ _ _ _ hi _ _ => .inl hi)
  · rw [List.map_append, List.map_singleton, List.nodup_append_comm]
    exact List.nodup_cons.2 ⟨by simpa using hid, h.ids⟩
  · rw [List.map_append, List.map_singleton, List.nodup_append_comm]
    exact List.nodup_cons.2 ⟨by simpa using hname, h.externals⟩
  · rcases List.mem_append.1 hc with hc | hc
    · exact hc
    · rw [List.mem_singleton.1 hc] at hanalysed
      cases hanalysed

/-- A name that no other call has keeps the names apart. -/
lemma Inv.nodup_renamed (h : Inv m s) {id externalCallId : String} {agentId : Option String}
    (hnames : ∀ d ∈ s.calls, d.id ≠ id → d.externalCallId ≠ externalCallId) :
    ((s.setCall id (Call.ingest externalCallId agentId)).calls.map Call.externalCallId).Nodup := by
  rw [State.setCall, List.map_map, List.nodup_iff_pairwise_ne, List.pairwise_map]
  have hpairs := (List.pairwise_map.1 (List.nodup_iff_pairwise_ne.1 h.ids)).and
    (List.pairwise_map.1 (List.nodup_iff_pairwise_ne.1 h.externals))
  refine hpairs.imp_of_mem fun {d e} hd he hne => ?_
  simp only [Function.comp_apply]
  by_cases hdid : d.id = id
  · have heid : ¬e.id = id := fun heid => hne.1 (hdid.trans heid.symm)
    simpa [hdid, heid, Call.ingest] using (hnames e he heid).symm
  · by_cases heid : e.id = id
    · simpa [hdid, heid, Call.ingest] using hnames d hd hdid
    · simpa [hdid, heid] using hne.2

/-- Another slice of a call that is there. -/
lemma Inv.reopen (h : Inv m s) {id externalCallId : String} {agentId : Option String}
    (hok : Undisturbed s (.ingest id externalCallId agentId : Action P))
    (hnames : ∀ d ∈ s.calls, d.id ≠ id → d.externalCallId ≠ externalCallId) :
    Inv m (s.setCall id (Call.ingest externalCallId agentId)) := by
  refine h.of_step ?_ (h.nodup_renamed hnames) (fun c hc hanalysed => .inl ?_)
    (fun _ _ _ _ => rfl) rfl (fun _ _ hp => hp) (fun _ _ _ _ _ => Iff.rfl)
    (fun _ _ _ _ _ _ _ _ hi _ _ => .inl hi)
  · rw [setCall_ids]
    exacts [h.ids, fun _ => rfl]
  · obtain ⟨d, hd, rfl⟩ := mem_setCall.1 hc
    split at hanalysed
    · next hdid =>
      obtain ⟨hext, hagent⟩ := hok d hd hdid hanalysed
      have hsame : d.ingest externalCallId agentId = d := by
        rw [Call.ingest, ← hext, hagent]
      rw [if_pos hdid, hsame]
      exact hd
    · next hdid =>
      rw [if_neg hdid]
      exact hd

variable [DecidableEq J] [DecidableEq F]

lemma Inv.ingest (h : Inv m s) {id externalCallId : String} {agentId : Option String}
    (hok : Undisturbed s (.ingest id externalCallId agentId : Action P))
    (hact : act m required s (.ingest id externalCallId agentId) = some t) : Inv m t := by
  have hfree (hnone : (s.find externalCallId).isNone = true) :
      ∀ c ∈ s.calls, c.externalCallId ≠ externalCallId := by
    simpa [State.find] using hnone
  simp only [act] at hact
  split at hact
  · next hnew =>
    split at hact
    · next hnone =>
      cases hact
      exact h.addCall (by simpa using hnew) (hfree hnone)
    · cases hact
  · next c hfind =>
    split at hact
    · next hname =>
      cases hact
      obtain ⟨hc, hid⟩ := find_call hfind
      apply h.reopen hok
      intro d hd hne he
      rcases hname with hname | hnone
      · have hsame := List.inj_on_of_nodup_map h.externals hd hc (he.trans hname.symm)
        exact hne (hsame ▸ hid)
      · exact hfree hnone d hd he
    · cases hact

lemma Inv.analyse (h : Inv m s) {id : String} {findings : Findings}
    (hact : act m required s (.analyse i id findings) = some t) : Inv m t := by
  simp only [act] at hact
  split at hact
  · next c hfind hidle =>
    cases hact
    obtain ⟨hc, hid⟩ := find_call hfind
    refine h.of_step ?_ ?_ (fun e he hanalysed => ?_) (fun _ _ _ _ => rfl) rfl
      (fun d _ hp => hp.of_session (fun _ hx => hx) fun j hj => .inl ?_)
      (fun _ _ _ _ _ => session_iff (by simp [State.setCall, hidle]) (by simp))
      (fun _ _ _ _ _ _ _ _ hj _ _ =>
        .inl ((session_iff (by simp [hidle]) (by simp)).1 hj))
    · change ((s.setCall id (Call.analyse findings)).calls.map Call.id).Nodup
      rw [setCall_ids]
      exacts [h.ids, fun _ => rfl]
    · have hnames : (s.setCall id (Call.analyse findings)).calls.map Call.externalCallId =
          s.calls.map Call.externalCallId := by
        rw [State.setCall, List.map_map]
        refine List.map_congr_left fun d _ => ?_
        rw [Function.comp_apply]
        split <;> rfl
      exact hnames ▸ h.externals
    · obtain ⟨d, hd, rfl⟩ := mem_setCall.1 he
      split
      · next hdid =>
        have hsame : d = c := List.inj_on_of_nodup_map h.ids hd hc (hdid.trans hid.symm)
        exact .inr (.inr ⟨i, hsame ▸ Function.update_self _ _ _⟩)
      · exact .inl hd
    · rcases eq_or_ne j i with rfl | hji
      · rw [hidle] at hj
        cases hj
      · exact (Function.update_of_ne hji _ _).trans hj
  · cases hact

lemma Inv.enqueue (h : Inv m s) (hact : act m required s (.enqueue i) = some t) : Inv m t := by
  simp only [act] at hact
  split at hact
  · next call hi =>
    cases hact
    refine h.of_step h.ids h.externals (fun _ hc _ => .inl hc) (fun _ _ _ _ => rfl) rfl
      (fun d _ hp => hp.of_session (fun _ hx => List.mem_cons_of_mem _ hx) fun j hj => ?_)
      (fun _ _ _ _ _ => session_iff (by simp [hi]) (by simp))
      (fun _ _ _ _ _ _ _ _ hj _ _ => .inl ((session_iff (by simp [hi]) (by simp)).1 hj))
    rcases eq_or_ne j i with rfl | hji
    · rw [hi] at hj
      cases hj
      exact .inr List.mem_cons_self
    · exact .inl ((Function.update_of_ne hji _ _).trans hj)
  · cases hact

lemma Inv.upload (h : Inv m s) {agentId : String} {rows : List (String × P)}
    (hact : act m required s (.upload i agentId rows) = some t) : Inv m t := by
  simp only [act] at hact
  split at hact
  · next hidle =>
    cases hact
    exact h.of_step h.ids h.externals (fun _ hc _ => .inl hc) (fun _ _ _ _ => rfl) rfl
      (fun _ _ hp => hp.of_session (fun _ hx => hx)
        fun _ hj => .inl ((session_iff (by simp [hidle]) (by simp)).2 hj))
      (fun _ _ _ _ _ => session_iff (by simp [hidle]) (by simp))
      (fun _ _ _ _ _ _ _ _ hj _ _ => .inl ((session_iff (by simp [hidle]) (by simp)).1 hj))
  · cases hact

omit [DecidableEq J] [DecidableEq F] in
/-- The calls that an upload matches are those of its keys that the agent has. -/
lemma mem_matched (h : Inv m s) {c : Call} (hc : c ∈ s.calls) {agentId : String}
    (hagent : c.agentId = some agentId) {keys : List String} (hkey : c.externalCallId ∈ keys) :
    c.externalCallId ∈ s.matched agentId keys := by
  have hfind : s.find c.externalCallId = some c := Lib.find?_key h.externals hc
  refine List.mem_filter.2 ⟨List.mem_eraseDups.2 hkey, ?_⟩
  simp [hfind, hagent]

lemma Inv.matchCalls (h : Inv m s) (hact : act m required s (.matchCalls i) = some t) :
    Inv m t := by
  simp only [act] at hact
  split at hact
  · next agentId rows hi =>
    cases hact
    refine h.of_step h.ids h.externals (fun _ hc _ => .inl hc) (fun _ _ _ _ => rfl) rfl
      (fun _ _ hp => hp.of_session (fun _ hx => hx)
        fun _ hj => .inl ((session_iff (by simp [hi]) (by simp)).2 hj))
      (fun _ _ _ _ _ => session_iff (by simp [hi]) (by simp))
      (fun c hc _ a ha j rows' unsent hj hkey hunsent => ?_)
    rcases session_cases hj with ⟨-, hnew⟩ | ⟨-, hj⟩
    · cases hnew
      exact absurd (mem_matched h hc ha hkey) hunsent
    · exact .inl hj
  · cases hact

lemma Inv.send (h : Inv m s) (hact : act m required s (.send i) = some t) : Inv m t := by
  simp only [act] at hact
  split at hact
  · next agentId rows call unsent hi =>
    cases hact
    have hpending {externalCallId : String} (hp : Pending s externalCallId) :
        Pending { s.put i (.upload agentId rows (some unsent)) with queue := call :: s.queue }
          externalCallId :=
      hp.of_session (fun _ hx => List.mem_cons_of_mem _ hx)
        fun _ hj => .inl ((session_iff (by simp [hi]) (by simp)).2 hj)
    refine h.of_step h.ids h.externals (fun _ hc _ => .inl hc) (fun _ _ _ _ => rfl) rfl
      (fun _ _ hp => hpending hp) (fun _ _ _ _ _ => session_iff (by simp [hi]) (by simp))
      (fun c hc hanalysed a ha j rows' unsent' hj hkey hunsent => ?_)
    rcases session_cases hj with ⟨-, hnew⟩ | ⟨-, hj⟩
    · cases hnew
      -- the message of the call is the one that is sent, or was sent before
      refine .inr ?_
      by_cases hcall : c.externalCallId = call
      · exact .inl (hcall ▸ List.mem_cons_self)
      · exact hpending (h.sent c hc hanalysed agentId ha i rows _ hi hkey (by simp [hcall, hunsent]))
    · exact .inl hj
  · cases hact

lemma Inv.commitUpload (h : Inv m s) (hact : act m required s (.commitUpload i) = some t) :
    Inv m t := by
  simp only [act] at hact
  split at hact
  · next agentId rows hi =>
    cases hact
    have hpending {externalCallId : String} (hp : Pending s externalCallId) :
        Pending ((s.release i).withParams agentId rows) externalCallId :=
      hp.of_session (fun _ hx => hx) fun _ hj => .inl ((session_iff (by simp [hi]) (by simp)).2 hj)
    refine h.of_step h.ids h.externals (fun _ hc _ => .inl hc) (fun c hc hanalysed hpend => ?_) rfl
      (fun _ _ hp => hpending hp) (fun _ _ _ _ _ => session_iff (by simp [hi]) (by simp))
      (fun _ _ _ _ _ _ _ _ hj _ _ => .inl ?_)
    · cases hagent : c.agentId with
      | none => simp [State.resolveParams, hagent]
      | some a =>
        simp only [State.resolveParams, hagent, Option.bind_some]
        refine withParams_params fun ha hkey => hpend (hpending ?_)
        subst ha
        exact h.sent c hc hanalysed a hagent i rows [] hi hkey (by simp)
    · rcases session_cases hj with ⟨-, hnew⟩ | ⟨-, hj⟩
      · cases hnew
      · exact hj
  · cases hact

omit [DecidableEq J] [DecidableEq F] in
/-- The message of a call is taken and the call is judged with the parameters that are there. -/
lemma Inv.take (h : Inv m s) {c : Call} (hc : c ∈ s.calls) (hidle : s.session i = none)
    (huploads : ∀ i agentId rows unsent, s.session i = some (.upload agentId rows unsent) →
      c.agentId = some agentId → c.externalCallId ∉ rows.map Prod.fst)
    (hjudging : ∀ i message loaded new, s.session i ≠ some (.judging message c.id loaded new))
    {new : Judgment J F}
    (hnew : c.connected = true → ∀ p, s.resolveParams c = some p → new = m.judgedWith c p) :
    Inv m ({ s with queue := s.queue.erase c.externalCallId }.put i
      (.judging c.externalCallId c.id (s.judgments c.id) new)) := by
  have hsame {d : Call} (hd : d ∈ s.calls) (he : d.id = c.id) : d = c :=
    List.inj_on_of_nodup_map h.ids hd hc he
  -- the other calls are as pending as before
  have hpending {d : Call} (hd : d ∈ s.calls) (hne : d ≠ c) (hp : Pending s d.externalCallId) :
      Pending ({ s with queue := s.queue.erase c.externalCallId }.put i
        (.judging c.externalCallId c.id (s.judgments c.id) new)) d.externalCallId := by
    have hother : d.externalCallId ≠ c.externalCallId := fun he =>
      hne (List.inj_on_of_nodup_map h.externals hd hc he)
    rcases hp with hp | ⟨j, hj⟩
    · exact .inl ((List.mem_erase_of_ne hother).2 hp)
    · exact .inr ⟨j, (session_iff (by simp [hidle]) (by simp)).2 hj⟩
  exact {
    ids := h.ids
    externals := h.externals
    sent := by
      intro d hd hanalysed a ha j rows unsent hj hkey hunsent
      have hj := (session_iff (by simp [hidle]) (by simp)).1 hj
      by_cases hdc : d = c
      · subst hdc
        exact absurd hkey (huploads j a rows _ hj ha)
      · exact hpending hd hdc (h.sent d hd hanalysed a ha j rows unsent hj hkey hunsent)
    judged := by
      intro d hd hanalysed hconnected p hp hpend
      by_cases hdc : d = c
      · subst hdc
        refine ⟨fun j message loaded new' hj => ?_, fun hnone => ?_⟩
        · rcases session_cases hj with ⟨-, heq⟩ | ⟨-, hj⟩
          · cases heq
            exact hnew hconnected p hp
          · exact absurd hj (hjudging j message loaded new')
        · exact absurd (Function.update_self _ _ _) (hnone i _ _ _)
      · have hjudged := h.judged d hd hanalysed hconnected p hp fun hs => hpend (hpending hd hdc hs)
        refine ⟨fun j message loaded new' hj => ?_, fun hnone => hjudged.2 fun j _ _ _ hj => ?_⟩
        · rcases session_cases hj with ⟨-, heq⟩ | ⟨-, hj⟩
          · simp only [Option.some.injEq, Tx.judging.injEq] at heq
            exact absurd (hsame hd heq.2.1.symm) hdc
          · exact hjudged.1 j message loaded new' hj
        · rcases eq_or_ne j i with rfl | hji
          · rw [hidle] at hj
            cases hj
          · exact hnone j _ _ _ ((Function.update_of_ne hji _ _).trans hj)
    alone := by
      intro j k id message message' loaded loaded' new₁ new₂ hj hk
      rcases session_cases hj with ⟨hji, heq⟩ | ⟨-, hj₀⟩
      · rcases session_cases hk with ⟨hki, -⟩ | ⟨-, hk₀⟩
        · exact hji.trans hki.symm
        · cases heq
          exact absurd hk₀ (hjudging k _ _ _)
      · rcases session_cases hk with ⟨-, heq⟩ | ⟨-, hk₀⟩
        · cases heq
          exact absurd hj₀ (hjudging j _ _ _)
        · exact h.alone j k id _ _ _ _ _ _ hj₀ hk₀
    current := by
      intro j message id loaded new' hj
      rcases session_cases hj with ⟨-, heq⟩ | ⟨-, hj⟩
      · cases heq
        rfl
      · exact h.current j message id loaded new' hj
    named := by
      intro j message id loaded new' hj d hd hid hanalysed hne
      rcases session_cases hj with ⟨-, heq⟩ | ⟨-, hj⟩
      · cases heq
        exact absurd (congrArg Call.externalCallId (hsame hd hid)).symm hne
      · by_cases hdc : d = c
        · subst hdc
          subst hid
          exact absurd hj (hjudging j _ _ _)
        · exact hpending hd hdc (h.named j message id loaded new' hj d hd hid hanalysed hne) }

lemma Inv.deliver (h : Inv m s) {message : String}
    (hok : Undisturbed s (.deliver i message : Action P))
    (hact : act m required s (.deliver i message) = some t) : Inv m t := by
  simp only [act] at hact
  split at hact
  · cases hact
  · next hidle =>
    split at hact
    · cases hact
    · split at hact
      · next hnone =>
        cases hact
        have hnames : ∀ c ∈ s.calls, c.externalCallId ≠ message := by
          simpa [State.find] using hnone
        refine h.of_step h.ids h.externals (fun _ hc _ => .inl hc) (fun _ _ _ _ => rfl) rfl
          (fun c hc hp => ?_) (fun _ _ _ _ _ => Iff.rfl)
          (fun _ _ _ _ _ _ _ _ hj _ _ => .inl hj)
        exact hp.imp_left (List.mem_erase_of_ne (hnames c hc)).2
      · next c hfind =>
        cases hact
        obtain ⟨hc, rfl⟩ := find_some (s := s) hfind
        obtain ⟨huploads, hjudging⟩ := hok c hfind
        refine h.take hc hidle huploads hjudging fun hconnected p hp => ?_
        have hparams : State.resolveParams { s with queue := s.queue.erase c.externalCallId } c =
          some p := hp
        rw [hparams]
        exact judgeCall_of_params hconnected _ p _

lemma flush_self (loaded new : Judgment J F) : flush loaded new loaded = new := by
  simp only [flush]
  cases new
  simp only [Judgment.mk.injEq]
  refine ⟨?_, ?_, ?_, ?_, ?_, ?_⟩ <;> split <;> simp_all

omit [DecidableEq J] [DecidableEq F] in
/-- A judge that is alone with a call writes what it made of it. -/
lemma Inv.settle (h : Inv m s) {message id : String} {loaded : Option (Judgment J F)}
    {new : Judgment J F} (hi : s.session i = some (.judging message id loaded new)) :
    Inv m { s.release i with judgments := Function.update s.judgments id (some new) } := by
  have hpending (externalCallId : String) :
      Pending { s.release i with judgments := Function.update s.judgments id (some new) }
        externalCallId ↔ Pending s externalCallId :=
    or_congr_right (exists_congr fun j => session_iff (by simp [hi]) (by simp))
  have hbefore {j : Nat} {tx : Tx P J F} (hj : (s.release i).session j = some tx) :
      j ≠ i ∧ s.session j = some tx := by
    rcases session_cases hj with ⟨-, heq⟩ | hj
    · cases heq
    · exact hj
  exact {
    ids := h.ids
    externals := h.externals
    sent := by
      intro c hc hanalysed a ha j rows unsent hj hkey hunsent
      exact (hpending _).2 (h.sent c hc hanalysed a ha j rows unsent (hbefore hj).2 hkey hunsent)
    judged := by
      intro c hc hanalysed hconnected p hp hpend
      have hjudged := h.judged c hc hanalysed hconnected p hp fun hs => hpend ((hpending _).2 hs)
      refine ⟨fun j message loaded new' hj => hjudged.1 j message loaded new' (hbefore hj).2,
        fun hnone => ?_⟩
      rcases eq_or_ne c.id id with rfl | hid
      · rw [hjudged.1 i message loaded new hi]
        exact Function.update_self _ _ _
      · refine (Function.update_of_ne hid _ _).trans (hjudged.2 fun j message' loaded' new' hj => ?_)
        rcases eq_or_ne j i with rfl | hji
        · rw [hi] at hj
          cases hj
          exact hid rfl
        · exact hnone j message' loaded' new' ((Function.update_of_ne hji _ _).trans hj)
    alone := by
      intro j k id _ _ _ _ _ _ hj hk
      exact h.alone j k id _ _ _ _ _ _ (hbefore hj).2 (hbefore hk).2
    current := by
      intro j message' id' loaded' new' hj
      obtain ⟨hji, hj⟩ := hbefore hj
      have hid : id' ≠ id := fun he => hji (h.alone j i id' _ _ _ _ _ _ hj (he ▸ hi))
      exact (h.current j message' id' loaded' new' hj).trans (Function.update_of_ne hid _ _).symm
    named := by
      intro j message' id' loaded' new' hj c hc hid hanalysed hne
      exact (hpending _).2
        (h.named j message' id' loaded' new' (hbefore hj).2 c hc hid hanalysed hne) }

lemma Inv.commitJudgment (h : Inv m s) (hact : act m required s (.commitJudgment i) = some t) :
    Inv m t := by
  simp only [act] at hact
  split at hact
  · next message id loaded new hi =>
    have hcurrent := h.current i message id loaded new hi
    split at hact
    · cases hact
      exact h.settle hi
    · next loaded' current hrow =>
      cases hact
      obtain rfl : loaded' = current := Option.some.inj (hcurrent.trans hrow)
      rw [flush_self]
      exact h.settle hi
    · cases hact
  · cases hact

lemma Inv.abort (h : Inv m s) (hact : act m required s (.abort i) = some t) : Inv m t := by
  simp only [act] at hact
  split at hact
  · next agentId rows unsent hi =>
    cases hact
    refine h.of_step h.ids h.externals (fun _ hc _ => .inl hc) (fun _ _ _ _ => rfl) rfl
      (fun _ _ hp => hp.of_session (fun _ hx => hx)
        fun _ hj => .inl ((session_iff (by simp [hi]) (by simp)).2 hj))
      (fun _ _ _ _ _ => session_iff (by simp [hi]) (by simp))
      (fun _ _ _ _ _ _ _ _ hj _ _ => .inl ?_)
    rcases session_cases hj with ⟨-, heq⟩ | ⟨-, hj⟩
    · cases heq
    · exact hj
  · next message id loaded new hi =>
    cases hact
    have hpending {externalCallId : String} (hp : Pending s externalCallId) :
        Pending { s.release i with queue := message :: s.queue } externalCallId :=
      hp.of_session (fun _ hx => List.mem_cons_of_mem _ hx)
        fun _ hj => .inl ((session_iff (by simp [hi]) (by simp)).2 hj)
    have hbefore {j : Nat} {tx : Tx P J F} (hj : (s.release i).session j = some tx) :
        j ≠ i ∧ s.session j = some tx := by
      rcases session_cases hj with ⟨-, heq⟩ | hj
      · cases heq
      · exact hj
    exact {
      ids := h.ids
      externals := h.externals
      sent := by
        intro c hc hanalysed a ha j rows unsent hj hkey hunsent
        exact hpending (h.sent c hc hanalysed a ha j rows unsent (hbefore hj).2 hkey hunsent)
      judged := by
        intro c hc hanalysed hconnected p hp hpend
        have hjudged := h.judged c hc hanalysed hconnected p hp fun hs => hpend (hpending hs)
        refine ⟨fun j message loaded new' hj => hjudged.1 j message loaded new' (hbefore hj).2,
          fun hnone => hjudged.2 fun j message' loaded' new' hj => ?_⟩
        rcases eq_or_ne j i with rfl | hji
        · rw [hi] at hj
          cases hj
          -- the message that comes again is the call's, or the call has another one
          by_cases hname : message = c.externalCallId
          · exact hpend (.inl (hname ▸ List.mem_cons_self))
          · exact hpend (hpending (h.named j message c.id _ _ hi c hc rfl hanalysed hname))
        · exact hnone j message' loaded' new' ((Function.update_of_ne hji _ _).trans hj)
      alone := by
        intro j k id _ _ _ _ _ _ hj hk
        exact h.alone j k id _ _ _ _ _ _ (hbefore hj).2 (hbefore hk).2
      current := fun j message' id' loaded' new' hj =>
        h.current j message' id' loaded' new' (hbefore hj).2
      named := by
        intro j message' id' loaded' new' hj c hc hid hanalysed hne
        exact hpending (h.named j message' id' loaded' new' (hbefore hj).2 c hc hid hanalysed hne) }
  · cases hact

lemma Inv.act {a : Action P} (h : Inv m s) (hok : Undisturbed s a)
    (hact : Acts m required s a t) : Inv m t := by
  cases a with
  | ingest => exact h.ingest hok hact
  | analyse => exact h.analyse hact
  | enqueue => exact h.enqueue hact
  | upload => exact h.upload hact
  | matchCalls => exact h.matchCalls hact
  | send => exact h.send hact
  | commitUpload => exact h.commitUpload hact
  | deliver => exact h.deliver hok hact
  | commitJudgment => exact h.commitJudgment hact
  | abort => exact h.abort hact

/-- All transactions have ended and the judge queue is empty. -/
def Settled (s : State P J F) : Prop :=
  s.queue = [] ∧ ∀ i, s.session i = none

/-- When a run in which no judge is disturbed has settled, every connected call that is analysed and
has parameters is judged with them. -/
theorem params_judged {as : List (Action P)}
    (hrun : Run (guarded (Acts m required) Undisturbed) {} as s) (hsettled : Settled s) {c : Call}
    (hc : c ∈ s.calls) (hanalysed : c.analysed = true) (hconnected : c.connected = true) {p : P}
    (hp : s.resolveParams c = some p) :
    ∃ j, s.judgments c.id = some j ∧ j = m.judgedWith c p ∧ ¬j.Gated := by
  have hinv : Inv m s := hrun.invariant_guarded (fun _ _ _ h hok hact => h.act hok hact) .init
  obtain ⟨hqueue, hidle⟩ := hsettled
  have hpending : ¬Pending s c.externalCallId := by simp [Pending, hqueue, hidle]
  have hjudged := (hinv.judged c hc hanalysed hconnected p hp hpending).2 (by simp [hidle])
  exact ⟨_, hjudged, rfl, not_gated_judgedWith m c p⟩

omit [DecidableEq J] [DecidableEq F] in
lemma undisturbed_of_idle {message : String} (h : ∀ i, s.session i = none) :
    Undisturbed s (.deliver i message : Action P) := by
  intro c _
  simp [h]

/-- A judge that has nothing to say. -/
def plainModels : Models Unit Unit Unit where
  judge _ _ := .ok "judge" { objectiveAchieved := none, guardrailViolation := none, others := () }
  failure _ _ := none
  failureDefault := ()

def heard : Findings where
  transcript := { lines := [{ role := "caller", text := "hello" }] }
  hangupBy := none
  durationS := some 4
  status := "ready"

/-- A call is ingested, analysed and judged without parameters. -/
def unanswered : List (Action Unit) :=
  [.ingest "k1" "c1" (some "a"), .analyse 0 "k1" heard, .enqueue 0, .deliver 1 "c1",
    .commitJudgment 1]

/-- An upload that is committed before the judge takes its message. -/
def uploadFirst : List (Action Unit) :=
  unanswered ++ [.upload 2 "a" [("c1", ())], .matchCalls 2, .send 2, .commitUpload 2,
    .deliver 1 "c1", .commitJudgment 1]

/-- The judge takes the message of an upload before the upload is committed. -/
def messageFirst : List (Action Unit) :=
  unanswered ++ [.upload 2 "a" [("c1", ())], .matchCalls 2, .send 2, .deliver 1 "c1",
    .commitJudgment 1, .commitUpload 2]

/-- The state after the actions, with agents that require parameters. -/
def after (as : List (Action Unit)) : State Unit Unit Unit :=
  (as.foldlM (act plainModels fun _ => true) {}).getD {}

/-- A call is not judged with its parameters when its judge reads before the upload commits. -/
theorem messageFirst_gated :
    ¬∀ (as : List (Action Unit)) (s : State Unit Unit Unit),
      Run (Acts plainModels fun _ => true) {} as s → Settled s →
        ∀ c ∈ s.calls, c.analysed = true → c.connected = true → ∀ p, s.resolveParams c = some p →
          ∃ j, s.judgments c.id = some j ∧ ¬j.Gated := by
  intro hall
  have hidle (i : Nat) : (after messageFirst).session i = none := by
    rcases i with _ | _ | _ | i <;> rfl
  obtain ⟨j, hj, hopen⟩ := hall messageFirst (after messageFirst) (Lib.run_of_foldlM rfl)
    ⟨rfl, hidle⟩ _ List.mem_cons_self rfl (by decide +kernel) () rfl
  obtain rfl := Option.some.inj hj
  exact hopen ⟨rfl, rfl⟩

/-- The same upload with its message taken after the commit. -/
theorem params_judged_uploadFirst :
    ∃ j, (after uploadFirst).judgments "k1" = some j ∧ ¬j.Gated := by
  have hidle (s : State Unit Unit Unit) (hs : s = after unanswered.dropLast.dropLast ∨
      s = after uploadFirst.dropLast.dropLast ∨ s = after uploadFirst) (i : Nat) :
      s.session i = none := by
    rcases hs with rfl | rfl | rfl <;> rcases i with _ | _ | _ | i <;> rfl
  have hrun : Run (guarded (Acts plainModels fun _ => true) Undisturbed) {} uploadFirst
      (after uploadFirst) := by
    refine .cons ⟨rfl, by simp [Undisturbed]⟩ ?_
    refine .cons ⟨rfl, trivial⟩ (.cons ⟨rfl, trivial⟩ ?_)
    refine .cons ⟨rfl, undisturbed_of_idle (hidle _ (.inl rfl))⟩ (.cons ⟨rfl, trivial⟩ ?_)
    refine .cons ⟨rfl, trivial⟩ (.cons ⟨rfl, trivial⟩ (.cons ⟨rfl, trivial⟩ ?_))
    refine .cons ⟨rfl, trivial⟩ ?_
    refine .cons ⟨rfl, undisturbed_of_idle (hidle _ (.inr (.inl rfl)))⟩ (.cons ⟨rfl, trivial⟩ ?_)
    exact .nil _
  obtain ⟨j, hj, -, hopen⟩ := params_judged hrun ⟨rfl, hidle _ (.inr (.inr rfl))⟩
    List.mem_cons_self rfl (by decide +kernel) (p := ()) rfl
  exact ⟨j, hj, hopen⟩

end

end Pulse.Judge
