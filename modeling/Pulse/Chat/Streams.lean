import Pulse.Lib.Lists
import Pulse.Lib.Run
import Pulse.Lib.Sessions

/-!
# Concurrent chat streams

`_run` of `api/chat.py` and of `api/call_chat.py`, with `_thread` and the reads of a thread, as
transactions under READ COMMITTED, one action a statement. A stream numbers its two messages once
and stores the second one long after the first is committed.
-/

namespace Pulse.Chat.Streams

open Lib (CountsUp Shared)

/-- A row of `Conversation`, by whose it is. -/
structure Conversation where
  id : String
  callId : Option String
  createdBy : String
  deriving DecidableEq

structure ChatMessage where
  conversationId : String
  seq : Nat
  role : String
  content : String
  steps : Option (List String) := none
  deriving DecidableEq

/-- The unique key of a message. -/
def ChatMessage.key (m : ChatMessage) : String × Nat := (m.conversationId, m.seq)

/-- A text with the number of its message and the reply that was streamed for it. -/
structure Exchange where
  conversationId : String
  seq : Nat
  text : String
  content : String
  steps : List String
  deriving DecidableEq

namespace Exchange

variable (e : Exchange)

def key : String × Nat := (e.conversationId, e.seq)

def user : ChatMessage :=
  { conversationId := e.conversationId, seq := e.seq, role := "user", content := e.text }

def reply : ChatMessage where
  conversationId := e.conversationId
  seq := e.seq + 1
  role := "assistant"
  content := e.content
  steps := if e.steps.isEmpty then none else some e.steps

end Exchange

/-- The committed rows. Beside them the run's history: the exchanges of the streams that have ended
once their reply was streamed to completion. -/
structure Rows where
  conversations : List Conversation := []
  messages : List ChatMessage := []
  answered : List Exchange := []

namespace Rows

variable (s : Rows)

def addConversation (new : Option Conversation) : Rows :=
  { s with conversations := s.conversations ++ new.toList }

def addMessage (m : ChatMessage) : Rows := { s with messages := s.messages ++ [m] }

def addAnswered (e : Exchange) : Rows := { s with answered := s.answered ++ [e] }

def ofConversation (conversationId : String) : List ChatMessage :=
  s.messages.filter (·.conversationId = conversationId)

/-- The messages as the model is given them. -/
def history (conversationId : String) : List (String × String) :=
  (Lib.sorted (fun a b => decide (a.seq < b.seq)) (s.ofConversation conversationId)).map fun m =>
    (m.role, m.content)

/-- `max(ChatMessage.seq) or 0` -/
def last (conversationId : String) : Nat :=
  ((s.ofConversation conversationId).map ChatMessage.seq).max?.getD 0

/-- `_thread`: the thread with the key is one of the caller's for the call, or it is new. -/
def thread (callId userId id : String) : Option (Option Conversation) :=
  let threads := s.conversations.filter fun c => c.callId = some callId ∧ c.createdBy = userId
  if threads.isEmpty then some (some { id, callId := some callId, createdBy := userId })
  else if threads.any (·.id = id) then some none
  else none

end Rows

/-- A stream with its conversation, which may be new, and the user's text. -/
structure Stream where
  conversationId : String
  new : Option Conversation
  text : String

/-- The message of the user. -/
def Stream.user (w : Stream) (nxt : Nat) : ChatMessage :=
  { conversationId := w.conversationId, seq := nxt, role := "user", content := w.text }

def Stream.exchange (w : Stream) (nxt : Nat) (content : String) (steps : List String) : Exchange :=
  { conversationId := w.conversationId, seq := nxt, text := w.text, content, steps }

/-- How far a session is. -/
inductive Tx
  /-- A read of a thread. -/
  | reading (new : Option Conversation)
  | opened (w : Stream)
  | read (w : Stream) (history : List (String × String))
  | numbered (w : Stream) (history : List (String × String)) (nxt : Nat)
  /-- The user's message is inserted. -/
  | inserted (w : Stream) (history : List (String × String)) (nxt : Nat)
  /-- The user's message is committed and the model runs. -/
  | streaming (w : Stream) (history : List (String × String)) (nxt : Nat)
  /-- The reply is streamed to completion. -/
  | completed (e : Exchange)
  /-- The reply is inserted. -/
  | replied (e : Exchange)

abbrev Tables := Shared Rows Tx (String × Nat)

def start : Tables := { store := {} }

inductive Action
  /-- `create_conversation` -/
  | create (id userId : String)
  /-- A read of a call's thread. -/
  | startRead (i : Nat) (callId userId id : String)
  | endRead (i : Nat)
  /-- A stream of a global conversation, once `_conv` has found it. -/
  | openGlobal (i : Nat) (conversationId userId text : String)
  | openCall (i : Nat) (callId userId id text : String)
  | readHistory (i : Nat)
  | readMax (i : Nat)
  | insertUser (i : Nat)
  | commitUser (i : Nat)
  | complete (i : Nat) (content : String) (steps : List String)
  | insertReply (i : Nat)
  | commitReply (i : Nat)
  | fail (i : Nat)

/-- The tables after an action, if the session can take it now. -/
def act (s : Tables) : Action → Option Tables
  | .create id userId =>
    some { s with store := s.store.addConversation (some { id, callId := none, createdBy := userId }) }
  | .startRead i callId userId id =>
    match s.session i with
    | none => (s.store.thread callId userId id).map fun new => s.put i (.reading new)
    | some _ => none
  | .endRead i =>
    match s.session i with
    | some (.reading new) => some (s.commit i (s.store.addConversation new))
    | _ => none
  | .openGlobal i conversationId userId text =>
    match s.session i with
    | none =>
      if s.store.conversations.any fun c => c.id = conversationId ∧ c.createdBy = userId then
        some (s.put i (.opened { conversationId, new := none, text }))
      else none
    | some _ => none
  | .openCall i callId userId id text =>
    match s.session i with
    | none => (s.store.thread callId userId id).map fun new =>
        s.put i (.opened { conversationId := id, new, text })
    | some _ => none
  | .readHistory i =>
    match s.session i with
    | some (.opened w) => some (s.put i (.read w (s.store.history w.conversationId)))
    | _ => none
  | .readMax i =>
    match s.session i with
    | some (.read w history) =>
      some (s.put i (.numbered w history (s.store.last w.conversationId + 1)))
    | _ => none
  | .insertUser i =>
    match s.session i with
    | some (.numbered w history nxt) =>
      -- another stream has committed the number since: the stream ends with an error
      if (s.store.messages.map ChatMessage.key).contains (w.conversationId, nxt) then
        some (s.release i)
      else if (s.holder (w.conversationId, nxt)).isNone then
        some ((s.lock i (w.conversationId, nxt)).put i (.inserted w history nxt))
      else none
    | _ => none
  | .commitUser i =>
    match s.session i with
    | some (.inserted w history nxt) =>
      let store := (s.store.addConversation w.new).addMessage (w.user nxt)
      some ((s.commit i store).put i (.streaming w history nxt))
    | _ => none
  | .complete i content steps =>
    match s.session i with
    | some (.streaming w _ nxt) => some (s.put i (.completed (w.exchange nxt content steps)))
    | _ => none
  | .insertReply i =>
    match s.session i with
    | some (.completed e) =>
      -- the stream ends with an error and without its reply
      if (s.store.messages.map ChatMessage.key).contains e.reply.key then
        some (s.commit i (s.store.addAnswered e))
      else if (s.holder e.reply.key).isNone then
        some ((s.lock i e.reply.key).put i (.replied e))
      else none
    | _ => none
  | .commitReply i =>
    match s.session i with
    | some (.replied e) => some (s.commit i ((s.store.addMessage e.reply).addAnswered e))
    | _ => none
  | .fail i =>
    match s.session i with
    | none | some (.completed _) | some (.replied _) => none
    | some _ => some (s.release i)

/-! ### What a step does -/

/-- The branches of `act`, with the guards that the invariants rest on. -/
inductive Step (s : Tables) : Action → Tables → Prop
  | create {id userId : String} : Step s (.create id userId)
      { s with
        store := s.store.addConversation (some { id, callId := none, createdBy := userId }) }
  | startRead {i : Nat} {callId userId id : String} {new : Option Conversation} :
      Step s (.startRead i callId userId id) (s.put i (.reading new))
  | endRead {i : Nat} {new : Option Conversation} :
      Step s (.endRead i) (s.commit i (s.store.addConversation new))
  | openGlobal {i : Nat} {conversationId userId text : String} {w : Stream} :
      Step s (.openGlobal i conversationId userId text) (s.put i (.opened w))
  | openCall {i : Nat} {callId userId id text : String} {w : Stream} :
      Step s (.openCall i callId userId id text) (s.put i (.opened w))
  | readHistory {i : Nat} {w : Stream} {history : List (String × String)} :
      Step s (.readHistory i) (s.put i (.read w history))
  | readMax {i : Nat} {w : Stream} {history : List (String × String)} :
      Step s (.readMax i) (s.put i (.numbered w history (s.store.last w.conversationId + 1)))
  | overtaken {i : Nat} : Step s (.insertUser i) (s.release i)
  | insertUser {i : Nat} {w : Stream} {history : List (String × String)} {nxt : Nat} :
      s.session i = some (.numbered w history nxt) →
      (w.conversationId, nxt) ∉ s.store.messages.map ChatMessage.key →
      (s.holder (w.conversationId, nxt)).isNone = true →
      Step s (.insertUser i) ((s.lock i (w.conversationId, nxt)).put i (.inserted w history nxt))
  | commitUser {i : Nat} {w : Stream} {history : List (String × String)} {nxt : Nat} :
      s.session i = some (.inserted w history nxt) →
      Step s (.commitUser i) ((s.commit i ((s.store.addConversation w.new).addMessage
        (w.user nxt))).put i (.streaming w history nxt))
  | complete {i : Nat} {content : String} {steps : List String} {w : Stream}
      {history : List (String × String)} {nxt : Nat} :
      s.session i = some (.streaming w history nxt) →
      Step s (.complete i content steps) (s.put i (.completed (w.exchange nxt content steps)))
  | lose {i : Nat} {e : Exchange} : s.session i = some (.completed e) →
      e.reply.key ∈ s.store.messages.map ChatMessage.key →
      Step s (.insertReply i) (s.commit i (s.store.addAnswered e))
  | insertReply {i : Nat} {e : Exchange} : s.session i = some (.completed e) →
      e.reply.key ∉ s.store.messages.map ChatMessage.key →
      (s.holder e.reply.key).isNone = true →
      Step s (.insertReply i) ((s.lock i e.reply.key).put i (.replied e))
  | commitReply {i : Nat} {e : Exchange} : s.session i = some (.replied e) →
      Step s (.commitReply i) (s.commit i ((s.store.addMessage e.reply).addAnswered e))
  | fail {i : Nat} : Step s (.fail i) (s.release i)

lemma act_step {s t : Tables} {a : Action} (hact : act s a = some t) : Step s a t := by
  cases a with
  | create id userId =>
    cases hact
    exact .create
  | startRead i callId userId id =>
    simp only [act] at hact
    split at hact
    · obtain ⟨new, -, rfl⟩ := Option.map_eq_some_iff.1 hact
      exact .startRead
    · cases hact
  | openCall i callId userId id text =>
    simp only [act] at hact
    split at hact
    · obtain ⟨new, -, rfl⟩ := Option.map_eq_some_iff.1 hact
      exact .openCall
    · cases hact
  | openGlobal i conversationId userId text =>
    simp only [act] at hact
    split at hact
    · split at hact
      · cases hact
        exact .openGlobal
      · cases hact
    · cases hact
  | endRead i =>
    simp only [act] at hact
    split at hact
    · cases hact
      exact .endRead
    · cases hact
  | readHistory i =>
    simp only [act] at hact
    split at hact
    · cases hact
      exact .readHistory
    · cases hact
  | readMax i =>
    simp only [act] at hact
    split at hact
    · cases hact
      exact .readMax
    · cases hact
  | insertUser i =>
    simp only [act, List.contains_iff_mem] at hact
    split at hact
    · next hi =>
      split at hact
      · cases hact
        exact .overtaken
      · next hnew =>
        split at hact
        · next hfree =>
          cases hact
          exact .insertUser hi hnew hfree
        · cases hact
    · cases hact
  | commitUser i =>
    simp only [act] at hact
    split at hact
    · next hi =>
      cases hact
      exact .commitUser hi
    · cases hact
  | complete i content steps =>
    simp only [act] at hact
    split at hact
    · next hi =>
      cases hact
      exact .complete hi
    · cases hact
  | insertReply i =>
    simp only [act, List.contains_iff_mem] at hact
    split at hact
    · next hi =>
      split at hact
      · next htaken =>
        cases hact
        exact .lose hi htaken
      · next hnew =>
        split at hact
        · next hfree =>
          cases hact
          exact .insertReply hi hnew hfree
        · cases hact
    · cases hact
  | commitReply i =>
    simp only [act] at hact
    split at hact
    · next hi =>
      cases hact
      exact .commitReply hi
    · cases hact
  | fail i =>
    simp only [act] at hact
    split at hact
    · cases hact
    · cases hact
    · cases hact
    · cases hact
      exact .fail

/-! ### The numbers of messages -/

/-- The numbers of a conversation's messages. -/
def numbers (s : Rows) (conversationId : String) : List Nat :=
  (s.ofConversation conversationId).map ChatMessage.seq

section

variable {s : Rows} {conversationId : String} {m : ChatMessage}

lemma numbers_addMessage : numbers (s.addMessage m) conversationId =
    if m.conversationId = conversationId then numbers s conversationId ++ [m.seq]
    else numbers s conversationId := by
  rw [numbers, Rows.ofConversation, Rows.addMessage]
  by_cases hm : m.conversationId = conversationId <;> simp [hm, numbers, Rows.ofConversation]

lemma mem_numbers {n : Nat} :
    n ∈ numbers s conversationId ↔ (conversationId, n) ∈ s.messages.map ChatMessage.key := by
  simp only [numbers, Rows.ofConversation, List.mem_map, List.mem_filter, decide_eq_true_eq,
    ChatMessage.key, Prod.mk.injEq]
  constructor
  · rintro ⟨m, ⟨hm, hid⟩, hseq⟩
    exact ⟨m, hm, hid, hseq⟩
  · rintro ⟨m, hm, hid, hseq⟩
    exact ⟨m, ⟨hm, hid⟩, hseq⟩

lemma seq_mem_numbers (h : m ∈ s.messages) : m.seq ∈ numbers s m.conversationId :=
  mem_numbers.2 (List.mem_map_of_mem h)

/-- Messages that are numbered apart in each conversation have different keys. -/
lemma nodup_keys (h : ∀ conversationId, (numbers s conversationId).Nodup) :
    (s.messages.map ChatMessage.key).Nodup := by
  simp only [numbers, Rows.ofConversation] at h
  generalize s.messages = ms at h
  induction ms with
  | nil => exact List.nodup_nil
  | cons m ms ih =>
    rw [List.map_cons, List.nodup_cons]
    constructor
    · intro hmem
      obtain ⟨m', hm', hkey⟩ := List.mem_map.1 hmem
      obtain ⟨hid, hseq⟩ := Prod.mk.inj hkey
      have hfirst := h m.conversationId
      rw [List.filter_cons_of_pos (by simp), List.map_cons, List.nodup_cons] at hfirst
      exact hfirst.1 (hseq ▸ List.mem_map_of_mem (List.mem_filter.2 ⟨hm', by simpa using hid⟩))
    · exact ih fun id => (h id).sublist ((List.sublist_cons_self m ms).filter _ |>.map _)

end

/-! ### What every run keeps -/

/-- The user's message that the session has committed and will answer. -/
def Tx.claim : Tx → Option (String × Nat)
  | .streaming w _ nxt => some (w.conversationId, nxt)
  | .completed e | .replied e => some e.key
  | _ => none

/-- What holds of a session's transaction. -/
def TxInv (s : Tables) (i : Nat) : Tx → Prop
  | .reading _ | .opened _ | .read _ _ => True
  | .numbered w _ nxt => ∃ n, nxt = n + 1 ∧ n ≤ (numbers s.store w.conversationId).length
  | .inserted w _ nxt => nxt = (numbers s.store w.conversationId).length + 1 ∧
      s.holder (w.conversationId, nxt) = some i
  | .streaming w _ nxt => w.user nxt ∈ s.store.messages
  | .completed e => e.user ∈ s.store.messages
  | .replied e => e.user ∈ s.store.messages ∧
      e.seq = (numbers s.store e.conversationId).length ∧ s.holder e.reply.key = some i

/-- Each message of a user is answered once, by one session. -/
def Apart (answered : List Exchange) (session : Lib.Sessions Tx) : Prop :=
  ∀ i tx key, session i = some tx → tx.claim = some key →
    key ∉ answered.map Exchange.key ∧
      ∀ j tx', session j = some tx' → tx'.claim = some key → i = j

structure Inv (s : Tables) : Prop where
  counted : ∀ conversationId, CountsUp (numbers s.store conversationId)
  tx : s.EachTx TxInv
  apart : Apart s.store.answered s.session
  separate : (s.store.answered.map Exchange.key).Nodup
  user : ∀ e ∈ s.store.answered, e.user ∈ s.store.messages
  /-- A reply is that of an exchange. -/
  reply : ∀ m ∈ s.store.messages, m.role = "assistant" → ∃ e ∈ s.store.answered, e.reply = m

/-- What the steps of other sessions leave to a session. -/
structure Frame (i : Nat) (s t : Tables) : Prop where
  holder : Shared.Keeps i s t
  messages : ∀ m ∈ s.store.messages, m ∈ t.store.messages
  le : ∀ conversationId, (numbers s.store conversationId).length ≤
    (numbers t.store conversationId).length
  eq : ∀ conversationId,
    s.holder (conversationId, (numbers s.store conversationId).length + 1) = some i →
      (numbers t.store conversationId).length = (numbers s.store conversationId).length

section

variable {s t : Tables} {i j : Nat} {tx : Tx}

lemma TxInv.frame (h : TxInv s i tx) (hframe : Frame i s t) : TxInv t i tx := by
  cases tx with
  | reading | opened | read => trivial
  | numbered w history nxt =>
    obtain ⟨n, hn, hle⟩ := h
    exact ⟨n, hn, hle.trans (hframe.le _)⟩
  | inserted w history nxt =>
    obtain ⟨hnxt, hheld⟩ := h
    refine ⟨?_, hframe.holder _ hheld⟩
    rw [hframe.eq _ (hnxt ▸ hheld)]
    exact hnxt
  | streaming | completed => exact hframe.messages _ h
  | replied e =>
    obtain ⟨huser, hseq, hheld⟩ := h
    refine ⟨hframe.messages _ huser, ?_, hframe.holder _ hheld⟩
    rw [hframe.eq _ (hseq ▸ hheld)]
    exact hseq

lemma Frame.of_store (hmessages : t.store.messages = s.store.messages)
    (hholder : Shared.Keeps i s t) : Frame i s t where
  holder := hholder
  messages m hm := hmessages ▸ hm
  le _ := by rw [numbers, numbers, Rows.ofConversation, Rows.ofConversation, hmessages]
  eq _ _ := by rw [numbers, numbers, Rows.ofConversation, Rows.ofConversation, hmessages]

lemma frame_put : Frame i s (s.put j tx) := .of_store rfl Shared.keeps_put

lemma frame_lock {key : String × Nat} (hfree : (s.holder key).isNone = true) :
    Frame i s ((s.lock j key).put j tx) :=
  .of_store rfl (Shared.keeps_lock hfree)

/-- A session that answers nothing else than before leaves all apart. -/
lemma Apart.update {answered : List Exchange} {session : Lib.Sessions Tx} {v : Option Tx}
    (h : Apart answered session) (hv : ∀ tx key, v = some tx → tx.claim = some key →
      ∃ old, session i = some old ∧ old.claim = some key) :
    Apart answered (Function.update session i v) := by
  -- who answers a message answered it before
  have hbefore (j : Nat) (tx : Tx) (key : String × Nat)
      (hj : Function.update session i v j = some tx) (hclaim : tx.claim = some key) :
      ∃ old, session j = some old ∧ old.claim = some key := by
    rcases Lib.session_cases hj with ⟨rfl, hnew⟩ | ⟨-, hj⟩
    · exact hv tx key hnew hclaim
    · exact ⟨tx, hj, hclaim⟩
  intro j tx key hj hclaim
  obtain ⟨old, hold, hclaim'⟩ := hbefore j tx key hj hclaim
  obtain ⟨hfree, halone⟩ := h j old key hold hclaim'
  refine ⟨hfree, fun k tx' hk hclaim'' => ?_⟩
  obtain ⟨old', hold', hclaim'''⟩ := hbefore k tx' key hk hclaim''
  exact halone k old' hold' hclaim'''

/-- A session answers a message that nobody answers. -/
lemma Apart.fresh {answered : List Exchange} {session : Lib.Sessions Tx} {key : String × Nat}
    (h : Apart answered session) (hclaim : tx.claim = some key)
    (hfree : key ∉ answered.map Exchange.key)
    (halone : ∀ j tx', session j = some tx' → tx'.claim ≠ some key) :
    Apart answered (Function.update session i (some tx)) := by
  intro j tx' key' hj hkey
  rcases Lib.session_cases hj with ⟨rfl, heq⟩ | ⟨hne, hj⟩
  · cases heq
    cases hclaim.symm.trans hkey
    refine ⟨hfree, fun k tx'' hk hkey' => ?_⟩
    rcases Lib.session_cases hk with ⟨hkj, -⟩ | ⟨-, hk⟩
    · exact hkj.symm
    · exact absurd hkey' (halone k tx'' hk)
  · refine ⟨(h j tx' key' hj hkey).1, fun k tx'' hk hkey' => ?_⟩
    rcases Lib.session_cases hk with ⟨-, heq⟩ | ⟨-, hk⟩
    · cases heq
      cases hclaim.symm.trans hkey'
      exact absurd hkey (halone j tx' hj)
    · exact (h j tx' key' hj hkey).2 k tx'' hk hkey'

/-- A message that is answered is there. -/
lemma claim_mem {key : String × Nat} (h : TxInv s i tx) (hclaim : tx.claim = some key) :
    key ∈ s.store.messages.map ChatMessage.key := by
  cases tx with
  | reading | opened | read | numbered | inserted => cases hclaim
  | streaming =>
    cases hclaim
    exact List.mem_map_of_mem h
  | completed e =>
    cases hclaim
    exact List.mem_map_of_mem h
  | replied e =>
    cases hclaim
    exact List.mem_map_of_mem h.1

/-- A session that has answered its message leaves the others apart. -/
lemma Apart.answer {answered : List Exchange} {session : Lib.Sessions Tx} {e : Exchange}
    (h : Apart answered session) (hi : session i = some tx) (hclaim : tx.claim = some e.key) :
    Apart (answered ++ [e]) (Function.update session i none) := by
  intro j tx' key hj hkey
  have hupdate := h.update (i := i) (v := none) (fun _ _ hnone => nomatch hnone)
  obtain ⟨hfree, halone⟩ := hupdate j tx' key hj hkey
  refine ⟨?_, halone⟩
  rw [List.map_append, List.mem_append, List.map_singleton, List.mem_singleton]
  rintro (hmem | rfl)
  · exact hfree hmem
  · rcases Lib.session_cases hj with ⟨-, hnone⟩ | ⟨hne, hj⟩
    · cases hnone
    · exact hne ((h j tx' _ hj hkey).2 i tx hi hclaim)

/-! ### The statements -/

lemma Inv.init : Inv start := by
  constructor <;>
    simp [start, CountsUp, numbers, Rows.ofConversation, Shared.EachTx, Apart]

/-- A session goes on without a key. -/
lemma Inv.put (h : Inv s) (htx : TxInv (s.put i tx) i tx)
    (hclaim : ∀ key, tx.claim = some key → ∃ old, s.session i = some old ∧ old.claim = some key) :
    Inv (s.put i tx) where
  counted := h.counted
  tx := h.tx.put (fun _ _ _ hj => hj.frame frame_put) htx
  apart := h.apart.update fun tx' key hnew => by
    cases hnew
    exact hclaim key
  separate := h.separate
  user := h.user
  reply := h.reply

/-- A session takes a free key. -/
lemma Inv.lock (h : Inv s) {key : String × Nat} (hfree : (s.holder key).isNone = true)
    (htx : TxInv ((s.lock i key).put i tx) i tx)
    (hclaim : ∀ key, tx.claim = some key → ∃ old, s.session i = some old ∧ old.claim = some key) :
    Inv ((s.lock i key).put i tx) where
  counted := h.counted
  tx := h.tx.lock (fun _ _ _ hj => hj.frame (frame_lock hfree)) htx
  apart := h.apart.update fun tx' key hnew => by
    cases hnew
    exact hclaim key
  separate := h.separate
  user := h.user
  reply := h.reply

/-- A session ends without a message. -/
lemma Inv.release (h : Inv s) (i : Nat) : Inv (s.release i) where
  counted := h.counted
  tx := h.tx.release fun _ _ hne _ hj => hj.frame (.of_store rfl (Shared.keeps_release hne))
  apart := h.apart.update fun _ _ hnone => nomatch hnone
  separate := h.separate
  user := h.user
  reply := h.reply

/-- The conversations are not looked at. -/
lemma Inv.addConversation (h : Inv s) (new : Option Conversation) :
    Inv { s with store := s.store.addConversation new } where
  counted := h.counted
  tx i tx hi := (h.tx i tx hi).frame (.of_store rfl fun _ hheld => hheld)
  apart := h.apart
  separate := h.separate
  user := h.user
  reply := h.reply

/-- A message that gets the next number of its conversation is seen by the sessions that hold other
keys. -/
lemma frame_addMessage {m : ChatMessage} {u : Tables} (hu : u.store.messages = s.store.messages ++ [m])
    (hkeeps : Shared.Keeps j s u)
    (hseq : m.seq = (numbers s.store m.conversationId).length + 1) (hheld : s.holder m.key = some i)
    (hne : j ≠ i) : Frame j s u := by
  have hnumbers (conversationId : String) : numbers u.store conversationId =
      numbers (s.store.addMessage m) conversationId := by
    rw [numbers, numbers, Rows.ofConversation, Rows.ofConversation, hu]
    rfl
  refine ⟨hkeeps, fun m' hm' => hu ▸ List.mem_append_left _ hm', fun id => ?_, fun id hmine => ?_⟩
  · rw [hnumbers, numbers_addMessage]
    split <;> simp
  · rw [hnumbers, numbers_addMessage]
    split
    · next hid =>
      subst hid
      rw [← hseq] at hmine
      exact absurd (Option.some.inj (hmine.symm.trans hheld)) hne
    · rfl

lemma counted_addMessage (h : Inv s) {m : ChatMessage}
    (hseq : m.seq = (numbers s.store m.conversationId).length + 1) (conversationId : String) :
    CountsUp (numbers (s.store.addMessage m) conversationId) := by
  rw [numbers_addMessage]
  split
  · next hid =>
    subst hid
    rw [hseq]
    exact (h.counted _).concat
  · exact h.counted conversationId

/-- The user's message is committed: nobody has answered it or is about to. -/
lemma Inv.commitUser {w : Stream} {history : List (String × String)} {nxt : Nat} (h : Inv s)
    (hi : s.session i = some (.inserted w history nxt)) :
    Inv ((s.commit i ((s.store.addConversation w.new).addMessage (w.user nxt))).put i
      (.streaming w history nxt)) := by
  obtain ⟨hnxt, hheld⟩ := h.tx i _ hi
  have hnew : nxt ∉ numbers s.store w.conversationId := by
    rw [(h.counted _).mem_iff]
    omega
  exact {
    counted := counted_addMessage h hnxt
    tx := by
      refine (h.tx.commit fun j tx hne _ hj => ?_).put (fun j tx _ hj => hj.frame frame_put) ?_
      · exact hj.frame (frame_addMessage rfl (Shared.keeps_release hne) hnxt hheld hne)
      · exact List.mem_append_right _ List.mem_cons_self
    apart := by
      have hleft : Apart s.store.answered (Function.update s.session i none) :=
        h.apart.update fun _ _ hnone => nomatch hnone
      refine hleft.fresh rfl ?_ ?_
      · intro hmem
        obtain ⟨e, he, hkey⟩ := List.mem_map.1 hmem
        exact hnew (mem_numbers.2 (hkey ▸ List.mem_map_of_mem (h.user e he)))
      · intro j tx hj hclaim
        rcases Lib.session_cases hj with ⟨-, hnone⟩ | ⟨-, hj⟩
        · cases hnone
        · exact hnew (mem_numbers.2 (claim_mem (h.tx j tx hj) hclaim))
    separate := h.separate
    user := fun e he => List.mem_append_left _ (h.user e he)
    reply := by
      intro m hm hrole
      rcases List.mem_append.1 hm with hm | hm
      · exact h.reply m hm hrole
      · rw [List.mem_singleton.1 hm] at hrole
        exact absurd hrole (show "user" ≠ "assistant" by decide) }

/-- A stream ends once its reply is streamed, and with its reply if that can be stored. -/
lemma Inv.answer {e : Exchange} (h : Inv s) (hi : s.session i = some tx)
    (hclaim : tx.claim = some e.key) (huser : e.user ∈ s.store.messages) :
    Inv (s.commit i (s.store.addAnswered e)) where
  counted := h.counted
  tx := h.tx.commit fun _ _ hne _ hj => hj.frame (.of_store rfl (Shared.keeps_release hne))
  apart := h.apart.answer hi hclaim
  separate := by
    rw [Shared.commit_store, Rows.addAnswered, List.map_append, List.nodup_append]
    refine ⟨h.separate, List.nodup_singleton _, fun key hkey key' hkey' => ?_⟩
    rw [List.map_singleton, List.mem_singleton] at hkey'
    rintro rfl
    exact (h.apart i tx _ hi hclaim).1 (hkey' ▸ hkey)
  user e' he' := by
    rcases List.mem_append.1 he' with he' | he'
    · exact h.user e' he'
    · exact List.mem_singleton.1 he' ▸ huser
  reply m hm hrole := by
    obtain ⟨e', he', hreply⟩ := h.reply m hm hrole
    exact ⟨e', List.mem_append_left _ he', hreply⟩

lemma Inv.commitReply {e : Exchange} (h : Inv s) (hi : s.session i = some (.replied e)) :
    Inv (s.commit i ((s.store.addMessage e.reply).addAnswered e)) := by
  obtain ⟨huser, hseq, hheld⟩ := h.tx i _ hi
  have hanswer := h.answer hi rfl huser
  have hnext : e.reply.seq = (numbers s.store e.reply.conversationId).length + 1 :=
    congrArg (· + 1) hseq
  exact {
    counted := counted_addMessage h hnext
    tx := h.tx.commit fun j tx hne _ hj =>
      hj.frame (frame_addMessage rfl (Shared.keeps_release hne) hnext hheld hne)
    apart := hanswer.apart
    separate := hanswer.separate
    user := fun e' he' => List.mem_append_left _ (hanswer.user e' he')
    reply := by
      intro m hm hrole
      rcases List.mem_append.1 hm with hm | hm
      · exact hanswer.reply m hm hrole
      · exact ⟨e, List.mem_append_right _ List.mem_cons_self, (List.mem_singleton.1 hm).symm⟩ }

lemma Inv.insertUser {w : Stream} {history : List (String × String)} {nxt : Nat} (h : Inv s)
    (hi : s.session i = some (.numbered w history nxt))
    (hnew : (w.conversationId, nxt) ∉ s.store.messages.map ChatMessage.key)
    (hfree : (s.holder (w.conversationId, nxt)).isNone = true) :
    Inv ((s.lock i (w.conversationId, nxt)).put i (.inserted w history nxt)) := by
  obtain ⟨n, rfl, hle⟩ := h.tx i _ hi
  have hfresh : n + 1 ∉ numbers s.store w.conversationId := fun hmem => hnew (mem_numbers.1 hmem)
  have hnext := congrArg (· + 1) ((h.counted _).eq_length hle hfresh)
  exact h.lock hfree ⟨hnext, Shared.lock_self⟩ fun key hkey => nomatch hkey

lemma Inv.insertReply {e : Exchange} (h : Inv s) (hi : s.session i = some (.completed e))
    (hnew : e.reply.key ∉ s.store.messages.map ChatMessage.key)
    (hfree : (s.holder e.reply.key).isNone = true) :
    Inv ((s.lock i e.reply.key).put i (.replied e)) := by
  have huser : e.user ∈ s.store.messages := h.tx i _ hi
  have hfresh : e.seq + 1 ∉ numbers s.store e.conversationId := fun hmem =>
    hnew (mem_numbers.1 hmem)
  have hle : e.seq ≤ (numbers s.store e.conversationId).length :=
    ((h.counted _).mem_iff.1 (seq_mem_numbers huser)).2
  exact h.lock hfree ⟨huser, (h.counted _).eq_length hle hfresh, Shared.lock_self⟩
    fun key hkey => ⟨_, hi, hkey⟩

lemma Inv.act {a : Action} (h : Inv s) (hact : act s a = some t) : Inv t := by
  cases act_step hact with
  | create => exact h.addConversation _
  | startRead | openGlobal | openCall | readHistory =>
    exact h.put trivial fun key hkey => nomatch hkey
  | endRead => exact (h.release _).addConversation _
  | readMax => exact h.put ⟨_, rfl, ((h.counted _).max_eq).le⟩ fun key hkey => nomatch hkey
  | overtaken | fail => exact h.release _
  | insertUser hi hnew hfree => exact h.insertUser hi hnew hfree
  | commitUser hi => exact h.commitUser hi
  | complete hi => exact h.put (h.tx _ _ hi) fun key hkey => ⟨_, hi, hkey⟩
  | lose hi => exact h.answer hi rfl (h.tx _ _ hi)
  | insertReply hi hnew hfree => exact h.insertReply hi hnew hfree
  | commitReply hi => exact h.commitReply hi

/-! ### The replies -/

/-- What the streams that have ended should leave: each exchange has its two messages, the reply after
the text, and there is no other reply. -/
structure Stored (s : Rows) : Prop where
  distinct : (s.messages.map ChatMessage.key).Nodup
  separate : (s.answered.map Exchange.key).Nodup
  user : ∀ e ∈ s.answered, e.user ∈ s.messages
  reply : ∀ e ∈ s.answered, e.reply ∈ s.messages ∧ e.user.seq < e.reply.seq
  only : ∀ m ∈ s.messages, m.role = "assistant" → ∃ e ∈ s.answered, e.reply = m

/-- When a reply is stored, the user's message is still the last one of the conversation. -/
def Undisturbed (s : Tables) : Action → Prop
  | .insertReply i => ∀ e, s.session i = some (.completed e) →
    ∀ m ∈ s.store.messages, m.conversationId = e.conversationId → m.seq ≤ e.seq
  | _ => True

lemma Inv.stored (h : Inv s) (hreply : ∀ e ∈ s.store.answered, e.reply ∈ s.store.messages) :
    Stored s.store where
  distinct := nodup_keys fun id => (h.counted id).nodup
  separate := h.separate
  user := h.user
  reply e he := ⟨hreply e he, Nat.lt_succ_self _⟩
  only := h.reply

lemma mem_messages_act {a : Action} {m : ChatMessage} (hact : act s a = some t)
    (hm : m ∈ s.store.messages) : m ∈ t.store.messages := by
  cases act_step hact with
  | commitUser | commitReply => exact List.mem_append_left _ hm
  | create | startRead | endRead | openGlobal | openCall | readHistory | readMax | overtaken
  | insertUser | complete | lose | insertReply | fail => exact hm

/-- The number after the user's message is free. -/
lemma Undisturbed.free {e : Exchange} (hok : Undisturbed s (.insertReply i))
    (hi : s.session i = some (.completed e)) :
    e.reply.key ∉ s.store.messages.map ChatMessage.key := by
  intro htaken
  obtain ⟨m, hm, hkey⟩ := List.mem_map.1 htaken
  obtain ⟨hid, hseq⟩ := Prod.mk.inj hkey
  have hle := hok e hi m hm hid
  have hnext : m.seq = e.seq + 1 := hseq
  omega

/-- An undisturbed step stores the reply of an exchange that ends. -/
lemma answered_act {a : Action} (hok : Undisturbed s a) (hact : act s a = some t)
    (hreply : ∀ e ∈ s.store.answered, e.reply ∈ s.store.messages) :
    ∀ e ∈ t.store.answered, e.reply ∈ t.store.messages := by
  have hkept : ∀ e ∈ s.store.answered, e.reply ∈ t.store.messages := fun e he =>
    mem_messages_act hact (hreply e he)
  cases act_step hact with
  | lose hi htaken => exact absurd htaken (hok.free hi)
  | commitReply =>
    intro e he
    rcases List.mem_append.1 he with he | he
    · exact hkept e he
    · rw [List.mem_singleton.1 he]
      exact List.mem_append_right _ List.mem_cons_self
  | create | startRead | endRead | openGlobal | openCall | readHistory | readMax | overtaken
  | insertUser | commitUser | complete | insertReply | fail => exact hkept

/-- A stream whose message is no longer the last one loses its reply. -/
lemma undisturbed_of_stored {e : Exchange} (h : Inv s) (hi : s.session i = some (.completed e))
    (hstored : ∀ t, act s (.insertReply i) = some t → Stored t.store) :
    Undisturbed s (.insertReply i) := by
  intro e' hi' m hm hid
  cases hi.symm.trans hi'
  by_contra hlt
  have hlen : m.seq ≤ (numbers s.store e.conversationId).length :=
    ((h.counted _).mem_iff.1 (hid ▸ seq_mem_numbers hm)).2
  have htaken : (e.conversationId, e.seq + 1) ∈ s.store.messages.map ChatMessage.key :=
    mem_numbers.1 ((h.counted _).mem_iff.2 ⟨by omega, by omega⟩)
  have hact : act s (.insertReply i) = some (s.commit i (s.store.addAnswered e)) := by
    simp only [act, hi]
    exact if_pos (List.contains_iff_mem.2 htaken)
  have hreply : e.reply ∈ s.store.messages :=
    ((hstored _ hact).reply e (List.mem_append_right _ List.mem_cons_self)).1
  -- the reply that is there would be that of another stream
  obtain ⟨e', he', hsame⟩ := h.reply _ hreply rfl
  have hkey : e'.key = e.key := by
    have hseq : e'.seq + 1 = e.seq + 1 := congrArg ChatMessage.seq hsame
    exact Prod.ext (congrArg ChatMessage.conversationId hsame) (Nat.succ.inj hseq)
  exact (h.apart i _ _ hi rfl).1 (hkey ▸ List.mem_map_of_mem he')

/-- In every state that a run reaches, the texts and the replies of the streams that have ended are
stored, once and in order, exactly when each reply is stored while the user's message is the last one
of its conversation. -/
theorem stored_iff (as : List Action) :
    (∀ past rest t, past ++ rest = as → past.foldlM act start = some t → Stored t.store) ↔
    ∀ past a rest t, past ++ a :: rest = as → past.foldlM act start = some t →
      Undisturbed t a := by
  have hinv (past : List Action) (t : Tables) (hpast : past.foldlM act start = some t) : Inv t :=
    Lib.foldlM_history (I := fun _ => Inv) (fun _ _ _ _ _ _ _ h hact => h.act hact) .init hpast
  constructor
  · intro h past a rest t he hpast
    cases a with
    | insertReply i =>
      intro e hi
      refine undisturbed_of_stored (hinv past t hpast) hi (fun u hact => ?_) e hi
      refine h (past ++ [.insertReply i]) rest u (by simp [← he]) ?_
      rw [List.foldlM_append, hpast]
      simpa using hact
    | create | startRead | endRead | openGlobal | openCall | readHistory | readMax | insertUser
    | commitUser | complete | commitReply | fail => trivial
  · intro hok past rest t he hpast
    refine (hinv past t hpast).stored ?_
    refine Lib.foldlM_history (I := fun _ t => ∀ e ∈ t.store.answered, e.reply ∈ t.store.messages)
      (fun past' a rest' u v he' hu h hact => ?_) (fun e he => absurd he List.not_mem_nil) hpast
    exact answered_act (hok past' a (rest' ++ rest) u (by simp [← he, ← he']) hu)
      hact h

end

/-! ### Two streams -/

/-- A second text is sent while the first one is answered. -/
def overtaken : List Action :=
  [.create "c" "u", .openGlobal 0 "c" "u" "hello", .readHistory 0, .readMax 0, .insertUser 0,
    .commitUser 0, .openGlobal 1 "c" "u" "again", .readHistory 1, .readMax 1, .insertUser 1,
    .commitUser 1, .complete 0 "hi" [], .insertReply 0, .complete 1 "yes" [], .insertReply 1,
    .commitReply 1]

/-- The first reply is lost. -/
theorem overtaken_lost :
    ¬∀ (as : List Action) (t : Tables), as.foldlM act start = some t →
      (∀ i, t.session i = none) → Stored t.store := by
  intro h
  let t := (overtaken.foldlM act start).getD start
  have hidle (i : Nat) : t.session i = none := by
    rcases i with _ | _ | i <;> rfl
  have hstored := (h overtaken t rfl hidle).reply
    { conversationId := "c", seq := 1, text := "hello", content := "hi", steps := [] } (by decide)
  exact absurd hstored.1 (by decide)

end Pulse.Chat.Streams
