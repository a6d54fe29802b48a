import Pulse.Chat.Isolation
import Pulse.Lib.JsonText

/-!
# The agent loop of a chat

`run` of `chat/agent.py` with the tools of `chat/tools.py`. The language model is a parameter: what
it completes and what it streams, of the messages it is sent. Rounds of tool calls come first, then
the answer is streamed; whatever fails becomes the last event.
-/

namespace Pulse.Chat.Agent

open Db
open Lib (Json FloatText dumps)

/-! ### The conversation -/

structure ToolCall where
  id : String
  name : String
  args : Json FloatText

structure Completion where
  content : String
  toolCalls : List ToolCall

inductive Message
  /-- The system prompt, the history and what the user says now. -/
  | text (role content : String)
  /-- The assistant's calls; its content is null if it is empty. -/
  | toolCalls (content : Option String) (calls : List ToolCall)
  | tool (toolCallId content : String)

/-- What a tool returns. -/
inductive Result
  | sql (answer : Answer)
  | error (message : String)
  | analysis (text : String)

/-- An entry of `steps`. -/
structure Step where
  name : String
  args : Json FloatText
  summary : String

inductive Event
  | toolCall (name : String) (args : Json FloatText)
  | toolResult (name summary : String)
  | token (text : String)
  | done (content : String) (steps : List Step)
  | error (error : String)

/-- The language model behind `client`. A stream yields its deltas, the content of each null at
times, and may then raise. -/
structure Model where
  complete : List Message → Except String Completion
  deltas : List Message → List (Option String) × Option String

/-- `MAX_TOOL_ROUNDS` -/
def maxToolRounds : Nat := 5

/-! ### The loop -/

def cellJson : Cell → Json FloatText
  | some (.text s) => .str s
  | some (.int i) => .int i
  | none => .null

/-- The dictionary that a tool returns. -/
def Result.dict : Result → List (String × Json FloatText)
  | .sql (.rows columns rows rowCount truncated) => [("columns", .arr (columns.map .str)),
      ("rows", .arr (rows.map fun r => .arr (r.map cellJson))), ("row_count", .int rowCount),
      ("truncated", .bool truncated)]
  | .sql (.error message) | .error message => [("error", .str message)]
  | .analysis text => [("analysis", .str text)]

/-- `json.dumps(result)[:4000]` -/
def Result.content (r : Result) : String := String.ofList ((dumps (.obj r.dict)).take 4000)

/-- `_summarize` -/
def summarize (name : String) : Result → String
  | .sql (.error message) | .error message => message
  | .sql (.rows _ _ rowCount truncated) =>
    if name = "execute_sql" then
      toString rowCount ++ " row" ++ (if rowCount = 1 then "" else "s") ++
        (if truncated then " (truncated)" else "")
    else "done"
  | .analysis _ => if name = "execute_sql" then "0 rows" else "done"

/-- The state of the loop. Beside its variables, the events that it has yielded, what the model was
sent, and the tool calls it has run. -/
structure Talk where
  messages : List Message
  steps : List Step := []
  events : List Event := []
  sent : List (List Message) := []
  ran : List ToolCall := []

variable (model : Model) (tools : Nat → ToolCall → Except String Result)

/-- One tool call of a round; a result or what it raises. -/
def callTool (t : Talk) (tc : ToolCall) : Except (Talk × String) Talk :=
  let before := t.ran.length
  let t := { t with events := t.events ++ [.toolCall tc.name tc.args], ran := t.ran ++ [tc] }
  match tools before tc with
  | .error e => .error (t, e)
  | .ok result =>
    let summary := summarize tc.name result
    .ok { t with
      steps := t.steps ++ [⟨tc.name, tc.args, summary⟩]
      events := t.events ++ [.toolResult tc.name summary]
      messages := t.messages ++ [.tool tc.id result.content] }

/-- A request for a completion. -/
def Talk.send (t : Talk) : Talk := { t with sent := t.sent ++ [t.messages] }

/-- The rounds, of which the given number is left. -/
def toolRounds : Nat → Talk → Except (Talk × String) Talk
  | 0, t => .ok t
  | n + 1, t => do
    let t := t.send
    match model.complete t.messages with
    | .error e => .error (t, e)
    | .ok comp =>
      if comp.toolCalls.isEmpty then .ok t
      else
        let content := if comp.content = "" then none else some comp.content
        let t := { t with messages := t.messages ++ [.toolCalls content comp.toolCalls] }
        let t ← comp.toolCalls.foldlM (callTool tools) t
        toolRounds n t

/-- `gateway.stream`: the deltas that are not empty. -/
def pieces (deltas : List (Option String)) : List String :=
  deltas.filterMap fun d => d.filter (· ≠ "")

/-- The answer, streamed. -/
def answerStream (t : Talk) : Except (Talk × String) Talk :=
  let t := t.send
  let (deltas, raised) := model.deltas t.messages
  let t := { t with events := t.events ++ (pieces deltas).map .token }
  match raised with
  | some e => .error (t, e)
  | none =>
    .ok { t with events := t.events ++ [.done (String.join (pieces deltas)) t.steps] }

/-- `run`, from the system prompt, the history and the user's text. -/
def run (messages : List Message) : Talk :=
  match toolRounds model tools maxToolRounds { messages } >>= answerStream model with
  | .ok t => t
  | .error (t, e) => { t with events := t.events ++ [.error e] }

/-! ### The tools -/

/-- A value that `or` passes by. -/
def truthy : Json FloatText → Bool
  | .null => false
  | .bool b => b
  | .int i => i ≠ 0
  | .float x => x.text ≠ ['0', '.', '0'] ∧ x.text ≠ ['-', '0', '.', '0']
  | .str s => s ≠ ""
  | .arr vs => !vs.isEmpty
  | .obj fields => !fields.isEmpty

/-- `type(v).__name__` -/
def typeName : Json FloatText → String
  | .null => "NoneType"
  | .bool _ => "bool"
  | .int _ => "int"
  | .float _ => "float"
  | .str _ => "str"
  | .arr _ => "list"
  | .obj _ => "dict"

/-- The `AttributeError` of a value without the method. -/
def noAttribute (v : Json FloatText) (method : String) : String :=
  "'" ++ typeName v ++ "' object has no attribute '" ++ method ++ "'"

/-- `(args.get(key) or "").strip()` -/
def argText (args : Json FloatText) (key : String) : Except String String :=
  match args with
  | .obj fields =>
    match (fields.lookup key).filter truthy with
    | none => .ok ""
    | some (.str s) => .ok (strip s)
    | some v => .error (noAttribute v "strip")
  | v => .error (noAttribute v "get")

/-- What the tools work with: the database as it is at each tool call, what the membership is then
allowed, the call that a per-call chat is bound to, and what the audio model says of a recording. -/
structure World where
  cluster : Nat → Cluster
  caller : Nat → Caller
  call : Option Row
  call_id : ∀ i, (caller i).call.map Value.text = call.bind fun b => b .id
  analyze : Row → String → String

/-- `execute_sql` -/
def executeSql (py : Casing) (pg : Postgres) (c : Cluster) (u : Caller) (args : Json FloatText) :
    Except String Result := do
  let query ← argText args "query"
  if query = "" then .ok (.error "no query provided")
  else .ok (.sql (runAgentSql py pg c u.org query u.visible u.call defaultMaxRows))

/-- `allowed is not None and target.agent_id not in allowed` -/
def outOfGrant (u : Caller) (target : Row) : Bool :=
  match u.visible with
  | none => false
  | some ids => !ids.any fun a => target .agentId = some (.text a)

/-- The call to listen to, which in a global chat the arguments name; or why there is none. -/
def audioTarget (w : World) (c : Cluster) (schema : Ident) (u : Caller) (args : Json FloatText) :
    Except String (Except String Row) :=
  match w.call with
  | some b => .ok (.ok b)
  | none => do
    let cid ← argText args "call_id"
    if cid = "" then .ok (.error "call_id is required")
    else
      match (tablesOf c schema .call).find? fun b => b .externalCallId = some (.text cid) with
      | none => .ok (.error ("call not found: " ++ cid))
      | some b =>
        if outOfGrant u b then .ok (.error ("call not found: " ++ cid)) else .ok (.ok b)

/-- `_run_audio_native` -/
def runAudioNative (w : World) (c : Cluster) (schema : Ident) (u : Caller) (args : Json FloatText) :
    Except String Result := do
  let prompt ← argText args "prompt"
  if prompt = "" then .ok (.error "no prompt provided")
  else
    match ← audioTarget w c schema u args with
    | .error message => .ok (.error message)
    | .ok b => .ok (.analysis (w.analyze b prompt))

/-- `run` of `chat/tools.py` -/
def runTool (py : Casing) (pg : Postgres) (w : World) (i : Nat) (tc : ToolCall) :
    Except String Result :=
  if tc.name = "execute_sql" then executeSql py pg (w.cluster i) (w.caller i) tc.args
  else if tc.name = "audio_native_llm" then
    runAudioNative w (w.cluster i) (tableSchema py (w.caller i).org) (w.caller i) tc.args
  else .ok (.error ("unknown tool: " ++ tc.name))

/-! ### The protocol -/

/-- A round that is over: what the assistant said, and each of its calls with its result. -/
structure Round where
  content : Option String
  called : List (ToolCall × Result)

/-- The assistant's message is followed by an answer to each call of it, in their order. -/
def Round.messages (r : Round) : List Message :=
  .toolCalls r.content (r.called.map Prod.fst) ::
    r.called.map fun p => .tool p.1.id p.2.content

def stepOf (p : ToolCall × Result) : Step := ⟨p.1.name, p.1.args, summarize p.1.name p.2⟩

def eventsOf (p : ToolCall × Result) : List Event :=
  [.toolCall p.1.name p.1.args, .toolResult p.1.name (summarize p.1.name p.2)]

/-- How the events end, after those of the tool calls: with the answer that was streamed, or with an
error. `cut` tells if a tool call cut a round off. -/
inductive Ending (steps : List Step) : (cut : Bool) → List Event → Prop
  | answered (pieces : List String) (h : ∀ piece ∈ pieces, piece ≠ "") :
      Ending steps false (pieces.map .token ++ [.done (String.join pieces) steps])
  | failed (pieces : List String) (h : ∀ piece ∈ pieces, piece ≠ "") (e : String) :
      Ending steps false (pieces.map .token ++ [.error e])
  | toolFailed (tc : ToolCall) (e : String) :
      Ending steps true [.toolCall tc.name tc.args, .error e]

/-- What the model was sent is the conversation after some of the rounds. -/
def Sent (start : List Message) (rounds : List Round) (m : List Message) : Prop :=
  ∃ k ≤ rounds.length, m = start ++ (rounds.take k).flatMap Round.messages

/-- The state after the rounds and after `called` of the next one, with the given messages. -/
structure After (start : List Message) (rounds : List Round) (called : List (ToolCall × Result))
    (messages : List Message) (t : Talk) : Prop where
  messages : t.messages = messages
  steps : t.steps = (rounds.flatMap Round.called ++ called).map stepOf
  events : t.events = (rounds.flatMap Round.called ++ called).flatMap eventsOf
  sent : ∀ m ∈ t.sent, Sent start rounds m

/-- What a run leaves: at most `n` rounds, each call in one of them answered, and at most `k` requests
to the model, each with the conversation so far. `called` are the calls of a round that a tool call
cut off. -/
structure Conversed (n k : Nat) (start : List Message) (rounds : List Round)
    (called : List (ToolCall × Result)) (t : Talk) : Prop where
  rounds_le : rounds.length ≤ n
  called_ne : ∀ r ∈ rounds, r.called ≠ []
  sent_le : t.sent.length ≤ k
  sent : ∀ m ∈ t.sent, Sent start rounds m
  events : ∃ cut ending,
    t.events = (rounds.flatMap Round.called ++ called).flatMap eventsOf ++ ending ∧
      Ending ((rounds.flatMap Round.called ++ called).map stepOf) cut ending ∧
        (cut = false → called = [])

lemma Sent.mono {start : List Message} {rounds : List Round} {m : List Message}
    (h : Sent start rounds m) (r : Round) : Sent start (rounds ++ [r]) m := by
  obtain ⟨k, hk, rfl⟩ := h
  refine ⟨k, by simp; omega, ?_⟩
  rw [List.take_append_of_le_length hk]

section

variable {start messages : List Message} {rounds : List Round}
  {called : List (ToolCall × Result)} {t : Talk} {m n : Nat}

/-- What is left when a tool raises. -/
def CutOff (start : List Message) (rounds : List Round) (t : Talk) : Prop :=
  ∃ (called : List (ToolCall × Result)) (tc : ToolCall),
    t.events = (rounds.flatMap Round.called ++ called).flatMap eventsOf ++
      [.toolCall tc.name tc.args] ∧ ∀ m ∈ t.sent, Sent start rounds m

lemma After.tool_ends (h : After start rounds called messages t) (tc : ToolCall) :
    Lib.Ends (fun t' => t'.sent = t.sent ∧ ∃ r, After start rounds (called ++ [(tc, r)])
        (messages ++ [.tool tc.id r.content]) t')
      (fun x => x.1.sent = t.sent ∧ CutOff start rounds x.1) (callTool tools t tc) := by
  rw [callTool]
  cases tools t.ran.length tc with
  | error e => exact ⟨rfl, called, tc, congrArg (· ++ [_]) h.events, h.sent⟩
  | ok r =>
    refine ⟨rfl, r, congrArg (· ++ [_]) h.messages, ?_, ?_, h.sent⟩
    · rw [← List.append_assoc, List.map_append, ← h.steps]
      rfl
    · rw [← List.append_assoc, List.flatMap_append, ← h.events]
      simp [eventsOf]

/-- The tools of a round are called in their order. -/
lemma After.tools_ends (h : After start rounds called messages t) (calls : List ToolCall) :
    Lib.Ends (fun t' => t'.sent = t.sent ∧ ∃ more, more.map Prod.fst = calls ∧
        After start rounds (called ++ more)
          (messages ++ more.map fun p => .tool p.1.id p.2.content) t')
      (fun x => x.1.sent = t.sent ∧ CutOff start rounds x.1) (calls.foldlM (callTool tools) t) := by
  induction calls generalizing called messages t with
  | nil => exact ⟨rfl, [], rfl, by simpa using h⟩
  | cons tc calls ih =>
    rw [List.foldlM_cons]
    refine (h.tool_ends tools tc).bind ?_
    rintro t' ⟨hsent, r, ht'⟩
    refine (ih ht').mono ?_ ?_
    · rintro t'' ⟨hsent', more, rfl, hmore⟩
      refine ⟨hsent'.trans hsent, (tc, r) :: more, rfl, ?_⟩
      simpa using hmore
    · rintro x ⟨hsent', hcut⟩
      exact ⟨hsent'.trans hsent, hcut⟩

/-- The state between two rounds. -/
def Between (start : List Message) (rounds : List Round) (t : Talk) : Prop :=
  After start rounds [] (start ++ rounds.flatMap Round.messages) t ∧ ∀ r ∈ rounds, r.called ≠ []

lemma Between.send (h : Between start rounds t) : Between start rounds t.send := by
  refine ⟨⟨h.1.messages, h.1.steps, h.1.events, fun m hm => ?_⟩, h.2⟩
  obtain hm | hm := List.mem_append.1 hm
  · exact h.1.sent m hm
  · obtain rfl := List.mem_singleton.1 hm
    exact ⟨rounds.length, le_rfl, by rw [h.1.messages, List.take_length]⟩

/-- A round is over. -/
lemma After.over {content : Option String} {calls : List ToolCall}
    (h : After start rounds called (start ++ rounds.flatMap Round.messages ++
      [.toolCalls content calls] ++ called.map fun p => .tool p.1.id p.2.content) t)
    (hcalls : called.map Prod.fst = calls) (hne : called ≠ [])
    (hrounds : ∀ r ∈ rounds, r.called ≠ []) : Between start (rounds ++ [⟨content, called⟩]) t := by
  have hall : (rounds ++ [(⟨content, called⟩ : Round)]).flatMap Round.called ++ [] =
      rounds.flatMap Round.called ++ called := by simp
  refine ⟨⟨?_, hall ▸ h.steps, hall ▸ h.events, fun m hm => (h.sent m hm).mono _⟩, ?_⟩
  · rw [h.messages, List.flatMap_append, ← hcalls]
    simp [Round.messages]
  · intro r hr
    obtain hr | hr := List.mem_append.1 hr
    · exact hrounds r hr
    · obtain rfl := List.mem_singleton.1 hr
      exact hne

/-- The run ends with the error. -/
def Fails (n k : Nat) (start : List Message) (x : Talk × String) : Prop :=
  ∃ rounds called, Conversed n k start rounds called { x.1 with events := x.1.events ++ [.error x.2] }

variable {k : Nat}

lemma CutOff.fails (h : CutOff start rounds t) (hn : rounds.length ≤ n)
    (hne : ∀ r ∈ rounds, r.called ≠ []) (hk : t.sent.length ≤ k) (e : String) :
    Fails n k start (t, e) := by
  obtain ⟨called, tc, hevents, hsent⟩ := h
  refine ⟨rounds, called, hn, hne, hk, hsent, true, _, ?_, .toolFailed tc e, nofun⟩
  rw [hevents, List.append_assoc]
  rfl

lemma Between.fails (h : Between start rounds t) (hn : rounds.length ≤ n) (hk : t.sent.length ≤ k)
    {pieces : List String} (hpieces : ∀ piece ∈ pieces, piece ≠ "") (e : String) :
    Fails n k start ({ t with events := t.events ++ pieces.map .token }, e) := by
  refine ⟨rounds, [], hn, h.2, hk, h.1.sent, false, _, ?_, .failed pieces hpieces e, fun _ => rfl⟩
  rw [← h.1.events, List.append_assoc]

/-- The rounds that are left come to an end, or fail. -/
lemma Between.rounds_ends (h : Between start rounds t) (hn : rounds.length + m ≤ n)
    (hk : t.sent.length + m + 1 ≤ k) :
    Lib.Ends (fun t' => ∃ rounds', rounds'.length ≤ n ∧ Between start rounds' t' ∧
        t'.sent.length + 1 ≤ k) (Fails n k start) (toolRounds model tools m t) := by
  induction m generalizing rounds t with
  | zero => exact ⟨rounds, hn, h, hk⟩
  | succ m ih =>
    have hsend : t.send.sent.length = t.sent.length + 1 := by simp [Talk.send]
    rw [toolRounds]
    cases model.complete t.send.messages with
    | error e =>
      have hfails : Fails n k start ({ t.send with events := t.send.events ++ [] }, e) :=
        h.send.fails (by omega) (by omega) (List.forall_mem_nil _) e
      simp only [List.append_nil] at hfails
      exact hfails
    | ok comp =>
      dsimp only
      split
      · exact ⟨rounds, by omega, h.send, by omega⟩
      · next hcalls =>
        set content := if comp.content = "" then none else some comp.content
        have hasked : After start rounds []
            (start ++ rounds.flatMap Round.messages ++ [.toolCalls content comp.toolCalls])
            { t.send with messages := t.send.messages ++ [.toolCalls content comp.toolCalls] } :=
          ⟨congrArg (· ++ [_]) h.send.1.messages, h.send.1.steps, h.send.1.events, h.send.1.sent⟩
        refine Lib.Ends.bind (Q := fun t' => ∃ r : Round, r.called ≠ [] ∧
          Between start (rounds ++ [r]) t' ∧ t'.sent.length = t.sent.length + 1) ?_ ?_
        · refine (hasked.tools_ends tools comp.toolCalls).mono ?_ ?_
          · rintro t' ⟨hsent, more, hmore, hafter⟩
            rw [List.nil_append] at hafter
            have hne : more ≠ [] := by
              rintro rfl
              exact hcalls (by simp [← hmore])
            exact ⟨⟨content, more⟩, hne, hafter.over hmore hne h.2, hsent ▸ hsend⟩
          · rintro ⟨t', e⟩ ⟨hsent, hcut⟩
            have hlength : t'.sent.length ≤ k := by
              rw [show t'.sent = t.send.sent from hsent, hsend]
              omega
            exact hcut.fails (by omega) h.2 hlength e
        · rintro t' ⟨r, hr, hbetween, hsent⟩
          exact ih hbetween (by simp; omega) (by omega)

lemma pieces_ne (deltas : List (Option String)) : ∀ piece ∈ pieces deltas, piece ≠ "" := by
  intro piece hpiece
  obtain ⟨d, -, hd⟩ := List.mem_filterMap.1 hpiece
  simpa using (Option.mem_filter_iff.1 hd).2

lemma Between.answer_ends (h : Between start rounds t) (hn : rounds.length ≤ n)
    (hk : t.sent.length + 1 ≤ k) :
    Lib.Ends (fun t' => ∃ rounds called, Conversed n k start rounds called t') (Fails n k start)
      (answerStream model t) := by
  have hlength : t.send.sent.length ≤ k := by simpa [Talk.send] using hk
  rw [answerStream]
  rcases model.deltas t.send.messages with ⟨deltas, raised⟩
  cases raised with
  | some e => exact h.send.fails hn hlength (pieces_ne deltas) e
  | none =>
    refine ⟨rounds, [], hn, h.2, hlength, h.send.1.sent, false, _, ?_,
      .answered (pieces deltas) (pieces_ne deltas), fun _ => rfl⟩
    rw [← h.1.events, ← h.1.steps, ← List.append_assoc]
    rfl

end

section

variable {model} (tools' : Nat → ToolCall → Except String Result)

/-- The calls that have been run when a part of the loop ends. -/
def ranAt : Except (Talk × String) Talk → List ToolCall
  | .ok t => t.ran
  | .error x => x.1.ran

/-- The tools agree on each call that was run. -/
def Agreed (ran : List ToolCall) : Prop :=
  ∀ i tc, ran[i]? = some tc → tools i tc = tools' i tc

/-- A part of the loop only adds to the calls that have been run. -/
def Adds (f : Talk → Except (Talk × String) Talk) : Prop :=
  ∀ t, t.ran <+: ranAt (f t)

lemma Adds.bind {f : Talk → Except (Talk × String) Talk} (hf : Adds f)
    (x : Except (Talk × String) Talk) : ranAt x <+: ranAt (x >>= f) := by
  cases x with
  | error x => exact List.prefix_rfl
  | ok t => exact hf t

lemma callTool_ran (t : Talk) (tc : ToolCall) : ranAt (callTool tools t tc) = t.ran ++ [tc] := by
  rw [callTool]
  cases tools t.ran.length tc with
  | error e => rfl
  | ok r => rfl

lemma adds_callTools (calls : List ToolCall) : Adds fun t => calls.foldlM (callTool tools) t := by
  induction calls with
  | nil => exact fun t => List.prefix_rfl
  | cons tc calls ih =>
    intro t
    have hcall : t.ran <+: ranAt (callTool tools t tc) :=
      callTool_ran tools t tc ▸ List.prefix_append _ _
    dsimp only
    rw [List.foldlM_cons]
    exact hcall.trans (ih.bind _)

lemma adds_toolRounds (n : Nat) : Adds (toolRounds model tools n) := by
  induction n with
  | zero => exact fun t => List.prefix_rfl
  | succ n ih =>
    intro t
    rw [toolRounds]
    cases model.complete t.send.messages with
    | error e => exact List.prefix_rfl
    | ok comp =>
      dsimp only
      split
      · exact List.prefix_rfl
      · exact (adds_callTools tools comp.toolCalls { t.send with messages := _ }).trans (ih.bind _)

lemma adds_answerStream : Adds (answerStream model) := by
  intro t
  rw [answerStream]
  rcases model.deltas t.send.messages with ⟨deltas, raised⟩
  cases raised with
  | none => exact List.prefix_rfl
  | some e => exact List.prefix_rfl

variable {tools tools'}

lemma Agreed.of_isPrefix {ran ran' : List ToolCall} (h : Agreed tools tools' ran')
    (hpre : ran <+: ran') : Agreed tools tools' ran := by
  obtain ⟨rest, rfl⟩ := hpre
  intro i tc hi
  exact h i tc (by rw [List.getElem?_append_left (List.getElem?_eq_some_iff.1 hi).1, hi])

/-- Two parts of the loop, one after the other. -/
lemma Agreed.bind {x x' : Except (Talk × String) Talk} {f f' : Talk → Except (Talk × String) Talk}
    (h : Agreed tools tools' (ranAt (x >>= f))) (hf : Adds f)
    (hx : Agreed tools tools' (ranAt x) → x = x')
    (hff' : ∀ t, Agreed tools tools' (ranAt (f t)) → f t = f' t) : x >>= f = x' >>= f' := by
  refine Lib.bind_congr_ok (hx (h.of_isPrefix (hf.bind x))) fun t ht => hff' t ?_
  rwa [hx (h.of_isPrefix (hf.bind x)), ht] at h

lemma callTool_congr {t : Talk} {tc : ToolCall}
    (h : Agreed tools tools' (ranAt (callTool tools t tc))) :
    callTool tools t tc = callTool tools' t tc := by
  rw [callTool_ran] at h
  rw [callTool, callTool, h t.ran.length tc (by simp)]

lemma callTools_congr {calls : List ToolCall} {t : Talk}
    (h : Agreed tools tools' (ranAt (calls.foldlM (callTool tools) t))) :
    calls.foldlM (callTool tools) t = calls.foldlM (callTool tools') t := by
  induction calls generalizing t with
  | nil => rfl
  | cons tc calls ih =>
    rw [List.foldlM_cons] at h ⊢
    rw [List.foldlM_cons]
    exact h.bind (adds_callTools tools calls) callTool_congr fun t => ih

lemma toolRounds_congr {n : Nat} {t : Talk}
    (h : Agreed tools tools' (ranAt (toolRounds model tools n t))) :
    toolRounds model tools n t = toolRounds model tools' n t := by
  induction n generalizing t with
  | zero => rfl
  | succ n ih =>
    rw [toolRounds] at h ⊢
    rw [toolRounds]
    cases hcomplete : model.complete t.send.messages with
    | error e => rfl
    | ok comp =>
      simp only [hcomplete] at h ⊢
      split
      · rfl
      · next hcalls =>
        rw [if_neg hcalls] at h
        exact h.bind (adds_toolRounds tools n) callTools_congr fun t => ih

lemma run_congr {start : List Message} (h : Agreed tools tools' (run model tools start).ran) :
    run model tools start = run model tools' start := by
  have hran : (run model tools start).ran = ranAt
      (toolRounds model tools maxToolRounds { messages := start } >>= answerStream model) := by
    rw [run]
    cases toolRounds model tools maxToolRounds { messages := start } >>= answerStream model with
    | ok t => rfl
    | error x => rfl
  rw [hran] at h
  rw [run, run, h.bind adds_answerStream toolRounds_congr fun t _ => rfl]

end

/-- Of elements that no two are alike for, the first is found before the filter or after it. -/
lemma filter_find?_of_unique {α : Type} {p q : α → Bool} {as : List α}
    (h : ∀ a ∈ as, ∀ b ∈ as, p a → p b → a = b) :
    (as.find? p).filter q = (as.filter q).find? p := by
  induction as with
  | nil => rfl
  | cons a as ih =>
    have ih := ih fun b hb c hc => h b (List.mem_cons_of_mem a hb) c (List.mem_cons_of_mem a hc)
    cases hp : p a with
    | false => cases hq : q a <;> simp [hp, hq, ih]
    | true =>
      cases hq : q a with
      | true => simp [hp, hq]
      | false =>
        have hrest : (as.filter q).find? p = none := by
          rw [List.find?_eq_none]
          intro b hb hpb
          rw [h a List.mem_cons_self b (List.mem_cons_of_mem a (List.mem_filter.1 hb).1) hp hpb,
            (List.mem_filter.1 hb).2] at hq
          cases hq
        simp [hp, hq, hrest]

section

variable {py : Casing} {pg : Postgres} {u : Caller} {c c' : Cluster}

/-- No two calls of an organisation have the same external id. -/
lemma externalCallId_unique {schema : Ident} {cid : String} {b b' : Row}
    (hb : b ∈ tablesOf c schema .call) (hb' : b' ∈ tablesOf c schema .call)
    (hcid : b .externalCallId = some (.text cid)) (hcid' : b' .externalCallId = some (.text cid)) :
    b = b' := by
  unfold tablesOf at hb hb'
  cases htables : (c schema).tables with
  | none => simp [htables] at hb
  | some db =>
    simp only [htables, Option.map_some, Option.getD_some] at hb hb'
    refine Lib.Database.eq_of_clash (u := (Table.call, [Column.externalCallId])) (by decide) hb hb' ?_
    intro k hk
    obtain rfl := List.mem_singleton.1 hk
    rw [hcid, hcid']
    exact ⟨nofun, rfl⟩

lemma outOfGrant_iff (hcall : u.call = none) {tables : Table → List Row} {b : Row} :
    outOfGrant u b = false ↔ u.MaySee tables .call b := by
  have hbound : u.BoundTo (b .id) := by simp [Caller.BoundTo, hcall]
  rw [Caller.MaySee, and_iff_left hbound, outOfGrant, Caller.Sees]
  cases u.visible with
  | none => simp
  | some ids => simp

open Classical in
/-- The call that the arguments of a global chat name is looked for among those the caller may
see. -/
lemma find_call (hcall : u.call = none) {e : MenuEntry} (htable : e.table = .call)
    (hscope : e.scope = .call) (schema : Ident) (cid : String) :
    ((tablesOf c schema .call).find? fun b => b .externalCallId = some (.text cid)).filter
        (fun b => !outOfGrant u b) =
      (u.visibleRows (tablesOf c schema) e).find? fun b => b .externalCallId = some (.text cid) := by
  rw [filter_find?_of_unique, Caller.visibleRows, htable, hscope]
  · congr 1
    apply List.filter_congr
    intro b _
    rw [Bool.eq_iff_iff, Bool.not_eq_true', decide_eq_true_iff]
    exact outOfGrant_iff hcall
  · intro b hb b' hb' hcid hcid'
    exact externalCallId_unique hb hb' (decide_eq_true_iff.1 hcid) (decide_eq_true_iff.1 hcid')

lemma audioTarget_same (w : World) {i : Nat} (hagree : Agree py (w.caller i) c c')
    (args : Json FloatText) :
    audioTarget w c (tableSchema py (w.caller i).org) (w.caller i) args =
      audioTarget w c' (tableSchema py (w.caller i).org) (w.caller i) args := by
  obtain ⟨e, he, -, htable, hscope⟩ := menu_calls_over (tableSchema py (w.caller i).org)
  unfold audioTarget
  cases hbound : w.call with
  | some b => rfl
  | none =>
    have hcall : (w.caller i).call = none := by simpa [hbound] using w.call_id i
    dsimp only
    congr 1
    funext cid
    split
    · rfl
    · have hfind := find_call (c := c) hcall htable hscope (tableSchema py (w.caller i).org) cid
      have hfind' := find_call (c := c') hcall htable hscope (tableSchema py (w.caller i).org) cid
      have hsame := hfind.trans ((congrArg _ (hagree e he)).trans hfind'.symm)
      revert hsame
      generalize (tablesOf c (tableSchema py (w.caller i).org) .call).find? _ = found
      generalize (tablesOf c' (tableSchema py (w.caller i).org) .call).find? _ = found'
      intro hsame
      cases found with
      | none =>
        cases found' with
        | none => rfl
        | some b' =>
          have hout : outOfGrant (w.caller i) b' = true := by simpa [Option.filter] using hsame
          simp [hout]
      | some b =>
        cases hout : outOfGrant (w.caller i) b with
        | false =>
          have hfound' : some b = found'.filter fun b => !outOfGrant (w.caller i) b := by
            simpa [Option.filter, hout] using hsame
          obtain ⟨rfl, -⟩ := Option.filter_eq_some_iff.1 hfound'.symm
          rfl
        | true =>
          have hnone : none = found'.filter fun b => !outOfGrant (w.caller i) b := by
            simpa [Option.filter, hout] using hsame
          cases found' with
          | none => simp [hout]
          | some b' =>
            have hout' : outOfGrant (w.caller i) b' = true := by simpa [Option.filter] using hnone
            simp [hout, hout']

end

end Pulse.Chat.Agent
