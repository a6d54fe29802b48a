import Pulse.Db.Provision

/-!
# The SQL of the chat agent

`run_agent_sql` of `chat/sql.py` on PostgreSQL, and the scope predicates of the agent views.
What a query text does is a parameter: a `Query` is the steps it takes, each of which may
depend on what the steps before it have read. The role may read every organisation's agent
views; there is no filter on what a query names.
-/

namespace Pulse.Chat

open Pulse.Db

abbrev Cell := Option Value

/-- The steps of a query. `setConfig` is `SET` or `set_config` of a setting other than the
search path. -/
inductive Query
  | result (columns : List String) (rows : List (List Cell))
  | noRows
  | fail (message : String)
  | scan (schema : Option Ident) (relation : String) (next : List (List Cell) → Query)
  | setSearchPath (path : List Ident) (next : Query)
  | setConfig (name value : String) (next : Query)
  | currentSetting (name : String) (next : Option String → Query)

/-- What is not in the repository: the meaning of a query text, the system relations and
functions, found before any schema of the search path, and the settings of a new session. -/
structure Postgres where
  meaning : String → Query
  system : Option Ident → String → Option (Cluster → List (List Cell))
  setting : String → Option String

/-! ### The scope predicates -/

/-- `",".join(ids)` -/
def join (ids : List String) : String :=
  String.ofList ([','].intercalate (ids.map (·.toList)))

/-- `string_to_array(s, ',')` -/
def stringToArray (s : String) : List String :=
  if s = "" then [] else (s.toList.splitOn ',').map String.ofList

/-- `_agent_member`: the setting is `*`, or lists the agent. -/
def agentMember (visibleAgents : Option String) (agent : Cell) : Bool :=
  match visibleAgents with
  | none => false
  | some va => va = "*" || (stringToArray va).any fun a => agent = some (.text a)

/-- `_call_match`: the setting is empty, or is the call. -/
def callMatch (callId : Option String) (call : Cell) : Bool :=
  callId.getD "" = "" || call = some (.text (callId.getD ""))

/-- `_predicate`, given how a row's agent and call are checked. -/
def predicate (agent call : Cell → Bool) (tables : Table → List Row) (scope : Scope) (b : Row) :
    Bool :=
  match scope with
  | .call => agent (b .agentId) && call (b .id)
  | .agent => agent (b .id)
  | .ownCall => agent (b .agentId) && call (b .callId)
  | .own => agent (b .agentId)
  | .viaCall => (tables .call).any fun c =>
      (c .id).isSome && c .id = b .callId && agent (c .agentId) && call (c .id)

/-- The rows of a schema's tables. -/
def tablesOf (c : Cluster) (schema : Ident) (t : Table) : List Row :=
  ((c schema).tables.map (·.rows t)).getD []

def viewRows (c : Cluster) (visibleAgents callId : Option String) (v : View) :
    List (List Cell) :=
  ((tablesOf c v.schema v.table).filter (predicate (agentMember visibleAgents)
    (callMatch callId) (tablesOf c v.schema) v.scope)).map fun b => v.columns.map b

/-! ### Running a query -/

structure Settings where
  path : List Ident
  value : String → Option String

def Settings.set (st : Settings) (name value : String) : Settings :=
  { st with value := fun n => if n = name then some value else st.value n }

/-- `GRANT USAGE ON SCHEMA`: the role may use the agent view schemas. -/
def usable (schema : Ident) : Bool := ['a', 'g', '_'].isPrefixOf schema

/-- The error for a relation that the role does not find or may not read. -/
def missing (c : Cluster) (schema : Option Ident) (relation : String) : String :=
  match schema with
  | none => "relation " ++ relation ++ " does not exist"
  | some s =>
    if (c s).tables.isSome && !usable s then
      "permission denied for schema " ++ String.ofList s
    else "relation " ++ String.ofList s ++ "." ++ relation ++ " does not exist"

/-- The schemas in which a reference is looked up. Those that the role may not use are passed
over. -/
def searched (st : Settings) (schema : Option Ident) : List Ident :=
  (match schema with
    | none => st.path
    | some s => [s]).filter usable

def lookup (pg : Postgres) (c : Cluster) (st : Settings) (schema : Option Ident)
    (relation : String) : Except String (List (List Cell)) :=
  match pg.system schema relation with
  | some rows => .ok (rows c)
  | none =>
    match (searched st schema).findSome? fun s => (c s).views relation with
    | some v => .ok (viewRows c (st.value "pulse.visible_agents") (st.value "pulse.call_id") v)
    | none => .error (missing c schema relation)

inductive Outcome
  | result (columns : List String) (rows : List (List Cell))
  | noRows
  | error (message : String)
  deriving DecidableEq

def Query.run (pg : Postgres) (c : Cluster) : Settings → Query → Outcome
  | _, .result columns rows => .result columns rows
  | _, .noRows => .noRows
  | _, .fail message => .error message
  | st, .scan schema relation next =>
    match lookup pg c st schema relation with
    | .ok rows => (next rows).run pg c st
    | .error message => .error message
  | st, .setSearchPath path next => next.run pg c { st with path := path }
  | st, .setConfig name value next => next.run pg c (st.set name value)
  | st, .currentSetting name next => (next (st.value name)).run pg c st

/-- The dictionary that `run_agent_sql` returns. -/
inductive Answer
  | rows (columns : List String) (rows : List (List Cell)) (rowCount : Nat) (truncated : Bool)
  | error (message : String)
  deriving DecidableEq

/-- The characters that `str.strip` takes off. -/
def isSpace (c : Char) : Bool :=
  c.toNat ∈ [0x20, 0x85, 0xA0, 0x1680, 0x2028, 0x2029, 0x202F, 0x205F, 0x3000] ||
    (0x09 ≤ c.toNat && c.toNat ≤ 0x0D) || (0x1C ≤ c.toNat && c.toNat ≤ 0x1F) ||
    (0x2000 ≤ c.toNat && c.toNat ≤ 0x200A)

/-- The characters that `str.splitlines` splits at. -/
def isLineEnd (c : Char) : Bool :=
  c.toNat ∈ [0x85, 0x2028, 0x2029] || (0x0A ≤ c.toNat && c.toNat ≤ 0x0D) ||
    (0x1C ≤ c.toNat && c.toNat ≤ 0x1E)

def strip (s : String) : String :=
  String.ofList ((s.toList.dropWhile isSpace).reverse.dropWhile isSpace).reverse

def contains (part s : String) : Bool :=
  s.toList.tails.any (part.toList.isPrefixOf ·)

/-- `_sanitize` of `chat/sql.py` -/
def sanitizeMessage (py : Casing) (msg : String) : String :=
  let msg := strip msg
  let first := if msg = "" then "query failed"
    else String.ofList (msg.toList.takeWhile (!isLineEnd ·))
  let low := py.lower first
  if contains "permission denied" low || contains "does not exist" low then
    "query refers to something not available — you may only query the documented " ++
      "tables (calls, events, turns, utterances, metrics, judgments, clusters, " ++
      "call_clusters, call_embeddings, agents)"
  else String.ofList (first.toList.take 300)

/-- `_MAX_ROWS` -/
def defaultMaxRows : Nat := 500

def answer (py : Casing) (maxRows : Nat) : Outcome → Answer
  | .result columns rows =>
    let fetched := rows.take (maxRows + 1)
    let kept := fetched.take maxRows
    .rows columns kept kept.length (maxRows < fetched.length)
  | .noRows => .rows [] [] 0 false
  | .error message => .error (sanitizeMessage py message)

/-- The setting for the agents: `*` for an owner or admin. -/
def agentsVal (visibleAgents : Option (List String)) : String :=
  match visibleAgents with
  | none => "*"
  | some ids => join ids

/-- The settings that the query starts with. -/
def scopeSettings (py : Casing) (pg : Postgres) (orgSlug : String)
    (visibleAgents : Option (List String)) (callId : Option String) : Settings :=
  let st : Settings := ⟨[viewSchema py orgSlug], pg.setting⟩
  (st.set "pulse.visible_agents" (agentsVal visibleAgents)).set "pulse.call_id" (callId.getD "")

def runAgentSql (py : Casing) (pg : Postgres) (c : Cluster) (orgSlug query : String)
    (visibleAgents : Option (List String)) (callId : Option String) (maxRows : Nat) : Answer :=
  answer py maxRows
    ((pg.meaning query).run pg c (scopeSettings py pg orgSlug visibleAgents callId))

end Pulse.Chat
