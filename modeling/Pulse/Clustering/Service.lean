import Pulse.Chat.Sql
import Pulse.Lib.Groups
import Pulse.Lib.Keyed

/-!
# Semantic clustering

`recluster` of `clustering/service.py`: the prose of the judgments is embedded, and the clusters of
each agent and lever are written anew. The embedding model, the reduction of the vectors to a plane,
HDBSCAN and the model that names a cluster are parameters, and may all fail.
-/

namespace Pulse.Clustering

open Lib (Keyed group)

/-! ### The tables -/

structure Call where
  id : String
  agentId : Option String
  /-- `coalesce(started_at, created_at)` in microseconds. -/
  time : Int

structure Judgment where
  callId : String
  rootCause : Option String
  suggestedFix : Option String
  summary : Option String
  guardrailViolationPoints : Option (List String)
  hallucinationDetail : Option String

inductive Lever
  | rootCause | suggestedFix | summary | guardrailPoints | hallucinationDetail
  deriving DecidableEq, Repr

/-- The keys of `LEVERS`, in their order. -/
def levers : List Lever :=
  [.rootCause, .suggestedFix, .summary, .guardrailPoints, .hallucinationDetail]

def Lever.name : Lever → String
  | .rootCause => "root_cause"
  | .suggestedFix => "suggested_fix"
  | .summary => "summary"
  | .guardrailPoints => "guardrail_points"
  | .hallucinationDetail => "hallucination_detail"

/-- The values of `LEVERS`. -/
def Lever.extract (j : Judgment) : Lever → Option String
  | .rootCause => j.rootCause
  | .suggestedFix => j.suggestedFix
  | .summary => j.summary
  | .guardrailPoints => some (" ".intercalate (j.guardrailViolationPoints.getD [])) |>.filter (· ≠ "")
  | .hallucinationDetail => j.hallucinationDetail

/-- `_text_col` -/
def Lever.textCol (j : Judgment) : Lever → Option String
  | .rootCause => j.rootCause
  | .suggestedFix => j.suggestedFix
  | .summary => j.summary
  | .hallucinationDetail => j.hallucinationDetail
  | .guardrailPoints => j.summary

variable {V C : Type}

structure CallEmbedding (V : Type) where
  callId : String
  field : Lever
  embedding : V
  model : String

structure Cluster where
  agentId : String
  lever : Lever
  clusterKey : Int
  label : String
  size : Nat

structure CallCluster (C : Type) where
  callId : String
  agentId : String
  lever : Lever
  clusterKey : Option Int
  x : C
  y : C

/-- `uq_call_embedding`, `uq_cluster` and `uq_call_cluster` -/
def CallEmbedding.key (e : CallEmbedding V) : String × Lever := (e.callId, e.field)
def Cluster.key (c : Cluster) : String × Lever × Int := (c.agentId, c.lever, c.clusterKey)
def CallCluster.key (a : CallCluster C) : String × Lever := (a.callId, a.lever)

/-- What a session sees of an organisation's schema. -/
structure Store (V C : Type) where
  calls : Keyed Call.id
  judgments : Keyed Judgment.callId
  embeddings : Keyed (CallEmbedding.key (V := V))
  clusters : Keyed Cluster.key
  assignments : Keyed (CallCluster.key (C := C))

/-- What a statement raises, or the numerical code. -/
inductive Raised
  | unique
  | foreignKey
  | analytics (message : String)

/-- The foreign key of a table to `call`. -/
def Store.referring (s : Store V C) (callIds : List String) : Except Raised Unit :=
  if ∀ id ∈ callIds, id ∈ s.calls.rows.map Call.id then .ok () else .error .foreignKey

/-! ### What is not in the repository -/

/-- The services of one run. `embed` gets the number of the batch. The vectors are projected and
labelled one by one. -/
structure Analytics (V C : Type) where
  model : String
  embed : Lever → Nat → List String → Except String (List V)
  project : List V → Except String (List (C × C))
  hdbscan : List V → Except String (List Int)
  complete : Option (String → Except String (Option String))
  project_length : ∀ vectors coords, project vectors = .ok coords → coords.length = vectors.length
  hdbscan_length : ∀ vectors labels, hdbscan vectors = .ok labels → labels.length = vectors.length

structure Config where
  embedBatchSize : Nat
  clusterWindow : Int
  clusterMinSize : Nat
  embedBatchSize_pos : 0 < embedBatchSize

/-- `_MIN_TO_CLUSTER` -/
def minToCluster : Nat := 6

variable (cfg : Config) (w : Analytics V C)

/-! ### Embedding -/

/-- `range(0, len(pending), batch_size)` and its slices. -/
def batches {α : Type} (size : Nat) (as : List α) : List (List α) :=
  (List.range ((as.length + size - 1) / size)).map fun i => (as.drop (i * size)).take size

/-- The prose to embed for a lever. -/
def pending (s : Store V C) (lever : Lever) : List (String × String) :=
  let have_ := (s.embeddings.rows.filter fun e => e.field = lever).map (·.callId)
  s.judgments.rows.filterMap fun j =>
    if j.callId ∈ have_ then none
    else ((lever.extract j).map Chat.strip).filter (· ≠ "") |>.map (j.callId, ·)

/-- The rows of a batch; none if it could not be embedded. -/
def embedBatch (lever : Lever) (i : Nat) (batch : List (String × String)) :
    List (CallEmbedding V) :=
  match w.embed lever i (batch.map Prod.snd) with
  | .error _ => []
  | .ok vecs => (batch.zip vecs).map fun p => ⟨p.1.1, lever, p.2, w.model⟩

/-- What a lever adds to `call_embedding`. -/
def embedded (s : Store V C) (lever : Lever) : List (CallEmbedding V) :=
  (batches cfg.embedBatchSize (pending s lever)).zipIdx.flatMap fun p => embedBatch w lever p.2 p.1

def backfillLever (s : Store V C) (lever : Lever) : Except Raised (Store V C) := do
  let rows := embedded cfg w s lever
  s.referring (rows.map (·.callId))
  let embeddings ← s.embeddings.insert .unique rows
  return { s with embeddings }

/-- `_backfill_embeddings` -/
def backfillEmbeddings (s : Store V C) : Except Raised (Store V C) :=
  levers.foldlM (backfillLever cfg w) s

/-! ### Clustering -/

/-- `algo.cluster` -/
def cluster (vectors : List V) : Except Raised (List Int × List (C × C)) :=
  if vectors = [] then .ok ([], [])
  else do
    let coords ← (w.project vectors).mapError .analytics
    let labels ←
      if max 2 cfg.clusterMinSize ≤ vectors.length then (w.hdbscan vectors).mapError .analytics
      else .ok (List.replicate vectors.length (-1))
    return (labels, coords)

/-- `_label_cluster`, of exemplars that are not empty. -/
def labelCluster (lever : Lever) (exemplars : List String) : String :=
  match exemplars with
  | [] => "Unlabelled"
  | first :: _ =>
    let short := String.ofList (first.toList.take 60)
    match w.complete with
    | none => short
    | some complete =>
      let prompt := "These are examples from one cluster of voice-agent '" ++ lever.name ++
        "' notes. Give a SHORT theme label (max 6 words), no punctuation, no quotes:\n- " ++
        "\n- ".intercalate exemplars
      match complete prompt with
      | .error _ => short
      | .ok content =>
        let label := Chat.strip ((content.filter (· ≠ "")).getD short)
        let quote := fun c => c = '"'
        String.ofList (((label.toList.dropWhile quote).rdropWhile quote).take 80)

/-- The embeddings of a lever whose calls are in the window, with the agents of the calls. -/
def windowed (s : Store V C) (lever : Lever) (since : Int) : List (String × Option String × V) :=
  s.embeddings.rows.filterMap fun e =>
    if e.field = lever then
      (s.calls.rows.find? fun c => c.id = e.callId ∧ since ≤ c.time).map
        fun c => (e.callId, c.agentId, e.embedding)
    else none

/-- `by_agent` -/
def byAgent (rows : List (String × Option String × V)) : List (String × List (String × V)) :=
  group (fun r => r.2.1.getD "") (fun r => (r.1, r.2.2)) rows

/-- The calls of each cluster. -/
def members (assignments : List (CallCluster C)) : List (Int × List String) :=
  group Prod.fst Prod.snd (assignments.filterMap fun a => a.clusterKey.map (·, a.callId))

/-- The rows of `call_cluster` for an agent. -/
def assigned (lever : Lever) (agentId : String) (callIds : List String) (labels : List Int)
    (coords : List (C × C)) : List (CallCluster C) :=
  (callIds.zip (labels.zip coords)).map fun p =>
    ⟨p.1, agentId, lever, if 0 ≤ p.2.1 then some p.2.1 else none, p.2.2.1, p.2.2.2⟩

/-- The rows of `cluster` for an agent. -/
def themed (s : Store V C) (lever : Lever) (agentId : String) (ms : List (Int × List String)) :
    List Cluster :=
  ms.map fun m =>
    let texts := (m.2.take 5).filterMap fun id =>
      ((s.judgments.rows.find? fun j => j.callId = id).bind (Lever.textCol · lever)).filter (· ≠ "")
    ⟨agentId, lever, m.1, labelCluster w lever texts, m.2.length⟩

/-- `_cluster_agent` -/
def clusterAgent (lever : Lever) (s : Store V C) (agentId : String) (rows : List (String × V)) :
    Except Raised (Store V C × Nat) := do
  let (labels, coords) ← cluster cfg w (rows.map Prod.snd)
  let calls := assigned lever agentId (rows.map Prod.fst) labels coords
  s.referring (calls.map (·.callId))
  let assignments ← s.assignments.insert .unique calls
  let ms := members calls
  let clusters ← s.clusters.insert .unique (themed w s lever agentId ms)
  return ({ s with assignments, clusters }, ms.length)

/-- `_recluster_lever` -/
def reclusterLever (since : Int) (s : Store V C) (lever : Lever) :
    Except Raised (Store V C × Nat) :=
  let groups := byAgent (windowed s lever since)
  let s := { s with
    assignments := s.assignments.delete fun a => a.lever = lever
    clusters := s.clusters.delete fun c => c.lever = lever }
  groups.foldlM (fun (s, total) (agentId, rows) =>
    if rows.length < minToCluster then .ok (s, total)
    else (clusterAgent cfg w lever s agentId rows).map fun (s, n) => (s, total + n)) (s, 0)

/-- What `recluster` returns. -/
inductive Summary
  | skipped (reason : String)
  | clusters (counts : List (Lever × Nat))

/-- `recluster`, where an embedding model is configured and the analytics extra is installed or not.
What it raises is rolled back. -/
def recluster (resolved available : Bool) (now : Int) (s : Store V C) :
    Except Raised (Store V C × Summary) :=
  if !resolved then .ok (s, .skipped "no embedding model configured")
  else if !available then .ok (s, .skipped "analytics extra not installed")
  else do
    let s ← backfillEmbeddings cfg w s
    let (s, out) ← levers.foldlM (fun (s, out) lever =>
      (reclusterLever cfg w (now - cfg.clusterWindow) s lever).map fun (s, n) =>
        (s, out ++ [(lever, n)])) (s, [])
    return (s, .clusters out)

end Pulse.Clustering
