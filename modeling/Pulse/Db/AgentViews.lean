import Pulse.Db.Models
import Pulse.Db.Session

/-!
# The agent views

`AGENT_VIEWS` of `db/agent_views.py`: the menu of views that the SQL agent of an organisation
sees, each with its source table, its columns and the way its rows reach an agent and a call.
-/

namespace Pulse.Db

/-- The scope kinds. -/
inductive Scope
  | call
  | agent
  | ownCall
  | own
  | viaCall
  deriving DecidableEq, Repr

/-- `CREATE VIEW … AS SELECT columns FROM schema.table b WHERE <scope predicate>` -/
structure View where
  schema : Ident
  table : Table
  columns : List Column
  scope : Scope
  deriving DecidableEq, Repr

/-- One entry of `AGENT_VIEWS`. -/
structure MenuEntry where
  view : String
  table : Table
  columns : List Column
  scope : Scope

def col (name : String) : Column := .other name

def agentViews : List MenuEntry := [
  ⟨"calls", .call, [.id, .externalCallId, .agentId, .source, col "environment", col "engine",
    col "carrier", col "stt_provider", col "llm_provider", col "tts_provider", col "voice",
    col "campaign_id", col "started_at", col "ended_at", col "duration_s", col "status",
    col "terminal_reason", col "hangup_by", col "cost_llm", col "cost_stt", col "cost_tts",
    col "cost_total", col "cost_currency", col "tokens_in", col "tokens_out", col "tokens_cached",
    col "stt_seconds", col "bookmarked", col "created_at"], .call⟩,
  ⟨"events", .event, [.callId, col "span_id", col "parent_span_id", col "turn_id",
    col "t_offset_s", .kind, col "type", .name, col "duration_s", col "error", col "content_text",
    col "content_kind"], .viaCall⟩,
  ⟨"turns", .turn, [.callId, .turnIndex, col "trigger", col "interrupted", col "abandoned",
    col "response_latency_ms", col "stt_lag_ms", col "endpointing_ms", col "llm_ttft_ms",
    col "assembly_ms", col "dispatch_ms", col "tts_ttfb_ms", col "playout_ms",
    col "e2e_latency_ms", col "language", col "stt_confidence", col "tokens_in",
    col "tokens_out", col "finish_reason", col "tts_cancelled", col "cut_reason",
    col "caller_transcript", col "llm_spoken"], .viaCall⟩,
  ⟨"utterances", .utterance, [.callId, col "channel", col "t_start_s", col "t_end_s"], .viaCall⟩,
  ⟨"metrics", .metric, [.callId, .name, col "value_num", col "value_text", col "available",
    col "reason"], .viaCall⟩,
  ⟨"judgments", .judgment, [.callId, col "disposition", col "status", col "sentiment",
    col "objective_achieved", col "answered_by", col "primary_language",
    col "secondary_languages", col "script_adherence", col "escalation_requested",
    col "callback_requested", col "callback_time", col "guardrail_violation",
    col "guardrail_violation_points", col "is_failure", col "root_cause", col "model_fault",
    col "model_fault_detail", col "hallucination", col "hallucination_detail",
    col "suggested_fix", col "summary", col "judged_at"], .viaCall⟩,
  ⟨"clusters", .cluster, [.lever, .clusterKey, col "label", col "size", col "updated_at"], .own⟩,
  ⟨"call_clusters", .callCluster, [.callId, .lever, .clusterKey, col "x", col "y"], .ownCall⟩,
  ⟨"call_embeddings", .callEmbedding, [.callId, .field, col "embedding", col "model"], .viaCall⟩,
  ⟨"agents", .agent, [.id, .name, .slug], .agent⟩]

/-- The definition of a menu view over the tables of `schema`. -/
def MenuEntry.over (e : MenuEntry) (schema : Ident) : View :=
  ⟨schema, e.table, e.columns, e.scope⟩

/-- The menu over the tables of `schema`. -/
def menu (schema : Ident) (view : String) : Option View :=
  (agentViews.find? (·.view = view)).map (·.over schema)

lemma menu_calls (schema : Ident) : ∃ v, menu schema "calls" = some v ∧ v.schema = schema :=
  ⟨_, rfl, rfl⟩

lemma menu_schema {schema : Ident} {view : String} {v : View} (h : menu schema view = some v) :
    v.schema = schema := by
  obtain ⟨e, -, rfl⟩ := Option.map_eq_some_iff.1 h
  rfl

end Pulse.Db
