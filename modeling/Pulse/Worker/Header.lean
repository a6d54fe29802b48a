import Pulse.Worker.Persist

/-!
# What ingest owns

`_apply_header` of `worker/process.py` on the columns that ingest and the media paths write. A
header copies every counter that has the name of a column, less three.
-/

namespace Pulse.Worker.Process

open Pulse.Core
open Lib (PyFloat)

/-- `_apply_header` -/
def applyHeader (cols : Columns) (h : CallHeader) : Columns := cols.setAll (headerWrites h)

/-- The columns of a call that a header is to leave alone. -/
def ingestColumns : List String :=
  ["id", "external_call_id", "trace_id", "source", "environment", "agent_id", "prompt_id",
    "status", "spans_complete", "media_ready", "audio_t0_offset_s", "channel_map",
    "schema_version", "app_version", "metric_version", "adapter_version"]

/-- The names that `_apply_header` skips. -/
def skippedColumns : List String := ["id", "source", "environment"]

lemma headerFields_lookup (h : CallHeader) {name : String} (hname : name ∈ ingestColumns) :
    (headerFields h).lookup name = (h.counters.lookup name).map .value := by
  have hfields : name ∉ ["started_at", "engine", "carrier", "stt_provider", "llm_provider",
      "tts_provider", "voice", "ended_at"] := by
    revert name
    decide
  rw [headerFields, List.lookup_append, Lib.lookup_map_value, lookup_eq_none_of_keys rfl hfields,
    Option.or_none]

/-- Of the columns that ingest owns a header writes those that a counter names. -/
lemma headerWrites_lookup (h : CallHeader) {name : String} (hname : name ∈ ingestColumns) :
    (headerWrites h).lookup name =
      if name ∈ skippedColumns then none else (h.counters.lookup name).map .value := by
  have hcolumn : name ∈ callColumns := by
    revert name
    decide
  have hlabels : name ≠ "labels" ∧ name ≠ "duration_s" ∧ name ≠ "campaign_id" := by
    revert name
    decide
  obtain ⟨hlabels, hduration, hcampaign⟩ := hlabels
  have hfront (ws : List (String × Column)) (hws : ∀ e ∈ ws, e.1 = "duration_s") :
      ws.lookup name = none := by
    rw [List.lookup_eq_none_iff]
    intro e he
    rw [hws e he]
    simpa using hduration
  have hrest : (headerFields h |>.filter fun e =>
      e.1 ∈ callColumns ∧ e.1 ∉ ["id", "source", "environment", "labels"]).lookup name =
        if name ∈ skippedColumns then none else (h.counters.lookup name).map .value := by
    rw [Lib.lookup_filter_key
      (fun a => decide (a ∈ callColumns ∧ a ∉ ["id", "source", "environment", "labels"])),
      headerFields_lookup h hname]
    by_cases hskipped : name ∈ skippedColumns
    · rw [if_pos hskipped, if_neg]
      simp only [skippedColumns, List.mem_cons, List.not_mem_nil, or_false] at hskipped
      simp only [decide_eq_true_eq, not_and, not_not]
      intro _
      rcases hskipped with rfl | rfl | rfl <;> simp
    · rw [if_neg hskipped, if_pos]
      simp only [skippedColumns, List.mem_cons, List.not_mem_nil, or_false, not_or] at hskipped
      simp [hcolumn, hskipped, hlabels]
  rw [headerWrites, List.lookup_append, List.lookup_append, hrest,
    hfront _ (by split <;> simp), Option.none_or,
    lookup_eq_none_of_keys rfl (by simpa using ⟨hlabels, hcampaign⟩), Option.none_or]

/-- The header leaves the columns of ingest exactly if each counter with the name of one of them
has the value that is there. -/
theorem applyHeader_ingest_iff (cols : Columns) (h : CallHeader) :
    (∀ name ∈ ingestColumns, applyHeader cols h name = cols name) ↔
      ∀ name ∈ ingestColumns, name ∉ skippedColumns →
        ∀ v, h.counters.lookup name = some v → cols name = .value v := by
  unfold applyHeader
  constructor
  · intro hframe name hname hskipped v hv
    have hlookup : (headerWrites h).lookup name = some (.value v) := by
      rw [headerWrites_lookup h hname, if_neg hskipped, hv, Option.map_some]
    rw [← hframe name hname, setAll_of_mem hlookup]
  · intro hcounters name hname
    cases hlookup : (headerWrites h).lookup name with
    | none => exact setAll_of_not_mem hlookup
    | some c =>
      rw [setAll_of_mem hlookup]
      rw [headerWrites_lookup h hname] at hlookup
      split at hlookup
      · cases hlookup
      · rename_i hskipped
        obtain ⟨v, hv, rfl⟩ := Option.map_eq_some_iff.1 hlookup
        exact (hcounters name hname hskipped v hv).symm

/-- A producer counts something that it calls a status. -/
def countedHeader : CallHeader where
  callId := "c1"
  source := "mapped"
  environment := "prod"
  counters := [("status", .int 200)]

theorem counter_overwrites_status :
    ¬∀ name ∈ ingestColumns, applyHeader (fun _ => .null) countedHeader name = .null := by
  intro h
  have hstatus := h "status" (by decide)
  have hwritten : applyHeader (fun _ => .null) countedHeader "status" = .value (.int 200) := by
    rw [applyHeader, setAll_of_mem]
    rw [headerWrites_lookup _ (by decide)]
    rfl
  rw [hwritten] at hstatus
  cases hstatus

end Pulse.Worker.Process
