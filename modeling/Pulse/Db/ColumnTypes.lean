import Mathlib.Tactic.Common

/-!
# The bounds of the columns

The columns of `call`, `raw_fragment`, `turn`, `metric` and `event` in `db/models.py` that PostgreSQL
bounds: a string has a length, and an integer has 32 bits. A column that is not listed is a float, a
boolean, a time, a JSON document or a text without a length.
-/

namespace Pulse.Db

/-- A column type with a bound. -/
inductive ColumnType
  | string (length : Nat)
  | integer
  deriving DecidableEq, Repr

/-- What is written to a column. Of a value that is neither a string nor an integer nothing is kept. -/
inductive ColumnValue
  | null
  | str (s : String)
  | int (i : Int)
  | other
  deriving DecidableEq, Repr

def ColumnValue.ofText (s : Option String) : ColumnValue :=
  s.elim .null .str

def ColumnValue.ofInt (i : Option Int) : ColumnValue :=
  i.elim .null .int

/-- The range of an integer column. -/
def InRange (i : Int) : Prop :=
  -2147483648 ≤ i ∧ i ≤ 2147483647

instance : DecidablePred InRange := fun _ => inferInstanceAs (Decidable (_ ∧ _))

/-- The value has the type of the column and is within its bound. -/
def Fits : ColumnType → ColumnValue → Prop
  | _, .null => True
  | .string n, .str s => s.length ≤ n
  | .integer, .int i => InRange i
  | .string _, .int _ | .integer, .str _ | _, .other => False

lemma fits_null (t : ColumnType) : Fits t .null := by
  cases t <;> trivial

@[simp] lemma fits_str {n : Nat} {s : String} : Fits (.string n) (.str s) ↔ s.length ≤ n := Iff.rfl

@[simp] lemma fits_int {i : Int} : Fits .integer (.int i) ↔ InRange i := Iff.rfl

@[simp] lemma fits_ofText {n : Nat} {s : Option String} :
    Fits (.string n) (.ofText s) ↔ ∀ t ∈ s, t.length ≤ n := by
  cases s <;> simp [ColumnValue.ofText, fits_null]

@[simp] lemma fits_ofInt {i : Option Int} : Fits .integer (.ofInt i) ↔ ∀ n ∈ i, InRange n := by
  cases i <;> simp [ColumnValue.ofInt, fits_null]

/-- The bounds of a table, by the names of its columns. -/
abbrev Bounds := List (String × ColumnType)

/-- The cell fits the column of the name. -/
def Bounds.Admits (bounds : Bounds) (name : String) (c : ColumnValue) : Prop :=
  ∀ t ∈ bounds.lookup name, Fits t c

def Bounds.AdmitsRow (bounds : Bounds) (row : List (String × ColumnValue)) : Prop :=
  ∀ e ∈ row, bounds.Admits e.1 e.2

lemma Bounds.admits_null (bounds : Bounds) (name : String) : bounds.Admits name .null :=
  fun t _ => fits_null t

/-- `Call` -/
def callBounds : Bounds := [
  ("id", .string 36), ("external_call_id", .string 128), ("trace_id", .string 64),
  ("source", .string 64), ("environment", .string 16), ("schema_version", .integer),
  ("engine", .string 16), ("carrier", .string 32), ("stt_provider", .string 64),
  ("llm_provider", .string 64), ("tts_provider", .string 64), ("voice", .string 64),
  ("campaign_id", .string 128), ("prompt_id", .string 36), ("audio_t0_epoch_ns", .integer),
  ("sample_rate", .integer), ("terminal_reason", .string 64), ("hangup_by", .string 16),
  ("cost_currency", .string 8), ("tokens_in", .integer), ("tokens_out", .integer),
  ("tokens_cached", .integer), ("tts_chars", .integer), ("tts_chars_cut", .integer),
  ("stt_segments_heard", .integer), ("stt_segments_overheard", .integer),
  ("stt_segments_dropped", .integer), ("span_dropped_events", .integer),
  ("unattributed_spans", .integer), ("service_instance_id", .string 64), ("agent_id", .string 36),
  ("status", .string 24), ("analysis_mode", .string 24), ("audio_layout", .string 16),
  ("retention_days", .integer), ("app_version", .string 64), ("metric_version", .integer),
  ("adapter_version", .integer)]

/-- `RawFragment` -/
def rawFragmentBounds : Bounds := [
  ("id", .string 36), ("call_id", .string 36), ("batch_id", .string 64), ("seq", .integer),
  ("schema_version", .integer)]

/-- `Event` -/
def eventBounds : Bounds := [
  ("id", .string 36), ("call_id", .string 36), ("span_id", .string 64),
  ("parent_span_id", .string 64), ("turn_id", .string 160), ("position", .integer),
  ("kind", .string 8), ("type", .string 48), ("name", .string 64), ("content_kind", .string 24)]

/-- `Turn` -/
def turnBounds : Bounds := [
  ("id", .string 36), ("call_id", .string 36), ("turn_index", .integer), ("turn_id", .string 160),
  ("trigger", .string 16), ("language", .string 16), ("tokens_in", .integer),
  ("tokens_out", .integer), ("tokens_cached", .integer), ("finish_reason", .string 32),
  ("tts_chars", .integer), ("tts_chars_cut", .integer), ("cut_reason", .string 16),
  ("metric_version", .integer)]

/-- `Metric` -/
def metricBounds : Bounds := [
  ("id", .string 36), ("call_id", .string 36), ("name", .string 64), ("value_text", .string 128),
  ("reason", .string 128), ("metric_version", .integer)]

end Pulse.Db
