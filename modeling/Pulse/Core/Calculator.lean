import Pulse.Lib.Except
import Pulse.Lib.Json
import Pulse.Lib.Lists
import Mathlib.Tactic.Common

/-!
# The turns of an analysis

`Calculator.analyze` of `core/calculator.py`: one turn for each exchange of the trace, in call
order, or turns inferred from the events when no span is a turn. What a turn measures (the
waterfall with its anchor hooks) and the reports made from the turns are parameters; a turn's id
and its index are not.
-/

namespace Pulse.Core

/-- The exceptions that a conversion raises. -/
inductive PyError
  | typeError
  | valueError
  | overflowError
  deriving DecidableEq, Repr

/-- What the calculator uses of floats and of characters. `lt` may be any comparison, since a
not-a-number compares with nothing. -/
class Builtins (F : Type) where
  zero : F
  inf : F
  lt : F → F → Bool
  /-- `float(n)` -/
  ofInt : Int → Except PyError F
  /-- `int(x)` -/
  toInt : F → Except PyError Int
  digit : Char → Option Nat
  isSpace : Char → Bool

/-- An attribute value. -/
abbrev Value (F : Type) := Lib.Json F

inductive Stage
  | call | turn | speech | stt | llm | tts | playout | tool | net | unknown
  deriving DecidableEq, Repr

structure SpanEvent (F : Type) where
  name : String
  t : Option F := none
  attrs : List (String × Value F) := []
  content : List (String × Value F) := []

structure Span (F : Type) where
  spanId : String
  parentSpanId : Option String := none
  name : String
  stage : Stage
  tStart : Option F := none
  tEnd : Option F := none
  sequence : Option Int := none
  turnId : Option String := none
  error : Bool := false
  attrs : List (String × Value F) := []
  content : List (String × Value F) := []
  events : List (SpanEvent F) := []

structure Trace (F H : Type) where
  header : H
  spans : List (Span F)

structure Utterance (F : Type) where
  channel : String
  tStart : F
  tEnd : F

structure AudioAnalysis (F : Type) where
  utterances : List (Utterance F)
  coverage : List (String × F)

/-- A turn, with all that it measures in one value. -/
structure Turn (M : Type) where
  turnIndex : Int
  turnId : String
  measured : M

/-- The window of events that `_turns_from_events` is collecting. -/
structure Group (F : Type) where
  sttFinal : Option F := none
  committed : Option F := none
  llmFirst : Option F := none
  ttsFirst : Option F := none
  transcript : Option String := none
  llmRaw : Option String := none
  llmSpoken : Option String := none
  interrupted : Bool := false
  agentSeen : Bool := false

/-- The parts of a calculator that place no turn: the waterfall, what a group of events measures,
and the metrics and trust report. -/
structure Calculator (F H M R : Type) where
  waterfall : Span F → String → List (Span F) → List (Utterance F) → F → Except PyError M
  eventTurn : Group F → M
  report : Trace F H → Option (AudioAnalysis F) → List (Turn M) → F → Except PyError R

structure Analysis (M R : Type) where
  turns : List (Turn M)
  report : R

section

variable {F H M R : Type} [Builtins F]

/-! ### The producer's index -/

/-- The digits of a numeral. Single underscores may stand between two digits. -/
def digits : List Char → Option (List Nat)
  | [] => none
  | [c] => (Builtins.digit F c).map ([·])
  | c :: '_' :: cs => do return (← Builtins.digit F c) :: (← digits cs)
  | c :: cs => do return (← Builtins.digit F c) :: (← digits cs)

/-- What is between the leading and the trailing whitespace. -/
def strip (cs : List Char) : List Char :=
  ((cs.dropWhile (Builtins.isSpace F)).reverse.dropWhile (Builtins.isSpace F)).reverse

/-- `int(s)` of a string; a numeral of more than 4300 digits is refused. -/
def intOfStr (s : String) : Except PyError Int :=
  let natural (cs : List Char) : Except PyError Nat :=
    match digits (F := F) cs with
    | some ds => if ds.length ≤ 4300 then .ok (ds.foldl (fun n d => 10 * n + d) 0)
        else .error .valueError
    | none => .error .valueError
  match strip (F := F) s.toList with
  | '-' :: cs => (natural cs).map fun n => -(n : Int)
  | '+' :: cs => (natural cs).map (↑)
  | cs => (natural cs).map (↑)

/-- `int(v)` -/
def Value.toInt : Value F → Except PyError Int
  | .bool b => .ok (if b then 1 else 0)
  | .int i => .ok i
  | .float x => Builtins.toInt x
  | .str s => intOfStr (F := F) s
  | .null | .arr _ | .obj _ => .error .typeError

/-- The index that the producer gave the turn. What cannot be read as an integer gives none. -/
def givenIndex (span : Span F) : Except PyError (Option Int) :=
  match Value.toInt ((span.attrs.lookup "turn.index").getD .null) with
  | .ok i => .ok (some i)
  | .error .overflowError => .error .overflowError
  | .error _ => .ok none

/-- `_turn_index` -/
def turnIndex (span : Span F) (dflt : Int) : Except PyError Int :=
  (givenIndex span).map (·.getD dflt)

/-! ### One span for each exchange, in call order -/

/-- `order_key`: the clock, else the source's sequence. -/
def orderKey (s : Span F) : Except PyError (Nat × F) :=
  match s.tStart, s.sequence with
  | some t, _ => .ok (0, t)
  | none, some n => (Builtins.ofInt n).map (1, ·)
  | none, none => .ok (1, Builtins.inf)

/-- The order of tuples. -/
def keyLt (a b : Nat × F) : Bool :=
  decide (a.1 < b.1) || a.1 == b.1 && Builtins.lt a.2 b.2

def indexedLt (a b : Int × Nat × F) : Bool :=
  decide (a.1 < b.1) || a.1 == b.1 && keyLt a.2 b.2

/-- The exchange that a turn span is of: its turn id, or its own id when that is missing or
empty. -/
def Span.exchange (s : Span F) : String :=
  match s.turnId with
  | some t => if t = "" then s.spanId else t
  | none => s.spanId

/-- The spans that parent an STT or a SPEECH span. -/
def callerSide (spans : List (Span F)) : List (Option String) :=
  (spans.filter fun s => s.stage = .stt ∨ s.stage = .speech).map Span.parentSpanId

/-- Does the turn span `s` take the place of the one kept so far? -/
def takesPlace (caller : List (Option String)) (s cur : Span F) : Except PyError Bool :=
  let primary := decide (some s.spanId ∈ caller)
  let curPrimary := decide (some cur.spanId ∈ caller)
  if primary && !curPrimary then .ok true
  else if primary = curPrimary then do return keyLt (← orderKey s) (← orderKey cur)
  else .ok false

/-- One turn of the loop over the turn spans, on the dict `best`. -/
def keepBest (caller : List (Option String)) (best : List (String × Span F)) (s : Span F) :
    Except PyError (List (String × Span F)) :=
  match best.lookup s.exchange with
  | none => .ok (best ++ [(s.exchange, s)])
  | some cur => do
    if ← takesPlace caller s cur then
      return best.map fun e => if e.1 = s.exchange then (e.1, s) else e
    else return best

/-- `_turn_spans` -/
def turnSpans (spans : List (Span F)) : Except PyError (List (Span F)) := do
  let best ← (spans.filter (·.stage = .turn)).foldlM (keepBest (callerSide spans)) []
  let keyed ← best.mapM fun (_, s) => do return ((← turnIndex s 1000000000, ← orderKey s), s)
  return (Lib.sorted (fun a b => indexedLt a.1 b.1) keyed).map Prod.snd

/-! ### Turns -/

namespace Calculator

/-- `build_turn` -/
def buildTurn (c : Calculator F H M R) (turnSpan : Span F) (spans : List (Span F))
    (utterances : List (Utterance F)) (offset : F) (position : Nat) : Except PyError (Turn M) := do
  let measured ← c.waterfall turnSpan turnSpan.exchange spans utterances offset
  return ⟨← turnIndex turnSpan position, turnSpan.exchange, measured⟩

/-- `close` of `_turns_from_events` -/
def close (c : Calculator F H M R) (turns : List (Turn M)) (group : Group F) : List (Turn M) :=
  if group.sttFinal.isNone ∧ group.llmSpoken.isNone ∧ group.ttsFirst.isNone then turns
  else turns ++ [⟨turns.length, "ev:" ++ toString turns.length, c.eventTurn group⟩]

end Calculator

/-- The first text among an event's content that is not blank. -/
def SpanEvent.text (e : SpanEvent F) : Option String :=
  e.content.findSome? fun
    | (_, .str s) => if s.toList.all (Builtins.isSpace F) then none else some s
    | _ => none

/-- What an event adds to the group. -/
def Group.add (group : Group F) (t : F) (e : SpanEvent F) : Group F :=
  let group := match e.name with
    | "stt.final" => { group with
        sttFinal := group.sttFinal.or (some t)
        transcript := match e.text, group.transcript with
          | none, old => old
          | some text, none => some text
          | some text, some old => some (old ++ (if old = "" then "" else " ") ++ text) }
    | "turn.committed" => { group with committed := group.committed.or (some t) }
    | "llm.first_token" => { group with llmFirst := group.llmFirst.or (some t) }
    | "llm.raw" => { group with llmRaw := group.llmRaw.or e.text }
    | "llm.spoken" => { group with llmSpoken := group.llmSpoken.or e.text }
    | "tts.first_audio" => { group with ttsFirst := group.ttsFirst.or (some t) }
    | "bargein" => { group with interrupted := true }
    | _ => group
  if e.name ∈ ["llm.first_token", "llm.raw", "llm.spoken", "tts.first_audio"] then
    { group with agentSeen := true }
  else group

namespace Calculator

/-- One turn of the loop over the events: a final transcript after the agent has answered opens a
new group. -/
def eventStep (c : Calculator F H M R) (acc : List (Turn M) × Option (Group F))
    (e : F × SpanEvent F) : List (Turn M) × Option (Group F) :=
  match acc with
  | (turns, none) => (turns, some (Group.add {} e.1 e.2))
  | (turns, some group) =>
    if e.2.name = "stt.final" ∧ group.agentSeen then
      (c.close turns group, some (Group.add {} e.1 e.2))
    else (turns, some (group.add e.1 e.2))

/-- `_turns_from_events` -/
def turnsFromEvents (c : Calculator F H M R) (trace : Trace F H) : List (Turn M) :=
  let timed := (trace.spans.flatMap Span.events).filterMap fun e => e.t.map (·, e)
  let events := Lib.sorted (fun a b => Builtins.lt a.1 b.1) timed
  match events.foldl c.eventStep ([], none) with
  | (turns, some group) => c.close turns group
  | (turns, none) => turns

/-- `analyze` -/
def analyze (c : Calculator F H M R) (trace : Trace F H) (audio : Option (AudioAnalysis F))
    (t0OffsetS : Option F) : Except PyError (Analysis M R) := do
  let offset := t0OffsetS.getD Builtins.zero
  let turnSpans ← turnSpans trace.spans
  let utterances := (audio.map AudioAnalysis.utterances).getD []
  let turns ← turnSpans.zipIdx.mapM fun (ts, position) =>
    c.buildTurn ts trace.spans utterances offset position
  let turns := if turns.isEmpty then c.turnsFromEvents trace else turns
  return ⟨turns, ← c.report trace audio turns offset⟩

end Calculator

end

end Pulse.Core
