import Pulse.Core.Calculator

/-!
# The trace of a manifest call

`assemble_trace` of `integration/runtime.py`. A line of a transcript is a span, with the turn that it
names or else with one for its sequence number; a line without the key gets the number of the line.
-/

namespace Pulse.Integration

open Core (Span Stage Trace Value)

universe u

/-- What an object has under a key. -/
inductive Given (α : Type u)
  | absent
  | null
  | given (a : α)
  deriving DecidableEq

/-- `d.get(key)` -/
def Given.get {α : Type u} : Given α → Option α
  | .given a => some a
  | .absent | .null => none

structure TranscriptLine (F : Type) where
  text : Value F
  speaker : String
  turnId : Option String := none
  sequence : Given Int := .absent
  tStart : Option F := none
  tEnd : Option F := none

/-- The spans as `Span` reads them. -/
structure TraceFragment (F : Type) where
  header : Option (List (String × Value F)) := none
  spans : List (Span F) := []

/-- What the mappers of one artifact return. -/
structure Fragment (F : Type) where
  call : Option (List (String × Value F)) := none
  trace : Option (TraceFragment F) := none
  transcript : Option (List (TranscriptLine F)) := none

section

variable {F H : Type}

/-- `_SPEAKER_STAGE`, with its default -/
def speakerStage (speaker : String) : Stage × String :=
  if speaker = "caller" then (.stt, "transcript")
  else if speaker = "agent" then (.tts, "llm_spoken")
  else (.unknown, "text")

/-- What stands after the `t` of a turn that is not named: `t.get("sequence", span_seq)` -/
def turnNumber (seq : Nat) : Given Int → String
  | .absent => Nat.repr seq
  | .null => "None"
  | .given n => Int.repr n

/-- The turn that a line names; an empty name is none. -/
def TranscriptLine.named (t : TranscriptLine F) : Option String := t.turnId.filter (· ≠ "")

def lineSpan (callId : String) (seq : Nat) (t : TranscriptLine F) : Span F :=
  { spanId := callId ++ "-tr-" ++ Nat.repr seq
    name := "transcript.line"
    stage := (speakerStage t.speaker).1
    tStart := t.tStart
    tEnd := t.tEnd
    sequence := t.sequence.get
    turnId := some (t.named.getD (callId ++ ":t" ++ turnNumber seq t.sequence))
    attrs := if (speakerStage t.speaker).1 = .unknown then [("speaker", .str t.speaker)] else []
    content := [((speakerStage t.speaker).2, t.text)] }

def lineSpans (callId : String) (seq : Nat) (lines : List (TranscriptLine F)) : List (Span F) :=
  (lines.zipIdx seq).map fun (t, i) => lineSpan callId i t

/-- The local variables of `assemble_trace`. -/
structure Assembled (F : Type) where
  headerFields : List (String × Value F) := []
  spans : List (Span F) := []
  spanSeq : Nat := 0

/-- `_merge_header`: the first value that is not null wins. -/
def mergeHeader (header d : List (String × Value F)) : List (String × Value F) :=
  d.foldl (fun header (k, v) =>
    match v, header.lookup k with
    | .null, _ | _, some _ => header
    | v, none => header ++ [(k, v)]) header

namespace Fragment

variable (f : Fragment F)

/-- The spans of a trace fragment. -/
def spans : List (Span F) := f.trace.elim [] TraceFragment.spans

/-- `transcript.get("turns") or []` -/
def lines : List (TranscriptLine F) := f.transcript.getD []

/-- One round of the loop. -/
def assemble (callId : String) (a : Assembled F) : Assembled F :=
  { headerFields := mergeHeader (mergeHeader a.headerFields (f.call.getD []))
      ((f.trace.bind TraceFragment.header).getD [])
    spans := a.spans ++ (f.spans ++ lineSpans callId a.spanSeq f.lines)
    spanSeq := a.spanSeq + f.lines.length }

end Fragment

/-- `assemble_trace`, with what `CallHeader` reads from the merged fields -/
def assembleTrace (callHeader : List (String × Value F) → H) (callId : String)
    (fragments : List (Fragment F)) : Trace F H :=
  let a := fragments.foldl (fun a f => f.assemble callId a) {}
  { header := callHeader a.headerFields, spans := a.spans }

end

/-! ### Turns of their own -/

section

variable {F H : Type}

/-- The span has what the line says. -/
structure Carries (t : TranscriptLine F) (s : Span F) : Prop where
  content : s.content = [((speakerStage t.speaker).2, t.text)]
  stage : s.stage = (speakerStage t.speaker).1
  sequence : s.sequence = t.sequence.get
  tStart : s.tStart = t.tStart
  tEnd : s.tEnd = t.tEnd

/-- Both lines name the turn, or both have one sequence number. -/
def SameTurn (turnId : Option String) (a b : TranscriptLine F) : Prop :=
  turnId.isSome ∧ a.turnId = turnId ∧ b.turnId = turnId ∨
    ∃ n, a.sequence = .given n ∧ b.sequence = .given n

/-- Each line has its span, in their order and beside those of the traces, under an id of its own, and
shares a turn only where the lines say so. -/
def OwnTurns (fragments : List (Fragment F)) (spans : List (Span F)) : Prop :=
  ∃ tss : List (List (Span F)),
    List.Forall₂ (fun f ts => List.Forall₂ Carries f.lines ts) fragments tss ∧
    spans = (List.zipWith (fun f ts => f.spans ++ ts) fragments tss).flatten ∧
    (tss.flatten.map Span.spanId).Nodup ∧
    ((fragments.flatMap Fragment.lines).zip tss.flatten).Pairwise fun p q =>
      p.2.turnId = q.2.turnId → SameTurn p.2.turnId p.1 q.1

/-- Lines at two positions get one turn that they do not both name. -/
inductive Clash (callId : String) (p q : TranscriptLine F × Nat) : Prop
  /-- Neither has a number. -/
  | nulls (hp : p.1.named = none) (hq : q.1.named = none) (hpn : p.1.sequence = .null)
      (hqn : q.1.sequence = .null)
  /-- The number of one is the position of the other. -/
  | counter (hp : p.1.named = none) (hq : q.1.named = none) (hpn : p.1.sequence = .absent)
      (hqn : q.1.sequence = .given p.2)
  /-- One names the turn that the other is given. -/
  | name (hp : p.1.named = some (callId ++ ":t" ++ turnNumber q.2 q.1.sequence))
      (hq : q.1.named = none) (hne : ∀ n, p.1.sequence = .given n → q.1.sequence ≠ .given n)

/-- No two lines clash. -/
def Apart (callId : String) (lines : List (TranscriptLine F)) : Prop :=
  lines.zipIdx.Pairwise fun p q => ¬Clash callId p q ∧ ¬Clash callId q p

lemma digit_of_mem_repr {n : Nat} {c : Char} (h : c ∈ (Nat.repr n).toList) : c.isDigit = true := by
  rw [Nat.toList_repr] at h
  exact Nat.isDigit_of_mem_toDigits (by decide) (by decide) h

lemma none_ne_repr (n : Nat) : "None" ≠ Nat.repr n := by
  intro h
  have hdigit : 'N'.isDigit = true := digit_of_mem_repr (n := n) (by rw [← h]; decide)
  revert hdigit
  decide

lemma minus_ne_repr (s : String) (n : Nat) : "-" ++ s ≠ Nat.repr n := by
  intro h
  have hdigit : '-'.isDigit = true := by
    refine digit_of_mem_repr (n := n) ?_
    rw [← h, String.toList_append]
    exact List.mem_append_left _ (by decide)
  revert hdigit
  decide

lemma none_ne_intRepr (n : Int) : "None" ≠ Int.repr n := by
  cases n with
  | ofNat n => exact none_ne_repr n
  | negSucc n =>
    intro h
    have hlist := congrArg String.toList h
    rw [Int.repr, String.toList_append] at hlist
    have hhead : "None".toList.head? = some '-' := congrArg List.head? hlist
    revert hhead
    decide

lemma intRepr_injective : Function.Injective Int.repr := by
  intro m n h
  cases m with
  | ofNat m =>
    cases n with
    | ofNat n => rw [Lib.repr_injective h]
    | negSucc n => exact absurd h.symm (minus_ne_repr _ m)
  | negSucc m =>
    cases n with
    | ofNat n => exact absurd h (minus_ne_repr _ n)
    | negSucc n =>
      have hsucc := Lib.repr_injective ((String.append_right_inj "-").1 h)
      rw [Nat.succ.inj hsucc]

variable {callId : String} {a b : TranscriptLine F} {i j : Nat}

lemma turnNumber_inj (hij : i ≠ j) {m n : Given Int} (h : turnNumber i m = turnNumber j n) :
    m = .null ∧ n = .null ∨ m = .absent ∧ n = .given i ∨ m = .given j ∧ n = .absent ∨
      ∃ k, m = .given k ∧ n = .given k := by
  cases m with
  | absent =>
    cases n with
    | absent => exact absurd (Lib.repr_injective h) hij
    | null => exact absurd h.symm (none_ne_repr i)
    | given n =>
      have hn : (i : Int) = n := intRepr_injective h
      exact .inr (.inl ⟨rfl, by rw [hn]⟩)
  | null =>
    cases n with
    | absent => exact absurd h (none_ne_repr j)
    | null => exact .inl ⟨rfl, rfl⟩
    | given n => exact absurd h (none_ne_intRepr n)
  | given m =>
    cases n with
    | absent =>
      have hm : m = (j : Int) := intRepr_injective h
      exact .inr (.inr (.inl ⟨by rw [hm], rfl⟩))
    | null => exact absurd h.symm (none_ne_intRepr m)
    | given n =>
      have hm : m = n := intRepr_injective h
      exact .inr (.inr (.inr ⟨m, rfl, by rw [hm]⟩))

lemma named_eq_some {turnId : String} (h : a.named = some turnId) : a.turnId = some turnId :=
  (Option.filter_eq_some_iff.1 h).1

lemma turnId_lineSpan : (lineSpan callId i a).turnId =
    some (a.named.getD (callId ++ ":t" ++ turnNumber i a.sequence)) := rfl

lemma clash_of_turnId (hij : i ≠ j)
    (h : (lineSpan callId i a).turnId = (lineSpan callId j b).turnId)
    (hdiffer : ¬SameTurn (lineSpan callId i a).turnId a b) :
    Clash callId (a, i) (b, j) ∨ Clash callId (b, j) (a, i) := by
  have hne : ∀ n, a.sequence = .given n → b.sequence ≠ .given n :=
    fun n ha hb => hdiffer (.inr ⟨n, ha, hb⟩)
  rw [turnId_lineSpan, turnId_lineSpan] at h
  have h := Option.some.inj h
  cases ha : a.named with
  | none =>
    rw [ha, Option.getD_none] at h
    cases hb : b.named with
    | none =>
      rw [hb, Option.getD_none] at h
      obtain ⟨hm, hn⟩ | ⟨hm, hn⟩ | ⟨hm, hn⟩ | ⟨k, hm, hn⟩ :=
        turnNumber_inj hij ((String.append_right_inj _).1 h)
      · exact .inl (.nulls ha hb hm hn)
      · exact .inl (.counter ha hb hm hn)
      · exact .inr (.counter hb ha hn hm)
      · exact absurd hn (hne k hm)
    | some named =>
      rw [hb, Option.getD_some] at h
      subst h
      exact .inr (.name hb ha fun n hbn han => hne n han hbn)
  | some named =>
    rw [ha, Option.getD_some] at h
    cases hb : b.named with
    | none =>
      rw [hb, Option.getD_none] at h
      subst h
      exact .inl (.name ha hb hne)
    | some named' =>
      rw [hb, Option.getD_some] at h
      subst h
      refine absurd (.inl ⟨rfl, ?_, ?_⟩) hdiffer
      · rw [turnId_lineSpan, ha, Option.getD_some, named_eq_some ha]
      · rw [turnId_lineSpan, ha, Option.getD_some, named_eq_some hb]

/-- A line that names no turn does not name the one that it is given. -/
lemma turnId_ne (ha : a.named = none) (s : String) : a.turnId ≠ some (callId ++ ":t" ++ s) := by
  intro h
  rw [TranscriptLine.named, h, Option.filter_some, ite_eq_right_iff] at ha
  have hempty : callId ++ ":t" ++ s = "" := by
    by_contra hne
    exact absurd (ha (decide_eq_true hne)) (Option.some_ne_none _)
  have hlength := congrArg String.length hempty
  rw [String.length_append, String.length_append] at hlength
  have hcolon : ":t".length = 2 := rfl
  have hzero : "".length = 0 := rfl
  omega

lemma turnId_of_clash (h : Clash callId (a, i) (b, j)) :
    (lineSpan callId i a).turnId = (lineSpan callId j b).turnId ∧
      ¬SameTurn (lineSpan callId i a).turnId a b := by
  rw [turnId_lineSpan, turnId_lineSpan]
  cases h with
  | nulls ha hb hm hn =>
    dsimp only at ha hb hm hn
    rw [ha, hb, hm, hn, Option.getD_none]
    refine ⟨rfl, ?_⟩
    rintro (⟨-, hid, -⟩ | ⟨n, hgiven, -⟩)
    · exact turnId_ne ha _ hid
    · rw [hm] at hgiven
      cases hgiven
  | counter ha hb hm hn =>
    dsimp only at ha hb hm hn
    rw [ha, hb, hm, hn, Option.getD_none]
    refine ⟨rfl, ?_⟩
    rintro (⟨-, hid, -⟩ | ⟨n, hgiven, -⟩)
    · exact turnId_ne ha _ hid
    · rw [hm] at hgiven
      cases hgiven
  | name ha hb hne =>
    dsimp only at ha hb hne
    rw [ha, hb, Option.getD_some, Option.getD_none]
    refine ⟨rfl, ?_⟩
    rintro (⟨-, -, hid⟩ | ⟨n, hgiven, hgiven'⟩)
    · exact turnId_ne hb _ hid
    · exact hne n hgiven hgiven'

lemma SameTurn.symm {turnId : Option String} (h : SameTurn turnId a b) : SameTurn turnId b a := by
  obtain ⟨hsome, ha, hb⟩ | ⟨n, ha, hb⟩ := h
  · exact .inl ⟨hsome, hb, ha⟩
  · exact .inr ⟨n, hb, ha⟩

/-- Two lines keep their own turns exactly when they do not clash. -/
lemma ownTurns_iff_not_clash (hij : i ≠ j) :
    ((lineSpan callId i a).turnId = (lineSpan callId j b).turnId →
      SameTurn (lineSpan callId i a).turnId a b) ↔
    ¬Clash callId (a, i) (b, j) ∧ ¬Clash callId (b, j) (a, i) := by
  constructor
  · intro h
    constructor
    · intro hclash
      obtain ⟨heq, hdiffer⟩ := turnId_of_clash hclash
      exact hdiffer (h heq)
    · intro hclash
      obtain ⟨heq, hdiffer⟩ := turnId_of_clash hclash
      rw [heq] at hdiffer
      exact hdiffer (h heq.symm).symm
  · rintro ⟨hab, hba⟩ heq
    by_contra hdiffer
    exact (clash_of_turnId hij heq hdiffer).elim hab hba

/-! ### The spans of a trace -/

lemma carries_lineSpan : Carries a (lineSpan callId i a) := ⟨rfl, rfl, rfl, rfl, rfl⟩

lemma lineSpans_append (seq : Nat) (as bs : List (TranscriptLine F)) :
    lineSpans callId seq (as ++ bs) =
      lineSpans callId seq as ++ lineSpans callId (seq + as.length) bs := by
  rw [lineSpans, List.zipIdx_append, List.map_append]
  rfl

lemma carries_lineSpans (seq : Nat) (as : List (TranscriptLine F)) :
    List.Forall₂ Carries as (lineSpans callId seq as) := by
  induction as generalizing seq with
  | nil => exact .nil
  | cons a as ih => exact .cons carries_lineSpan (ih (seq + 1))

/-- The spans of the transcripts, fragment by fragment. -/
def transcriptSpans (callId : String) : Nat → List (Fragment F) → List (List (Span F))
  | _, [] => []
  | seq, f :: fs =>
    lineSpans callId seq f.lines :: transcriptSpans callId (seq + f.lines.length) fs

lemma transcriptSpans_flatten (seq : Nat) (fs : List (Fragment F)) :
    (transcriptSpans callId seq fs).flatten = lineSpans callId seq (fs.flatMap Fragment.lines) := by
  induction fs generalizing seq with
  | nil => rfl
  | cons f fs ih =>
    rw [transcriptSpans, List.flatten_cons, ih, List.flatMap_cons, lineSpans_append]

lemma foldl_assemble_spans (fs : List (Fragment F)) (s : Assembled F) :
    (fs.foldl (fun s f => f.assemble callId s) s).spans = s.spans ++ (List.zipWith
      (fun f ts => f.spans ++ ts) fs (transcriptSpans callId s.spanSeq fs)).flatten := by
  induction fs generalizing s with
  | nil => exact (List.append_nil _).symm
  | cons f fs ih =>
    rw [List.foldl_cons, ih, transcriptSpans, List.zipWith_cons_cons, List.flatten_cons,
      ← List.append_assoc]
    rfl

lemma carries_transcriptSpans (seq : Nat) (fs : List (Fragment F)) :
    List.Forall₂ (fun f ts => List.Forall₂ Carries f.lines ts) fs
      (transcriptSpans callId seq fs) := by
  induction fs generalizing seq with
  | nil => exact .nil
  | cons f fs ih => exact .cons (carries_lineSpans seq f.lines) (ih _)

/-- The parts of a list with given lengths between given lists are determined. -/
lemma transcriptSpans_unique {seq : Nat} {fs : List (Fragment F)} {tss : List (List (Span F))}
    (hparts : List.Forall₂ (fun f ts => List.Forall₂ Carries f.lines ts) fs tss)
    (heq : (List.zipWith (fun f ts => f.spans ++ ts) fs (transcriptSpans callId seq fs)).flatten =
      (List.zipWith (fun f ts => f.spans ++ ts) fs tss).flatten) :
    tss = transcriptSpans callId seq fs := by
  induction hparts generalizing seq with
  | nil => rfl
  | @cons f ts fs tss hf _ ih =>
    rw [transcriptSpans, List.zipWith_cons_cons, List.zipWith_cons_cons, List.flatten_cons,
      List.flatten_cons, List.append_assoc, List.append_assoc] at heq
    have hrest := List.append_cancel_left heq
    have hlength : (lineSpans callId seq f.lines).length = ts.length := by
      rw [← (carries_lineSpans seq f.lines).length_eq, hf.length_eq]
    obtain ⟨hts, hrest⟩ := List.append_inj hrest hlength
    rw [transcriptSpans, hts, ih hrest]

lemma lineSpans_ids_nodup (seq : Nat) (as : List (TranscriptLine F)) :
    ((lineSpans callId seq as).map Span.spanId).Nodup := by
  have hids : (lineSpans callId seq as).map Span.spanId =
      (List.range' seq as.length).map fun i => callId ++ "-tr-" ++ Nat.repr i := by
    rw [← List.zipIdx_map_snd seq as, lineSpans, List.map_map, List.map_map]
    rfl
  rw [hids]
  refine List.Nodup.map (fun i j h => ?_) List.nodup_range'
  exact Lib.repr_injective ((String.append_right_inj _).1 h)

lemma pairwise_lineSpans_iff (as : List (TranscriptLine F)) :
    ((as.zip (lineSpans callId 0 as)).Pairwise fun p q =>
      p.2.turnId = q.2.turnId → SameTurn p.2.turnId p.1 q.1) ↔ Apart callId as := by
  have hzip : as.zip (lineSpans callId 0 as) =
      as.zipIdx.map fun p => (p.1, lineSpan callId p.2 p.1) := by
    rw [lineSpans, ← List.zip_map', List.zipIdx_map_fst]
  have hpositions : as.zipIdx.Pairwise fun p q => p.2 ≠ q.2 := by
    rw [← List.pairwise_map, List.zipIdx_map_snd]
    exact List.nodup_range'
  rw [hzip, List.pairwise_map, Apart]
  constructor
  · exact fun h => (h.and hpositions).imp fun ⟨hturn, hne⟩ => (ownTurns_iff_not_clash hne).1 hturn
  · exact fun h => (h.and hpositions).imp fun ⟨happart, hne⟩ =>
      (ownTurns_iff_not_clash hne).2 happart

lemma assembleTrace_spans (callHeader : List (String × Value F) → H) (callId : String)
    (fragments : List (Fragment F)) :
    (assembleTrace callHeader callId fragments).spans = (List.zipWith
      (fun f ts => f.spans ++ ts) fragments (transcriptSpans callId 0 fragments)).flatten :=
  foldl_assemble_spans fragments {}

lemma apart_of_ownTurns {callHeader : List (String × Value F) → H} {fragments : List (Fragment F)}
    (h : OwnTurns fragments (assembleTrace callHeader callId fragments).spans) :
    Apart callId (fragments.flatMap Fragment.lines) := by
  obtain ⟨tss, hparts, heq, -, hturns⟩ := h
  rw [assembleTrace_spans] at heq
  rwa [transcriptSpans_unique hparts heq, transcriptSpans_flatten, pairwise_lineSpans_iff] at hturns

/-- The lines of a call keep their own turns exactly when no two of them clash. -/
theorem assembleTrace_ownTurns_iff (callHeader : List (String × Value F) → H) (callId : String)
    (fragments : List (Fragment F)) :
    OwnTurns fragments (assembleTrace callHeader callId fragments).spans ↔
      Apart callId (fragments.flatMap Fragment.lines) := by
  refine ⟨apart_of_ownTurns, fun h => ⟨transcriptSpans callId 0 fragments,
    carries_transcriptSpans 0 fragments, assembleTrace_spans .., ?_, ?_⟩⟩
  · rw [transcriptSpans_flatten]
    exact lineSpans_ids_nodup 0 _
  · rwa [transcriptSpans_flatten, pairwise_lineSpans_iff]

end

/-! ### Lines that merge -/

/-- Two lines with a null for their number: both are in the turn `c1:tNone`. -/
def unnumbered : List (Fragment Nat) :=
  [{ transcript := some [{ text := .str "hello", speaker := "caller", sequence := .null },
      { text := .str "who is this?", speaker := "caller", sequence := .null }] }]

/-- The number of the second line is the position of the first. -/
def mixed : List (Fragment Nat) :=
  [{ transcript := some [{ text := .str "hello", speaker := "caller" }] },
    { transcript := some [{ text := .str "who is this?", speaker := "caller", sequence := .given 0 }] }]

theorem assembleTrace_merges : ¬OwnTurns unnumbered (assembleTrace id "c1" unnumbered).spans ∧
    ¬OwnTurns mixed (assembleTrace id "c1" mixed).spans := by
  constructor
  · intro h
    have hpair := (List.pairwise_cons.1 (apart_of_ownTurns h)).1 _ (List.mem_singleton_self _)
    exact hpair.1 (.nulls rfl rfl rfl rfl)
  · intro h
    have hpair := (List.pairwise_cons.1 (apart_of_ownTurns h)).1 _ (List.mem_singleton_self _)
    exact hpair.1 (.counter rfl rfl rfl rfl)

end Pulse.Integration
