import Pulse.Core.Metrics

/-!
# What the conversions accept

Attributes and contents hold any JSON value. Each conversion of `build_turn` raises on some of them,
and a turn is built exactly when every value it reads is one that its conversion accepts.
-/

namespace Pulse.Core

open Lib (PyFloat Succeeds)

/-! ### Values -/

/-- The integer is one that a float can be made of. -/
def FitsFloat (v : Value PyFloat) : Prop :=
  ∀ i : Int, v = .int i → |(i : ℚ)| < floatLimit

/-- The value is not an infinity. -/
def NotInfinite (v : Value PyFloat) : Prop :=
  v ≠ .float .inf ∧ v ≠ .float .negInf

/-- The value is null or a string. -/
def IsText (v : Value PyFloat) : Prop :=
  v = .null ∨ ∃ s, v = .str s

lemma succeeds_toFloat {q : ℚ} : Succeeds (toFloat q) ↔ |q| < floatLimit := by
  unfold toFloat
  split <;> simp [*]

lemma succeeds_strOrNull {v : Value PyFloat} : Succeeds (strOrNull v) ↔ IsText v := by
  cases v <;> simp [strOrNull, IsText]

lemma allPrintable_iff {vs : List (Value PyFloat)} :
    allPrintable vs = true ↔ ∀ v ∈ vs, printable v = true := by
  induction vs with
  | nil => simp [allPrintable]
  | cons v vs ih => simp [allPrintable, ih]

lemma isText_cutReason {tts : List (Span PyFloat)} {cancelled interrupted : Bool} :
    IsText (cutReason tts cancelled interrupted) ↔ IsText (attr tts "tts.cut_reason") := by
  unfold cutReason
  cases attr tts "tts.cut_reason" with
  | null => cases cancelled <;> simp [IsText]
  | bool _ | int _ | float _ | str _ | arr _ | obj _ => rfl

section

variable [Text]

lemma succeeds_floatOrNone {v : Value PyFloat} : Succeeds (floatOrNone v) ↔ FitsFloat v := by
  cases v with
  | int i => simp [floatOrNone, FitsFloat, succeeds_toFloat]
  | null | bool _ | float _ | str _ | arr _ | obj _ => simp [floatOrNone, FitsFloat]

lemma succeeds_secToMs {v : Value PyFloat} : Succeeds (secToMs v) ↔ FitsFloat v := by
  rw [← succeeds_floatOrNone]
  constructor
  · intro h
    obtain ⟨x, hx, -⟩ := Lib.succeeds_bind.1 h
    exact ⟨x, hx⟩
  · intro h
    exact h.bind fun x _ => ⟨_, rfl⟩

/-- A string that is no numeral raises a `ValueError`. -/
lemma intOfStr_error {s : String} {e : PyError} (h : intOfStr (F := PyFloat) s = .error e) :
    e = .valueError := by
  unfold intOfStr at h
  dsimp only at h
  -- the three branches differ in the sign only
  split at h
  all_goals
    generalize digits (F := PyFloat) _ = ds at h
    cases ds with
    | none =>
      cases h
      rfl
    | some ds =>
      dsimp only at h
      by_cases hlength : ds.length ≤ 4300
      · rw [if_pos hlength] at h
        cases h
      · rw [if_neg hlength] at h
        cases h
        rfl

lemma toInt_eq_overflowError {v : Value PyFloat} :
    v.toInt = .error .overflowError ↔ ¬NotInfinite v := by
  cases v with
  | float x => cases x <;> simp [Value.toInt, Builtins.toInt, NotInfinite]
  | str s =>
    have hne : intOfStr (F := PyFloat) s ≠ .error .overflowError :=
      fun h => PyError.noConfusion (intOfStr_error h)
    simp [Value.toInt, NotInfinite, hne]
  | null | bool _ | int _ | arr _ | obj _ => simp [Value.toInt, NotInfinite]

/-- An integer is read, or none is, of all that is not infinite. -/
lemma succeeds_intOrNone {v : Value PyFloat} : Succeeds (intOrNone v) ↔ NotInfinite v := by
  rw [← not_iff_not, ← toInt_eq_overflowError]
  unfold intOrNone
  cases h : v.toInt with
  | ok i => simp
  | error e => cases e <;> simp

lemma succeeds_givenIndex {s : Span PyFloat} :
    Succeeds (givenIndex s) ↔ NotInfinite ((s.attrs.lookup "turn.index").getD .null) :=
  succeeds_intOrNone

lemma succeeds_turnIndex {s : Span PyFloat} {dflt : Int} :
    Succeeds (turnIndex s dflt) ↔ NotInfinite ((s.attrs.lookup "turn.index").getD .null) := by
  rw [turnIndex, Lib.succeeds_map, succeeds_givenIndex]

lemma succeeds_toStr {v : Value PyFloat} : Succeeds (toStr v) ↔ printable v = true := by
  unfold toStr
  split <;> simp [*]

lemma succeeds_mapM_toStr {vs : List (Value PyFloat)} :
    Succeeds (vs.mapM toStr) ↔ printable (.arr vs) = true := by
  simp only [Lib.succeeds_mapM, succeeds_toStr, printable, allPrintable_iff]

lemma succeeds_contentText {v : Value PyFloat} :
    Succeeds (contentText v) ↔ printable v = true := by
  cases v with
  | arr vs =>
    rw [← succeeds_mapM_toStr]
    constructor
    · intro h
      obtain ⟨ss, hss, -⟩ := Lib.succeeds_bind.1 h
      exact ⟨ss, hss⟩
    · intro h
      exact h.bind fun ss _ => ⟨_, rfl⟩
  | null | bool _ | int _ | float _ | str _ | obj _ => exact succeeds_toStr

/-- The content that a turn takes from its exchange when its stage has none. -/
def sharedContent (related : List (Span PyFloat)) (kind : String) : Option (Value PyFloat) :=
  (related.map (contentOf · kind)).find? Value.truthy

/-- A stage's own content is text unless it is empty, and the shared one can be printed. -/
def ContentFits (own : Value PyFloat) (related : List (Span PyFloat)) (kind : String) : Prop :=
  if own.truthy then IsText own else ∀ v, sharedContent related kind = some v → printable v = true

lemma succeeds_orContent {own : Value PyFloat} {related : List (Span PyFloat)} {kind : String} :
    Succeeds (orContent own related kind) ↔ ContentFits own related kind := by
  unfold orContent ContentFits
  split
  · exact succeeds_strOrNull
  · unfold content sharedContent
    cases (related.map (contentOf · kind)).find? Value.truthy with
    | none => simp
    | some v => simp [succeeds_contentText]

/-! ### A turn -/

/-- The spans of an exchange. -/
abbrev related (spans : List (Span PyFloat)) (tid : String) : List (Span PyFloat) :=
  spans.filter fun s => s.turnId = some tid

/-- Every value that the turn of an exchange reads is one that its conversion accepts. -/
structure Readable (ts : Span PyFloat) (spans : List (Span PyFloat)) (offset : PyFloat) : Prop where
  index : NotInfinite ((ts.attrs.lookup "turn.index").getD .null)
  trigger : printable ((ts.attrs.lookup "turn.trigger").getD (.str "endpoint")) = true
  ttft : FitsFloat (attr (children spans ts.exchange .llm) "metrics.ttft")
  ttfb : FitsFloat (attr (children spans ts.exchange .tts) "metrics.ttfb")
  /-- The reported delay is not read when the spans give one. -/
  endpointing : ms (endOfSpeech (children spans ts.exchange .speech) offset)
      (toAudio ((children spans ts.exchange .stt).head?.bind Span.tStart) offset) = none →
    FitsFloat (attr (related spans ts.exchange) "endpointing.delay")
  language : IsText (attr (children spans ts.exchange .stt) "stt.language")
  confidence : FitsFloat (orElse (attr (children spans ts.exchange .stt) "stt.confidence")
    (attr (related spans ts.exchange) "stt.confidence"))
  tokensIn : NotInfinite (attr (children spans ts.exchange .llm) "gen_ai.usage.input_tokens")
  tokensOut : NotInfinite (attr (children spans ts.exchange .llm) "gen_ai.usage.output_tokens")
  tokensCached : NotInfinite
    (orElse (attr (children spans ts.exchange .llm) "gen_ai.usage.cached_tokens")
      (attr (children spans ts.exchange .llm) "gen_ai.usage.cache_read.input_tokens"))
  finishReason : IsText (attr (children spans ts.exchange .llm) "llm.finish_reason")
  chars : NotInfinite (attr (children spans ts.exchange .tts) "tts.chars")
  charsCut : NotInfinite (attr (children spans ts.exchange .tts) "tts.chars_cut")
  cutReason : IsText (attr (children spans ts.exchange .tts) "tts.cut_reason")
  interruptionProbability :
    FitsFloat (attr (related spans ts.exchange) "turn.interruption_probability")
  e2eLatency : FitsFloat (attr (related spans ts.exchange) "metrics.e2e_latency")
  transcript : ContentFits (transcript (children spans ts.exchange .stt))
    (related spans ts.exchange) "transcript"
  llmRaw : ContentFits (firstContent (children spans ts.exchange .llm) "llm_raw")
    (related spans ts.exchange) "llm_raw"
  llmSpoken : ContentFits (firstContent (children spans ts.exchange .tts) "llm_spoken")
    (related spans ts.exchange) "llm_spoken"

lemma succeeds_endpointingMs {speechEnd sttStart : Option PyFloat} {related : List (Span PyFloat)} :
    Succeeds (endpointingMs speechEnd sttStart related) ↔
      (ms speechEnd sttStart = none → FitsFloat (attr related "endpointing.delay")) := by
  unfold endpointingMs
  cases ms speechEnd sttStart with
  | none => simp [succeeds_secToMs]
  | some v => simp

/-- The integer that a count is read as. -/
def intRead (v : Value PyFloat) : Option Int :=
  match intOrNone v with
  | .ok i => i
  | .error _ => none

/-- The counts of a turn that the metrics add up. -/
structure Counts where
  tokensOut : Option Int
  chars : Option Int
  charsCut : Option Int

def counts (spans : List (Span PyFloat)) (tid : String) : Counts where
  tokensOut := intRead (attr (children spans tid .llm) "gen_ai.usage.output_tokens")
  chars := intRead (attr (children spans tid .tts) "tts.chars")
  charsCut := intRead (attr (children spans tid .tts) "tts.chars_cut")

lemma intRead_of_ok {v : Value PyFloat} {i : Option Int} (h : intOrNone v = .ok i) :
    intRead v = i := by
  rw [intRead, h]

variable {ts : Span PyFloat} {spans : List (Span PyFloat)} {utterances : List (Utterance PyFloat)}
  {offset : PyFloat}

/-- What the fields of a turn are, by the values that it reads. -/
structure Reads (ts : Span PyFloat) (spans : List (Span PyFloat)) (utterances : List (Utterance PyFloat))
    (offset : PyFloat) (m : Measured) : Prop where
  trigger : toStr ((ts.attrs.lookup "turn.trigger").getD (.str "endpoint")) = .ok m.trigger
  ttft : secToMs (attr (children spans ts.exchange .llm) "metrics.ttft") = .ok m.llmTtftReportedMs
  ttfb : secToMs (attr (children spans ts.exchange .tts) "metrics.ttfb") = .ok m.ttsTtfbReportedMs
  endpointing : endpointingMs (endOfSpeech (children spans ts.exchange .speech) offset)
    (toAudio ((children spans ts.exchange .stt).head?.bind Span.tStart) offset)
    (related spans ts.exchange) = .ok m.endpointingMs
  language : strOrNull (attr (children spans ts.exchange .stt) "stt.language") = .ok m.language
  confidence : floatOrNone (orElse (attr (children spans ts.exchange .stt) "stt.confidence")
    (attr (related spans ts.exchange) "stt.confidence")) = .ok m.sttConfidence
  tokensIn : intOrNone (attr (children spans ts.exchange .llm) "gen_ai.usage.input_tokens") =
    .ok m.tokensIn
  tokensOut : intOrNone (attr (children spans ts.exchange .llm) "gen_ai.usage.output_tokens") =
    .ok m.tokensOut
  tokensCached : intOrNone
    (orElse (attr (children spans ts.exchange .llm) "gen_ai.usage.cached_tokens")
      (attr (children spans ts.exchange .llm) "gen_ai.usage.cache_read.input_tokens")) =
    .ok m.tokensCached
  finishReason : strOrNull (attr (children spans ts.exchange .llm) "llm.finish_reason") =
    .ok m.finishReason
  chars : intOrNone (attr (children spans ts.exchange .tts) "tts.chars") = .ok m.ttsChars
  charsCut : intOrNone (attr (children spans ts.exchange .tts) "tts.chars_cut") = .ok m.ttsCharsCut
  cutReason : strOrNull (cutReason (children spans ts.exchange .tts) m.ttsCancelled m.interrupted) =
    .ok m.cutReason
  interruptionProbability :
    floatOrNone (attr (related spans ts.exchange) "turn.interruption_probability") =
      .ok m.interruptionProbability
  e2eLatency : secToMs (attr (related spans ts.exchange) "metrics.e2e_latency") = .ok m.e2eLatencyMs
  transcript : orContent (transcript (children spans ts.exchange .stt)) (related spans ts.exchange)
    "transcript" = .ok m.transcript
  llmRaw : orContent (firstContent (children spans ts.exchange .llm) "llm_raw")
    (related spans ts.exchange) "llm_raw" = .ok m.llmRaw
  llmSpoken : orContent (firstContent (children spans ts.exchange .tts) "llm_spoken")
    (related spans ts.exchange) "llm_spoken" = .ok m.llmSpoken
  llmTtft : m.llmTtftMs =
    (ms (toAudio (anchors ts ts.exchange spans utterances offset).llmStart offset)
      (anchors ts ts.exchange spans utterances offset).llmFirstToken).or m.llmTtftReportedMs
  ttsTtfb : m.ttsTtfbMs = (ms (anchors ts ts.exchange spans utterances offset).ttsStart
    (anchors ts ts.exchange spans utterances offset).ttsFirstAudio).or m.ttsTtfbReportedMs
  responseLatency : m.responseLatencyMs =
    ms (anchors ts ts.exchange spans utterances offset).callerStop
      ((anchors ts ts.exchange spans utterances offset).agentOut m.ttsTtfbMs)
  assembly : ∃ firstToken ttsStart, m.assemblyMs = ms firstToken ttsStart
  unattributed : m.unattributedMs =
    uncovered (anchors ts ts.exchange spans utterances offset).callerStop
      ((anchors ts ts.exchange spans utterances offset).agentOut m.ttsTtfbMs)
      (anchors ts ts.exchange spans utterances offset).speechEnd
      (anchors ts ts.exchange spans utterances offset).sttStart
      (children spans ts.exchange .stt ++ children spans ts.exchange .llm ++
        children spans ts.exchange .tts) offset

lemma waterfall_ok {m : Measured} (h : waterfall ts ts.exchange spans utterances offset = .ok m) :
    Reads ts spans utterances offset m := by
  obtain ⟨trigger, htrigger, h⟩ := Lib.bind_eq_ok.1 h
  obtain ⟨ttft, httft, h⟩ := Lib.bind_eq_ok.1 h
  obtain ⟨ttfb, httfb, h⟩ := Lib.bind_eq_ok.1 h
  obtain ⟨endpointing, hendpointing, h⟩ := Lib.bind_eq_ok.1 h
  obtain ⟨language, hlanguage, h⟩ := Lib.bind_eq_ok.1 h
  obtain ⟨confidence, hconfidence, h⟩ := Lib.bind_eq_ok.1 h
  obtain ⟨tokensIn, htokensIn, h⟩ := Lib.bind_eq_ok.1 h
  obtain ⟨tokensOut, htokensOut, h⟩ := Lib.bind_eq_ok.1 h
  obtain ⟨tokensCached, htokensCached, h⟩ := Lib.bind_eq_ok.1 h
  obtain ⟨finishReason, hfinishReason, h⟩ := Lib.bind_eq_ok.1 h
  obtain ⟨chars, hchars, h⟩ := Lib.bind_eq_ok.1 h
  obtain ⟨charsCut, hcharsCut, h⟩ := Lib.bind_eq_ok.1 h
  obtain ⟨cutReason, hcutReason, h⟩ := Lib.bind_eq_ok.1 h
  obtain ⟨probability, hprobability, h⟩ := Lib.bind_eq_ok.1 h
  obtain ⟨e2e, he2e, h⟩ := Lib.bind_eq_ok.1 h
  obtain ⟨transcript, htranscript, h⟩ := Lib.bind_eq_ok.1 h
  obtain ⟨llmRaw, hllmRaw, h⟩ := Lib.bind_eq_ok.1 h
  obtain ⟨llmSpoken, hllmSpoken, h⟩ := Lib.bind_eq_ok.1 h
  cases h
  exact {
    trigger := htrigger
    ttft := httft
    ttfb := httfb
    endpointing := hendpointing
    language := hlanguage
    confidence := hconfidence
    tokensIn := htokensIn
    tokensOut := htokensOut
    tokensCached := htokensCached
    finishReason := hfinishReason
    chars := hchars
    charsCut := hcharsCut
    cutReason := hcutReason
    interruptionProbability := hprobability
    e2eLatency := he2e
    transcript := htranscript
    llmRaw := hllmRaw
    llmSpoken := hllmSpoken
    llmTtft := rfl
    ttsTtfb := rfl
    responseLatency := rfl
    assembly := ⟨_, _, rfl⟩
    unattributed := rfl }

/-- What a turn has read is readable. -/
lemma Reads.readable {m : Measured} (h : Reads ts spans utterances offset m)
    (hindex : NotInfinite ((ts.attrs.lookup "turn.index").getD .null)) :
    Readable ts spans offset where
  index := hindex
  trigger := succeeds_toStr.1 ⟨_, h.trigger⟩
  ttft := succeeds_secToMs.1 ⟨_, h.ttft⟩
  ttfb := succeeds_secToMs.1 ⟨_, h.ttfb⟩
  endpointing := succeeds_endpointingMs.1 ⟨_, h.endpointing⟩
  language := succeeds_strOrNull.1 ⟨_, h.language⟩
  confidence := succeeds_floatOrNone.1 ⟨_, h.confidence⟩
  tokensIn := succeeds_intOrNone.1 ⟨_, h.tokensIn⟩
  tokensOut := succeeds_intOrNone.1 ⟨_, h.tokensOut⟩
  tokensCached := succeeds_intOrNone.1 ⟨_, h.tokensCached⟩
  finishReason := succeeds_strOrNull.1 ⟨_, h.finishReason⟩
  chars := succeeds_intOrNone.1 ⟨_, h.chars⟩
  charsCut := succeeds_intOrNone.1 ⟨_, h.charsCut⟩
  cutReason := isText_cutReason.1 (succeeds_strOrNull.1 ⟨_, h.cutReason⟩)
  interruptionProbability := succeeds_floatOrNone.1 ⟨_, h.interruptionProbability⟩
  e2eLatency := succeeds_secToMs.1 ⟨_, h.e2eLatency⟩
  transcript := succeeds_orContent.1 ⟨_, h.transcript⟩
  llmRaw := succeeds_orContent.1 ⟨_, h.llmRaw⟩
  llmSpoken := succeeds_orContent.1 ⟨_, h.llmSpoken⟩

lemma Reads.counts {m : Measured} (h : Reads ts spans utterances offset m) :
    counts spans ts.exchange = ⟨m.tokensOut, m.ttsChars, m.ttsCharsCut⟩ := by
  simp only [Core.counts, intRead_of_ok h.tokensOut, intRead_of_ok h.chars, intRead_of_ok h.charsCut]

lemma waterfall_succeeds (h : Readable ts spans offset) :
    Succeeds (waterfall ts ts.exchange spans utterances offset) := by
  refine (succeeds_toStr.2 h.trigger).bind fun _ _ => ?_
  refine (succeeds_secToMs.2 h.ttft).bind fun _ _ => ?_
  refine (succeeds_secToMs.2 h.ttfb).bind fun _ _ => ?_
  refine (succeeds_endpointingMs.2 h.endpointing).bind fun _ _ => ?_
  refine (succeeds_strOrNull.2 h.language).bind fun _ _ => ?_
  refine (succeeds_floatOrNone.2 h.confidence).bind fun _ _ => ?_
  refine (succeeds_intOrNone.2 h.tokensIn).bind fun _ _ => ?_
  refine (succeeds_intOrNone.2 h.tokensOut).bind fun _ _ => ?_
  refine (succeeds_intOrNone.2 h.tokensCached).bind fun _ _ => ?_
  refine (succeeds_strOrNull.2 h.finishReason).bind fun _ _ => ?_
  refine (succeeds_intOrNone.2 h.chars).bind fun _ _ => ?_
  refine (succeeds_intOrNone.2 h.charsCut).bind fun _ _ => ?_
  refine (succeeds_strOrNull.2 (isText_cutReason.2 h.cutReason)).bind fun _ _ => ?_
  refine (succeeds_floatOrNone.2 h.interruptionProbability).bind fun _ _ => ?_
  refine (succeeds_secToMs.2 h.e2eLatency).bind fun _ _ => ?_
  refine (succeeds_orContent.2 h.transcript).bind fun _ _ => ?_
  refine (succeeds_orContent.2 h.llmRaw).bind fun _ _ => ?_
  exact (succeeds_orContent.2 h.llmSpoken).bind fun _ _ => ⟨_, rfl⟩

end

end Pulse.Core
