import Pulse.Core.TurnSpans

/-!
# Spans in another order

`build_turn` takes much from the first span of a stage, or from the first that has an attribute, in
the order in which the spans are listed. An analysis is the same for every order of the spans when
the spans among which it takes the first agree, and no two events at one time are of different spans.
-/

namespace Pulse.Core

open Lib (Decides PyFloat)
open Lib.PyFloat (Comparable minimum maximum)

/-! ### What is read of the first span -/

/-- The spans are alike in what is read of the first one. -/
def Agree {β : Type} (spans : List (Span PyFloat)) (read : Span PyFloat → β) : Prop :=
  ∀ s ∈ spans, ∀ s' ∈ spans, read s = read s'

/-- The spans that have an attribute are alike in what it is read as. -/
def AttrAgree {β : Type} (spans : List (Span PyFloat)) (key : String) (read : Value PyFloat → β) :
    Prop :=
  ∀ s ∈ spans, ∀ s' ∈ spans, ∀ v v', present (s.attrs.lookup key) = some v →
    present (s'.attrs.lookup key) = some v' → read v = read v'

/-- What a value is read as, unless it is empty. -/
def ifTruthy {β : Type} (read : Value PyFloat → β) (v : Value PyFloat) : Option β :=
  if v.truthy then some (read v) else none

lemma read_orElse {β : Type} (read : Value PyFloat → β) (a b : Value PyFloat) :
    read (orElse a b) = (ifTruthy read a).getD (read b) := by
  unfold orElse ifTruthy
  split <;> rfl

section

variable {β : Type} {spans spans' : List (Span PyFloat)}

lemma head_perm {read : Span PyFloat → β} (h : Agree spans read) (hperm : spans.Perm spans') :
    spans.head?.map read = spans'.head?.map read := by
  cases spans with
  | nil => rw [List.nil_perm.1 hperm]
  | cons s spans =>
    cases spans' with
    | nil => simp at hperm
    | cons s' spans' =>
      exact congrArg some (h s List.mem_cons_self s' (hperm.mem_iff.2 List.mem_cons_self))

lemma present_ne_null {v : Option (Value PyFloat)} {w : Value PyFloat} (h : present v = some w) :
    w ≠ .null := by
  rintro rfl
  unfold present at h
  split at h
  · cases h
  · cases h
  · next hnull =>
    cases h
    exact hnull rfl

/-- An attribute is missing in every order of the spans, or there in each of them. -/
lemma attr_perm_cases {read : Value PyFloat → β} {key : String} (h : AttrAgree spans key read)
    (hperm : spans.Perm spans') : attr spans key = .null ∧ attr spans' key = .null ∨
      attr spans key ≠ .null ∧ attr spans' key ≠ .null ∧ read (attr spans key) = read (attr spans' key) := by
  unfold attr
  cases hfind : spans.findSome? fun s => present (s.attrs.lookup key) with
  | none =>
    have hnone : (spans'.findSome? fun s => present (s.attrs.lookup key)) = none := by
      rw [List.findSome?_eq_none_iff] at hfind ⊢
      exact fun s hs => hfind s (hperm.mem_iff.2 hs)
    rw [hnone]
    exact .inl ⟨rfl, rfl⟩
  | some v =>
    obtain ⟨s, hs, hv⟩ := List.exists_of_findSome?_eq_some hfind
    cases hfind' : spans'.findSome? fun s => present (s.attrs.lookup key) with
    | none =>
      rw [List.findSome?_eq_none_iff] at hfind'
      simp [hfind' s (hperm.mem_iff.1 hs)] at hv
    | some v' =>
      obtain ⟨s', hs', hv'⟩ := List.exists_of_findSome?_eq_some hfind'
      exact .inr ⟨present_ne_null hv, present_ne_null hv',
        h s hs s' (hperm.mem_iff.2 hs') v v' hv hv'⟩

lemma attr_perm {read : Value PyFloat → β} {key : String} (h : AttrAgree spans key read)
    (hperm : spans.Perm spans') : read (attr spans key) = read (attr spans' key) := by
  rcases attr_perm_cases h hperm with ⟨hnull, hnull'⟩ | ⟨-, -, heq⟩
  · rw [hnull, hnull']
  · exact heq

lemma children_perm (hperm : spans.Perm spans') (tid : String) (stage : Stage) :
    (children spans tid stage).Perm (children spans' tid stage) :=
  hperm.filter _

lemma related_perm (hperm : spans.Perm spans') (tid : String) :
    (related spans tid).Perm (related spans' tid) :=
  hperm.filter _

lemma anyCancelled_perm (hperm : spans.Perm spans') :
    (spans.any fun s => ((s.attrs.lookup "tts.cancelled").getD .null).truthy) =
      spans'.any fun s => ((s.attrs.lookup "tts.cancelled").getD .null).truthy := by
  rw [Bool.eq_iff_iff, List.any_eq_true, List.any_eq_true]
  simp only [hperm.mem_iff]

lemma isEmpty_perm {α : Type} {as bs : List α} (hperm : as.Perm bs) : as.isEmpty = bs.isEmpty := by
  rw [Bool.eq_iff_iff, List.isEmpty_iff, List.isEmpty_iff]
  exact ⟨fun h => List.nil_perm.1 (h ▸ hperm), fun h => List.perm_nil.1 (h ▸ hperm)⟩

end

/-! ### Content -/

/-- The transcript of a span, or what it carries. -/
def transcriptOf (s : Span PyFloat) : Value PyFloat :=
  orElse (contentOf s "transcript") (contentOf s "carried")

lemma transcript_eq (stt : List (Span PyFloat)) :
    transcript stt = (stt.head?.map transcriptOf).getD .null := by
  cases stt <;> rfl

lemma firstContent_eq (spans : List (Span PyFloat)) (kind : String) :
    firstContent spans kind = (spans.head?.map (contentOf · kind)).getD .null := by
  cases spans <;> rfl

section

variable [Text] {spans spans' : List (Span PyFloat)}

/-- The contents of a kind that are not empty make the same text. -/
def ContentAgree (spans : List (Span PyFloat)) (kind : String) : Prop :=
  ∀ s ∈ spans, ∀ s' ∈ spans, (contentOf s kind).truthy = true → (contentOf s' kind).truthy = true →
    contentText (contentOf s kind) = contentText (contentOf s' kind)

lemma content_perm {kind : String} (h : ContentAgree spans kind) (hperm : spans.Perm spans') :
    content spans kind = content spans' kind := by
  unfold content
  cases hfind : (spans.map (contentOf · kind)).find? Value.truthy with
  | none =>
    have hnone : (spans'.map (contentOf · kind)).find? Value.truthy = none := by
      rw [List.find?_eq_none] at hfind ⊢
      exact fun v hv => hfind v ((hperm.map _).mem_iff.2 hv)
    rw [hnone]
  | some v =>
    obtain ⟨s, hs, rfl⟩ := List.mem_map.1 (List.mem_of_find?_eq_some hfind)
    have htruthy := List.find?_some hfind
    cases hfind' : (spans'.map (contentOf · kind)).find? Value.truthy with
    | none =>
      rw [List.find?_eq_none] at hfind'
      exact absurd htruthy (hfind' _ ((hperm.map _).mem_iff.1 (List.mem_map_of_mem hs)))
    | some v' =>
      obtain ⟨s', hs', rfl⟩ := List.mem_map.1 (List.mem_of_find?_eq_some hfind')
      have heq := h s hs s' (hperm.mem_iff.2 hs') htruthy (List.find?_some hfind')
      exact congrArg (Except.map some) heq

lemma orContent_eq (own : Value PyFloat) (related : List (Span PyFloat)) (kind : String) :
    orContent own related kind = (ifTruthy strOrNull own).getD (content related kind) := by
  unfold orContent ifTruthy
  split <;> rfl

/-- The content of the first span of a stage, or that of the exchange. -/
lemma orContent_perm {stage stage' : List (Span PyFloat)} {read : Span PyFloat → Value PyFloat}
    {kind : String} (hown : Agree stage fun s => ifTruthy strOrNull (read s))
    (hshared : ((stage.head?.map read).getD .null).truthy = false → ContentAgree spans kind)
    (hstage : stage.Perm stage') (hperm : spans.Perm spans') :
    orContent ((stage.head?.map read).getD .null) spans kind =
      orContent ((stage'.head?.map read).getD .null) spans' kind := by
  have hfirst : ifTruthy strOrNull ((stage.head?.map read).getD .null) =
      ifTruthy strOrNull ((stage'.head?.map read).getD .null) := by
    have hhead := head_perm hown hstage
    cases hs : stage.head? with
    | none =>
      cases hs' : stage'.head? with
      | none => rfl
      | some s' => simp [hs, hs'] at hhead
    | some s =>
      cases hs' : stage'.head? with
      | none => simp [hs, hs'] at hhead
      | some s' => simpa [hs, hs'] using hhead
  rw [orContent_eq, orContent_eq, ← hfirst]
  unfold ifTruthy
  split
  · rfl
  · next h => rw [content_perm (hshared (by simpa using h)) hperm]

end

/-! ### Times -/

/-- The times of the events of spans. -/
def eventClock (spans : List (Span PyFloat)) : List PyFloat :=
  spans.flatMap fun s => s.events.filterMap SpanEvent.t

/-- No time that is not a number is among times that are, on either clock. -/
structure TimesCompare (spans : List (Span PyFloat)) (offset : PyFloat) : Prop where
  starts : Comparable (spans.filterMap Span.tStart)
  ends : Comparable (spans.filterMap Span.tEnd)
  events : Comparable (eventClock spans)
  audioStarts : Comparable (spans.filterMap fun s => toAudio s.tStart offset)
  audioEnds : Comparable (spans.filterMap fun s => toAudio s.tEnd offset)

section

variable {spans spans' : List (Span PyFloat)} {offset : PyFloat}

lemma filterMap_subset {β : Type} {ss ss' : List (Span PyFloat)} (f : Span PyFloat → Option β)
    (h : ss ⊆ ss') : ss.filterMap f ⊆ ss'.filterMap f := by
  intro x hx
  obtain ⟨s, hs, hx⟩ := List.mem_filterMap.1 hx
  exact List.mem_filterMap.2 ⟨s, h hs, hx⟩

lemma children_subset (tid : String) (stage : Stage) : children spans tid stage ⊆ spans :=
  fun _ hs => List.mem_of_mem_filter hs

lemma endOfSpeech_perm (h : TimesCompare spans offset) (hperm : spans.Perm spans') (tid : String) :
    endOfSpeech (children spans tid .speech) offset = endOfSpeech (children spans' tid .speech) offset := by
  unfold endOfSpeech
  rw [PyFloat.maximum_perm ((children_perm hperm tid .speech).filterMap Span.tEnd)
    (h.ends.subset (filterMap_subset _ (children_subset tid .speech)))]

lemma ttsStart_perm (h : TimesCompare spans offset) (hperm : spans.Perm spans') (tid : String) :
    minimum ((children spans tid .tts).filterMap Span.tStart) =
      minimum ((children spans' tid .tts).filterMap Span.tStart) :=
  PyFloat.minimum_perm ((children_perm hperm tid .tts).filterMap Span.tStart)
    (h.starts.subset (filterMap_subset _ (children_subset tid .tts)))

lemma ttsRequestStart_perm (h : TimesCompare spans offset) (hperm : spans.Perm spans') (tid : String) :
    ttsRequestStart (children spans tid .tts) offset =
      ttsRequestStart (children spans' tid .tts) offset := by
  unfold ttsRequestStart
  rw [PyFloat.minimum_perm (((children_perm hperm tid .tts).filter _).filterMap Span.tStart)
    (h.starts.subset (filterMap_subset _ fun s hs =>
      children_subset tid .tts (List.mem_of_mem_filter hs)))]

lemma firstEventT_perm (h : TimesCompare spans offset) (hperm : spans.Perm spans')
    (name tid : String) : firstEventT spans name tid = firstEventT spans' name tid := by
  refine PyFloat.minimum_perm (hperm.flatMap_right _) (h.events.subset fun t ht => ?_)
  obtain ⟨s, hs, ht⟩ := List.mem_flatMap.1 ht
  obtain ⟨e, he, ht⟩ := List.mem_filterMap.1 ht
  split at ht
  · exact List.mem_flatMap.2 ⟨s, hs, List.mem_filterMap.2 ⟨e, he, ht⟩⟩
  · cases ht

/-- Only the start of the LLM span is taken before it is moved to the audio clock. -/
lemma anchors_perm (h : TimesCompare spans offset) (hperm : spans.Perm spans') {ts : Span PyFloat}
    {tid : String}
    (hstart : Agree (children spans tid .stt) fun s => toAudio s.tStart offset)
    (hend : Agree (children spans tid .stt) fun s => toAudio s.tEnd offset)
    (utterances : List (Utterance PyFloat)) :
    anchors ts tid spans' utterances offset = { anchors ts tid spans utterances offset with
      llmStart := (children spans' tid .llm).head?.bind Span.tStart } := by
  have hread (f : Span PyFloat → Option PyFloat) (ss : List (Span PyFloat)) :
      toAudio (ss.head?.bind f) offset = (ss.head?.map fun s => toAudio (f s) offset).join := by
    cases ss <;> rfl
  have hstt := children_perm hperm tid .stt
  simp only [anchors, endOfSpeech_perm h hperm, ttsStart_perm h hperm, ttsRequestStart_perm h hperm,
    firstEventT_perm h hperm, hread, head_perm hstart hstt, head_perm hend hstt]

/-- The windows that are clipped to a gap are the same however the spans are listed: a window that is
left starts before it ends, and so both are numbers. -/
lemma uncovered_perm (callerStop agentOut speechEnd sttStart : Option PyFloat)
    (hperm : spans.Perm spans') :
    uncovered callerStop agentOut speechEnd sttStart spans offset =
      uncovered callerStop agentOut speechEnd sttStart spans' offset := by
  cases callerStop with
  | none => rfl
  | some lo =>
    cases agentOut with
    | none => rfl
    | some hi =>
      have hnumbers (is : List (Lib.Interval PyFloat)) :
          ∀ i ∈ is.filterMap (Lib.clip lo hi), i.1 ≠ .nan ∧ i.2 ≠ .nan := by
        intro i hi
        obtain ⟨j, -, hj⟩ := List.mem_filterMap.1 hi
        unfold Lib.clip at hj
        split at hj
        · next hlt =>
          cases hj
          exact PyFloat.ne_nan_of_lt hlt
        · cases hj
      have hexplained : (explained speechEnd sttStart spans offset).Perm
          (explained speechEnd sttStart spans' offset) :=
        (hperm.filterMap _).append_left _
      have hclipped := PyFloat.merge_perm (hexplained.filterMap (Lib.clip lo hi))
        (PyFloat.comparable_of_ne_nan (List.forall_mem_map.2 fun i hi => (hnumbers _ i hi).1))
        (PyFloat.comparable_of_ne_nan (List.forall_mem_map.2 fun i hi => (hnumbers _ i hi).2))
      rw [uncovered_some, uncovered_some, hclipped]

end

/-! ### A turn -/

section

variable [Text]

/-- The spans of an exchange agree on all that `build_turn` takes from the first of them. -/
structure FirstsAgree (spans : List (Span PyFloat)) (tid : String) (offset : PyFloat) : Prop where
  sttStart : Agree (children spans tid .stt) fun s => toAudio s.tStart offset
  sttEnd : Agree (children spans tid .stt) fun s => toAudio s.tEnd offset
  llmStart : Agree (children spans tid .llm) fun s => toAudio s.tStart offset
  ttft : AttrAgree (children spans tid .llm) "metrics.ttft" secToMs
  ttfb : AttrAgree (children spans tid .tts) "metrics.ttfb" secToMs
  /-- The reported delay is not read when the spans give one. -/
  endpointing : ms (endOfSpeech (children spans tid .speech) offset)
      (toAudio ((children spans tid .stt).head?.bind Span.tStart) offset) = none →
    AttrAgree (related spans tid) "endpointing.delay" secToMs
  language : AttrAgree (children spans tid .stt) "stt.language" strOrNull
  confidence : AttrAgree (children spans tid .stt) "stt.confidence" (ifTruthy floatOrNone)
  sharedConfidence : (attr (children spans tid .stt) "stt.confidence").truthy = false →
    AttrAgree (related spans tid) "stt.confidence" floatOrNone
  tokensIn : AttrAgree (children spans tid .llm) "gen_ai.usage.input_tokens" intOrNone
  tokensOut : AttrAgree (children spans tid .llm) "gen_ai.usage.output_tokens" intOrNone
  tokensCached : AttrAgree (children spans tid .llm) "gen_ai.usage.cached_tokens"
    (ifTruthy intOrNone)
  cacheRead : (attr (children spans tid .llm) "gen_ai.usage.cached_tokens").truthy = false →
    AttrAgree (children spans tid .llm) "gen_ai.usage.cache_read.input_tokens" intOrNone
  finishReason : AttrAgree (children spans tid .llm) "llm.finish_reason" strOrNull
  chars : AttrAgree (children spans tid .tts) "tts.chars" intOrNone
  charsCut : AttrAgree (children spans tid .tts) "tts.chars_cut" intOrNone
  cutReason : AttrAgree (children spans tid .tts) "tts.cut_reason" strOrNull
  interrupted : AttrAgree (related spans tid) "turn.interrupted" Value.truthy
  interruptionProbability :
    AttrAgree (related spans tid) "turn.interruption_probability" floatOrNone
  e2eLatency : AttrAgree (related spans tid) "metrics.e2e_latency" secToMs
  abandoned : AttrAgree (related spans tid) "turn.abandoned" Value.truthy
  transcript : Agree (children spans tid .stt) fun s => ifTruthy strOrNull (transcriptOf s)
  sharedTranscript : (Core.transcript (children spans tid .stt)).truthy = false →
    ContentAgree (related spans tid) "transcript"
  llmRaw : Agree (children spans tid .llm) fun s => ifTruthy strOrNull (contentOf s "llm_raw")
  sharedLlmRaw : (firstContent (children spans tid .llm) "llm_raw").truthy = false →
    ContentAgree (related spans tid) "llm_raw"
  llmSpoken : Agree (children spans tid .tts) fun s => ifTruthy strOrNull (contentOf s "llm_spoken")
  sharedLlmSpoken : (firstContent (children spans tid .tts) "llm_spoken").truthy = false →
    ContentAgree (related spans tid) "llm_spoken"

variable {spans spans' : List (Span PyFloat)} {offset : PyFloat}

omit [Text] in
lemma cutReason_perm {tts tts' : List (Span PyFloat)} (h : AttrAgree tts "tts.cut_reason" strOrNull)
    (hperm : tts.Perm tts') (cancelled interrupted : Bool) :
    strOrNull (cutReason tts' cancelled interrupted) = strOrNull (cutReason tts cancelled interrupted) := by
  have hof {tts : List (Span PyFloat)} (hnull : attr tts "tts.cut_reason" ≠ .null) :
      cutReason tts cancelled interrupted = attr tts "tts.cut_reason" := by
    unfold cutReason
    split
    · next heq => exact absurd heq hnull
    · rfl
  rcases attr_perm_cases h hperm with ⟨hnull, hnull'⟩ | ⟨hnull, hnull', heq⟩
  · rw [cutReason, cutReason, hnull, hnull']
  · rw [hof hnull, hof hnull', heq]

omit [Text] in
/-- The second of two attributes is read when the first is empty. -/
lemma orElse_perm {β : Type} {read : Value PyFloat → β} {ss ss' : List (Span PyFloat)} {key key' : String}
    (hfirst : AttrAgree spans key (ifTruthy read))
    (hsecond : (attr spans key).truthy = false → AttrAgree ss key' read)
    (hperm : spans.Perm spans') (hperm' : ss.Perm ss') :
    read (orElse (attr spans' key) (attr ss' key')) = read (orElse (attr spans key) (attr ss key')) := by
  rw [read_orElse read, read_orElse read, ← attr_perm hfirst hperm]
  unfold ifTruthy
  split
  · rfl
  · next h => exact (attr_perm (hsecond (by simpa using h)) hperm').symm

theorem waterfall_perm {ts : Span PyFloat} {tid : String} (htimes : TimesCompare spans offset)
    (h : FirstsAgree spans tid offset) (hperm : spans.Perm spans')
    (utterances : List (Utterance PyFloat)) :
    waterfall ts tid spans' utterances offset = waterfall ts tid spans utterances offset := by
  have hstt := children_perm hperm tid .stt
  have hllm := children_perm hperm tid .llm
  have htts := children_perm hperm tid .tts
  have hrelated := related_perm hperm tid
  have hllmStart : toAudio ((children spans' tid .llm).head?.bind Span.tStart) offset =
      toAudio ((children spans tid .llm).head?.bind Span.tStart) offset := by
    have hread (ss : List (Span PyFloat)) : toAudio (ss.head?.bind Span.tStart) offset =
        (ss.head?.map fun s => toAudio s.tStart offset).join := by
      cases ss <;> rfl
    rw [hread, hread, head_perm h.llmStart hllm]
  have hfirstToken (first reported : Option PyFloat) :
      firstToken first ((children spans' tid .llm).head?.bind Span.tStart) reported offset =
        firstToken first ((children spans tid .llm).head?.bind Span.tStart) reported offset := by
    simp only [firstToken, hllmStart]
  have hendpointing : endpointingMs (endOfSpeech (children spans tid .speech) offset)
      (toAudio ((children spans tid .stt).head?.bind Span.tStart) offset) (related spans' tid) =
        endpointingMs (endOfSpeech (children spans tid .speech) offset)
          (toAudio ((children spans tid .stt).head?.bind Span.tStart) offset) (related spans tid) := by
    unfold endpointingMs
    split
    · rfl
    · next hnone => exact (attr_perm (h.endpointing hnone) hrelated).symm
  have hconfidence := orElse_perm h.confidence h.sharedConfidence hstt hrelated
  have hcached := orElse_perm h.tokensCached h.cacheRead hllm hllm
  have htranscript : orContent (transcript (children spans' tid .stt)) (related spans' tid)
      "transcript" = orContent (transcript (children spans tid .stt)) (related spans tid)
        "transcript" := by
    rw [transcript_eq, transcript_eq]
    exact (orContent_perm h.transcript (transcript_eq _ ▸ h.sharedTranscript) hstt hrelated).symm
  have hllmRaw : orContent (firstContent (children spans' tid .llm) "llm_raw") (related spans' tid)
      "llm_raw" = orContent (firstContent (children spans tid .llm) "llm_raw") (related spans tid)
        "llm_raw" := by
    rw [firstContent_eq, firstContent_eq]
    exact (orContent_perm h.llmRaw (firstContent_eq _ _ ▸ h.sharedLlmRaw) hllm hrelated).symm
  have hllmSpoken : orContent (firstContent (children spans' tid .tts) "llm_spoken")
      (related spans' tid) "llm_spoken" = orContent (firstContent (children spans tid .tts)
        "llm_spoken") (related spans tid) "llm_spoken" := by
    rw [firstContent_eq, firstContent_eq]
    exact (orContent_perm h.llmSpoken (firstContent_eq _ _ ▸ h.sharedLlmSpoken) htts hrelated).symm
  have huncovered (a b c d : Option PyFloat) :
      uncovered a b c d (children spans' tid .stt ++ children spans' tid .llm ++
        children spans' tid .tts) offset = uncovered a b c d (children spans tid .stt ++
          children spans tid .llm ++ children spans tid .tts) offset :=
    (uncovered_perm a b c d ((hstt.append hllm).append htts)).symm
  have hanchors : anchors ts tid spans' utterances offset = { anchors ts tid spans utterances offset with
      llmStart := (children spans' tid .llm).head?.bind Span.tStart } :=
    anchors_perm htimes hperm h.sttStart h.sttEnd utterances
  have hllmAnchor : (anchors ts tid spans utterances offset).llmStart =
    (children spans tid .llm).head?.bind Span.tStart := rfl
  have hspeech : (anchors ts tid spans utterances offset).speechEnd =
    endOfSpeech (children spans tid .speech) offset := rfl
  have hsttAnchor : (anchors ts tid spans utterances offset).sttStart =
    toAudio ((children spans tid .stt).head?.bind Span.tStart) offset := rfl
  simp only [waterfall, hanchors, hllmAnchor, hspeech, hsttAnchor, hllmStart, hfirstToken,
    hendpointing, hconfidence, hcached, htranscript, hllmRaw, hllmSpoken, huncovered,
    cutReason_perm h.cutReason htts, ← attr_perm h.ttft hllm, ← attr_perm h.ttfb htts,
    ← attr_perm h.language hstt, ← attr_perm h.tokensIn hllm, ← attr_perm h.tokensOut hllm,
    ← attr_perm h.finishReason hllm, ← attr_perm h.chars htts, ← attr_perm h.charsCut htts,
    ← attr_perm h.interrupted hrelated, ← attr_perm h.interruptionProbability hrelated,
    ← attr_perm h.e2eLatency hrelated, ← attr_perm h.abandoned hrelated, ← anyCancelled_perm htts,
    ← isEmpty_perm htts]

end

/-! ### The analysis -/

/-- One of any two timed events of the spans is before the other. -/
def EventsApart (s s' : Span PyFloat) : Prop :=
  ∀ e ∈ s.events, ∀ t ∈ e.t, ∀ e' ∈ s'.events, ∀ t' ∈ e'.t, t.lt t' = true ∨ t'.lt t = true

/-- What makes an analysis independent of the order of the spans. -/
structure OrderFree [Text] (spans : List (Span PyFloat)) (offset : PyFloat) : Prop where
  times : TimesCompare spans offset
  firsts : ∀ tss, turnSpans spans = .ok tss → ∀ ts ∈ tss, FirstsAgree spans ts.exchange offset
  /-- Turns are derived from events when no span is a turn. -/
  events : ¬HasTurnSpan spans → spans.Pairwise EventsApart

section

variable {spans spans' : List (Span PyFloat)} {offset : PyFloat}

lemma agentIntervals_perm (h : TimesCompare spans offset) (hperm : spans.Perm spans') :
    agentIntervals spans' offset = agentIntervals spans offset := by
  have hwindow {i : Lib.Interval PyFloat} (hi : i ∈ (spans.filter fun s =>
      s.stage = .tts ∨ s.stage = .playout).filterMap (window · offset)) :
      i.1 ∈ spans.filterMap (fun s => toAudio s.tStart offset) ∧
        i.2 ∈ spans.filterMap fun s => toAudio s.tEnd offset := by
    obtain ⟨s, hs, hi⟩ := List.mem_filterMap.1 hi
    obtain ⟨a, ha, hi⟩ := Option.bind_eq_some_iff.1 hi
    obtain ⟨b, hb, hi⟩ := Option.bind_eq_some_iff.1 hi
    cases hi
    have hs := List.mem_of_mem_filter hs
    exact ⟨List.mem_filterMap.2 ⟨s, hs, ha⟩, List.mem_filterMap.2 ⟨s, hs, hb⟩⟩
  refine (PyFloat.merge_perm ((hperm.filter _).filterMap _) (h.audioStarts.subset fun x hx => ?_)
    (h.audioEnds.subset fun x hx => ?_)).symm
  · obtain ⟨i, hi, rfl⟩ := List.mem_map.1 hx
    exact (hwindow hi).1
  · obtain ⟨i, hi, rfl⟩ := List.mem_map.1 hx
    exact (hwindow hi).2

lemma all_perm {α : Type} {as bs : List α} (hperm : as.Perm bs) (p : α → Bool) :
    as.all p = bs.all p := by
  rw [Bool.eq_iff_iff, List.all_eq_true, List.all_eq_true]
  simp only [hperm.mem_iff]

variable [Text] {cfg : MetricConfig} {audioEnabled : Bool} {trace : Trace PyFloat CallHeader}
  {audio : Option (AudioAnalysis PyFloat)}

lemma report_perm (h : TimesCompare trace.spans offset) (hperm : trace.spans.Perm spans')
    (turns : List (Turn Measured)) :
    report cfg audioEnabled { trace with spans := spans' } audio turns offset =
      report cfg audioEnabled trace audio turns offset := by
  have hbargein : bargeInAgreement spans' audio offset = bargeInAgreement trace.spans audio offset := by
    simp only [bargeInAgreement, agentIntervals_perm h hperm,
      ((hperm.flatMap_right Span.events).countP_eq (·.name = "bargein")).symm]
  have hempty : spans'.isEmpty = trace.spans.isEmpty := (isEmpty_perm hperm).symm
  have huntimed : untimed spans' = untimed trace.spans := (all_perm hperm _).symm
  have hderived : spans'.all (·.stage ≠ .turn) = trace.spans.all (·.stage ≠ .turn) :=
    (all_perm hperm _).symm
  have hunattributed : spans'.countP (fun s => s.turnId.isNone ∧ s.stage ≠ .call) =
      trace.spans.countP fun s => s.turnId.isNone ∧ s.stage ≠ .call := (hperm.countP_eq _).symm
  simp only [report, trustReport, agentIntervals_perm h hperm, hbargein, hempty, huntimed, hderived,
    hunattributed]

/-- The derived turns are the same in whatever order the spans are listed. -/
lemma turnsFromEvents_perm {c : Calculator PyFloat CallHeader Measured Report}
    (h : trace.spans.Pairwise EventsApart) (hperm : trace.spans.Perm spans') :
    c.turnsFromEvents { trace with spans := spans' } = c.turnsFromEvents trace := by
  have htimed (spans : List (Span PyFloat)) : timedEvents spans =
      spans.flatMap fun s => s.events.filterMap fun e => e.t.map (·, e) := by
    induction spans with
    | nil => rfl
    | cons s spans ih =>
      rw [List.flatMap_cons, ← ih, timedEvents, timedEvents, List.flatMap_cons, List.filterMap_append]
  have hsorted : Calculator.sortedEvents spans' = Calculator.sortedEvents trace.spans := by
    unfold Calculator.sortedEvents
    rw [htimed, htimed]
    refine (Lib.sorted_flatMap_perm (PyFloat.strictOrder_lt.comap Prod.fst) hperm ?_).symm
    refine h.imp fun {s s'} hapart a ha b hb => .inr ?_
    obtain ⟨e, he, ha⟩ := List.mem_filterMap.1 ha
    obtain ⟨t, ht, rfl⟩ := Option.map_eq_some_iff.1 ha
    obtain ⟨e', he', hb⟩ := List.mem_filterMap.1 hb
    obtain ⟨t', ht', rfl⟩ := Option.map_eq_some_iff.1 hb
    exact hapart e he t ht e' he' t' ht'
  rw [Calculator.turnsFromEvents_eq, Calculator.turnsFromEvents_eq, hsorted]

lemma DistinctKeys.perm (h : DistinctKeys spans) (hperm : spans.Perm spans') : DistinctKeys spans' :=
  ⟨fun s hs => h.reads s (hperm.mem_iff.2 hs), (hperm.map orderKey).nodup_iff.1 h.nodup⟩

lemma turnSpans_perm_iff (h : DistinctKeys spans) (hstarts : Comparable (spans.filterMap Span.tStart))
    (hperm : spans.Perm spans') {tss : List (Span PyFloat)} :
    turnSpans spans' = .ok tss ↔ turnSpans spans = .ok tss := by
  have hstarts' : Comparable (spans'.filterMap Span.tStart) :=
    hstarts.subset (filterMap_subset _ fun _ hs => hperm.mem_iff.2 hs)
  exact ⟨turnSpans_eq_of_perm (h.perm hperm) hstarts' hperm.symm, turnSpans_eq_of_perm h hstarts hperm⟩

end

/-! ### An exchange with a transcription -/

/-- The exchange of a call, by the caller's transcriptions. -/
def transcribed (stt : List (Span PyFloat)) : Trace PyFloat CallHeader where
  header := { callId := "c1", source := "pipecat", environment := "prod" }
  spans := { spanId := "s1", name := "turn", stage := .turn, tStart := some (.fin 0),
             turnId := some "t1" } :: stt

/-- A transcription from one time to another. -/
def transcription (id : String) (tStart tEnd : ℚ) : Span PyFloat where
  spanId := id
  parentSpanId := some "s1"
  name := "stt"
  stage := .stt
  tStart := some (.fin tStart)
  tEnd := some (.fin tEnd)
  turnId := some "t1"

lemma distinctKeys_one : DistinctKeys (transcribed [transcription "s2" 1 2]).spans :=
  ⟨by simp [transcribed, transcription, OrderKeyReads], by decide +kernel⟩

lemma distinctKeys_two :
    DistinctKeys (transcribed [transcription "s2" 1 2, transcription "s3" 3 4]).spans :=
  ⟨by simp [transcribed, transcription, OrderKeyReads], by decide +kernel⟩

lemma orderFree_one : OrderFree (transcribed [transcription "s2" 1 2]).spans (.fin 0) where
  times := by
    constructor <;> refine PyFloat.comparable_of_ne_nan ?_ <;> decide +kernel
  firsts tss htss ts hts := by
    have hturn : turnSpans (transcribed [transcription "s2" 1 2]).spans =
        .ok ((transcribed []).spans) := rfl
    obtain rfl : (transcribed []).spans = tss := Except.ok.inj (hturn.symm.trans htss)
    obtain rfl : ts = _ := List.mem_singleton.1 hts
    constructor <;>
      simp [Agree, AttrAgree, ContentAgree, transcribed, transcription, children, related, present,
        Span.exchange, contentOf]
  events h := absurd ⟨_, List.mem_cons_self, rfl⟩ h

end Pulse.Core
