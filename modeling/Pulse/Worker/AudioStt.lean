import Mathlib.Data.List.Chain
import Pulse.Core.Words

/-!
# Turns of a transcribed recording

`build_turns` of `worker/audio_stt.py` walks the utterances of a recording in time order: the words of
a caller's utterance wait for the agent's next utterance, and both make a turn. The words that wait
are lost when the caller speaks again before the agent does.
-/

namespace Pulse.Worker

open Pulse.Core
open Lib (PyFloat)

structure Word where
  text : String
  start : PyFloat
  tEnd : PyFloat

/-- `(w.start + w.end) / 2` -/
def Word.midpoint (w : Word) : PyFloat :=
  (w.start + w.tEnd).div (.fin 2)

section

variable [Text]

/-- `s.strip()` -/
def stripped (s : String) : String :=
  String.ofList (strip (F := PyFloat) s.toList)

/-- The words whose midpoint is in the window. -/
def within (words : List Word) (t0 t1 : PyFloat) : List Word :=
  words.filter fun w => t0 ≤ w.midpoint ∧ w.midpoint ≤ t1

/-- The text of words. -/
def textOfWords (words : List Word) : String :=
  stripped (" ".intercalate (words.map fun w => stripped w.text))

/-- `_words_in` -/
def wordsIn (words : List Word) (t0 t1 : PyFloat) : String :=
  textOfWords (within words t0 t1)

/-- The turn of an agent's utterance, after the caller's text that waits and its end. -/
def agentTurn (idx : Nat) (pendingCaller : Option (String × PyFloat)) (text : String)
    (tStart : PyFloat) : Turn Measured where
  turnIndex := idx
  turnId := "t" ++ toString idx
  measured := {
    trigger := if pendingCaller.isSome then "endpoint" else "opening"
    transcript := pendingCaller.map Prod.fst
    audioStartS := pendingCaller.map Prod.snd
    llmSpoken := some text
    audioOutStartS := some tStart }

/-- The turn of a caller whom nobody answers. -/
def trailingTurn (idx : Nat) (pendingCaller : String × PyFloat) : Turn Measured where
  turnIndex := idx
  turnId := "t" ++ toString idx
  measured := {
    trigger := "endpoint"
    transcript := some pendingCaller.1
    audioStartS := some pendingCaller.2 }

/-- One turn of the loop of `build_turns`, on the turns and the caller's text that waits. -/
def foldUtterance (words : List (String × List Word))
    (acc : List (Turn Measured) × Option (String × PyFloat)) (u : Utterance PyFloat) :
    List (Turn Measured) × Option (String × PyFloat) :=
  let text := wordsIn ((words.lookup u.channel).getD []) u.tStart u.tEnd
  if text = "" then acc
  else if u.channel = "caller" then (acc.1, some (text, u.tEnd))
  else if u.channel = "agent" then (acc.1 ++ [agentTurn acc.1.length acc.2 text u.tStart], none)
  else acc

/-- The turns once the loop is done. -/
def closeTurns (acc : List (Turn Measured) × Option (String × PyFloat)) : List (Turn Measured) :=
  acc.1 ++ (acc.2.map (trailingTurn acc.1.length)).toList

def inTimeOrder (utterances : List (Utterance PyFloat)) : List (Utterance PyFloat) :=
  Lib.sorted (fun u v => u.tStart.lt v.tStart) utterances

/-- `build_turns` -/
def buildTurns (utterances : List (Utterance PyFloat)) (words : List (String × List Word)) :
    List (Turn Measured) :=
  closeTurns ((inTimeOrder utterances).foldl (foldUtterance words) ([], none))

/-! ### What is said -/

/-- The words of an utterance. -/
def wordsOf (words : List (String × List Word)) (u : Utterance PyFloat) : List Word :=
  within ((words.lookup u.channel).getD []) u.tStart u.tEnd

/-- The utterance is the caller's or the agent's and has a text. -/
def Speaks (words : List (String × List Word)) (u : Utterance PyFloat) : Prop :=
  (u.channel = "caller" ∨ u.channel = "agent") ∧ textOfWords (wordsOf words u) ≠ ""

instance (words : List (String × List Word)) : DecidablePred (Speaks words) :=
  fun _ => inferInstanceAs (Decidable (_ ∧ _))

/-- The utterances that speak, in time order. -/
def spoken (utterances : List (Utterance PyFloat)) (words : List (String × List Word)) :
    List (Utterance PyFloat) :=
  (inTimeOrder utterances).filter (Speaks words ·)

/-- What a channel says, utterance by utterance. -/
def heard (utterances : List (Utterance PyFloat)) (words : List (String × List Word))
    (channel : String) : List (List Word) :=
  ((spoken utterances words).filter (·.channel = channel)).map (wordsOf words)

/-- The texts of the turns' sides are those of the utterances, each in one turn, in order. -/
def SharedAmong (said : List (List Word)) (sides : List (Option String)) : Prop :=
  ∃ shares : List (List (List Word)), shares.flatten = said ∧
    sides = shares.map fun share => joined (share.map textOfWords)

/-! ### The two sides of the turns -/

def sidesOf (turn : Turn Measured) : Option String × Option String :=
  (turn.measured.transcript, turn.measured.llmSpoken)

/-- What the turns of utterances have on their two sides, after a caller's text that waits. -/
def sidesFrom (words : List (String × List Word)) (pending : Option String) :
    List (Utterance PyFloat) → List (Option String × Option String)
  | [] => (pending.map fun text => (some text, none)).toList
  | u :: us =>
    if u.channel = "caller" then sidesFrom words (some (textOfWords (wordsOf words u))) us
    else (pending, some (textOfWords (wordsOf words u))) :: sidesFrom words none us

variable {words : List (String × List Word)}

lemma sidesOf_closeTurns (us : List (Utterance PyFloat))
    (acc : List (Turn Measured) × Option (String × PyFloat)) :
    (closeTurns (us.foldl (foldUtterance words) acc)).map sidesOf =
      acc.1.map sidesOf ++ sidesFrom words (acc.2.map Prod.fst) (us.filter (Speaks words ·)) := by
  induction us generalizing acc with
  | nil =>
    obtain ⟨turns, pending⟩ := acc
    cases pending <;> simp [closeTurns, sidesFrom, sidesOf, trailingTurn]
  | cons u us ih =>
    rw [List.foldl_cons, ih, foldUtterance]
    have htext : wordsIn ((words.lookup u.channel).getD []) u.tStart u.tEnd =
        textOfWords (wordsOf words u) := rfl
    rw [htext]
    by_cases hempty : textOfWords (wordsOf words u) = ""
    · rw [if_pos hempty, List.filter_cons_of_neg (by simp [Speaks, hempty])]
    · rw [if_neg hempty]
      by_cases hcaller : u.channel = "caller"
      · rw [if_pos hcaller, List.filter_cons_of_pos (by simp [Speaks, hempty, hcaller]), sidesFrom,
          if_pos hcaller]
        rfl
      · rw [if_neg hcaller]
        by_cases hagent : u.channel = "agent"
        · rw [if_pos hagent, List.filter_cons_of_pos (by simp [Speaks, hempty, hagent]), sidesFrom,
            if_neg hcaller]
          simp [sidesOf, agentTurn]
        · rw [if_neg hagent, List.filter_cons_of_neg (by simp [Speaks, hcaller, hagent])]

lemma sidesOf_buildTurns (utterances : List (Utterance PyFloat)) :
    (buildTurns utterances words).map sidesOf = sidesFrom words none (spoken utterances words) :=
  sidesOf_closeTurns (inTimeOrder utterances) ([], none)

/-- An utterance adds no turn, or the next one. -/
lemma foldUtterance_fst (acc : List (Turn Measured) × Option (String × PyFloat))
    (u : Utterance PyFloat) : (foldUtterance words acc u).1 = acc.1 ∨
      ∃ turn : Turn Measured, turn.turnIndex = acc.1.length ∧
        (foldUtterance words acc u).1 = acc.1 ++ [turn] := by
  rw [foldUtterance]
  by_cases hempty : wordsIn ((words.lookup u.channel).getD []) u.tStart u.tEnd = ""
  · exact .inl (by rw [if_pos hempty])
  · rw [if_neg hempty]
    by_cases hcaller : u.channel = "caller"
    · exact .inl (by rw [if_pos hcaller])
    · rw [if_neg hcaller]
      by_cases hagent : u.channel = "agent"
      · exact .inr ⟨_, rfl, by rw [if_pos hagent]⟩
      · exact .inl (by rw [if_neg hagent])

/-- The turns are numbered from zero. -/
def Indexed (turns : List (Turn Measured)) : Prop :=
  turns.map Turn.turnIndex = (List.range turns.length).map (↑)

omit [Text] in
lemma Indexed.concat {turns : List (Turn Measured)} (h : Indexed turns) {turn : Turn Measured}
    (hturn : turn.turnIndex = turns.length) : Indexed (turns ++ [turn]) := by
  rw [Indexed, List.map_append, h, List.map_singleton, hturn, List.length_append,
    List.length_singleton, List.range_succ, List.map_append, List.map_singleton]

lemma indexed_foldl (us : List (Utterance PyFloat))
    {acc : List (Turn Measured) × Option (String × PyFloat)} (h : Indexed acc.1) :
    Indexed (us.foldl (foldUtterance words) acc).1 := by
  induction us generalizing acc with
  | nil => exact h
  | cons u us ih =>
    apply ih
    rcases foldUtterance_fst acc u with hsame | ⟨turn, hturn, hnext⟩
    · rw [hsame]
      exact h
    · rw [hnext]
      exact h.concat hturn

lemma indexed_buildTurns (utterances : List (Utterance PyFloat)) :
    Indexed (buildTurns utterances words) := by
  have h : Indexed ((inTimeOrder utterances).foldl (foldUtterance words) ([], none)).1 :=
    indexed_foldl _ rfl
  rw [buildTurns, closeTurns]
  cases ((inTimeOrder utterances).foldl (foldUtterance words) ([], none)).2 with
  | none => rwa [Option.map_none, Option.toList_none, List.append_nil]
  | some pending => exact h.concat rfl

/-! ### Whose words are kept -/

/-- No two utterances of the caller come one after the other, nor one after a text that waits. -/
def Answered (pending : Option String) (us : List (Utterance PyFloat)) : Prop :=
  (pending.isSome → ∀ u ∈ us.head?, u.channel ≠ "caller") ∧
    us.IsChain fun u v => u.channel = "caller" → v.channel ≠ "caller"

/-- What a channel says in utterances. -/
def saidIn (words : List (String × List Word)) (channel : String) (us : List (Utterance PyFloat)) :
    List (List Word) :=
  (us.filter (·.channel = channel)).map (wordsOf words)

omit [Text] in
lemma saidIn_cons_of_eq {channel : String} {u : Utterance PyFloat} (h : u.channel = channel)
    (us : List (Utterance PyFloat)) :
    saidIn words channel (u :: us) = wordsOf words u :: saidIn words channel us := by
  rw [saidIn, List.filter_cons_of_pos (by simpa using h), List.map_cons, saidIn]

omit [Text] in
lemma saidIn_cons_of_ne {channel : String} {u : Utterance PyFloat} (h : u.channel ≠ channel)
    (us : List (Utterance PyFloat)) : saidIn words channel (u :: us) = saidIn words channel us := by
  rw [saidIn, List.filter_cons_of_neg (by simpa using h), saidIn]

omit [Text] in
lemma joined_singleton (s : String) : joined [s] = some s := by
  rw [joined_of_ne_nil (List.cons_ne_nil s []), String.intercalate_singleton]

/-- The agent's words are all kept. -/
lemma sharedAmong_agent (us : List (Utterance PyFloat))
    (hus : ∀ u ∈ us, u.channel = "caller" ∨ u.channel = "agent") (pending : Option String) :
    SharedAmong (saidIn words "agent" us) ((sidesFrom words pending us).map Prod.snd) := by
  induction us generalizing pending with
  | nil =>
    refine ⟨pending.toList.map fun _ => [], ?_, ?_⟩ <;> cases pending <;> simp [saidIn, sidesFrom, joined]
  | cons u us ih =>
    rw [List.forall_mem_cons] at hus
    rw [sidesFrom]
    split
    · next hcaller =>
      have hne : u.channel ≠ "agent" := by simp [hcaller]
      rw [saidIn_cons_of_ne hne]
      exact ih hus.2 _
    · next hcaller =>
      obtain ⟨shares, hflatten, hsides⟩ := ih hus.2 none
      refine ⟨[wordsOf words u] :: shares, ?_, ?_⟩
      · rw [saidIn_cons_of_eq (hus.1.resolve_left hcaller), ← hflatten]
        rfl
      · rw [List.map_cons, List.map_cons, ← hsides, List.map_singleton, joined_singleton]

/-- The caller's words are kept where they are answered. -/
lemma sharedAmong_caller (us : List (Utterance PyFloat)) (pending : Option (List Word))
    (h : Answered (pending.map textOfWords) us) :
    SharedAmong (pending.toList ++ saidIn words "caller" us)
      ((sidesFrom words (pending.map textOfWords) us).map Prod.fst) := by
  induction us generalizing pending with
  | nil =>
    refine ⟨pending.toList.map fun ws => [ws], ?_, ?_⟩ <;> cases pending <;>
      simp [saidIn, sidesFrom, joined_singleton]
  | cons u us ih =>
    obtain ⟨hwaits, hchain⟩ := h
    rw [List.isChain_cons] at hchain
    rw [sidesFrom]
    split
    · next hcaller =>
      cases pending with
      | some ws => exact absurd hcaller (hwaits rfl u rfl)
      | none =>
        rw [saidIn_cons_of_eq hcaller]
        exact ih (some (wordsOf words u)) ⟨fun _ v hv => hchain.1 v hv hcaller, hchain.2⟩
    · next hcaller =>
      obtain ⟨shares, hflatten, hsides⟩ := ih none ⟨nofun, hchain.2⟩
      rw [saidIn_cons_of_ne hcaller]
      refine ⟨pending.toList :: shares, ?_, ?_⟩
      · rw [List.flatten_cons, hflatten]
        rfl
      · rw [List.map_cons, List.map_cons]
        congr 1
        cases pending <;> simp [joined]

/-- The letters of what a channel says. -/
def lettersIn (words : List (String × List Word)) (us : List (Utterance PyFloat)) : Nat :=
  ((saidIn words "caller" us).map fun ws => (textOfWords ws).length).sum

/-- The letters of the caller that the turns keep. -/
def lettersKept (words : List (String × List Word)) (pending : Option String)
    (us : List (Utterance PyFloat)) : Nat :=
  ((sidesFrom words pending us).map fun side => letters side.1).sum

omit [Text] in
lemma letters_none : letters none = 0 := rfl

omit [Text] in
lemma letters_some (s : String) : letters (some s) = s.length := rfl

lemma lettersIn_nil : lettersIn words [] = 0 := rfl

lemma lettersKept_nil (pending : Option String) : lettersKept words pending [] = letters pending := by
  rw [lettersKept, sidesFrom]
  cases pending <;>
    simp only [Option.map_none, Option.map_some, Option.toList_none, Option.toList_some,
      List.map_nil, List.map_cons, List.sum_nil, List.sum_cons, Nat.add_zero, letters_none]

lemma lettersIn_caller {u : Utterance PyFloat} (h : u.channel = "caller")
    (us : List (Utterance PyFloat)) : lettersIn words (u :: us) =
      (textOfWords (wordsOf words u)).length + lettersIn words us := by
  rw [lettersIn, saidIn_cons_of_eq h, List.map_cons, List.sum_cons, lettersIn]

lemma lettersIn_agent {u : Utterance PyFloat} (h : u.channel ≠ "caller")
    (us : List (Utterance PyFloat)) : lettersIn words (u :: us) = lettersIn words us := by
  rw [lettersIn, saidIn_cons_of_ne h, lettersIn]

lemma lettersKept_caller {u : Utterance PyFloat} (h : u.channel = "caller")
    (us : List (Utterance PyFloat)) (pending : Option String) :
    lettersKept words pending (u :: us) =
      lettersKept words (some (textOfWords (wordsOf words u))) us := by
  rw [lettersKept, sidesFrom, if_pos h, lettersKept]

lemma lettersKept_agent {u : Utterance PyFloat} (h : u.channel ≠ "caller")
    (us : List (Utterance PyFloat)) (pending : Option String) :
    lettersKept words pending (u :: us) = letters pending + lettersKept words none us := by
  rw [lettersKept, sidesFrom, if_neg h, List.map_cons, List.sum_cons, lettersKept]

lemma lettersKept_le (us : List (Utterance PyFloat)) (pending : Option String) :
    lettersKept words pending us ≤ letters pending + lettersIn words us := by
  induction us generalizing pending with
  | nil => rw [lettersKept_nil, lettersIn_nil, Nat.add_zero]
  | cons u us ih =>
    by_cases hcaller : u.channel = "caller"
    · have hkept := ih (some (textOfWords (wordsOf words u)))
      rw [letters_some] at hkept
      rw [lettersKept_caller hcaller, lettersIn_caller hcaller]
      omega
    · have hkept := ih none
      rw [letters_none] at hkept
      rw [lettersKept_agent hcaller, lettersIn_agent hcaller]
      omega

/-- Where the turns keep all of the caller's letters, the caller is always answered. -/
lemma answered_of_lettersKept {us : List (Utterance PyFloat)}
    (hus : ∀ u ∈ us, textOfWords (wordsOf words u) ≠ "") (pending : Option String)
    (hpending : pending ≠ some "")
    (h : letters pending + lettersIn words us ≤ lettersKept words pending us) :
    Answered pending us := by
  induction us generalizing pending with
  | nil => exact ⟨fun _ u hu => by simp at hu, List.isChain_nil⟩
  | cons u us ih =>
    rw [List.forall_mem_cons] at hus
    by_cases hcaller : u.channel = "caller"
    · rw [lettersIn_caller hcaller, lettersKept_caller hcaller] at h
      have hle : lettersKept words _ us ≤ _ := lettersKept_le us (some (textOfWords (wordsOf words u)))
      have hrest := ih hus.2 (some (textOfWords (wordsOf words u)))
        (fun heq => hus.1 (Option.some.inj heq)) (by rw [letters_some] at hle ⊢; omega)
      rw [letters_some] at hle
      cases pending with
      | none =>
        refine ⟨nofun, ?_⟩
        rw [List.isChain_cons]
        exact ⟨fun v hv _ => hrest.1 rfl v hv, hrest.2⟩
      | some text =>
        have hpos : text.length ≠ 0 := by
          rw [ne_eq, String.length_eq_zero_iff]
          exact fun heq => hpending (congrArg some heq)
        rw [letters_some] at h
        omega
    · rw [lettersIn_agent hcaller, lettersKept_agent hcaller] at h
      have hrest := ih hus.2 none nofun (by rw [letters_none]; omega)
      refine ⟨fun _ v hv => ?_, ?_⟩
      · rw [List.head?_cons, Option.mem_some_iff] at hv
        rwa [← hv]
      · rw [List.isChain_cons]
        exact ⟨fun v _ hu => absurd hu hcaller, hrest.2⟩

/-- The letters of what is shared out are on the sides. -/
lemma sum_length_le_of_sharedAmong {said : List (List Word)} {sides : List (Option String)}
    (h : SharedAmong said sides) :
    (said.map fun ws => (textOfWords ws).length).sum ≤ (sides.map letters).sum := by
  obtain ⟨shares, rfl, rfl⟩ := h
  rw [List.map_flatten, List.sum_flatten, List.map_map, List.map_map]
  refine List.sum_le_sum fun share _ => ?_
  rw [Function.comp_apply, Function.comp_apply]
  have hle := sum_length_le_joined (share.map textOfWords)
  rw [List.map_map, Function.comp_def] at hle
  exact hle

/-! ### Words within their texts -/

def Blank (w : Word) : Prop :=
  stripped w.text = ""

instance : DecidablePred Blank :=
  fun w => inferInstanceAs (Decidable (stripped w.text = ""))

lemma toList_stripped (s : String) : (stripped s).toList = Lib.trim Text.isSpace s.toList := by
  rw [stripped, String.toList_ofList]
  rfl

omit [Text] in
lemma infix_intercalate {s t : String} {texts : List String} (h : t ∈ texts) :
    t.toList <:+: (s.intercalate texts).toList := by
  induction texts with
  | nil => cases h
  | cons t' texts ih =>
    by_cases hnil : texts = []
    · rw [hnil, List.mem_singleton] at h
      rw [hnil, h, String.intercalate_singleton]
    · rw [String.intercalate_cons_of_ne_nil hnil, String.toList_append, String.toList_append]
      rcases List.mem_cons.1 h with rfl | h
      · rw [List.append_assoc]
        exact List.infix_append [] _ _
      · exact (ih h).trans (List.suffix_append _ _).isInfix

/-- A word is in the text of the words that it is one of. -/
lemma stripped_infix {ws : List Word} {w : Word} (h : w ∈ ws) :
    (stripped w.text).toList <:+: (textOfWords ws).toList := by
  have hin := infix_intercalate (s := " ") (List.mem_map_of_mem (f := fun w => stripped w.text) h)
  rw [toList_stripped] at hin ⊢
  rw [textOfWords, toList_stripped]
  exact Lib.infix_trim hin Lib.head?_trim Lib.getLast?_trim

lemma blank_of_textOfWords {ws : List Word} (h : textOfWords ws = "") : ∀ w ∈ ws, Blank w := by
  intro w hw
  have hin := stripped_infix hw
  rwa [h, String.toList_empty, List.infix_nil, String.toList_eq_nil_iff] at hin

/-! ### No words lost -/

/-- No moment is in two utterances of a channel. -/
def DisjointWindows (utterances : List (Utterance PyFloat)) : Prop :=
  utterances.Pairwise fun u v => u.channel = v.channel →
    ∀ t, ¬((u.tStart ≤ t ∧ t ≤ u.tEnd) ∧ v.tStart ≤ t ∧ t ≤ v.tEnd)

/-- The words of a channel that are in an utterance of it, leaving out the blank ones. -/
def wordsWithin (utterances : List (Utterance PyFloat)) (words : List (String × List Word))
    (channel : String) : List Word :=
  ((words.lookup channel).getD []).filter fun w => ¬Blank w ∧
    ∃ u ∈ utterances, u.channel = channel ∧ u.tStart ≤ w.midpoint ∧ w.midpoint ≤ u.tEnd

/-- The turns are numbered from zero, and each word is in the text of one of them, on the side of its
channel and in the order of the utterances. -/
structure ConservesWords (utterances : List (Utterance PyFloat)) (words : List (String × List Word))
    (turns : List (Turn Measured)) : Prop where
  caller : SharedAmong (heard utterances words "caller") (turns.map (·.measured.transcript))
  agent : SharedAmong (heard utterances words "agent") (turns.map (·.measured.llmSpoken))
  once : ∀ channel ∈ ["caller", "agent"],
    ((heard utterances words channel).flatten.filter (¬Blank ·)).Perm
      (wordsWithin utterances words channel)
  occurs : ∀ channel ∈ ["caller", "agent"], ∀ ws ∈ heard utterances words channel, ∀ w ∈ ws,
    (stripped w.text).toList <:+: (textOfWords ws).toList
  turnIndex : Indexed turns

lemma flatMap_spoken (utterances : List (Utterance PyFloat)) {channel : String}
    (hchannel : channel = "caller" ∨ channel = "agent") :
    (heard utterances words channel).flatten.filter (¬Blank ·) =
      ((inTimeOrder utterances).filter (·.channel = channel)).flatMap fun u =>
        (wordsOf words u).filter (¬Blank ·) := by
  rw [heard, spoken]
  induction inTimeOrder utterances with
  | nil => rfl
  | cons u us ih =>
    by_cases hu : u.channel = channel
    · have hhas : u.channel = "caller" ∨ u.channel = "agent" := hu ▸ hchannel
      by_cases hempty : textOfWords (wordsOf words u) = ""
      · have hnone : (wordsOf words u).filter (¬Blank ·) = [] := by
          rw [List.filter_eq_nil_iff]
          exact fun w hw => by simpa using blank_of_textOfWords hempty w hw
        rw [List.filter_cons_of_neg (by simp [Speaks, hempty]), ih,
          List.filter_cons_of_pos (by simpa using hu), List.flatMap_cons, hnone, List.nil_append]
      · rw [List.filter_cons_of_pos (by simp [Speaks, hempty, hhas]),
          List.filter_cons_of_pos (by simpa using hu), List.map_cons, List.flatten_cons,
          List.filter_append, ih, List.filter_cons_of_pos (by simpa using hu), List.flatMap_cons]
    · by_cases hspeaks : Speaks words u
      · rw [List.filter_cons_of_pos (by simpa using hspeaks),
          List.filter_cons_of_neg (by simpa using hu), List.filter_cons_of_neg (by simpa using hu), ih]
      · rw [List.filter_cons_of_neg (by simpa using hspeaks), ih,
          List.filter_cons_of_neg (by simpa using hu)]

lemma heard_perm {utterances : List (Utterance PyFloat)} (h : DisjointWindows utterances)
    {channel : String} (hchannel : channel = "caller" ∨ channel = "agent") :
    ((heard utterances words channel).flatten.filter (¬Blank ·)).Perm
      (wordsWithin utterances words channel) := by
  have hsorted : DisjointWindows (inTimeOrder utterances) := by
    refine (Lib.sorted_perm _ utterances).symm.pairwise h fun {u v} huv hchannel t ht => ?_
    exact huv hchannel.symm t ⟨ht.2, ht.1⟩
  have hof : ∀ u ∈ (inTimeOrder utterances).filter (·.channel = channel), u.channel = channel :=
    fun u hu => by simpa using List.of_mem_filter hu
  have hperm : (((inTimeOrder utterances).filter (·.channel = channel)).flatMap fun u =>
      (((words.lookup channel).getD []).filter (¬Blank ·)).filter fun w =>
        decide (u.tStart ≤ w.midpoint ∧ w.midpoint ≤ u.tEnd)).Perm _ :=
    Lib.flatMap_filter_perm ?_
  · have heach : ∀ u ∈ (inTimeOrder utterances).filter (·.channel = channel),
        (wordsOf words u).filter (¬Blank ·) =
          (((words.lookup channel).getD []).filter (¬Blank ·)).filter fun w =>
            decide (u.tStart ≤ w.midpoint ∧ w.midpoint ≤ u.tEnd) := by
      intro u hu
      rw [wordsOf, within, hof u hu, List.filter_comm]
    have hany : (((words.lookup channel).getD []).filter (¬Blank ·)).filter (fun w =>
        ((inTimeOrder utterances).filter (·.channel = channel)).any fun u =>
          decide (u.tStart ≤ w.midpoint ∧ w.midpoint ≤ u.tEnd)) =
        wordsWithin utterances words channel := by
      rw [wordsWithin, List.filter_filter]
      refine List.filter_congr fun w _ => ?_
      rw [Bool.and_comm, Bool.eq_iff_iff]
      simp [inTimeOrder, Lib.mem_sorted]
    rwa [flatMap_spoken utterances hchannel, List.flatMap_congr heach, ← hany]
  · refine (hsorted.filter _).imp_of_mem fun {u v} hu hv huv w _ hw hw' => ?_
    exact huv ((hof u hu).trans (hof v hv).symm) w.midpoint ⟨of_decide_eq_true hw, of_decide_eq_true hw'⟩

lemma speaks_of_mem {utterances : List (Utterance PyFloat)} {u : Utterance PyFloat}
    (h : u ∈ spoken utterances words) : Speaks words u := by
  simpa using List.of_mem_filter h

/-- Where all that the caller says is in a turn, the agent speaks between. -/
lemma isChain_of_sharedAmong {utterances : List (Utterance PyFloat)}
    (h : SharedAmong (heard utterances words "caller")
      ((buildTurns utterances words).map (·.measured.transcript))) :
    (spoken utterances words).IsChain fun u v => u.channel = "caller" → v.channel ≠ "caller" := by
  have hle := sum_length_le_of_sharedAmong h
  have hsides : (buildTurns utterances words).map (·.measured.transcript) =
      (sidesFrom words none (spoken utterances words)).map Prod.fst := by
    rw [← sidesOf_buildTurns, List.map_map]
    rfl
  rw [hsides, List.map_map] at hle
  refine (answered_of_lettersKept (fun u hu => (speaks_of_mem hu).2) none nofun ?_).2
  rw [letters_none, Nat.zero_add]
  exact hle

/-- The turns have all of the words exactly when the agent says something between any two utterances
of the caller that have words. -/
theorem buildTurns_conserves_iff (utterances : List (Utterance PyFloat))
    (words : List (String × List Word)) (h : DisjointWindows utterances) :
    ConservesWords utterances words (buildTurns utterances words) ↔
      (spoken utterances words).IsChain fun u v => u.channel = "caller" → v.channel ≠ "caller" := by
  constructor
  · intro hkept
    exact isChain_of_sharedAmong hkept.caller
  · intro hchain
    have hspeaks : ∀ u ∈ spoken utterances words, u.channel = "caller" ∨ u.channel = "agent" :=
      fun u hu => (speaks_of_mem hu).1
    have hcaller : SharedAmong (heard utterances words "caller") _ :=
      sharedAmong_caller (spoken utterances words) none ⟨nofun, hchain⟩
    have hagent : SharedAmong (heard utterances words "agent") _ :=
      sharedAmong_agent (spoken utterances words) hspeaks none
    rw [Option.map_none, ← sidesOf_buildTurns, List.map_map] at hcaller
    rw [← sidesOf_buildTurns, List.map_map] at hagent
    refine ⟨hcaller, hagent, fun channel hchannel => ?_, fun channel _ ws _ w hw => stripped_infix hw,
      indexed_buildTurns utterances⟩
    exact heard_perm h (by simpa using hchannel)

end

/-- A caller who is answered, and says more. -/
def answeredCall : List (Utterance PyFloat) :=
  [⟨"caller", .fin 0, .fin 1⟩, ⟨"agent", .fin 2, .fin 3⟩]

def answeredWords : List (String × List Word) :=
  [("caller", [⟨"Hello.", .fin 0, .fin 1⟩]), ("agent", [⟨"Hi.", .fin 2, .fin 3⟩])]

theorem buildTurns_conserves_iff_answered :
    DisjointWindows answeredCall ∧
      (ConservesWords answeredCall answeredWords (buildTurns answeredCall answeredWords) ↔
        (spoken answeredCall answeredWords).IsChain
          fun u v => u.channel = "caller" → v.channel ≠ "caller") := by
  have hdisjoint : DisjointWindows answeredCall := by simp [DisjointWindows, answeredCall]
  exact ⟨hdisjoint, buildTurns_conserves_iff answeredCall answeredWords hdisjoint⟩

/-- A caller who speaks twice before the agent does. -/
def pausingCall : List (Utterance PyFloat) :=
  [⟨"caller", .fin 0, .fin 1⟩, ⟨"caller", .fin 2, .fin 3⟩, ⟨"agent", .fin 4, .fin 5⟩]

def pausingWords : List (String × List Word) :=
  [("caller", [⟨"Hello.", .fin 0, .fin 1⟩, ⟨"Anyone there?", .fin 2, .fin 3⟩]),
    ("agent", [⟨"Yes.", .fin 4, .fin 5⟩])]

/-- What the caller says first is in no turn. -/
theorem pausingCall_loses_words : DisjointWindows pausingCall ∧
    ¬ConservesWords pausingCall pausingWords (buildTurns pausingCall pausingWords) := by
  constructor
  · have hnever (t : PyFloat) : ¬(t ≤ .fin 1 ∧ .fin 2 ≤ t) := by
      cases t with
      | fin q =>
        rw [PyFloat.fin_le_fin_iff, PyFloat.fin_le_fin_iff]
        intro h
        linarith
      | inf | negInf | nan => decide
    have hpauses (t : PyFloat) : .fin 0 ≤ t → t ≤ .fin 1 → .fin 2 ≤ t → ¬t ≤ .fin 3 :=
      fun _ hend hstart _ => hnever t ⟨hend, hstart⟩
    simpa [DisjointWindows, pausingCall] using hpauses
  · intro hkept
    exact absurd (isChain_of_sharedAmong hkept.caller) (by decide +kernel)

end Pulse.Worker
