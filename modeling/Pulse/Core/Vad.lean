import Mathlib.Data.List.ModifyLast
import Mathlib.Data.PNat.Notation
import Pulse.Core.Calculator
import Pulse.Lib.PyFloat
import Pulse.Lib.Runs

/-!
# Voice activity

`detect_utterances` of `core/audio/vad.py` goes through the frames of a channel and closes a segment
once the silence after it is longer than the hangover. The segment that is open at the end of the
file is closed there, with the silence after its last speech.
-/

namespace Pulse.Core

open Lib (PyFloat runs Runs join)

/-- The loop of `detect_utterances`: the utterances that are over, the first frame of the one that is
not, and the silent frames since its last speech. -/
structure Region where
  utterances : List (Utterance PyFloat) := []
  start : Option Nat := none
  gap : Nat := 0

/-- `_mk` -/
def mkUtterance (channel : String) (frameS : ℚ) (startFrame endFrame : Nat) : Utterance PyFloat where
  channel := channel
  tStart := (PyFloat.fin (startFrame * frameS)).round 4
  tEnd := (PyFloat.fin (endFrame * frameS)).round 4

/-- One turn of the loop, at frame `i`. -/
def detectFrame (channel : String) (frameS : ℚ) (hangoverFrames : ℤ) (st : Region)
    (frame : Bool × Nat) : Region :=
  let i := frame.2
  if frame.1 then { st with start := some (st.start.getD i), gap := 0 }
  else st.start.elim st fun start =>
    let gap := st.gap + 1
    if hangoverFrames < gap then
      { utterances := st.utterances ++ [mkUtterance channel frameS start (i - gap + 1)] }
    else { st with gap := gap }

/-- The utterances once the loop is done. -/
def closeRegion (channel : String) (frameS : ℚ) (frames : Nat) (st : Region) :
    List (Utterance PyFloat) :=
  st.utterances ++ (st.start.map fun start => mkUtterance channel frameS start frames).toList

/-- `FRAME_MS` -/
def frameMsDefault : ℚ := 20

/-- `HANGOVER_S` -/
def hangoverSDefault : ℚ := 1 / 5

/-- `MIN_UTTERANCE_S` -/
def minUtteranceSDefault : ℚ := 1 / 10

/-- `frame_len` of `detect_utterances` -/
def frameLen (sampleRate : ℕ+) (frameMs : ℚ) : Nat :=
  max 1 ⌊sampleRate * frameMs / 1000⌋.toNat

/-- `frame_s` of `detect_utterances` -/
def frameSeconds (sampleRate : ℕ+) (frameMs : ℚ) : ℚ :=
  frameLen sampleRate frameMs / sampleRate

/-- `detect_utterances`, after the dBFS of each frame (`frame_rms_dbfs`). -/
def detectUtterances (frameRmsDbfs : List Int → Nat → List PyFloat) (samples : List Int)
    (channel : String) (sampleRate : ℕ+) (thresholdDbfs : PyFloat) (frameMs : ℚ := frameMsDefault)
    (hangoverS : ℚ := hangoverSDefault) (minUtteranceS : ℚ := minUtteranceSDefault) :
    List (Utterance PyFloat) :=
  let dbfs := frameRmsDbfs samples (frameLen sampleRate frameMs)
  if dbfs.isEmpty then []
  else
    let speech := dbfs.map fun x => decide (thresholdDbfs < x)
    let frameS := frameSeconds sampleRate frameMs
    let hangoverFrames := Lib.roundEven (hangoverS / frameS)
    let st := speech.zipIdx.foldl (detectFrame channel frameS hangoverFrames) {}
    (closeRegion channel frameS speech.length st).filter fun u =>
      .fin minUtteranceS ≤ u.tEnd - u.tStart

/-! ### Segments of frames -/

section

/-- The segments of the frames from `i` on, after a segment that may have begun before and has had
`gap` silent frames since; the last one ends with the file. -/
def segmentsFrom (h i : Nat) (start : Option Nat) (gap : Nat) : List Bool → List (Nat × Nat)
  | [] => (start.map (·, i)).toList
  | true :: speech => segmentsFrom h (i + 1) (some (start.getD i)) 0 speech
  | false :: speech => start.elim (segmentsFrom h (i + 1) none gap speech) fun s =>
    if h < gap + 1 then (s, i - gap) :: segmentsFrom h (i + 1) none 0 speech
    else segmentsFrom h (i + 1) (some s) (gap + 1) speech

variable {channel : String} {frameS : ℚ} {h : Nat}

lemma closeRegion_foldl (speech : List Bool) (i : Nat) (st : Region)
    (hgap : st.start.isSome → st.gap < i) :
    closeRegion channel frameS (i + speech.length)
        ((speech.zipIdx i).foldl (detectFrame channel frameS h) st) =
      st.utterances ++ (segmentsFrom h i st.start st.gap speech).map
        fun r => mkUtterance channel frameS r.1 r.2 := by
  induction speech generalizing i st with
  | nil =>
    obtain ⟨us, start, gap⟩ := st
    cases start <;> rfl
  | cons isSpeech speech ih =>
    obtain ⟨us, start, gap⟩ := st
    have hlength : i + (isSpeech :: speech).length = i + 1 + speech.length := by
      rw [List.length_cons]
      omega
    rw [hlength, List.zipIdx_cons, List.foldl_cons]
    cases isSpeech with
    | true => exact ih (i + 1) _ fun _ => Nat.succ_pos i
    | false =>
      cases start with
      | none => exact ih (i + 1) ⟨us, none, gap⟩ (by simp)
      | some s =>
        have hlt : gap < i := hgap rfl
        by_cases hover : h < gap + 1
        · have hstep : detectFrame channel frameS h ⟨us, some s, gap⟩ (false, i) =
              ⟨us ++ [mkUtterance channel frameS s (i - gap)], none, 0⟩ := by
            have hend : i - (gap + 1) + 1 = i - gap := by omega
            have hover' : (h : ℤ) < ((gap + 1 : Nat) : ℤ) := by exact_mod_cast hover
            rw [← hend]
            exact if_pos hover'
          rw [hstep, ih (i + 1) _ (by simp), segmentsFrom, Option.elim_some, if_pos hover]
          simp
        · have hstep : detectFrame channel frameS h ⟨us, some s, gap⟩ (false, i) =
              ⟨us, some s, gap + 1⟩ := by
            have hover' : ¬(h : ℤ) < ((gap + 1 : Nat) : ℤ) := by exact_mod_cast hover
            exact if_neg hover'
          rw [hstep, ih (i + 1) _ fun _ => Nat.succ_lt_succ hlt, segmentsFrom, Option.elim_some,
            if_neg hover]

/-- A segment that at most `h` silent frames follow, up to the end of the file, and these. -/
def stretch (h frames : Nat) (r : Nat × Nat) : Nat × Nat :=
  (r.1, if frames - r.2 ≤ h then frames else r.2)

lemma modifyLast_cons {α : Type} {f : α → α} {a : α} {as : List α} (hf : as = [] → f a = a) :
    (a :: as).modifyLast f = a :: as.modifyLast f := by
  by_cases has : as = []
  · rw [has, ← List.nil_append [a], List.modifyLast_concat, hf has]
    rfl
  · exact List.modifyLast_append_of_right_ne_nil f [a] as has

/-- The loop finds the joined runs, and stretches the last one. -/
lemma segmentsFrom_eq (speech : List Bool) :
    (∀ i gap, segmentsFrom h i none gap speech =
      (join h (Lib.runsFrom i none speech)).modifyLast (stretch h (i + speech.length))) ∧
    ∀ i s gap, gap ≤ h → gap ≤ i → segmentsFrom h i (some s) gap speech =
      (Lib.joinFrom h s (i - gap) (Lib.runsFrom i none speech)).modifyLast
        (stretch h (i + speech.length)) := by
  induction speech with
  | nil =>
    refine ⟨fun i gap => rfl, fun i s gap hgap hi => ?_⟩
    have hin : i - (i - gap) ≤ h := by omega
    change [(s, i)] = [(s, if i - (i - gap) ≤ h then i else i - gap)]
    rw [if_pos hin]
  | cons isSpeech speech ih =>
    have hlength (i : Nat) : i + (isSpeech :: speech).length = i + 1 + speech.length := by
      rw [List.length_cons]
      omega
    refine ⟨fun i gap => ?_, fun i s gap hgap hi => ?_⟩
    · rw [hlength]
      cases isSpeech with
      | true =>
        rw [segmentsFrom, Option.getD_none, ih.2 _ _ _ (Nat.zero_le _) (Nat.zero_le _), Nat.sub_zero,
          Lib.runsFrom, Option.getD_none, Lib.join_runsFrom]
      | false => exact ih.1 (i + 1) gap
    · rw [hlength]
      cases isSpeech with
      | true =>
        have hjoined : i - (i - gap) ≤ h := by omega
        rw [segmentsFrom, Option.getD_some, ih.2 _ _ _ (Nat.zero_le _) (Nat.zero_le _), Nat.sub_zero,
          Lib.runsFrom, Option.getD_none, Lib.joinFrom_runsFrom hjoined]
      | false =>
        rw [segmentsFrom, Option.elim_some]
        change _ = (Lib.joinFrom h s (i - gap) (Lib.runsFrom (i + 1) none speech)).modifyLast _
        split
        · next hover =>
          have hsilent : i - gap + h < i + 1 := by omega
          rw [Lib.joinFrom_of_lt hsilent, ih.1, modifyLast_cons]
          intro _
          have hlong : ¬i + 1 + speech.length - (i - gap) ≤ h := by omega
          rw [stretch, if_neg hlong]
        · next hover =>
          have hend : i + 1 - (gap + 1) = i - gap := by omega
          rw [ih.2 _ _ _ (by omega) (by omega), hend]

/-- What `detect_utterances` returns, by the joined runs of its speech frames. -/
lemma closeRegion_eq (speech : List Bool) :
    closeRegion channel frameS speech.length (speech.zipIdx.foldl (detectFrame channel frameS h) {}) =
      ((join h (runs speech)).modifyLast (stretch h speech.length)).map
        fun r => mkUtterance channel frameS r.1 r.2 := by
  have hfold : closeRegion channel frameS (0 + speech.length)
      ((speech.zipIdx 0).foldl (detectFrame channel frameS h) {}) = _ :=
    closeRegion_foldl speech 0 {} (by simp)
  rw [Nat.zero_add, (segmentsFrom_eq speech).1, Nat.zero_add] at hfold
  exact hfold

variable (frameRmsDbfs : List Int → Nat → List PyFloat) (samples : List Int) (channel : String)
  (sampleRate : ℕ+) (thresholdDbfs : PyFloat) (frameMs hangoverS minUtteranceS : ℚ)

/-- The speech flag of each frame. -/
def speechFrames : List Bool :=
  (frameRmsDbfs samples (frameLen sampleRate frameMs)).map fun x => decide (thresholdDbfs < x)

/-- The utterance of a segment of frames, unless it is too short. -/
def segmentUtterance (r : Nat × Nat) : Option (Utterance PyFloat) :=
  let u := mkUtterance channel (frameSeconds sampleRate frameMs) r.1 r.2
  if .fin minUtteranceS ≤ u.tEnd - u.tStart then some u else none

/-- Nothing is seen of the silence after a segment: there is none up to the end of the file, or it is
longer than the hangover, or it is lost when the times are rounded, or the segment is too short with
it as well as without. -/
def EndsWithSpeech (h frames : Nat) (r : Nat × Nat) : Prop :=
  r.2 = frames ∨ h < frames - r.2 ∨
    PyFloat.round 4 (.fin (frames * frameSeconds sampleRate frameMs)) =
      PyFloat.round 4 (.fin (r.2 * frameSeconds sampleRate frameMs)) ∨
    segmentUtterance channel sampleRate frameMs minUtteranceS (r.1, frames) = none ∧
      segmentUtterance channel sampleRate frameMs minUtteranceS r = none

variable {frameRmsDbfs samples channel sampleRate thresholdDbfs frameMs hangoverS minUtteranceS}

lemma filterMap_singleton_inj {α β : Type} {f : α → Option β} {a b : α} :
    [a].filterMap f = [b].filterMap f ↔ f a = f b := by
  cases ha : f a <;> cases hb : f b <;> simp [ha, hb]

lemma filter_map_eq_filterMap (rs : List (Nat × Nat)) :
    ((rs.map fun r => mkUtterance channel (frameSeconds sampleRate frameMs) r.1 r.2).filter fun u =>
      .fin minUtteranceS ≤ u.tEnd - u.tStart) =
        rs.filterMap (segmentUtterance channel sampleRate frameMs minUtteranceS) := by
  rw [← List.filterMap_eq_filter, List.filterMap_map]
  refine List.filterMap_congr fun r _ => ?_
  rw [Function.comp_apply, segmentUtterance, Option.guard]
  simp only [decide_eq_true_eq]

lemma detectUtterances_eq (hh : Lib.roundEven (hangoverS / frameSeconds sampleRate frameMs) = h) :
    detectUtterances frameRmsDbfs samples channel sampleRate thresholdDbfs frameMs hangoverS
        minUtteranceS =
      let speech := speechFrames frameRmsDbfs samples sampleRate thresholdDbfs frameMs
      ((join h (runs speech)).modifyLast (stretch h speech.length)).filterMap
        (segmentUtterance channel sampleRate frameMs minUtteranceS) := by
  rw [detectUtterances]
  dsimp only
  rw [hh]
  split
  · next hempty =>
    rw [speechFrames, List.isEmpty_iff.1 hempty]
    rfl
  · rw [closeRegion_eq, filter_map_eq_filterMap]
    rfl

lemma mkUtterance_of_segmentUtterance {r : Nat × Nat} {u : Utterance PyFloat}
    (hu : segmentUtterance channel sampleRate frameMs minUtteranceS r = some u) :
    mkUtterance channel (frameSeconds sampleRate frameMs) r.1 r.2 = u := by
  rw [segmentUtterance] at hu
  exact Option.some.inj (Option.ite_none_right_eq_some.1 hu).2

lemma segmentUtterance_stretch_iff {frames : Nat} {r : Nat × Nat} :
    segmentUtterance channel sampleRate frameMs minUtteranceS (stretch h frames r) =
        segmentUtterance channel sampleRate frameMs minUtteranceS r ↔
      EndsWithSpeech channel sampleRate frameMs minUtteranceS h frames r := by
  obtain ⟨s, e⟩ := r
  rw [stretch, EndsWithSpeech]
  by_cases hover : frames - e ≤ h
  · have hnot : ¬h < frames - e := by omega
    have hsame : mkUtterance channel (frameSeconds sampleRate frameMs) s frames =
        mkUtterance channel (frameSeconds sampleRate frameMs) s e ↔
          PyFloat.round 4 (.fin (frames * frameSeconds sampleRate frameMs)) =
            PyFloat.round 4 (.fin (e * frameSeconds sampleRate frameMs)) := by
      simp [mkUtterance]
    rw [if_pos hover]
    constructor
    · intro heq
      cases hseg : segmentUtterance channel sampleRate frameMs minUtteranceS (s, e) with
      | none => exact .inr (.inr (.inr ⟨heq.trans hseg, rfl⟩))
      | some u =>
        have hstretched := mkUtterance_of_segmentUtterance (heq.trans hseg)
        exact .inr (.inr (.inl (hsame.1 (hstretched.trans (mkUtterance_of_segmentUtterance hseg).symm))))
    · rintro (rfl | hlong | hround | ⟨hlong, hshort⟩)
      · rfl
      · exact absurd hlong hnot
      · rw [segmentUtterance, segmentUtterance, hsame.2 hround]
      · rw [hlong, hshort]
  · rw [if_neg hover]
    exact iff_of_true rfl (.inr (.inl (by omega)))

end

/-- Frames of one sample, that are speech when they are not silent. -/
def loudFrames (samples : List Int) (_ : Nat) : List PyFloat :=
  samples.map fun n => .fin n

end Pulse.Core
