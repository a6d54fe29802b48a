import Pulse.Core.Metrics
import Pulse.Lib.FloatSets

/-!
# Interval math and dead air

The functions of `core/audio/intervals.py` on the points that intervals cover, and `dead_air_s` of
`core/audio/metrics.py` as the total length of the maximal gaps in which nobody speaks, rounded to
four decimals.
-/

namespace Pulse.Core

open MeasureTheory
open Lib (PyFloat Proper Merged MaximalSpan points span)
open Lib.PyFloat (extent)

/-- The `gaps` of `dead_air_s`. -/
def deadAirGaps (callerUtts : List (Utterance PyFloat)) (agentIv : List (Lib.Interval PyFloat))
    (duration : PyFloat) (padding : List (Lib.Interval PyFloat)) : List (Lib.Interval PyFloat) :=
  let speech := Lib.merge (uttsToIntervals callerUtts ++ agentIv)
  let gaps := Lib.complement (.fin 0) speech duration
  if padding.isEmpty then gaps else Lib.subtract gaps (Lib.merge padding)

/-- The total length of the gaps that are long enough. -/
def longGaps (minGap : PyFloat) (gaps : List (Lib.Interval PyFloat)) : PyFloat :=
  Lib.total (gaps.filter fun i => minGap ≤ i.2 - i.1)

/-- `dead_air_s` -/
def deadAirPadded (callerUtts : List (Utterance PyFloat)) (agentIv : List (Lib.Interval PyFloat))
    (duration minGap : PyFloat) (padding : List (Lib.Interval PyFloat)) : PyFloat :=
  if duration ≤ .fin 0 then .fin 0
  else (longGaps minGap (deadAirGaps callerUtts agentIv duration padding)).round 4

lemma deadAirS_eq (callerUtts : List (Utterance PyFloat)) (agentIv : List (Lib.Interval PyFloat))
    (duration minGap : PyFloat) :
    deadAirS callerUtts agentIv duration minGap =
      deadAirPadded callerUtts agentIv duration minGap [] := rfl

/-! ### Maximal gaps -/

/-- The intervals of utterances. -/
def utteranceIntervals (utts : List (Utterance PyFloat)) : List (Lib.Interval PyFloat) :=
  utts.map fun u => (u.tStart, u.tEnd)

/-- The time within a duration that no interval covers. -/
def silentTime (ivs : List (Lib.Interval PyFloat)) (duration : PyFloat) : Set ℝ :=
  span 0 duration.toEReal \ points ivs

/-- The maximal intervals within a set of times, in order. -/
structure MaximalGaps (free : Set ℝ) (gaps : List (Lib.Interval PyFloat)) : Prop where
  merged : Merged gaps
  mem : ∀ g, g ∈ gaps ↔ MaximalSpan free g.1.toEReal g.2.toEReal

lemma silentTime_subset (ivs : List (Lib.Interval PyFloat)) (duration : PyFloat) :
    silentTime ivs duration ⊆ Set.Ici 0 :=
  fun _ hx => EReal.coe_nonneg.1 hx.1.1

lemma maximalGaps_of_points {gaps ivs : List (Lib.Interval PyFloat)} {duration : PyFloat}
    (h : Merged gaps) (hpoints : points gaps = silentTime ivs duration) :
    MaximalGaps (silentTime ivs duration) gaps :=
  ⟨h, fun g => by rw [h.mem_iff (hpoints ▸ silentTime_subset ivs duration), hpoints]⟩

lemma MaximalGaps.unique {free : Set ℝ} {gaps gaps' : List (Lib.Interval PyFloat)}
    (h : MaximalGaps free gaps) (h' : MaximalGaps free gaps') : gaps = gaps' :=
  h.merged.eq_of_mem_iff h'.merged fun g => (h.mem g).trans (h'.mem g).symm

lemma points_nil_of_not_pos (ivs : List (Lib.Interval PyFloat)) {duration : PyFloat}
    (h : ¬.fin 0 < duration) : points [] = silentTime ivs duration := by
  have hstop : duration.toEReal ≤ 0 := by
    cases duration with
    | fin q => simpa [PyFloat.toEReal] using h
    | inf => exact absurd rfl h
    | negInf | nan => exact bot_le
  have hnone : span 0 duration.toEReal = ∅ :=
    Set.eq_empty_of_forall_notMem fun x hx => absurd (hx.1.trans_lt hx.2) (not_lt.2 hstop)
  rw [silentTime, hnone, Set.empty_sdiff, Lib.points_nil]

/-- The gaps that `dead_air_s` goes through are the maximal ones. -/
lemma maximalGaps_deadAirGaps {callerUtts : List (Utterance PyFloat)}
    {agentIv padding : List (Lib.Interval PyFloat)} {duration : PyFloat}
    (hspeech : Proper (utteranceIntervals callerUtts ++ agentIv)) (hpadding : Proper padding)
    (hends : ∀ i ∈ utteranceIntervals callerUtts ++ agentIv, i.2 ≤ duration) :
    MaximalGaps (silentTime (utteranceIntervals callerUtts ++ agentIv ++ padding) duration)
      (deadAirGaps callerUtts agentIv duration padding) := by
  obtain ⟨hutts, hagent⟩ := List.forall_mem_append.1 hspeech
  obtain ⟨huttsEnds, hagentEnds⟩ := List.forall_mem_append.1 hends
  obtain ⟨hcaller, hcallerPoints⟩ := Lib.points_merge hutts
  have hboth : Proper (uttsToIntervals callerUtts ++ agentIv) :=
    List.forall_mem_append.2 ⟨hcaller.proper, hagent⟩
  have hbothEnds : ∀ i ∈ uttsToIntervals callerUtts ++ agentIv, i.2 ≤ duration :=
    List.forall_mem_append.2 ⟨Lib.merge_ends_le hutts huttsEnds, hagentEnds⟩
  obtain ⟨hmerged, hspeechPoints⟩ := Lib.points_merge hboth
  obtain ⟨hgaps, hgapsPoints⟩ :=
    Lib.points_complement hmerged.proper (Lib.merge_ends_le hboth hbothEnds)
  have hcallerPoints : points (uttsToIntervals callerUtts) = points (utteranceIntervals callerUtts) :=
    hcallerPoints
  rw [hspeechPoints, Lib.points_append, hcallerPoints, ← Lib.points_append] at hgapsPoints
  unfold deadAirGaps
  split
  · next hnone =>
    rw [List.isEmpty_iff.1 hnone, List.append_nil]
    exact maximalGaps_of_points hgaps hgapsPoints
  · obtain ⟨hcut, hcutPoints⟩ := Lib.points_merge hpadding
    refine maximalGaps_of_points (Lib.merged_subtract hgaps hcut.proper) ?_
    rw [Lib.points_subtract hgaps.proper hcut.proper, hgapsPoints, hcutPoints, silentTime,
      Lib.points_append (_ ++ _), sdiff_sdiff_left]
    rfl

/-- `dead_air_s` is the length of the maximal gaps that are long enough, to four decimals. -/
lemma deadAirPadded_eq {callerUtts : List (Utterance PyFloat)}
    {agentIv padding : List (Lib.Interval PyFloat)} {duration : PyFloat} (minGap : PyFloat)
    (hspeech : Proper (utteranceIntervals callerUtts ++ agentIv)) (hpadding : Proper padding)
    (hends : ∀ i ∈ utteranceIntervals callerUtts ++ agentIv, i.2 ≤ duration) :
    deadAirPadded callerUtts agentIv duration minGap padding =
      (longGaps minGap (deadAirGaps callerUtts agentIv duration padding)).round 4 := by
  unfold deadAirPadded
  split
  · next hduration =>
    have hgaps := maximalGaps_deadAirGaps hspeech hpadding hends
    have hnone := points_nil_of_not_pos (utteranceIntervals callerUtts ++ agentIv ++ padding)
      (PyFloat.not_lt_of_le hduration)
    rw [hgaps.unique (maximalGaps_of_points Lib.merged_nil hnone)]
    change .fin 0 = PyFloat.round 4 (.fin 0)
    decide +kernel
  · rfl

end Pulse.Core
