import Pulse.Core.DeadAir
import Pulse.Core.Vad

/-!
# Padding and dead air

The padding of a channel (`core/audio/coverage.py` and `padding_intervals_for`), what `analyze_audio`
makes of a decoded recording, and the `dead_air_s` that the metrics emit for it, against the silence
of the recording without its padding.
-/

namespace Pulse.Core

open MeasureTheory
open Lib (PyFloat Proper Merged MaximalSpan Runs runs points span)
open Lib.PyFloat (extent)

/-! ### Recordings -/

/-- `DecodedAudio`: the samples of each speaker's channel, one for each frame. -/
structure DecodedAudio where
  channels : List (String × List Int)
  sampleRate : ℕ+
  nFrames : Nat
  lengths : ∀ c ∈ channels, c.2.length = nFrames
  speakers : (channels.map Prod.fst).Nodup

/-- `DecodedAudio.duration_s` -/
def DecodedAudio.durationS (d : DecodedAudio) : PyFloat :=
  .fin (d.nFrames / d.sampleRate)

/-- `channel_coverage` -/
def channelCoverage (samples : List Int) : PyFloat :=
  if samples.isEmpty then .fin 0
  else (PyFloat.fin (samples.countP (· ≠ 0) / samples.length)).round 4

/-- `analyze_audio`, after the dBFS of each frame. -/
def analyzeAudio (frameRmsDbfs : List Int → Nat → List PyFloat) (d : DecodedAudio)
    (vadThresholdDbfs : PyFloat) : AudioAnalysis PyFloat where
  utterances :=
    Lib.sorted
      (fun u v => Lib.lexLt PyFloat.lt (fun a b => decide (a < b)) (u.tStart, u.channel)
        (v.tStart, v.channel))
      (d.channels.flatMap fun c =>
        detectUtterances frameRmsDbfs c.2 c.1 d.sampleRate vadThresholdDbfs)
  coverage := d.channels.map fun c => (c.1, channelCoverage c.2)

/-! ### Padding -/

/-- `padding_mask` -/
def paddingMask (samples : List Int) : List Bool :=
  samples.map fun x => decide (x = 0)

/-- The seconds of a sample. -/
def sampleSeconds (sampleRate : ℕ+) (i : Nat) : PyFloat :=
  (PyFloat.fin (i / sampleRate)).round 4

/-- The differences of a mask's neighbours, the first of which has `prev` before it. -/
def diffs (prev : Bool) (mask : List Bool) : List Int :=
  List.zipWith (fun a b => b.toInt - a.toInt) (prev :: mask) mask

/-- `_mask_to_intervals` -/
def maskToIntervals (mask : List Bool) (sampleRate : ℕ+) : List (Lib.Interval PyFloat) :=
  match mask with
  | [] => []
  | first :: rest =>
    if !mask.any id then []
    else
      let edges := diffs first rest
      let starts := (edges.findIdxs (· = 1)).map (· + 1)
      let ends := (edges.findIdxs (· = -1)).map (· + 1)
      let starts := if first then 0 :: starts else starts
      let ends := if mask.getLast? = some true then ends ++ [mask.length] else ends
      (starts.zip ends).map (Prod.map (sampleSeconds sampleRate) (sampleSeconds sampleRate))

/-- `starts`, with one at the border of a mask that begins with a run. -/
def runStarts (first : Bool) (rest : List Bool) : List Nat :=
  let starts := ((diffs first rest).findIdxs (· = 1)).map (· + 1)
  if first then 0 :: starts else starts

/-- `ends`, with one at the border of a mask that ends with a run. -/
def runEnds (first : Bool) (rest : List Bool) : List Nat :=
  let ends := ((diffs first rest).findIdxs (· = -1)).map (· + 1)
  if (first :: rest).getLast? = some true then ends ++ [(first :: rest).length] else ends

/-- `padding_intervals_for` -/
def paddingIntervalsFor (d : DecodedAudio) (channel : String := "caller") :
    List (Lib.Interval PyFloat) :=
  match d.channels.lookup channel with
  | none => []
  | some samples =>
    if samples.isEmpty then [] else maskToIntervals (paddingMask samples) d.sampleRate

/-- The starts and the ends that the differences show are those of the runs. -/
lemma zip_findIdxs (prev : Bool) (s i : Nat) (mask : List Bool) :
    ((if prev then [s] else []) ++ (diffs prev mask).findIdxs (· = 1) i).zip
        ((diffs prev mask).findIdxs (· = -1) i ++
          if (prev :: mask).getLast? = some true then [i + mask.length] else []) =
      Lib.runsFrom i (if prev then some s else none) mask := by
  induction mask generalizing prev s i with
  | nil => cases prev <;> rfl
  | cons flag mask ih =>
    have hdiffs : diffs prev (flag :: mask) = (flag.toInt - prev.toInt) :: diffs flag mask := rfl
    have hlength : i + (flag :: mask).length = i + 1 + mask.length := by
      rw [List.length_cons]
      omega
    rw [hdiffs, hlength, List.getLast?_cons_cons]
    cases prev <;> cases flag
    · exact ih false s (i + 1)
    · exact ih true i (i + 1)
    · exact congrArg ((s, i) :: ·) (ih false s (i + 1))
    · exact ih true s (i + 1)

lemma runs_of_any {mask : List Bool} (h : mask.any id = false) : runs mask = [] := by
  rw [List.any_eq_false] at h
  refine List.eq_nil_iff_forall_not_mem.2 fun r hr => ?_
  have hrun := ((Lib.runs_spec mask).mem r).1 hr
  exact h true (List.mem_of_getElem? (hrun.set r.1 le_rfl hrun.lt)) rfl

lemma runBounds_eq (first : Bool) (rest : List Bool) :
    runStarts first rest = (if first then [0] else []) ++ (diffs first rest).findIdxs (· = 1) 1 ∧
      runEnds first rest = (diffs first rest).findIdxs (· = -1) 1 ++
        if (first :: rest).getLast? = some true then [1 + rest.length] else [] := by
  have hshift (p : Int → Bool) : (diffs first rest).findIdxs p 1 =
      ((diffs first rest).findIdxs p).map (· + 1) := List.findIdxs_start
  rw [hshift, hshift, runStarts, runEnds, List.length_cons, Nat.add_comm 1]
  constructor
  · split <;> rfl
  · split
    · rfl
    · rw [List.append_nil]

/-- The starts and the ends are those of the runs. -/
lemma zip_runBounds (first : Bool) (rest : List Bool) :
    (runStarts first rest).zip (runEnds first rest) = runs (first :: rest) := by
  have hruns : Lib.runsFrom 1 (if first then some 0 else none) rest = runs (first :: rest) := by
    cases first <;> rfl
  rw [(runBounds_eq first rest).1, (runBounds_eq first rest).2, zip_findIdxs, hruns]

/-- The padding intervals are the maximal runs of padding. -/
theorem maskToIntervals_eq {mask : List Bool} {rs : List (Nat × Nat)} (h : Runs mask rs)
    (sampleRate : ℕ+) : maskToIntervals mask sampleRate =
      rs.map (Prod.map (sampleSeconds sampleRate) (sampleSeconds sampleRate)) := by
  rw [h.eq]
  cases mask with
  | nil => rfl
  | cons first rest =>
    rw [maskToIntervals]
    dsimp only
    split
    · next hnone => rw [runs_of_any (by simpa using hnone), List.map_nil]
    · exact congrArg (List.map _) (zip_runBounds first rest)

lemma paddingIntervals_ne_nan (d : DecodedAudio) (channel : String) :
    ∀ i ∈ paddingIntervalsFor d channel, i.1 ≠ .nan := by
  intro i hi
  unfold paddingIntervalsFor at hi
  split at hi
  · cases hi
  · split at hi
    · cases hi
    · rw [maskToIntervals_eq (Lib.runs_spec _)] at hi
      obtain ⟨r, -, rfl⟩ := List.mem_map.1 hi
      exact nofun

/-! ### Speech -/

/-- The intervals in which the caller or the agent speaks. -/
def speechIntervals (audio : AudioAnalysis PyFloat) (agentIv : List (Lib.Interval PyFloat)) :
    List (Lib.Interval PyFloat) :=
  utteranceIntervals (callerUtterances audio) ++ agentIv

/-- The value of `dead_air_s`, if it is emitted. -/
def deadAirEmitted (ms : List MetricValue) : Option MetricNumber :=
  (ms.find? (·.name = "dead_air_s")).bind (·.value)

lemma deadAirEmitted_audioMetrics (audio : AudioAnalysis PyFloat)
    (agentIv : List (Lib.Interval PyFloat)) (cfg : MetricConfig) :
    deadAirEmitted (audioMetrics audio agentIv cfg) =
      if agentIv.isEmpty then none
      else some (.num (deadAirS (callerUtterances audio) agentIv (duration audio agentIv)
        cfg.deadAirMinS)) := by
  cases agentIv <;> simp [deadAirEmitted, audioMetrics, mv]

lemma detectUtterances_proper {frameRmsDbfs : List Int → Nat → List PyFloat} {samples : List Int}
    {channel : String} {sampleRate : ℕ+} {thresholdDbfs : PyFloat} {u : Utterance PyFloat}
    (hu : u ∈ detectUtterances frameRmsDbfs samples channel sampleRate thresholdDbfs) :
    u.tStart < u.tEnd ∧ u.tEnd.Rational := by
  have hframe : 0 ≤ hangoverSDefault / frameSeconds sampleRate frameMsDefault := by
    unfold hangoverSDefault frameSeconds
    positivity
  have hh : 0 ≤ Lib.roundEven (hangoverSDefault / frameSeconds sampleRate frameMsDefault) := by
    rw [Lib.le_roundEven_iff (by decide)]
    push_cast
    linarith
  rw [detectUtterances_eq (Int.toNat_of_nonneg hh).symm] at hu
  obtain ⟨r, -, hr⟩ := List.mem_filterMap.1 hu
  rw [segmentUtterance] at hr
  obtain ⟨hlong, heq⟩ := Option.ite_none_right_eq_some.1 hr
  obtain rfl := Option.some.inj heq
  have hlong : (1 : ℚ) / 10 ≤ _ := PyFloat.fin_le_fin_iff.1 hlong
  refine ⟨PyFloat.fin_lt_fin_iff.2 ?_, ⟨_, rfl⟩⟩
  linarith

/-- Each utterance ends after its start, at a rational time. -/
def ProperAudio (audio : AudioAnalysis PyFloat) : Prop :=
  ∀ u ∈ audio.utterances, u.tStart < u.tEnd ∧ u.tEnd.Rational

lemma analyzeAudio_proper (frameRmsDbfs : List Int → Nat → List PyFloat) (d : DecodedAudio)
    (vadThresholdDbfs : PyFloat) : ProperAudio (analyzeAudio frameRmsDbfs d vadThresholdDbfs) := by
  intro u hu
  obtain ⟨c, -, hu⟩ := List.mem_flatMap.1 (Lib.mem_sorted.1 hu)
  exact detectUtterances_proper hu

section

variable {audio : AudioAnalysis PyFloat} {agentIv : List (Lib.Interval PyFloat)}
  (haudio : ProperAudio audio) (hagent : Proper agentIv)

include haudio hagent

lemma speechIntervals_proper : Proper (speechIntervals audio agentIv) := by
  refine List.forall_mem_append.2 ⟨List.forall_mem_map.2 fun u hu => ?_, hagent⟩
  exact (haudio u (List.mem_of_mem_filter hu)).1

lemma ends_ne_nan : ∀ x ∈ audio.utterances.map Utterance.tEnd ++ agentIv.map Prod.snd, x ≠ .nan := by
  refine List.forall_mem_append.2 ⟨List.forall_mem_map.2 fun u hu => ?_,
    List.forall_mem_map.2 fun i hi => ?_⟩
  · exact (PyFloat.ne_nan_of_lt (haudio u hu).1).2
  · exact (PyFloat.ne_nan_of_lt (hagent i hi)).2

/-- All speech is within the duration that the metrics take. -/
lemma speechIntervals_ends : ∀ i ∈ speechIntervals audio agentIv, i.2 ≤ duration audio agentIv := by
  have hends : ∀ i ∈ speechIntervals audio agentIv,
      i.2 ∈ audio.utterances.map Utterance.tEnd ++ agentIv.map Prod.snd := by
    refine List.forall_mem_append.2 ⟨List.forall_mem_map.2 fun u hu => ?_, fun i hi => ?_⟩
    · exact List.mem_append_left _ (List.mem_map_of_mem (List.mem_of_mem_filter hu))
    · exact List.mem_append_right _ (List.mem_map_of_mem hi)
  intro i hi
  cases hmax : PyFloat.maximum (audio.utterances.map Utterance.tEnd ++ agentIv.map Prod.snd) with
  | none =>
    have hend := hends i hi
    cases hxs : audio.utterances.map Utterance.tEnd ++ agentIv.map Prod.snd with
    | nil =>
      rw [hxs] at hend
      cases hend
    | cons x xs =>
      rw [hxs] at hmax
      cases hmax
  | some m =>
    rw [duration, hmax]
    exact PyFloat.le_maximum (ends_ne_nan haudio hagent) hmax i.2 (hends i hi)

/-- The silence before the last end has a bound, also if an interval of the agent does not end. -/
lemma silentTime_bounded :
    ∃ b : ℝ, silentTime (speechIntervals audio agentIv) (duration audio agentIv) ⊆ Set.Ico 0 b := by
  cases hduration : duration audio agentIv with
  | fin q =>
    refine ⟨q, fun x hx => ⟨silentTime_subset _ _ hx, ?_⟩⟩
    exact EReal.coe_lt_coe_iff.1 hx.1.2
  | negInf | nan => exact ⟨0, fun x hx => absurd hx.1.2 not_lt_bot⟩
  | inf =>
    have hmem : PyFloat.inf ∈ audio.utterances.map Utterance.tEnd ++ agentIv.map Prod.snd := by
      cases hmax : PyFloat.maximum (audio.utterances.map Utterance.tEnd ++ agentIv.map Prod.snd) with
      | none =>
        rw [duration, hmax] at hduration
        cases hduration
      | some m =>
        rw [duration, hmax] at hduration
        rw [← show m = .inf from hduration]
        exact PyFloat.mem_of_maximum hmax
    rcases List.mem_append.1 hmem with hmem | hmem
    · obtain ⟨u, hu, hend⟩ := List.mem_map.1 hmem
      obtain ⟨q, hq⟩ := (haudio u hu).2
      rw [hq] at hend
      cases hend
    · obtain ⟨i, hi, hend⟩ := List.mem_map.1 hmem
      have hstart : ∃ b : ℝ, i.1.toEReal ≤ b := by
        have hlt := hagent i hi
        rw [hend] at hlt
        cases hi1 : i.1 with
        | fin q => exact ⟨q, le_rfl⟩
        | negInf | nan => exact ⟨0, bot_le⟩
        | inf =>
          rw [hi1] at hlt
          cases hlt
      obtain ⟨b, hb⟩ := hstart
      refine ⟨b, fun x hx => ⟨silentTime_subset _ _ hx, not_le.1 fun hle => hx.2 ?_⟩⟩
      refine ⟨i, List.mem_append_right _ hi, hb.trans (EReal.coe_le_coe_iff.2 hle), ?_⟩
      rw [hend]
      exact EReal.coe_lt_top x

end

/-! ### Dead air -/

/-- The time of the maximal gaps that are long enough. -/
def longSilence (free : Set ℝ) (minGap : PyFloat) : Set ℝ :=
  {x | ∃ g : Lib.Interval PyFloat, MaximalSpan free g.1.toEReal g.2.toEReal ∧
    minGap ≤ g.2 - g.1 ∧ x ∈ span g.1.toEReal g.2.toEReal}

lemma longSilence_eq {free : Set ℝ} {gaps : List (Lib.Interval PyFloat)} (h : MaximalGaps free gaps)
    (minGap : PyFloat) :
    longSilence free minGap = points (gaps.filter fun i => minGap ≤ i.2 - i.1) := by
  ext x
  constructor
  · rintro ⟨g, hmaximal, hlong, hx⟩
    exact ⟨g, List.mem_filter.2 ⟨(h.mem g).2 hmaximal, decide_eq_true hlong⟩, hx⟩
  · rintro ⟨g, hg, hx⟩
    obtain ⟨hg, hlong⟩ := List.mem_filter.1 hg
    exact ⟨g, (h.mem g).1 hg, of_decide_eq_true hlong, hx⟩

lemma longSilence_subset (free : Set ℝ) (minGap : PyFloat) : longSilence free minGap ⊆ free :=
  fun _ ⟨_, hmaximal, _, hx⟩ => hmaximal.within hx

/-- What is left of a duration without some intervals. -/
def gapsWithin (ivs : List (Lib.Interval PyFloat)) (duration : PyFloat) : List (Lib.Interval PyFloat) :=
  if .fin 0 < duration then Lib.subtract [(.fin 0, duration)] (ivs.filter fun i => i.1 < i.2) else []

lemma points_gapsWithin {ivs : List (Lib.Interval PyFloat)} (h : ∀ i ∈ ivs, i.1 ≠ .nan)
    (duration : PyFloat) : Merged (gapsWithin ivs duration) ∧
      points (gapsWithin ivs duration) = silentTime ivs duration := by
  unfold gapsWithin
  split
  · next hpos =>
    have hcut : Proper (ivs.filter fun i => i.1 < i.2) :=
      fun i hi => of_decide_eq_true (List.mem_filter.1 hi).2
    have hbase : Merged [(.fin 0, duration)] :=
      ⟨List.forall_mem_singleton.2 hpos, List.pairwise_singleton _ _⟩
    refine ⟨Lib.merged_subtract hbase hcut, ?_⟩
    rw [Lib.points_subtract hbase.proper hcut, Lib.points_filter_proper h, silentTime]
    congr 1
    ext x
    simp [points, PyFloat.toEReal]
  · next hpos => exact ⟨Lib.merged_nil, points_nil_of_not_pos ivs hpos⟩

/-- A silence that is long enough is within a maximal one that is. -/
lemma subset_longSilence {ivs : List (Lib.Interval PyFloat)} (h : ∀ i ∈ ivs, i.1 ≠ .nan)
    {duration minGap : PyFloat} {g : Lib.Interval PyFloat} (hg : g.1.toEReal < g.2.toEReal)
    (hlong : minGap ≤ g.2 - g.1)
    (hsub : span g.1.toEReal g.2.toEReal ⊆ silentTime ivs duration) :
    span g.1.toEReal g.2.toEReal ⊆ longSilence (silentTime ivs duration) minGap := by
  obtain ⟨hmerged, hpoints⟩ := points_gapsWithin h duration
  have hmaximal := maximalGaps_of_points hmerged hpoints
  obtain ⟨i, hi, hlo, hhi⟩ := hmerged.exists_around (hpoints ▸ silentTime_subset ivs duration) hg
    (hpoints ▸ hsub)
  have hwithin : span g.1.toEReal g.2.toEReal ⊆ span i.1.toEReal i.2.toEReal :=
    fun x hx => ⟨hlo.trans hx.1, hx.2.trans_le hhi⟩
  have hstart : g.1 ≠ .nan := by
    intro hnan
    refine Lib.ne_bot_of_span_subset hg (hsub.trans (silentTime_subset ivs duration)) ?_
    rw [hnan]
    rfl
  have hle : g.2 - g.1 ≤ i.2 - i.1 :=
    Lib.length_le (PyFloat.lt_of_toEReal_lt hstart hg) (hmerged.proper i hi) hwithin
  exact fun x hx => ⟨i, (hmaximal.mem i).1 hi, PyFloat.le_of_le_of_le hlong hle, hwithin hx⟩

section

variable (d : DecodedAudio) (audio : AudioAnalysis PyFloat) (agentIv : List (Lib.Interval PyFloat))
  (minGap : PyFloat)

/-- The time of the recording in which nobody speaks and nothing is padding, in long gaps. -/
def deadAirTime : Set ℝ :=
  longSilence (silentTime (speechIntervals audio agentIv ++ paddingIntervalsFor d) d.durationS) minGap

/-- The time that the metrics count: in the long gaps of the speech up to its last end. -/
def countedTime : Set ℝ :=
  longSilence (silentTime (speechIntervals audio agentIv) (duration audio agentIv)) minGap

/-- The number is the length of the gaps of dead air, to four decimals. -/
def IsDeadAir (v : MetricNumber) : Prop :=
  ∃ gaps, MaximalGaps
      (silentTime (speechIntervals audio agentIv ++ paddingIntervalsFor d) d.durationS) gaps ∧
    v = .num ((longGaps minGap gaps).round 4)

/-- What is counted is dead air, and no dead air is left out: no padding is in a gap that is counted,
no such gap is after the recording, and no dead air after the last end of speech. -/
structure SameSilence : Prop where
  unpadded : ∀ x ∈ countedTime audio agentIv minGap, x ∉ points (paddingIntervalsFor d)
  within : countedTime audio agentIv minGap ⊆ span 0 d.durationS.toEReal
  complete : deadAirTime d audio agentIv minGap ⊆ span 0 (duration audio agentIv).toEReal

lemma deadAirTime_finite : volume (deadAirTime d audio agentIv minGap) ≠ ⊤ := by
  have hb : deadAirTime d audio agentIv minGap ⊆ Set.Ico 0 ((d.nFrames / d.sampleRate : ℚ) : ℝ) := by
    intro x hx
    obtain ⟨⟨hlo, hhi⟩, -⟩ := longSilence_subset _ minGap hx
    exact ⟨EReal.coe_nonneg.1 hlo, EReal.coe_lt_coe_iff.1 hhi⟩
  refine ne_top_of_le_ne_top ?_ (measure_mono hb)
  rw [Real.volume_Ico]
  exact ENNReal.ofReal_ne_top

end

/-- The dead air that is not counted makes up for the time that is counted and is no dead air, to
four decimals. -/
def MakesUp (counted dead : Set ℝ) : Prop :=
  ∃ total extra missed : ℚ, (0 ≤ total ∧ volume dead = ENNReal.ofReal total) ∧
    (0 ≤ extra ∧ volume (counted \ dead) = ENNReal.ofReal extra) ∧
    (0 ≤ missed ∧ volume (dead \ counted) = ENNReal.ofReal missed) ∧
    Lib.roundTo 4 (total + extra - missed) = Lib.roundTo 4 total

lemma makesUp_iff {counted dead : Set ℝ} {total extra missed : ℚ}
    (htotal : 0 ≤ total ∧ volume dead = ENNReal.ofReal total)
    (hextra : 0 ≤ extra ∧ volume (counted \ dead) = ENNReal.ofReal extra)
    (hmissed : 0 ≤ missed ∧ volume (dead \ counted) = ENNReal.ofReal missed) :
    MakesUp counted dead ↔ Lib.roundTo 4 (total + extra - missed) = Lib.roundTo 4 total := by
  have hunique {s : Set ℝ} {p q : ℚ} (hp : 0 ≤ p ∧ volume s = ENNReal.ofReal p)
      (hq : 0 ≤ q ∧ volume s = ENNReal.ofReal q) : p = q := by
    have heq := hp.2.symm.trans hq.2
    rwa [ENNReal.ofReal_eq_ofReal_iff (Rat.cast_nonneg.2 hp.1) (Rat.cast_nonneg.2 hq.1),
      Rat.cast_inj] at heq
  constructor
  · rintro ⟨total', extra', missed', htotal', hextra', hmissed', hround⟩
    rwa [hunique htotal htotal', hunique hextra hextra', hunique hmissed hmissed']
  · exact fun hround => ⟨total, extra, missed, htotal, hextra, hmissed, hround⟩

section

variable {d : DecodedAudio} {audio : AudioAnalysis PyFloat} {agentIv : List (Lib.Interval PyFloat)}
  {minGap : PyFloat} (haudio : ProperAudio audio) (hagent : Proper agentIv)

include haudio hagent

lemma speech_padding_ne_nan :
    ∀ i ∈ speechIntervals audio agentIv ++ paddingIntervalsFor d, i.1 ≠ .nan := by
  refine List.forall_mem_append.2 ⟨fun i hi => ?_, paddingIntervals_ne_nan d "caller"⟩
  exact (PyFloat.ne_nan_of_lt (speechIntervals_proper haudio hagent i hi)).1

theorem sameSilence_iff : SameSilence d audio agentIv minGap ↔
    countedTime audio agentIv minGap = deadAirTime d audio agentIv minGap := by
  have hne := speech_padding_ne_nan (d := d) haudio hagent
  constructor
  · intro h
    apply Set.Subset.antisymm
    · intro x hx
      obtain ⟨g, hmaximal, hlong, hxg⟩ := id hx
      refine subset_longSilence hne hmaximal.lt hlong (fun y hy => ?_) hxg
      have hcounted : y ∈ countedTime audio agentIv minGap := ⟨g, hmaximal, hlong, hy⟩
      refine ⟨h.within hcounted, ?_⟩
      rw [Lib.points_append, Set.mem_union, not_or]
      exact ⟨(hmaximal.within hy).2, h.unpadded y hcounted⟩
    · intro x hx
      obtain ⟨g, hmaximal, hlong, hxg⟩ := id hx
      refine subset_longSilence (List.forall_mem_append.1 hne).1 hmaximal.lt hlong (fun y hy => ?_) hxg
      refine ⟨h.complete ⟨g, hmaximal, hlong, hy⟩, fun hspeech => (hmaximal.within hy).2 ?_⟩
      rw [Lib.points_append]
      exact .inl hspeech
  · intro heq
    have hsub : countedTime audio agentIv minGap ⊆ silentTime
        (speechIntervals audio agentIv ++ paddingIntervalsFor d) d.durationS := by
      rw [heq]
      exact longSilence_subset _ minGap
    refine ⟨fun x hx hpadding => (hsub hx).2 ?_, fun x hx => (hsub hx).1, ?_⟩
    · rw [Lib.points_append]
      exact .inr hpadding
    · rw [← heq]
      exact fun x hx => (longSilence_subset _ minGap hx).1

lemma countedTime_finite (minGap : PyFloat) : volume (countedTime audio agentIv minGap) ≠ ⊤ := by
  obtain ⟨b, hb⟩ := silentTime_bounded haudio hagent
  refine ne_top_of_le_ne_top ?_ (measure_mono ((longSilence_subset _ minGap).trans hb))
  rw [Real.volume_Ico]
  exact ENNReal.ofReal_ne_top

lemma maximalGaps_counted : MaximalGaps
    (silentTime (speechIntervals audio agentIv) (duration audio agentIv))
    (deadAirGaps (callerUtterances audio) agentIv (duration audio agentIv) []) := by
  have hgaps := maximalGaps_deadAirGaps (speechIntervals_proper haudio hagent)
    (List.forall_mem_nil _) (speechIntervals_ends haudio hagent)
  rwa [List.append_nil] at hgaps

/-- The counted length is that of the dead air, with what is counted besides and without what is left
out. -/
lemma exists_count (minGap : PyFloat) : ∃ gaps, MaximalGaps
      (silentTime (speechIntervals audio agentIv ++ paddingIntervalsFor d) d.durationS) gaps ∧
    ∃ total extra missed : ℚ,
      (0 ≤ total ∧ volume (deadAirTime d audio agentIv minGap) = ENNReal.ofReal total) ∧
      (0 ≤ extra ∧ volume (countedTime audio agentIv minGap \ deadAirTime d audio agentIv minGap) =
        ENNReal.ofReal extra) ∧
      (0 ≤ missed ∧ volume (deadAirTime d audio agentIv minGap \ countedTime audio agentIv minGap) =
        ENNReal.ofReal missed) ∧
      longGaps minGap gaps = .fin total ∧
      longGaps minGap (deadAirGaps (callerUtterances audio) agentIv (duration audio agentIv) []) =
        .fin (total + extra - missed) := by
  obtain ⟨hmerged, hpoints⟩ :=
    points_gapsWithin (speech_padding_ne_nan (d := d) haudio hagent) d.durationS
  have hgaps := maximalGaps_of_points hmerged hpoints
  have hcounted := maximalGaps_counted haudio hagent
  have hcountedTime : countedTime audio agentIv minGap = points _ := longSilence_eq hcounted minGap
  have hdeadAirTime : deadAirTime d audio agentIv minGap = points _ := longSilence_eq hgaps minGap
  have hcountedFinite := countedTime_finite haudio hagent minGap
  have hdeadAirFinite := deadAirTime_finite d audio agentIv minGap
  refine ⟨_, hgaps, ?_⟩
  rw [hcountedTime] at hcountedFinite ⊢
  rw [hdeadAirTime] at hdeadAirFinite ⊢
  exact Lib.exists_difference (hcounted.merged.filter _) (hmerged.filter _) hcountedFinite
    hdeadAirFinite

lemma emitted_isDeadAir_iff (cfg : MetricConfig) :
    (∀ v, deadAirEmitted (audioMetrics audio agentIv cfg) = some v →
        IsDeadAir d audio agentIv cfg.deadAirMinS v) ↔
      agentIv = [] ∨ MakesUp (countedTime audio agentIv cfg.deadAirMinS)
        (deadAirTime d audio agentIv cfg.deadAirMinS) := by
  obtain ⟨gaps, hgaps, total, extra, missed, htotal, hextra, hmissed, hdead, hcount⟩ :=
    exists_count (d := d) haudio hagent cfg.deadAirMinS
  have hvalue : deadAirS (callerUtterances audio) agentIv (duration audio agentIv) cfg.deadAirMinS =
      .fin (Lib.roundTo 4 (total + extra - missed)) := by
    rw [deadAirS_eq, deadAirPadded_eq cfg.deadAirMinS (speechIntervals_proper haudio hagent)
      (List.forall_mem_nil _) (speechIntervals_ends haudio hagent), hcount]
    rfl
  rw [makesUp_iff htotal hextra hmissed, deadAirEmitted_audioMetrics, hvalue]
  split
  · next hnone => exact iff_of_true nofun (.inl (List.isEmpty_iff.1 hnone))
  · next hsome =>
    constructor
    · intro h
      obtain ⟨gaps', hgaps', hv⟩ := h _ rfl
      rw [hgaps'.unique hgaps, hdead] at hv
      exact .inr (PyFloat.fin.inj (MetricNumber.num.inj hv))
    · rintro (hnone | hround) v hv
      · exact absurd (List.isEmpty_iff.2 hnone) hsome
      · refine ⟨gaps, hgaps, ?_⟩
        rw [← Option.some.inj hv, hdead, hround]
        rfl

end

/-- Frames of one sample: at full scale it has 0 dBFS. -/
def fullScaleFrames (samples : List Int) (_ : Nat) : List PyFloat :=
  samples.map fun n => if n = 0 then .negInf else .fin 0

/-- Three seconds of padding, and a word of the caller. -/
def paddedRecording : DecodedAudio where
  channels := [("caller", List.replicate 150 0 ++ List.replicate 10 (-32768))]
  sampleRate := 50
  nFrames := 160
  lengths := by simp
  speakers := by simp

end Pulse.Core
