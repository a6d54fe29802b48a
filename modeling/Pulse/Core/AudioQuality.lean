import Pulse.Core.Padding

/-!
# Dropouts

`_interior_zero_runs` of `core/audio/quality.py`, which finds the ends of the runs of zeros from the
differences of their mask as `_mask_to_intervals` does, against the runs themselves.
-/

namespace Pulse.Core

open Lib (MaximalRun Runs runs)

/-! ### The code -/

/-- `_interior_zero_runs`. The starts are subtracted from the ends; `none` if there are not as many
of them. -/
def interiorZeroRuns (samples : List Int) (minLen : Int) : Option (Nat × Int) :=
  let nonzeroIdx := samples.findIdxs (· ≠ 0)
  if nonzeroIdx.length < 2 then some (0, 0)
  else
    let lo := nonzeroIdx.headD 0
    let hi := nonzeroIdx.getLastD 0
    let interior := (samples.take (hi + 1)).drop lo
    match interior.map fun x => decide (x = 0) with
    | [] => some (0, 0)
    | first :: rest =>
      let isZero := first :: rest
      if !isZero.any id then some (0, 0)
      else
        let starts := runStarts first rest
        let ends := runEnds first rest
        if ends.length = starts.length then
          let runs := List.zipWith (fun (e s : Nat) => (e : Int) - s) ends starts
          let longRuns := runs.filter fun n => max 1 minLen ≤ n
          some (longRuns.length, longRuns.sum)
        else none

/-! ### The runs of zeros -/

/-- The sample at this place is there, and is not a zero. -/
def NonzeroAt (samples : List Int) (i : Nat) : Prop :=
  ∃ x, samples[i]? = some x ∧ x ≠ 0

/-- A maximal run of zeros that is long enough and has other samples before and after it. -/
structure LongInteriorRun (samples : List Int) (minLen : Int) (s e : Nat) : Prop where
  run : MaximalRun (samples.map fun x => decide (x = 0)) s e
  long : max 1 minLen ≤ (e : Int) - s
  before : ∃ i < s, NonzeroAt samples i
  after : ∃ i, e ≤ i ∧ NonzeroAt samples i

/-- The first and the last sample that are not zeros, if there are two. -/
structure Borders (samples : List Int) (lo hi : Nat) : Prop where
  lt : lo < hi
  first : NonzeroAt samples lo
  last : NonzeroAt samples hi
  within : ∀ i, NonzeroAt samples i → lo ≤ i ∧ i ≤ hi

lemma mem_findIdxs_nonzero {samples : List Int} {i : Nat} :
    i ∈ samples.findIdxs (· ≠ 0) ↔ NonzeroAt samples i := by
  rw [List.mem_findIdxs_iff_exists_getElem_pos]
  constructor
  · rintro ⟨hi, hne⟩
    exact ⟨samples[i], List.getElem?_eq_getElem hi, of_decide_eq_true hne⟩
  · rintro ⟨x, hx, hne⟩
    obtain ⟨hi, rfl⟩ := List.getElem?_eq_some_iff.1 hx
    exact ⟨hi, decide_eq_true hne⟩

lemma borders_findIdxs {samples : List Int} (h : ¬(samples.findIdxs (· ≠ 0)).length < 2) :
    Borders samples ((samples.findIdxs (· ≠ 0)).headD 0) ((samples.findIdxs (· ≠ 0)).getLastD 0) := by
  have hmem (i : Nat) : i ∈ samples.findIdxs (· ≠ 0) ↔ NonzeroAt samples i := mem_findIdxs_nonzero
  have hsorted : (samples.findIdxs (· ≠ 0)).Pairwise (· < ·) := List.pairwise_findIdxs
  generalize samples.findIdxs (· ≠ 0) = nonzeroIdx at h hmem hsorted
  obtain ⟨lo, more, rfl⟩ := List.exists_cons_of_length_pos (l := nonzeroIdx) (by omega)
  rw [List.length_cons] at h
  obtain ⟨between, hi, rfl⟩ := List.eq_nil_or_concat' more |>.resolve_left fun hnil => h (by simp [hnil])
  rw [List.headD_cons, List.getLastD_cons, List.getLastD_concat]
  have hlo : ∀ i ∈ between ++ [hi], lo < i := (List.pairwise_cons.1 hsorted).1
  have hhi : ∀ i ∈ between, i < hi := fun i hi' =>
    (List.pairwise_append.1 (List.pairwise_cons.1 hsorted).2).2.2 i hi' hi List.mem_cons_self
  refine ⟨hlo hi (by simp), (hmem lo).1 List.mem_cons_self, (hmem hi).1 (by simp), fun i hnonzero => ?_⟩
  rcases List.mem_cons.1 ((hmem i).2 hnonzero) with rfl | hrest
  · exact ⟨le_rfl, (hlo hi (by simp)).le⟩
  · refine ⟨(hlo i hrest).le, ?_⟩
    rcases List.mem_append.1 hrest with hbetween | hlast
    · exact (hhi i hbetween).le
    · exact (List.mem_singleton.1 hlast).le

section

variable {samples : List Int} {lo hi : Nat} (h : Borders samples lo hi)

include h

lemma Borders.lt_length : hi < samples.length := by
  obtain ⟨x, hx, -⟩ := h.last
  exact (List.getElem?_eq_some_iff.1 hx).1

/-- The runs of zeros between the borders are those that have other samples before and after. -/
lemma Borders.maximalRun_iff {s e : Nat} :
    MaximalRun (((samples.take (hi + 1)).drop lo).map fun x => decide (x = 0)) s e ↔
      MaximalRun (samples.map fun x => decide (x = 0)) (lo + s) (lo + e) ∧
        (∃ i < lo + s, NonzeroAt samples i) ∧ ∃ i, lo + e ≤ i ∧ NonzeroAt samples i := by
  have hlength := h.lt_length
  have hlt := h.lt
  rw [List.map_drop, List.map_take]
  generalize hz : samples.map (fun x => decide (x = 0)) = zeros
  have hzlength : zeros.length = samples.length := by rw [← hz, List.length_map]
  have hsplit : zeros = zeros.take lo ++ ((zeros.take (hi + 1)).drop lo ++ zeros.drop (hi + 1)) := by
    have htake := List.take_append_drop lo (zeros.take (hi + 1))
    rw [List.take_take, Nat.min_eq_left (by omega)] at htake
    rw [← List.append_assoc, htake, List.take_append_drop]
  have hfirst : ((zeros.take (hi + 1)).drop lo)[0]? = some false := by
    obtain ⟨x, hx, hne⟩ := h.first
    rw [List.getElem?_drop, List.getElem?_take_of_lt (by omega), ← hz, List.getElem?_map,
      Nat.add_zero, hx, Option.map_some, decide_eq_false hne]
  have hlast : ((zeros.take (hi + 1)).drop lo)[hi - lo]? = some false := by
    obtain ⟨x, hx, hne⟩ := h.last
    rw [List.getElem?_drop, List.getElem?_take_of_lt (by omega), ← hz, List.getElem?_map,
      Nat.add_sub_cancel' hlt.le, hx, Option.map_some, decide_eq_false hne]
  have hmid : ((zeros.take (hi + 1)).drop lo).length = hi - lo + 1 := by
    rw [List.length_drop, List.length_take]
    omega
  have hbefore : (zeros.take lo).length = lo := by
    rw [List.length_take]
    omega
  generalize (zeros.take (hi + 1)).drop lo = interior at hsplit hfirst hlast hmid
  have hwhole (hs : 0 < s) (he : e ≤ hi - lo) :
      MaximalRun zeros (lo + s) (lo + e) ↔ MaximalRun interior s e := by
    have hprepend : MaximalRun (zeros.take lo ++ (interior ++ zeros.drop (hi + 1)))
        ((zeros.take lo).length + s) ((zeros.take lo).length + e) ↔ _ :=
      MaximalRun.prepend_iff (zeros.take lo) hs
    rw [← hsplit, hbefore] at hprepend
    exact hprepend.trans (MaximalRun.append_iff (by omega) (by omega))
  constructor
  · intro hrun
    have hs : 0 < s := by
      refine Nat.pos_of_ne_zero fun hzero => ?_
      have hset := hrun.set 0 hzero.le (hzero ▸ hrun.lt)
      rw [hfirst] at hset
      cases hset
    have he : e ≤ hi - lo := by
      have hle := hrun.le_length
      by_contra hgt
      have hset := hrun.last
      rw [show e - 1 = hi - lo by omega, hlast] at hset
      cases hset
    exact ⟨(hwhole hs he).2 hrun, ⟨lo, by omega, h.first⟩, hi, by omega, h.last⟩
  · rintro ⟨hrun, ⟨i, hi', hbeforeRun⟩, j, hj, hafterRun⟩
    have hilo := (h.within i hbeforeRun).1
    have hjhi := (h.within j hafterRun).2
    exact (hwhole (by omega) (by omega)).1 hrun

end

/-- As many runs begin as end. -/
lemma length_findIdxs (prev : Bool) (s i : Nat) (mask : List Bool) :
    ((if prev then [s] else []) ++ (diffs prev mask).findIdxs (· = 1) i).length =
      ((diffs prev mask).findIdxs (· = -1) i ++
        if (prev :: mask).getLast? = some true then [i + mask.length] else []).length := by
  induction mask generalizing prev s i with
  | nil => cases prev <;> rfl
  | cons flag mask ih =>
    have hdiffs : diffs prev (flag :: mask) = (flag.toInt - prev.toInt) :: diffs flag mask := rfl
    have hlength : i + (flag :: mask).length = i + 1 + mask.length := by
      rw [List.length_cons]
      omega
    rw [hdiffs, hlength, List.getLast?_cons_cons]
    cases prev <;> cases flag
    · exact ih false s (i + 1)
    · exact ih true i (i + 1)
    · exact congrArg (· + 1) (ih false s (i + 1))
    · exact ih true s (i + 1)

lemma length_runBounds (first : Bool) (rest : List Bool) :
    (runEnds first rest).length = (runStarts first rest).length := by
  rw [(runBounds_eq first rest).1, (runBounds_eq first rest).2, length_findIdxs first 0 1 rest]

/-- The lengths that are counted and added up are those of the long runs of the interior. -/
lemma interiorZeroRuns_eq {samples : List Int} (minLen : Int)
    (h : ¬(samples.findIdxs (· ≠ 0)).length < 2) :
    let isZero := ((samples.take ((samples.findIdxs (· ≠ 0)).getLastD 0 + 1)).drop
      ((samples.findIdxs (· ≠ 0)).headD 0)).map fun x => decide (x = 0)
    let longRuns := ((runs isZero).map fun r => (r.2 : Int) - r.1).filter fun n => max 1 minLen ≤ n
    interiorZeroRuns samples minLen = some (longRuns.length, longRuns.sum) := by
  intro isZero
  rw [interiorZeroRuns]
  dsimp only
  rw [if_neg h]
  change (match isZero with
    | [] => _
    | first :: rest => _) = _
  cases isZero with
  | nil => rfl
  | cons first rest =>
    dsimp only
    split
    · next hnone =>
      rw [runs_of_any (by simpa using hnone)]
      rfl
    · have hruns : List.zipWith (fun (e s : Nat) => (e : Int) - s) (runEnds first rest)
          (runStarts first rest) = (runs (first :: rest)).map fun r => (r.2 : Int) - r.1 := by
        rw [List.zipWith_comm, ← zip_runBounds, List.map_zip_eq_zipWith]
        rfl
      rw [if_pos (length_runBounds first rest), hruns]

/-- Between fewer than two samples that are not zeros there is no run. -/
lemma not_longInteriorRun {samples : List Int} (h : (samples.findIdxs (· ≠ 0)).length < 2)
    (minLen : Int) (s e : Nat) : ¬LongInteriorRun samples minLen s e := by
  rintro ⟨hrun, -, ⟨i, hi, hbefore⟩, j, hj, hafter⟩
  have hlt := hrun.lt
  have himem := mem_findIdxs_nonzero.2 hbefore
  have hjmem := mem_findIdxs_nonzero.2 hafter
  generalize samples.findIdxs (· ≠ 0) = nonzeroIdx at h himem hjmem
  match nonzeroIdx, h, himem, hjmem with
  | [k], _, hik, hjk =>
    rw [List.mem_singleton] at hik hjk
    omega

/-- The function counts and measures the long runs of zeros that are inside the audio. -/
lemma exists_longInteriorRuns (samples : List Int) (minLen : Int) :
    ∃ rs : List (Nat × Nat), (rs.Pairwise fun r r' => r.2 < r'.1) ∧
      (∀ r, r ∈ rs ↔ LongInteriorRun samples minLen r.1 r.2) ∧
      interiorZeroRuns samples minLen =
        some (rs.length, (rs.map fun r => (r.2 : Int) - r.1).sum) := by
  by_cases hfew : (samples.findIdxs (· ≠ 0)).length < 2
  · refine ⟨[], List.Pairwise.nil, fun r => ?_, ?_⟩
    · exact iff_of_false List.not_mem_nil (not_longInteriorRun hfew minLen r.1 r.2)
    · rw [interiorZeroRuns]
      exact if_pos hfew
  · have hborders := borders_findIdxs hfew
    rw [interiorZeroRuns_eq minLen hfew]
    generalize (samples.findIdxs (· ≠ 0)).headD 0 = lo at hborders
    generalize (samples.findIdxs (· ≠ 0)).getLastD 0 = hi at hborders
    generalize hmask : ((samples.take (hi + 1)).drop lo).map (fun x => decide (x = 0)) = isZero
    have hmem (s e : Nat) : (s, e) ∈ runs isZero ↔ _ :=
      ((Lib.runs_spec isZero).mem (s, e)).trans (hmask ▸ hborders.maximalRun_iff)
    have hshift (r : Nat × Nat) : ((lo + r.2 : Nat) : Int) - (lo + r.1 : Nat) = (r.2 : Int) - r.1 := by
      omega
    refine ⟨((runs isZero).filter fun r => max 1 minLen ≤ (r.2 : Int) - r.1).map
      fun r => (lo + r.1, lo + r.2), ?_, fun r => ?_, ?_⟩
    · refine List.pairwise_map.2 (((Lib.runs_spec isZero).ordered.filter _).imp fun hlt => ?_)
      exact Nat.add_lt_add_left hlt lo
    · rw [List.mem_map]
      constructor
      · rintro ⟨⟨s, e⟩, hr, rfl⟩
        obtain ⟨hr, hlong⟩ := List.mem_filter.1 hr
        obtain ⟨hrun, hbefore, hafter⟩ := (hmem s e).1 hr
        exact ⟨hrun, (hshift (s, e)).symm ▸ of_decide_eq_true hlong, hbefore, hafter⟩
      · rintro ⟨hrun, hlong, ⟨i, hi', hbefore⟩, hafter⟩
        have hlo := (hborders.within i hbefore).1
        have hlt := hrun.lt
        obtain ⟨s, e⟩ := r
        obtain ⟨s, rfl⟩ := Nat.exists_eq_add_of_le (hlo.trans hi'.le)
        obtain ⟨e, rfl⟩ := Nat.exists_eq_add_of_le ((Nat.le_add_right lo s).trans hlt.le)
        refine ⟨(s, e), List.mem_filter.2 ⟨(hmem s e).2 ⟨hrun, ⟨i, hi', hbefore⟩, hafter⟩, ?_⟩, rfl⟩
        exact decide_eq_true (hshift (s, e) ▸ hlong)
    · rw [List.filter_map, List.length_map, List.length_map, List.map_map]
      have hlengths := List.map_congr_left (l := (runs isZero).filter
        fun r => max 1 minLen ≤ (r.2 : Int) - r.1) fun r _ => hshift r
      exact congrArg some (Prod.ext rfl (congrArg List.sum hlengths.symm))

example : interiorZeroRuns [0, 5, 0, 0, 7, 0, 0, 0, 9, 0, 0] 3 = some (1, 3) := by decide

end Pulse.Core
