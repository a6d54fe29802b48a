import Pulse.Core.Metrics
import Pulse.Lib.EditDistance

/-!
# The word error rate

`wer` of `groundtruth/text.py` computes the distances of all first parts of two lists of words, one
row for each word of the reference.
-/

namespace Pulse.Groundtruth

open Pulse.Core
open Lib (Edits distance replacing)

/-- The characters of `_WORD`. -/
def isWordChar (c : Char) : Bool :=
  ('a' ≤ c && c ≤ 'z') || ('0' ≤ c && c ≤ '9')

/-- The runs of characters with `p`, as `findall` finds them. -/
def findRuns (p : Char → Bool) (s : String) : List String :=
  ((s.toList.splitOnP fun c => !p c).filter (· ≠ [])).map String.ofList

/-- One turn of the inner loop of `wer`: the entry of `cur` for word `e.1` of the hypothesis, the
`e.2`th. -/
def extendRow (prev : List Nat) (r : String) (cur : List Nat) (e : String × Nat) : List Nat :=
  let cost := if r = e.1 then 0 else 1
  cur ++ [min (min (prev.getD e.2 0 + 1) (cur.getD (e.2 - 1) 0 + 1)) (prev.getD (e.2 - 1) 0 + cost)]

/-- The inner loop of `wer`, for word `e.1` of the reference, the `e.2`th. -/
def nextRow (hyp : List String) (prev : List Nat) (e : String × Nat) : List Nat :=
  (hyp.zipIdx 1).foldl (extendRow prev e.1) [e.2]

/-- The outer loop of `wer`. -/
def lastRow (ref hyp : List String) : List Nat :=
  (ref.zipIdx 1).foldl (nextRow hyp) (List.range (hyp.length + 1))

section

variable [Text]

/-- `normalize` -/
def normalize (text : String) : List String :=
  findRuns isWordChar (Text.lower text)

/-- `wer` -/
def wer (reference hypothesis : String) : ℚ :=
  let ref := normalize reference
  let hyp := normalize hypothesis
  if ref.isEmpty then if hyp.isEmpty then 0 else 1
  else (lastRow ref hyp).getLastD 0 / ref.length

end

/-! ### Rows of distances -/

/-- The distances of words from the first parts of the hypothesis that have less than `k` words. -/
def rowTo (hyp done : List String) (k : Nat) : List Nat :=
  (List.range k).map fun j => distance done (hyp.take j)

/-- The distances of words from all first parts of the hypothesis. -/
abbrev row (hyp done : List String) : List Nat :=
  rowTo hyp done (hyp.length + 1)

variable {hyp done : List String}

lemma getD_rowTo {j k : Nat} (h : j < k) :
    (rowTo hyp done k).getD j 0 = distance done (hyp.take j) := by
  rw [rowTo, List.getD_eq_getElem?_getD, List.getElem?_map, List.getElem?_range h]
  rfl

lemma row_nil : row hyp [] = List.range (hyp.length + 1) := by
  rw [row, rowTo]
  refine (List.map_congr_left fun j hj => ?_).trans (List.map_id _)
  have hle : j ≤ hyp.length := Nat.lt_succ_iff.1 (List.mem_range.1 hj)
  rw [Lib.distance_nil, List.length_take, Nat.min_eq_left hle, id]

lemma rowTo_one (done : List String) : rowTo hyp done 1 = [done.length] := by
  rw [rowTo, List.range_one, List.map_singleton, List.take_zero, Lib.distance_nil_right]

lemma extendRow_rowTo {pre post : List String} {h : String} (hhyp : hyp = pre ++ h :: post)
    (r : String) : extendRow (row hyp done) r (rowTo hyp (done ++ [r]) (pre.length + 1))
      (h, pre.length + 1) = rowTo hyp (done ++ [r]) (pre.length + 1 + 1) := by
  have hlt : pre.length + 1 < hyp.length + 1 := by
    rw [hhyp, List.length_append, List.length_cons]
    omega
  have htake : hyp.take pre.length = pre := by
    rw [hhyp, List.take_left]
  have htakeSucc : hyp.take (pre.length + 1) = pre ++ [h] := by
    rw [hhyp, List.append_cons, List.take_left' (by simp)]
  have hnext : rowTo hyp (done ++ [r]) (pre.length + 1 + 1) =
      rowTo hyp (done ++ [r]) (pre.length + 1) ++ [distance (done ++ [r]) (pre ++ [h])] := by
    rw [rowTo, List.range_succ, List.map_append, List.map_singleton, htakeSucc]
    rfl
  rw [extendRow, hnext, Nat.add_sub_cancel, getD_rowTo hlt, getD_rowTo (Nat.lt_of_succ_lt hlt),
    getD_rowTo (Nat.lt_succ_self _), htake, htakeSucc, Lib.distance_concat_concat]
  rfl

/-- The inner loop makes the row of one more word. -/
lemma nextRow_row (r : String) :
    nextRow hyp (row hyp done) (r, done.length + 1) = row hyp (done ++ [r]) := by
  have hloop (pre post : List String) (hhyp : hyp = pre ++ post) :
      (post.zipIdx (pre.length + 1)).foldl (extendRow (row hyp done) r)
        (rowTo hyp (done ++ [r]) (pre.length + 1)) = row hyp (done ++ [r]) := by
    induction post generalizing pre with
    | nil => rw [hhyp, List.append_nil]; rfl
    | cons h post ih =>
      have hrest := ih (pre ++ [h]) (by rw [hhyp, List.append_cons])
      rw [List.length_append, List.length_singleton] at hrest
      rw [List.zipIdx_cons, List.foldl_cons, extendRow_rowTo hhyp, hrest]
  have hall := hloop [] hyp rfl
  rw [List.length_nil, Nat.zero_add, rowTo_one, List.length_append, List.length_singleton] at hall
  exact hall

/-- The outer loop ends with the row of the reference. -/
lemma lastRow_eq (ref hyp : List String) : lastRow ref hyp = row hyp ref := by
  have hloop (pre post : List String) : (post.zipIdx (pre.length + 1)).foldl (nextRow hyp)
      (row hyp pre) = row hyp (pre ++ post) := by
    induction post generalizing pre with
    | nil => rw [List.append_nil]; rfl
    | cons r post ih =>
      have hrest := ih (pre ++ [r])
      rw [List.length_append, List.length_singleton] at hrest
      rw [List.zipIdx_cons, List.foldl_cons, nextRow_row, hrest, ← List.append_cons]
  have hall := hloop [] ref
  rwa [row_nil] at hall

lemma getLastD_lastRow (ref hyp : List String) : (lastRow ref hyp).getLastD 0 = distance ref hyp := by
  rw [lastRow_eq, row, rowTo, List.range_succ, List.map_append, List.map_singleton,
    List.getLastD_concat, List.take_length]

section

variable [Text]

lemma wer_eq {reference : String} (h : normalize reference ≠ []) (hypothesis : String) :
    wer reference hypothesis = (distance (normalize reference) (normalize hypothesis) : ℚ) /
      (normalize reference).length := by
  rw [wer, if_neg (by simpa using h), getLastD_lastRow]

end

end Pulse.Groundtruth
