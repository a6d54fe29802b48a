import Pulse.Lib.Inflate

/-!
# Bounded decompression

`bounded_gunzip` of `util/safety.py` and `gunzip` of the ingest service (`otlp.go`). The first takes
what the decompression object has put out by the end of the input for the content, and never asks
whether the stream has ended; the second reads every member to its end.
-/

namespace Pulse.Util

open Lib (Bytes Parse Format Complete Decompressor ZlibError isGzip)

inductive GunzipError
  | tooLarge
  | zlib (e : ZlibError)
  deriving DecidableEq

variable (z : Format)

/-- `raw[start : start + n]`, for the starts in steps of `n`. -/
def slices (n : Nat) (raw : Bytes) : List Bytes :=
  (List.range ((raw.length + n - 1) / n)).map fun i => (raw.drop (i * n)).take n

/-- One piece, with the output so far. -/
def feed (limit : Int) (st : Decompressor × Bytes) (data : Bytes) :
    Except GunzipError (Decompressor × Bytes) :=
  match st.1.decompress z data (limit - st.2.length + 1) with
  | .error e => .error (.zlib e)
  | .ok d =>
    let out := st.2 ++ d.chunk
    if limit < out.length then .error .tooLarge
    else if d.unconsumedTail then .error .tooLarge
    else .ok (d.next, out)

/-- The end of `bounded_gunzip`. -/
def finish (limit : Int) (st : Decompressor × Bytes) : Except GunzipError Bytes :=
  match st.1.flush z with
  | .error e => .error (.zlib e)
  | .ok more =>
    let out := st.2 ++ more
    if limit < out.length then .error .tooLarge else .ok out

/-- `bounded_gunzip` -/
def boundedGunzip (raw : Bytes) (limit : Int) : Except GunzipError Bytes := do
  let st ← (slices 65536 raw).foldlM (feed z limit) ({}, [])
  finish z limit st

/-! ### The loop -/

lemma flatten_slices {n : Nat} (hn : 0 < n) (raw : Bytes) : (slices n raw).flatten = raw := by
  have htake (m : Nat) :
      ((List.range m).map fun i => (raw.drop (i * n)).take n).flatten = raw.take (m * n) := by
    induction m with
    | zero => simp
    | succ m ih =>
      rw [List.range_succ, List.map_append, List.flatten_append, ih, List.map_singleton,
        List.flatten_singleton, Nat.succ_mul, List.take_add]
  rw [slices, htake]
  apply List.take_of_length_le
  have hdiv := Nat.lt_div_mul_add hn (a := raw.length + n - 1)
  omega

/-- There is no fault so far, and the output is within the limit. -/
def Fits (limit : Int) (p : Parse) : Prop := p.isValid = true ∧ (p.out.length : Int) ≤ limit

variable {z}

lemma Fits.of_append {limit : Int} {d e : Bytes} (h : Fits limit (z.parse (d ++ e))) :
    Fits limit (z.parse d) := by
  have hle := (z.out_prefix d e).length_le
  have hlimit := h.2
  exact ⟨z.isValid_of_append h.1, by omega⟩

/-- The state of the loop when some octets are fed. -/
def stateAt (z : Format) (d : Bytes) : Decompressor × Bytes :=
  (⟨d, (z.parse d).out.length⟩, (z.parse d).out)

lemma append_drop_out (d e : Bytes) :
    (z.parse d).out ++ (z.parse (d ++ e)).out.drop (z.parse d).out.length =
      (z.parse (d ++ e)).out := by
  obtain ⟨more, hmore⟩ := z.out_prefix d e
  rw [← hmore, List.drop_left]

/-- One piece more fits and is put out, or it raises. -/
lemma feed_stateAt {limit : Int} {d : Bytes} (hsize : limit + 1 < 2 ^ 63)
    (h : Fits limit (z.parse d)) (data : Bytes) :
    Fits limit (z.parse (d ++ data)) ∧
        feed z limit (stateAt z d) data = .ok (stateAt z (d ++ data)) ∨
      ¬Fits limit (z.parse (d ++ data)) ∧ ∃ e, feed z limit (stateAt z d) data = .error e := by
  have hlimit := h.2
  have hle := (z.out_prefix d data).length_le
  unfold feed stateAt
  dsimp only
  rw [Decompressor.decompress_new (by omega) (by omega)]
  by_cases hout : ((z.parse (d ++ data)).out.length : Int) ≤ limit
  · rw [if_pos (by omega)]
    cases hvalid : (z.parse (d ++ data)).isValid with
    | true =>
      refine .inl ⟨⟨hvalid, hout⟩, ?_⟩
      simp only [if_true, append_drop_out]
      rw [if_neg (by omega), if_neg Bool.false_ne_true]
    | false =>
      refine .inr ⟨fun hfits => ?_, _, rfl⟩
      rw [hfits.1] at hvalid
      cases hvalid
  · rw [if_neg (by omega)]
    refine .inr ⟨fun hfits => hout hfits.2, .tooLarge, ?_⟩
    dsimp only
    rw [if_pos]
    rw [List.length_append, List.length_take, List.length_drop]
    omega

lemma foldlM_feed {limit : Int} {d : Bytes} (hsize : limit + 1 < 2 ^ 63)
    (h : Fits limit (z.parse d)) (pieces : List Bytes) :
    Fits limit (z.parse (d ++ pieces.flatten)) ∧
        pieces.foldlM (feed z limit) (stateAt z d) = .ok (stateAt z (d ++ pieces.flatten)) ∨
      ¬Fits limit (z.parse (d ++ pieces.flatten)) ∧
        ∃ e, pieces.foldlM (feed z limit) (stateAt z d) = .error e := by
  induction pieces generalizing d with
  | nil =>
    rw [List.flatten_nil, List.append_nil]
    exact .inl ⟨h, rfl⟩
  | cons piece pieces ih =>
    rw [List.flatten_cons, ← List.append_assoc, List.foldlM_cons]
    obtain ⟨hfits, hfeed⟩ | ⟨hfits, e, hfeed⟩ := feed_stateAt hsize h piece
    · rw [hfeed]
      exact ih hfits
    · rw [hfeed]
      exact .inr ⟨fun hall => hfits hall.of_append, e, rfl⟩

/-- The first piece raises when the limit is too large for zlib. -/
lemma feed_size {limit : Int} (hsize : 2 ^ 63 ≤ limit + 1) (data : Bytes) :
    feed z limit ({}, []) data = .error (.zlib .limit) := by
  unfold feed Decompressor.decompress
  dsimp only
  rw [if_pos (by simpa using .inr hsize)]

lemma finish_stateAt {limit : Int} {d : Bytes} (h : Fits limit (z.parse d)) :
    finish z limit (stateAt z d) = .ok (z.parse d).out := by
  have hlimit := h.2
  unfold finish stateAt Decompressor.flush
  dsimp only
  rw [if_pos h.1]
  dsimp only
  rw [List.drop_length, List.append_nil, if_neg (by omega)]

lemma finish_neg {limit : Int} (hneg : limit < 0) (st : Decompressor × Bytes) :
    ∃ e, finish z limit st = .error e := by
  unfold finish
  cases st.1.flush z with
  | error e => exact ⟨_, rfl⟩
  | ok more =>
    dsimp only
    rw [if_pos (by omega)]
    exact ⟨_, rfl⟩

/-- The output is within the limit, and zlib takes the limit when it is asked. -/
def Admits (raw : Bytes) (limit : Int) (out : Bytes) : Prop :=
  (out.length : Int) ≤ limit ∧ (raw = [] ∨ limit + 1 < 2 ^ 63)

lemma slices_ne_nil {n : Nat} (hn : 0 < n) {raw : Bytes} (h : raw ≠ []) : slices n raw ≠ [] := by
  intro hnil
  have hflatten := flatten_slices hn raw
  rw [hnil] at hflatten
  exact h hflatten.symm

/-- What is returned is the output of the input so far, whether or not it has ended. -/
lemma boundedGunzip_eq_ok_iff {raw b : Bytes} {limit : Int} :
    boundedGunzip z raw limit = .ok b ↔
      (z.parse raw).isValid = true ∧ Admits raw limit (z.parse raw).out ∧ (z.parse raw).out = b := by
  have hstart : (({}, []) : Decompressor × Bytes) = stateAt z [] := by
    rw [stateAt, z.nil]
    rfl
  unfold boundedGunzip
  by_cases hneg : limit < 0
  · refine iff_of_false (fun h => ?_) fun h => ?_
    · obtain ⟨st, -, hst⟩ := Lib.bind_eq_ok.1 h
      obtain ⟨e, he⟩ := finish_neg (z := z) hneg st
      rw [he] at hst
      cases hst
    · have hlimit := h.2.1.1
      omega
  have hnil : Fits limit (z.parse []) := by
    rw [z.nil]
    exact ⟨rfl, by simpa [Parse.out] using hneg⟩
  by_cases hsize : limit + 1 < 2 ^ 63
  · have hall := foldlM_feed hsize hnil (slices 65536 raw)
    rw [List.nil_append, flatten_slices (by decide)] at hall
    rw [hstart]
    obtain ⟨hfits, hfold⟩ | ⟨hfits, e, hfold⟩ := hall
    · rw [hfold]
      change finish z limit (stateAt z raw) = .ok b ↔ _
      rw [finish_stateAt hfits, Except.ok.injEq]
      exact ⟨fun h => ⟨hfits.1, ⟨hfits.2, .inr hsize⟩, h⟩, fun h => h.2.2⟩
    · rw [hfold]
      exact iff_of_false nofun fun h => hfits ⟨h.1, h.2.1.1⟩
  by_cases hraw : raw = []
  · subst hraw
    change finish z limit ({}, []) = .ok b ↔ _
    rw [hstart, finish_stateAt hnil, Except.ok.injEq]
    exact ⟨fun h => ⟨hnil.1, ⟨hnil.2, .inl rfl⟩, h⟩, fun h => h.2.2⟩
  · obtain ⟨piece, pieces, hslices⟩ :=
      List.exists_cons_of_ne_nil (slices_ne_nil (n := 65536) (by decide) hraw)
    rw [hslices, List.foldlM_cons, feed_size (by omega)]
    refine iff_of_false nofun fun h => ?_
    obtain hnone | hlt := h.2.1.2
    · exact hraw hnone
    · exact hsize hlt

end Pulse.Util
