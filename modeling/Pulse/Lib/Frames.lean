import Mathlib.Data.List.Infix
import Mathlib.Tactic.Common

/-!
# Streams of frames

A stream in which each frame is followed by a separator, and a reader that gets it in chunks: it
cuts what it has at the separators, deals with the frames and keeps the rest for the next chunk.
-/

namespace Pulse.Lib

universe u v

variable {α : Type u}

/-- The stream of frames, each with the separator behind it. -/
def framed (sep : List α) (frames : List (List α)) : List α :=
  frames.flatMap (· ++ sep)

@[simp] lemma framed_nil (sep : List α) : framed sep [] = [] := rfl

@[simp] lemma framed_cons (sep frame : List α) (frames : List (List α)) :
    framed sep (frame :: frames) = frame ++ sep ++ framed sep frames := rfl

@[simp] lemma framed_append (sep : List α) (frames frames' : List (List α)) :
    framed sep (frames ++ frames') = framed sep frames ++ framed sep frames' :=
  List.flatMap_append

/-- No separator begins or ends within a frame, so that the first one is that behind it. -/
def IsFrame (sep frame : List α) : Prop := ¬sep <:+: (frame ++ sep).dropLast

/-- The frames are those that the separators end, and no separator is left behind them. -/
structure Cut (sep as : List α) (frames : List (List α)) (rest : List α) : Prop where
  eq : as = framed sep frames ++ rest
  frames : ∀ frame ∈ frames, IsFrame sep frame
  rest : ¬sep <:+: rest

section

variable [DecidableEq α]

/-- One more character behind those that are already cut. -/
def cutOne (sep : List α) (r : List (List α) × List α) (a : α) : List (List α) × List α :=
  if sep <:+ r.2 ++ [a] then (r.1 ++ [(r.2 ++ [a]).take (r.2.length + 1 - sep.length)], [])
  else (r.1, r.2 ++ [a])

/-- Cut at each separator from the left: the frames before one, and what is behind the last. -/
def cutAt (sep as : List α) : List (List α) × List α := as.foldl (cutOne sep) ([], [])

variable {sep as rest : List α} {frames : List (List α)}

lemma foldl_cutOne_append (before : List (List α)) (r : List (List α) × List α) (as : List α) :
    as.foldl (cutOne sep) (before ++ r.1, r.2) =
      (before ++ (as.foldl (cutOne sep) r).1, (as.foldl (cutOne sep) r).2) := by
  induction as generalizing r with
  | nil => rfl
  | cons a as ih =>
    have hone : cutOne sep (before ++ r.1, r.2) a =
        (before ++ (cutOne sep r a).1, (cutOne sep r a).2) := by
      rw [cutOne, cutOne]
      split <;> simp
    rw [List.foldl_cons, hone, ih, List.foldl_cons]

lemma foldl_cutOne_of_rest {buf : List α} (h : ¬sep <:+: buf ++ as) :
    as.foldl (cutOne sep) (frames, buf) = (frames, buf ++ as) := by
  induction as generalizing buf with
  | nil => simp
  | cons a as ih =>
    have hassoc : buf ++ a :: as = buf ++ [a] ++ as := by simp
    rw [hassoc] at h
    have hone : ¬sep <:+ buf ++ [a] := fun hsuffix =>
      h (hsuffix.isInfix.trans (List.prefix_append _ _).isInfix)
    rw [List.foldl_cons, cutOne, if_neg hone, ih h, hassoc]

lemma foldl_cutOne_frame {frame : List α} (hsep : sep ≠ []) (h : IsFrame sep frame) :
    (frame ++ sep).foldl (cutOne sep) (frames, []) = (frames ++ [frame], []) := by
  have hne : frame ++ sep ≠ [] := by simp [hsep]
  obtain ⟨init, last, hlast⟩ := List.eq_nil_or_concat (frame ++ sep) |>.resolve_left hne
  rw [List.concat_eq_append] at hlast
  rw [IsFrame, hlast, List.dropLast_concat] at h
  have hlength : init.length + 1 = frame.length + sep.length := by
    rw [← List.length_append, hlast, List.length_append, List.length_singleton]
  have hsuffix : sep <:+ init ++ [last] := hlast ▸ List.suffix_append frame sep
  have hinit : init.foldl (cutOne sep) (frames, []) = (frames, init) :=
    foldl_cutOne_of_rest (by simpa using h)
  rw [hlast, List.foldl_append, hinit, List.foldl_cons, List.foldl_nil, cutOne, if_pos hsuffix,
    ← hlast]
  simp only [hlength, Nat.add_sub_cancel, List.take_left]

lemma foldl_cutOne_framed (hsep : sep ≠ []) (h : ∀ frame ∈ frames, IsFrame sep frame) :
    (framed sep frames).foldl (cutOne sep) ([], []) = (frames, []) := by
  induction frames using List.reverseRecOn with
  | nil => rfl
  | append_singleton frames frame ih =>
    rw [framed_append, List.foldl_append, ih fun f hf => h f (by simp [hf])]
    simpa using foldl_cutOne_frame hsep (h frame (by simp))

lemma cut_cutAt (hsep : sep ≠ []) (as : List α) : Cut sep as (cutAt sep as).1 (cutAt sep as).2 := by
  induction as using List.reverseRecOn with
  | nil => exact ⟨rfl, nofun, fun h => hsep (List.infix_nil.1 h)⟩
  | append_singleton as a ih =>
    obtain ⟨heq, hframes, hrest⟩ := ih
    rw [cutAt, List.foldl_append, ← cutAt, List.foldl_cons, List.foldl_nil, cutOne]
    split
    · next hsuffix =>
      obtain ⟨frame, hframe⟩ := hsuffix
      have hlength : (cutAt sep as).2.length + 1 - sep.length = frame.length := by
        have := congrArg List.length hframe
        simp only [List.length_append, List.length_singleton] at this
        omega
      rw [hlength, ← hframe, List.take_left]
      refine ⟨?_, fun f hf => ?_, fun h => hsep (List.infix_nil.1 h)⟩
      · rw [framed_append, framed_cons, framed_nil, List.append_nil, List.append_nil, hframe,
          ← List.append_assoc, ← heq]
      · obtain hf | hf := List.mem_append.1 hf
        · exact hframes f hf
        · obtain rfl := List.mem_singleton.1 hf
          rwa [IsFrame, hframe, List.dropLast_concat]
    · next hsuffix =>
      refine ⟨by rw [← List.append_assoc, ← heq], hframes, fun h => ?_⟩
      exact (List.infix_concat_iff.1 h).elim hsuffix hrest

/-- What is cut at the separators, and only that. -/
theorem cutAt_eq_iff (hsep : sep ≠ []) : cutAt sep as = (frames, rest) ↔ Cut sep as frames rest := by
  constructor
  · intro h
    have hcut := cut_cutAt hsep as
    rwa [h] at hcut
  · rintro ⟨rfl, hframes, hrest⟩
    rw [cutAt, List.foldl_append, foldl_cutOne_framed hsep hframes,
      foldl_cutOne_of_rest (by simpa using hrest), List.nil_append]

/-- What comes later is cut together with the rest. -/
theorem cutAt_append (hsep : sep ≠ []) (as bs : List α) : cutAt sep (as ++ bs) =
    ((cutAt sep as).1 ++ (cutAt sep ((cutAt sep as).2 ++ bs)).1,
      (cutAt sep ((cutAt sep as).2 ++ bs)).2) := by
  have hrest : (cutAt sep as).2.foldl (cutOne sep) ([], []) = ([], (cutAt sep as).2) :=
    foldl_cutOne_of_rest (cut_cutAt hsep as).rest
  have hbs := @foldl_cutOne_append _ _ sep (cutAt sep as).1 ([], (cutAt sep as).2) bs
  rw [List.append_nil] at hbs
  calc cutAt sep (as ++ bs)
    _ = bs.foldl (cutOne sep) (cutAt sep as) := List.foldl_append
    _ = _ := hbs
    _ = _ := by rw [cutAt, cutAt, List.foldl_append, ← cutAt, hrest]

/-! ### The reader -/

variable {σ : Type v}

/-- A chunk comes in: the frames that are now complete are dealt with. -/
def readChunk (sep : List α) (handle : σ → List α → σ) (s : σ × List α) (chunk : List α) :
    σ × List α :=
  let cut := cutAt sep (s.2 ++ chunk)
  (cut.1.foldl handle s.1, cut.2)

/-- However the stream is divided into chunks, the reader deals with its frames in their order. -/
theorem readChunks_eq (hsep : sep ≠ []) (handle : σ → List α → σ) (s : σ)
    (chunks : List (List α)) : chunks.foldl (readChunk sep handle) (s, []) =
      ((cutAt sep chunks.flatten).1.foldl handle s, (cutAt sep chunks.flatten).2) := by
  induction chunks using List.reverseRecOn with
  | nil => rfl
  | append_singleton chunks chunk ih =>
    rw [List.foldl_append, ih, List.flatten_append, List.flatten_singleton,
      cutAt_append hsep chunks.flatten, List.foldl_append]
    rfl

/-- Of a stream that breaks off, exactly the frames that are complete are read. -/
theorem cutAt_of_prefix (hsep : sep ≠ []) (hframes : ∀ frame ∈ frames, IsFrame sep frame)
    (h : as <+: framed sep frames) : ∃ n ≤ frames.length, (cutAt sep as).1 = frames.take n ∧
      ∀ m ≤ frames.length, framed sep (frames.take m) <+: as ↔ m ≤ n := by
  have hframed {frames : List (List α)} (hframes : ∀ frame ∈ frames, IsFrame sep frame) :
      cutAt sep (framed sep frames) = (frames, []) := foldl_cutOne_framed hsep hframes
  have hmono {as bs : List α} (h : as <+: bs) : (cutAt sep as).1 <+: (cutAt sep bs).1 := by
    obtain ⟨more, rfl⟩ := h
    rw [cutAt_append hsep]
    exact List.prefix_append _ _
  have htake := hmono h
  rw [hframed hframes] at htake
  refine ⟨(cutAt sep as).1.length, htake.length_le, List.prefix_iff_eq_take.1 htake,
    fun m hm => ⟨fun hpre => ?_, fun hle => ?_⟩⟩
  · have hlength := (hmono hpre).length_le
    rw [hframed fun f hf => hframes f (List.mem_of_mem_take hf)] at hlength
    simpa [hm] using hlength
  · obtain ⟨later, hlater⟩ := List.take_prefix_take_left (l := frames) hle
    rw [(cut_cutAt hsep as).eq, List.prefix_iff_eq_take.1 htake, ← hlater, framed_append,
      List.append_assoc]
    exact List.prefix_append _ _

end

end Pulse.Lib
