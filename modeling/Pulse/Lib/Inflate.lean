import Mathlib.Algebra.Ring.Int.Defs
import Mathlib.Data.List.Infix
import Mathlib.Tactic.Common
import Pulse.Lib.Except

/-!
# Decompression, piece by piece

A compression format by what a decoder makes of the octets that it has seen: the output so far,
and whether the first member has ended, may go on or is not valid. On it stand the content of all
members and the decompression object of zlib, which is fed one piece after another with a limit for
the output of each.
-/

namespace Pulse.Lib

abbrev Bytes := List UInt8

/-- What the octets so far are. -/
inductive Parse
  /-- The first member has ended before the rest. -/
  | ended (out rest : Bytes)
  /-- The first member is not at its end. -/
  | pending (out : Bytes)
  | corrupt (out : Bytes)
  deriving DecidableEq

/-- What is decoded before the end, or before the fault. -/
def Parse.out : Parse → Bytes
  | .ended out _ | .pending out | .corrupt out => out

/-- There is no fault in the octets. -/
def Parse.isValid : Parse → Bool
  | .corrupt _ => false
  | _ => true

/-- How a decoder goes on when there is more input. -/
structure Format where
  parse : Bytes → Parse
  nil : parse [] = .pending []
  ended : ∀ {d out rest}, parse d = .ended out rest → ∀ e, parse (d ++ e) = .ended out (rest ++ e)
  corrupt : ∀ {d out}, parse d = .corrupt out → ∀ e, parse (d ++ e) = .corrupt out
  pending : ∀ {d out}, parse d = .pending out → ∀ e, out <+: (parse (d ++ e)).out
  /-- A member is not empty. -/
  consumes : ∀ {d out rest}, parse d = .ended out rest → rest.length < d.length
  /-- The header of the first member is whole. -/
  header : Bytes → Bool
  header_of_ended : ∀ {d out rest}, parse d = .ended out rest → header d = true
  /-- Some input is left over when a piece of it has filled the output. -/
  unconsumed : Bytes → Nat → Bool

namespace Format

variable (z : Format)

lemma out_prefix (d e : Bytes) : (z.parse d).out <+: (z.parse (d ++ e)).out := by
  cases h : z.parse d with
  | ended out rest =>
    rw [z.ended h e]
    exact List.prefix_refl out
  | corrupt out =>
    rw [z.corrupt h e]
  | pending out => exact z.pending h e

lemma isValid_of_append {d e : Bytes} (h : (z.parse (d ++ e)).isValid = true) :
    (z.parse d).isValid = true := by
  cases hd : z.parse d with
  | ended out rest => rfl
  | pending out => rfl
  | corrupt out =>
    rw [z.corrupt hd e] at h
    cases h

end Format

/-! ### All members -/

/-- The input begins with the magic number of gzip. -/
def isGzip (raw : Bytes) : Bool := raw.take 2 = [0x1f, 0x8b]

/-- The input is a stream that ends, with this content. After a member of gzip there may be
others. -/
inductive Complete (z : Format) : Bytes → Bytes → Prop
  | last {raw out : Bytes} (h : z.parse raw = .ended out []) : Complete z raw out
  | more {raw rest out out' : Bytes} (hraw : isGzip raw = true) (hrest : isGzip rest = true)
      (h : z.parse raw = .ended out rest) (hcomplete : Complete z rest out') :
      Complete z raw (out ++ out')

namespace Complete

variable {z : Format} {raw rest out out' : Bytes}

/-- Of a stream that ends the first member does. -/
lemma cases_iff : Complete z raw out ↔ z.parse raw = .ended out [] ∨
    ∃ first rest out', isGzip raw = true ∧ isGzip rest = true ∧ z.parse raw = .ended first rest ∧
      Complete z rest out' ∧ out = first ++ out' := by
  constructor
  · rintro (h | ⟨hraw, hrest, h, hcomplete⟩)
    · exact .inl h
    · exact .inr ⟨_, _, _, hraw, hrest, h, hcomplete, rfl⟩
  · rintro (h | ⟨first, rest, out', hraw, hrest, h, hcomplete, rfl⟩)
    · exact .last h
    · exact .more hraw hrest h hcomplete

lemma header (h : Complete z raw out) : z.header raw = true := by
  cases h with
  | last h => exact z.header_of_ended h
  | more _ _ h _ => exact z.header_of_ended h

/-- A stream has one content. -/
lemma unique (h : Complete z raw out) (h' : Complete z raw out') : out = out' := by
  induction h generalizing out' with
  | last h =>
    obtain hlast | ⟨first, rest, rest', -, hrest, hmore, -⟩ := cases_iff.1 h'
    · rw [h, Parse.ended.injEq] at hlast
      exact hlast.1
    · rw [h, Parse.ended.injEq] at hmore
      rw [← hmore.2] at hrest
      cases hrest
  | more _ hrest h _ ih =>
    obtain hlast | ⟨first, rest, rest', -, -, hmore, hcomplete, rfl⟩ := cases_iff.1 h'
    · rw [h, Parse.ended.injEq] at hlast
      rw [hlast.2] at hrest
      cases hrest
    · rw [h, Parse.ended.injEq] at hmore
      obtain ⟨rfl, rfl⟩ := hmore
      rw [ih hcomplete]

end Complete

/-! ### The decompression object -/

inductive ZlibError
  /-- `zlib.error` -/
  | corrupt
  /-- The limit is negative (`ValueError`) or not a `Py_ssize_t` (`OverflowError`). -/
  | limit
  deriving DecidableEq

/-- What a decompression object was fed, and how much it has put out. -/
structure Decompressor where
  fed : Bytes := []
  delivered : Nat := 0

/-- What a call puts out, and whether it leaves some of its input. -/
structure Delivery where
  chunk : Bytes
  unconsumedTail : Bool
  next : Decompressor

/-- `dec.decompress(data, max_length)`; a limit of zero is none. -/
def Decompressor.decompress (z : Format) (dec : Decompressor) (data : Bytes) (maxLength : Int) :
    Except ZlibError Delivery :=
  let fed := dec.fed ++ data
  let available := (z.parse fed).out.drop dec.delivered
  if maxLength < 0 ∨ 2 ^ 63 ≤ maxLength then .error .limit
  else if maxLength = 0 ∨ available.length < maxLength then
    if (z.parse fed).isValid then
      .ok ⟨available, false, ⟨fed, dec.delivered + available.length⟩⟩
    else .error .corrupt
  else
    .ok ⟨available.take maxLength.toNat, z.unconsumed fed dec.delivered,
      ⟨fed, dec.delivered + maxLength.toNat⟩⟩

/-- `dec.flush()` -/
def Decompressor.flush (z : Format) (dec : Decompressor) : Except ZlibError Bytes :=
  if (z.parse dec.fed).isValid then .ok ((z.parse dec.fed).out.drop dec.delivered)
  else .error .corrupt

/-- With all of its output delivered, an object that is fed more puts out what is new. -/
lemma Decompressor.decompress_new {z : Format} {d data : Bytes} {maxLength : Int}
    (hpositive : 0 < maxLength) (hsize : maxLength < 2 ^ 63) :
    Decompressor.decompress z ⟨d, (z.parse d).out.length⟩ data maxLength =
      if (z.parse (d ++ data)).out.length < (z.parse d).out.length + maxLength then
        if (z.parse (d ++ data)).isValid then
          .ok ⟨(z.parse (d ++ data)).out.drop (z.parse d).out.length, false,
            ⟨d ++ data, (z.parse (d ++ data)).out.length⟩⟩
        else .error .corrupt
      else
        .ok ⟨((z.parse (d ++ data)).out.drop (z.parse d).out.length).take maxLength.toNat,
          z.unconsumed (d ++ data) (z.parse d).out.length,
          ⟨d ++ data, (z.parse d).out.length + maxLength.toNat⟩⟩ := by
  have hle := (z.out_prefix d data).length_le
  unfold Decompressor.decompress
  simp only [List.length_drop]
  rw [if_neg (by omega)]
  have hiff : (maxLength = 0 ∨
      (((z.parse (d ++ data)).out.length - (z.parse d).out.length : Nat) : Int) < maxLength) ↔
      ((z.parse (d ++ data)).out.length : Int) < (z.parse d).out.length + maxLength := by
    omega
  rw [if_congr hiff rfl rfl, Nat.add_sub_cancel' hle]

end Pulse.Lib
