import Pulse.Lib.Urls

/-!
# Bytes read as runes

A byte string read one rune after the other: the character that is encoded at its head, or the
replacement character for a byte that begins none.
-/

namespace Pulse.Lib

def replacementChar : Char := '\uFFFD'

/-- The rune at the head of a byte string that is not empty, and its width. -/
def decodeRune (bytes : List UInt8) : Char × Nat :=
  match bytes.toByteArray.utf8DecodeChar? 0 with
  | some c => (c, c.utf8Size)
  | none => (replacementChar, 1)

lemma decodeRune_append (c : Char) (rest : List UInt8) :
    decodeRune (String.utf8EncodeChar c ++ rest) = (c, c.utf8Size) := by
  unfold decodeRune
  rw [List.toByteArray_append, ByteArray.utf8DecodeChar?_utf8EncodeChar_append]

theorem utf8_injective : Function.Injective utf8 := by
  intro cs
  induction cs with
  | nil =>
    intro ds h
    cases ds with
    | nil => rfl
    | cons d ds =>
      rw [utf8_cons] at h
      exact absurd (List.append_eq_nil_iff.1 h.symm).1 String.utf8EncodeChar_ne_nil
  | cons c cs ih =>
    intro ds h
    cases ds with
    | nil =>
      rw [utf8_cons] at h
      exact absurd (List.append_eq_nil_iff.1 h).1 String.utf8EncodeChar_ne_nil
    | cons d ds =>
      rw [utf8_cons, utf8_cons] at h
      have hrune := congrArg decodeRune h
      rw [decodeRune_append, decodeRune_append] at hrune
      have hhead : c = d := congrArg Prod.fst hrune
      subst hhead
      rw [ih (List.append_cancel_left h)]

/-- Every rune of the class is replaced; the bytes of the others stay. -/
def replaceRunes (matched : Char → Bool) (repl : List UInt8) : List UInt8 → List UInt8
  | [] => []
  | b :: bs =>
    let (c, width) := decodeRune (b :: bs)
    (if matched c then repl else (b :: bs).take width) ++
      replaceRunes matched repl (bs.drop (width - 1))
  termination_by bytes => bytes.length
  decreasing_by
    rw [List.length_drop, List.length_cons]
    omega

/-- On encoded text the runes are its characters. -/
theorem replaceRunes_utf8 (matched : Char → Bool) (repl : List UInt8) (cs : List Char) :
    replaceRunes matched repl (utf8 cs) =
      cs.flatMap fun c => if matched c then repl else String.utf8EncodeChar c := by
  induction cs with
  | nil =>
    rw [utf8, List.flatMap_nil, List.flatMap_nil, replaceRunes]
  | cons c cs ih =>
    have hlength := String.length_utf8EncodeChar c
    rw [utf8_cons, List.flatMap_cons, ← ih]
    cases hbytes : String.utf8EncodeChar c with
    | nil => exact absurd hbytes String.utf8EncodeChar_ne_nil
    | cons b bs =>
      have hrune := decodeRune_append c (utf8 cs)
      rw [hbytes, List.length_cons] at hlength
      rw [hbytes, List.cons_append] at hrune
      have htake : (b :: (bs ++ utf8 cs)).take c.utf8Size = b :: bs := by
        rw [← hlength, List.take_succ_cons, List.take_left]
      have hdrop : (bs ++ utf8 cs).drop (c.utf8Size - 1) = utf8 cs := by
        rw [← hlength, Nat.add_sub_cancel, List.drop_left]
      rw [List.cons_append, replaceRunes, hrune]
      dsimp only
      rw [htake, hdrop]

/-! ### The bytes of one character -/

lemma le_or_of_le {k b : UInt8} (h : 128 ≤ k) (a : UInt8) (hb : b = a ||| k) : 128 ≤ b := by
  rw [hb, UInt8.le_iff_toNat_le, UInt8.toNat_or]
  rw [UInt8.le_iff_toNat_le] at h
  exact h.trans Nat.right_le_or

/-- No byte of a character that is not ASCII is ASCII. -/
theorem le_of_mem_utf8EncodeChar {c : Char} (hc : 127 < c.val) {b : UInt8}
    (hb : b ∈ String.utf8EncodeChar c) : 128 ≤ b := by
  obtain h | h | h | h := c.utf8Size_eq
  · rw [Char.utf8Size_eq_one_iff] at h
    exact absurd h (UInt32.not_le.2 hc)
  · rw [String.utf8EncodeChar_eq_cons_cons h] at hb
    simp only [List.mem_cons, List.not_mem_nil, or_false] at hb
    obtain hb | hb := hb <;> exact le_or_of_le (by decide) _ hb
  · rw [String.utf8EncodeChar_eq_cons_cons_cons h] at hb
    simp only [List.mem_cons, List.not_mem_nil, or_false] at hb
    obtain hb | hb | hb := hb <;> exact le_or_of_le (by decide) _ hb
  · rw [String.utf8EncodeChar_eq_cons_cons_cons_cons h] at hb
    simp only [List.mem_cons, List.not_mem_nil, or_false] at hb
    obtain hb | hb | hb | hb := hb <;> exact le_or_of_le (by decide) _ hb

end Pulse.Lib
