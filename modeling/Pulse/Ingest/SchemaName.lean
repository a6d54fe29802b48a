import Mathlib.Data.List.Forall2
import Pulse.Db.Session
import Pulse.Lib.Runes

/-!
# The schema of a tenant in two languages

`schemaName` of `schema.go` makes small the bytes of a slug, and `org_schema` of `db/session.py` its
characters. They differ on the two characters outside ASCII whose small form is not outside of it.
-/

namespace Pulse.Ingest

open Db (Casing isIdentChar orDefault orgSchema)
open Lib (replaceRunes utf8 utf8_cons)

def lowerByte (c : UInt8) : UInt8 := if 65 ≤ c && c ≤ 90 then c + 32 else c

def toLowerASCII (s : List UInt8) : List UInt8 := s.map lowerByte

/-- `[^a-z0-9_]` -/
def nonSchemaChar (c : Char) : Bool := !isIdentChar c

def sanitizeSlug (slug : List UInt8) : List UInt8 :=
  let slug := if slug = [] then utf8 ['d', 'e', 'f', 'a', 'u', 'l', 't'] else slug
  replaceRunes nonSchemaChar (utf8 ['_']) (toLowerASCII slug)

def schemaName (slug : List UInt8) : List UInt8 := utf8 ['t', '_'] ++ sanitizeSlug slug

/-! ### Bytes and characters -/

lemma lowerByte_of_le {b : UInt8} (h : 128 ≤ b) : lowerByte b = b := by
  have hnot : ¬ (65 ≤ b && b ≤ 90) = true := by
    rw [UInt8.le_iff_toNat_le] at h
    simp only [Bool.and_eq_true, decide_eq_true_eq, UInt8.le_iff_toNat_le]
    intro hle
    exact absurd (h.trans hle.2) (by decide)
  rw [lowerByte, if_neg hnot]

lemma toLower_of_lt {c : Char} (h : 127 < c.val) : c.toLower = c := by
  have hnot : ¬ (c.val ≥ 'A'.val ∧ c.val ≤ 'Z'.val) := by
    intro hle
    exact absurd (UInt32.lt_of_lt_of_le h hle.2) (by decide)
  exact dif_neg hnot

lemma map_lowerByte_ascii : ∀ n < 128,
    (String.utf8EncodeChar (Char.ofNat n)).map lowerByte =
      String.utf8EncodeChar (Char.ofNat n).toLower := by
  decide

lemma map_lowerByte (c : Char) :
    (String.utf8EncodeChar c).map lowerByte = String.utf8EncodeChar c.toLower := by
  by_cases hc : c.val ≤ 127
  · have hlt : c.toNat < 128 := Nat.lt_succ_of_le (UInt32.le_iff_toNat_le.1 hc)
    have hmap := map_lowerByte_ascii c.toNat hlt
    rwa [Char.ofNat_toNat] at hmap
  · have hlt := UInt32.not_le.1 hc
    rw [toLower_of_lt hlt]
    exact (List.map_congr_left fun b hb =>
      lowerByte_of_le (Lib.le_of_mem_utf8EncodeChar hlt hb)).trans (List.map_id _)

lemma toLowerASCII_utf8 (cs : List Char) : toLowerASCII (utf8 cs) = utf8 (cs.map Char.toLower) := by
  induction cs with
  | nil => rfl
  | cons c cs ih =>
    rw [utf8_cons, List.map_cons, utf8_cons, ← ih, ← map_lowerByte]
    exact List.map_append

/-- What both languages make of one character in the end. -/
def sanitizeChar (c : Char) : Char := if isIdentChar c then c else '_'

lemma replaceRunes_nonSchemaChar (cs : List Char) :
    replaceRunes nonSchemaChar (utf8 ['_']) (utf8 cs) = utf8 (cs.map sanitizeChar) := by
  rw [Lib.replaceRunes_utf8]
  change _ = (cs.map sanitizeChar).flatMap String.utf8EncodeChar
  rw [List.flatMap_map]
  congr 1
  funext c
  unfold sanitizeChar nonSchemaChar
  cases isIdentChar c
  · rfl
  · rfl

/-- The name as a text: character by character, with the letters of ASCII made small. -/
lemma schemaName_utf8 (slug : String) :
    schemaName (utf8 slug.toList) =
      utf8 (['t', '_'] ++ (orDefault slug).toList.map (sanitizeChar ∘ Char.toLower)) := by
  have hslug : (if utf8 slug.toList = [] then utf8 ['d', 'e', 'f', 'a', 'u', 'l', 't']
      else utf8 slug.toList) = utf8 (orDefault slug).toList := by
    have hempty : utf8 slug.toList = [] ↔ slug = "" := by
      rw [← String.toList_eq_nil_iff]
      exact ⟨fun h => Lib.utf8_injective h, fun h => by rw [h]; rfl⟩
    unfold orDefault
    split_ifs with h h' h'
    · rfl
    · exact absurd (hempty.1 h) h'
    · exact absurd (hempty.2 h') h
    · rfl
  unfold schemaName sanitizeSlug
  dsimp only
  rw [hslug, toLowerASCII_utf8, replaceRunes_nonSchemaChar, List.map_map, ← Lib.utf8_append]

/-! ### The same name -/

def kelvinSign : Char := '\u212A'

def dottedI : Char := '\u0130'

/-- What `str.lower` makes of a character: the tables have one small form for each, except that
`dottedI` has two characters; outside of ASCII only the small form of `kelvinSign` is in it. -/
inductive LowersTo : Char → List Char → Prop
  | ascii {c : Char} (h : c.val ≤ 127) : LowersTo c [c.toLower]
  | kelvin : LowersTo kelvinSign ['k']
  | dotted : LowersTo dottedI ['i', '\u0307']
  | other {c d : Char} (hc : 127 < c.val) (hkelvin : c ≠ kelvinSign) (hdotted : c ≠ dottedI)
      (hd : 127 < d.val) : LowersTo c [d]

def DocumentedLower (py : Casing) : Prop :=
  ∀ s, ∃ parts, List.Forall₂ LowersTo s.toList parts ∧ (py.lower s).toList = parts.flatten

lemma sanitizeChar_of_lt {c : Char} (h : 127 < c.val) : sanitizeChar c = '_' := by
  have hle {d : Char} (hd : d.val ≤ 127) : ¬ c ≤ d := fun hcd =>
    UInt32.not_le.2 h (UInt32.le_trans hcd hd)
  have hne : c ≠ '_' := by
    rintro rfl
    exact absurd h (by decide)
  have hident : isIdentChar c = false := by
    unfold isIdentChar
    rw [decide_eq_false (hle (d := 'z') (by decide)), decide_eq_false (hle (d := '9') (by decide)),
      decide_eq_false hne, Bool.and_false, Bool.and_false]
    rfl
  rw [sanitizeChar, hident]
  rfl

lemma mem_orDefault {c : Char} (hc : 127 < c.val) (slug : String) :
    c ∈ (orDefault slug).toList ↔ c ∈ slug.toList := by
  unfold orDefault
  split_ifs with h
  · have hlist : Db.defaultOrg.toList = ['d', 'e', 'f', 'a', 'u', 'l', 't'] := rfl
    rw [h, hlist]
    refine iff_of_false (fun hmem => ?_) List.not_mem_nil
    simp only [List.mem_cons, List.not_mem_nil, or_false] at hmem
    rcases hmem with rfl | rfl | rfl | rfl | rfl | rfl | rfl
    all_goals exact absurd hc (by decide)
  · rfl

lemma map_sanitizeChar_eq_iff {cs : List Char} {parts : List (List Char)}
    (h : List.Forall₂ LowersTo cs parts) :
    cs.map (sanitizeChar ∘ Char.toLower) = parts.flatten.map sanitizeChar ↔
      kelvinSign ∉ cs ∧ dottedI ∉ cs := by
  induction h with
  | nil => simp
  | @cons c part cs parts hpart _ ih =>
    rw [List.map_cons, List.flatten_cons, List.map_append, Function.comp_apply, List.mem_cons,
      List.mem_cons, not_or, not_or]
    cases hpart with
    | ascii hc =>
      have hkelvin : kelvinSign ≠ c := by
        rintro rfl
        exact absurd hc (by decide)
      have hdotted : dottedI ≠ c := by
        rintro rfl
        exact absurd hc (by decide)
      rw [List.map_singleton, List.singleton_append, List.cons_inj_right, ih]
      tauto
    | kelvin =>
      apply iff_of_false
      · intro h
        exact absurd (List.head_eq_of_cons_eq h) (by decide)
      · exact fun h => h.1.1 rfl
    | dotted =>
      apply iff_of_false
      · intro h
        exact absurd (List.head_eq_of_cons_eq h) (by decide)
      · exact fun h => h.2.1 rfl
    | other hc hkelvin hdotted hd =>
      rw [List.map_singleton, List.singleton_append, sanitizeChar_of_lt hd, toLower_of_lt hc,
        sanitizeChar_of_lt hc, List.cons_inj_right, ih]
      have hkelvin := hkelvin.symm
      have hdotted := hdotted.symm
      tauto

/-- Both services name the same schema exactly for the slugs without the two characters. -/
theorem schemaName_eq_orgSchema_iff {py : Casing} (hpy : DocumentedLower py) (slug : String) :
    schemaName (utf8 slug.toList) = utf8 (orgSchema py slug) ↔
      kelvinSign ∉ slug.toList ∧ dottedI ∉ slug.toList := by
  obtain ⟨parts, hparts, hlower⟩ := hpy (orDefault slug)
  have horg : orgSchema py slug = ['t', '_'] ++ parts.flatten.map sanitizeChar := by
    unfold orgSchema Db.sanitize
    rw [hlower]
    rfl
  rw [schemaName_utf8, horg, Lib.utf8_injective.eq_iff, List.append_cancel_left_eq,
    map_sanitizeChar_eq_iff hparts, mem_orDefault (by decide), mem_orDefault (by decide)]

/-- Small forms inside ASCII; the other characters stay, as those of a script with one case do. -/
def lowerChar (c : Char) : List Char :=
  if c = kelvinSign then ['k'] else if c = dottedI then ['i', '\u0307'] else [c.toLower]

def plainCasing : Casing where
  lower s := String.ofList (s.toList.flatMap lowerChar)
  capitalize s := s

lemma lowersTo_lowerChar (c : Char) : LowersTo c (lowerChar c) := by
  unfold lowerChar
  split_ifs with hkelvin hdotted
  · exact hkelvin ▸ .kelvin
  · exact hdotted ▸ .dotted
  · by_cases hc : c.val ≤ 127
    · exact .ascii hc
    · have hlt := UInt32.not_le.1 hc
      rw [toLower_of_lt hlt]
      exact .other hlt hkelvin hdotted hlt

lemma plainCasing_documented : DocumentedLower plainCasing := by
  intro s
  refine ⟨s.toList.map lowerChar, List.forall₂_map_right_iff.2 ?_, ?_⟩
  · exact List.forall₂_same.2 fun c _ => lowersTo_lowerChar c
  · rw [plainCasing, String.toList_ofList]
    rfl

theorem schemaName_eq_orgSchema_plain :
    schemaName (utf8 "Acme \u6771\u4eac".toList) = utf8 (orgSchema plainCasing "Acme \u6771\u4eac") :=
  (schemaName_eq_orgSchema_iff plainCasing_documented "Acme \u6771\u4eac").2 (by decide +kernel)

/-- The sign of the kelvin is replaced in the receiver; in the consumer it is a letter. -/
theorem schemaName_kelvin :
    ¬ ∀ slug : String, schemaName (utf8 slug.toList) = utf8 (orgSchema plainCasing slug) := by
  intro h
  have hkelvin : orgSchema plainCasing "\u212A" = ['t', '_', 'k'] := by decide +kernel
  have hname : utf8 ['t', '_', '_'] = utf8 ['t', '_', 'k'] := by
    rw [← hkelvin, ← h, schemaName_utf8]
    decide +kernel
  exact absurd (Lib.utf8_injective hname) (by decide)

end Pulse.Ingest
