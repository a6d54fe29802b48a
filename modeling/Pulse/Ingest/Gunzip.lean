import Mathlib.Algebra.Ring.Nat
import Pulse.Util.Safety

/-!
# The two receivers decompress

`gunzip` of `otlp.go` reads the members of a gzip body one after another up to the end of the last;
`bounded_gunzip` stops at the end of the first and takes a body that ends sooner as it is. Which
bodies the two take for the same content.
-/

namespace Pulse.Ingest

open Lib (Bytes Parse Format Complete isGzip)
open Util (Admits boundedGunzip)

variable (z : Format)

/-- What a `gzip.Reader` reads, and whether it comes to the end of a last member. -/
def members (raw : Bytes) : Bytes × Bool :=
  if isGzip raw then
    match _h : z.parse raw with
    | .ended out rest =>
      if rest = [] then (out, true)
      else
        let more := members rest
        (out ++ more.1, more.2)
    | .pending out => (out, false)
    | .corrupt out => (out, false)
  else ([], false)
termination_by raw.length
decreasing_by exact z.consumes _h

inductive BodyError
  /-- `errBadBody` -/
  | badBody
  /-- `errTooLarge` -/
  | tooLarge
  deriving DecidableEq

/-- A number is an `int64`. -/
def IsInt64 (n : Int) : Prop := -2 ^ 63 ≤ n ∧ n < 2 ^ 63

/-- `gunzip` of `otlp.go`; the sum `limit + 1` is one of `int64`. -/
def gunzip (b : Bytes) (limit : Int) : Except BodyError Bytes :=
  if isGzip b ∧ z.header b then
    let out := (members z b).1
    let whole := (members z b).2
    if limit ≤ 0 then
      if whole then .ok out else .error .badBody
    else
      let n := (limit + 1).bmod (2 ^ 64)
      if out.length < n ∧ whole = false then .error .badBody
      else if limit < (out.take n.toNat).length then .error .tooLarge
      else .ok (out.take n.toNat)
  else .error .badBody

/-! ### What the Go receiver takes -/

variable {z}

/-- The members are read to their end when the input is a complete stream. -/
lemma members_eq_iff {raw b : Bytes} :
    members z raw = (b, true) ↔ isGzip raw = true ∧ Complete z raw b := by
  induction hn : raw.length using Nat.strong_induction_on generalizing raw b with
  | _ n ih =>
    rw [members]
    by_cases hgzip : isGzip raw = true
    · rw [if_pos hgzip, and_iff_right hgzip, Complete.cases_iff]
      split
      · rename_i out rest h
        have hlt := z.consumes h
        by_cases hrest : rest = []
        · subst hrest
          rw [if_pos rfl, Prod.mk.injEq, and_iff_left rfl]
          constructor
          · rintro rfl
            exact .inl h
          · rintro (hlast | ⟨first, rest, out', -, hrest, hmore, -⟩)
            · rw [h, Parse.ended.injEq] at hlast
              exact hlast.1
            · rw [h, Parse.ended.injEq] at hmore
              rw [← hmore.2] at hrest
              cases hrest
        · rw [if_neg hrest]
          have ih' := @ih rest.length (by omega) rest (members z rest).1 rfl
          constructor
          · intro hb
            rw [Prod.mk.injEq] at hb
            obtain ⟨rfl, hwhole⟩ := hb
            obtain ⟨hmagic, hcomplete⟩ := ih'.1 (Prod.ext rfl hwhole)
            exact .inr ⟨out, rest, _, hgzip, hmagic, h, hcomplete, rfl⟩
          · rintro (hlast | ⟨first, rest', out', -, hmagic, hmore, hcomplete, rfl⟩)
            · rw [h, Parse.ended.injEq] at hlast
              exact absurd hlast.2 hrest
            · rw [h, Parse.ended.injEq] at hmore
              obtain ⟨rfl, rfl⟩ := hmore
              rw [(ih rest.length (by omega) rfl).2 ⟨hmagic, hcomplete⟩]
      · rename_i out h
        simp [h]
      · rename_i out h
        simp [h]
    · rw [if_neg hgzip]
      simp [hgzip]

/-- Below the largest `int64` the ceiling is one, and zero or less is none. -/
lemma gunzip_eq_ok_iff {raw b : Bytes} {limit : Int} (hsize : limit + 1 < 2 ^ 63) :
    gunzip z raw limit = .ok b ↔
      isGzip raw = true ∧ Complete z raw b ∧ (limit ≤ 0 ∨ (b.length : Int) ≤ limit) := by
  rw [← and_assoc, ← members_eq_iff]
  unfold gunzip
  by_cases hopen : isGzip raw = true ∧ z.header raw = true
  · rw [if_pos hopen]
    obtain ⟨out, whole⟩ := members z raw
    dsimp only
    by_cases hpositive : limit ≤ 0
    · rw [if_pos hpositive]
      cases whole <;> simp [hpositive]
    · have hbmod : (limit + 1).bmod (2 ^ 64) = limit + 1 := by
        rw [Int.bmod_def]
        omega
      rw [if_neg hpositive, hbmod]
      cases whole with
      | false =>
        refine iff_of_false (fun h => ?_) fun h => by cases h.1
        by_cases hshort : (out.length : Int) < limit + 1
        · rw [if_pos ⟨hshort, rfl⟩] at h
          cases h
        · rw [if_neg fun hand => hshort hand.1, if_pos] at h
          · cases h
          · rw [List.length_take]
            omega
      | true =>
        rw [if_neg fun hand => by cases hand.2]
        by_cases hlong : limit < out.length
        · rw [if_pos]
          · refine iff_of_false nofun ?_
            rintro ⟨hb, hor⟩
            cases hb
            omega
          · rw [List.length_take]
            omega
        · rw [List.take_of_length_le (by omega), if_neg hlong, Except.ok.injEq, Prod.mk.injEq,
            and_iff_left rfl]
          constructor
          · rintro rfl
            exact ⟨rfl, .inr (by omega)⟩
          · exact fun h => h.1
  · rw [if_neg hopen]
    refine iff_of_false nofun fun h => hopen ?_
    obtain ⟨hgzip, hcomplete⟩ := members_eq_iff.1 h.1
    exact ⟨hgzip, hcomplete.header⟩

/-- At the largest `int64` the ceiling wraps, and nothing is read. -/
lemma gunzip_max {raw b : Bytes} {limit : Int} (hsize : limit + 1 = 2 ^ 63) :
    gunzip z raw limit = .ok b ↔ (isGzip raw = true ∧ z.header raw = true) ∧ b = [] := by
  obtain rfl : limit = 2 ^ 63 - 1 := by omega
  unfold gunzip
  by_cases hopen : isGzip raw = true ∧ z.header raw = true
  · have hbmod : ((2 ^ 63 - 1 : Int) + 1).bmod (2 ^ 64) = -2 ^ 63 := by decide
    rw [if_pos hopen, and_iff_right hopen]
    dsimp only
    rw [if_neg (by decide), hbmod, if_neg (by omega)]
    simp [eq_comm]
  · rw [if_neg hopen]
    exact iff_of_false nofun fun h => hopen h.1

/-! ### Where the two agree -/

/-- What decompression takes for the content is the content: the input does not end within a member
whose output so far would do, and after the first member there are at most empty ones. -/
structure Whole (z : Format) (raw : Bytes) (limit : Int) : Prop where
  notShort : ∀ {out}, z.parse raw = .pending out → ¬Admits raw limit out
  nothingAfter : ∀ {out rest}, z.parse raw = .ended out rest → Admits raw limit out → rest ≠ [] →
    isGzip raw = true ∧ isGzip rest = true ∧ Complete z rest []

/-- The limit does not tell the receivers apart, and neither does the format. -/
structure SameBodies (z : Format) (raw : Bytes) (limit : Int) : Prop where
  /-- The Go receiver does not take the format of zlib. -/
  notZlib : ∀ {out rest}, z.parse raw = .ended out rest → Admits raw limit out →
    isGzip raw = true
  /-- To the Go receiver a limit of zero or less is none. -/
  ceiling : limit ≤ 0 → isGzip raw = true → ∀ {b}, Complete z raw b → (b.length : Int) ≤ limit
  wraps : limit + 1 = 2 ^ 63 → ¬(isGzip raw = true ∧ z.header raw = true)

lemma Whole.complete {raw b : Bytes} {limit : Int} (h : Whole z raw limit)
    (hok : boundedGunzip z raw limit = .ok b) :
    Complete z raw b ∧ (b.length : Int) ≤ limit := by
  obtain ⟨hvalid, hadmits, rfl⟩ := Util.boundedGunzip_eq_ok_iff.1 hok
  refine ⟨?_, hadmits.1⟩
  cases hparse : z.parse raw with
  | corrupt out =>
    rw [hparse] at hvalid
    cases hvalid
  | pending out =>
    rw [hparse] at hadmits
    exact absurd hadmits (h.notShort hparse)
  | ended out rest =>
    rw [hparse] at hadmits
    by_cases hrest : rest = []
    · subst hrest
      exact .last hparse
    · obtain ⟨hraw, hmagic, hcomplete⟩ := h.nothingAfter hparse hadmits hrest
      have hmore := Complete.more hraw hmagic hparse hcomplete
      rwa [List.append_nil] at hmore

lemma boundedGunzip_ended {raw out rest : Bytes} {limit : Int}
    (hparse : z.parse raw = .ended out rest) (hadmits : Admits raw limit out) :
    boundedGunzip z raw limit = .ok out := by
  rw [Util.boundedGunzip_eq_ok_iff, hparse]
  exact ⟨rfl, hadmits, rfl⟩

lemma boundedGunzip_pending {raw out : Bytes} {limit : Int}
    (hparse : z.parse raw = .pending out) (hadmits : Admits raw limit out) :
    boundedGunzip z raw limit = .ok out := by
  rw [Util.boundedGunzip_eq_ok_iff, hparse]
  exact ⟨rfl, hadmits, rfl⟩

section

variable {raw : Bytes} {limit : Int}

lemma whole_of_complete
    (hfull : ∀ b, boundedGunzip z raw limit = .ok b → Complete z raw b ∧ (b.length : Int) ≤ limit) :
    Whole z raw limit := by
  refine ⟨fun {out} hparse hadmits => ?_, fun {out rest} hparse hadmits hrest => ?_⟩
  · obtain ⟨hcomplete, -⟩ := hfull out (boundedGunzip_pending hparse hadmits)
    obtain h | ⟨first, rest, out', -, -, h, -⟩ := Complete.cases_iff.1 hcomplete <;>
      rw [hparse] at h <;> cases h
  · obtain ⟨hcomplete, -⟩ := hfull out (boundedGunzip_ended hparse hadmits)
    obtain h | ⟨first, rest', out', hraw, hmagic, h, hcomplete, hout⟩ :=
      Complete.cases_iff.1 hcomplete
    · rw [hparse, Parse.ended.injEq] at h
      exact absurd h.2 hrest
    · rw [hparse, Parse.ended.injEq] at h
      obtain ⟨rfl, rfl⟩ := h
      rw [List.self_eq_append_right] at hout
      rw [hout] at hcomplete
      exact ⟨hraw, hmagic, hcomplete⟩

lemma sameBodies_of_iff (hint : IsInt64 limit)
    (hfull : ∀ b, boundedGunzip z raw limit = .ok b → Complete z raw b ∧ (b.length : Int) ≤ limit)
    (hsame : ∀ b, boundedGunzip z raw limit = .ok b ↔ gunzip z raw limit = .ok b) :
    SameBodies z raw limit := by
  refine ⟨fun {out rest} hparse hadmits => ?_, fun hzero hraw b hcomplete => ?_,
    fun hsize hopen => ?_⟩
  · have hok := (hsame out).1 (boundedGunzip_ended hparse hadmits)
    by_cases hsize : limit + 1 < 2 ^ 63
    · exact ((gunzip_eq_ok_iff hsize).1 hok).1
    · have hlt := hint.2
      exact ((gunzip_max (by omega)).1 hok).1.1
  · have hok := (hsame b).2 ((gunzip_eq_ok_iff (by omega)).2 ⟨hraw, hcomplete, .inl hzero⟩)
    exact (hfull b hok).2
  · have hok := (hsame []).2 ((gunzip_max hsize).2 ⟨hopen, rfl⟩)
    obtain hnil | hlt := (Util.boundedGunzip_eq_ok_iff.1 hok).2.1.2
    · rw [hnil] at hopen
      cases hopen.1
    · omega

lemma Whole.gunzip_iff (hwhole : Whole z raw limit) (hint : IsInt64 limit)
    (hsame : SameBodies z raw limit) (b : Bytes) :
    boundedGunzip z raw limit = .ok b ↔ gunzip z raw limit = .ok b := by
  have hlt := hint.2
  by_cases hsize : limit + 1 < 2 ^ 63
  · rw [gunzip_eq_ok_iff hsize]
    constructor
    · intro hok
      obtain ⟨hcomplete, hlimit⟩ := hwhole.complete hok
      obtain ⟨-, hadmits, -⟩ := Util.boundedGunzip_eq_ok_iff.1 hok
      refine ⟨?_, hcomplete, .inr hlimit⟩
      obtain h | ⟨first, rest, out', hraw, -⟩ := Complete.cases_iff.1 hcomplete
      · rw [h] at hadmits
        exact hsame.notZlib h hadmits
      · exact hraw
    · rintro ⟨hraw, hcomplete, hor⟩
      have hlimit : (b.length : Int) ≤ limit :=
        hor.elim (fun hzero => hsame.ceiling hzero hraw hcomplete) id
      obtain ⟨first, rest, hparse, hle⟩ :
          ∃ first rest, z.parse raw = .ended first rest ∧ first.length ≤ b.length := by
        obtain h | ⟨first, rest, out', -, -, h, -, rfl⟩ := Complete.cases_iff.1 hcomplete
        · exact ⟨b, [], h, le_rfl⟩
        · exact ⟨first, rest, h, by simp⟩
      have hadmits : Admits raw limit first := ⟨by omega, .inr hsize⟩
      have hok := boundedGunzip_ended hparse hadmits
      rw [hcomplete.unique (hwhole.complete hok).1]
      exact hok
  · rw [gunzip_max (by omega)]
    refine iff_of_false (fun hok => ?_) fun h => hsame.wraps (by omega) h.1
    obtain ⟨-, hadmits, -⟩ := Util.boundedGunzip_eq_ok_iff.1 hok
    obtain hnil | hlt' := hadmits.2
    · subst hnil
      rw [z.nil] at hadmits
      exact hwhole.notShort z.nil hadmits
    · exact hsize hlt'

end

/-- Decompression returns the content of a complete stream or raises, and the receivers take the
same bodies for the same content, exactly when the input is whole and they read it alike. -/
theorem boundedGunzip_whole_iff (z : Format) (raw : Bytes) (limit : Int) :
    ((∀ b, boundedGunzip z raw limit = .ok b → Complete z raw b ∧ (b.length : Int) ≤ limit) ∧
        (IsInt64 limit → ∀ b, boundedGunzip z raw limit = .ok b ↔ gunzip z raw limit = .ok b)) ↔
      Whole z raw limit ∧ (IsInt64 limit → SameBodies z raw limit) := by
  constructor
  · rintro ⟨hfull, hsame⟩
    exact ⟨whole_of_complete hfull, fun hint => sameBodies_of_iff hint hfull (hsame hint)⟩
  · rintro ⟨hwhole, hsame⟩
    exact ⟨fun b => hwhole.complete, fun hint => hwhole.gunzip_iff hint (hsame hint)⟩

/-! ### A short body -/

/-- A format with one stream, whose content comes with its first `k` octets. -/
def oneMember (member out : Bytes) (k : Nat) (hk : 0 < k) (hmember : member ≠ []) : Format where
  parse d :=
    if member <+: d then .ended out (d.drop member.length)
    else if d <+: member then .pending (if member.take k <+: d then out else [])
    else .corrupt (if member.take k <+: d then out else [])
  nil := by
    have htake : ¬member.take k <+: [] := by
      rw [List.prefix_nil, List.take_eq_nil_iff]
      exact fun h => h.elim (by omega) hmember
    rw [if_neg fun h => hmember (List.prefix_nil.1 h), if_pos List.nil_prefix, if_neg htake]
  ended {d out rest} h e := by
    split at h
    · next hstarts =>
      cases h
      rw [if_pos (hstarts.trans (List.prefix_append d e)),
        List.drop_append_of_le_length hstarts.length_le]
    · split at h <;> cases h
  corrupt {d out} h e := by
    split at h
    · cases h
    split at h
    · cases h
    · next hended hpending =>
      have hmember : ¬member <+: d ++ e := fun h =>
        (List.prefix_or_prefix_of_prefix h (List.prefix_append d e)).elim hended hpending
      have hd : ¬d ++ e <+: member := fun h => hpending ((List.prefix_append d e).trans h)
      have htake : member.take k <+: d ++ e ↔ member.take k <+: d :=
        ⟨fun h => (List.prefix_or_prefix_of_prefix h (List.prefix_append d e)).elim id fun h =>
          absurd (h.trans (List.take_prefix k member)) hpending,
          fun h => h.trans (List.prefix_append d e)⟩
      rw [if_neg hmember, if_neg hd, if_congr htake rfl rfl, h]
  pending {d out'} h e := by
    split at h
    · cases h
    split at h
    · cases h
      by_cases htake : member.take k <+: d
      · have htake' := htake.trans (List.prefix_append d e)
        rw [if_pos htake, if_pos htake']
        split
        · exact List.prefix_refl out
        · split <;> exact List.prefix_refl out
      · rw [if_neg htake]
        exact List.nil_prefix
    · cases h
  consumes {d out rest} h := by
    split at h
    · next hstarts =>
      cases h
      have hle := hstarts.length_le
      have hpos := List.length_pos_iff.2 hmember
      rw [List.length_drop]
      omega
    · split at h <;> cases h
  header d := member.take 10 <+: d
  header_of_ended {d out rest} h := by
    split at h
    · next hstarts =>
      exact decide_eq_true ((List.take_prefix 10 member).trans hstarts)
    · split at h <;> cases h
  unconsumed _ _ := false

/-- What gzip makes of an empty object. -/
def emptyObject : Bytes :=
  [31, 139, 8, 0, 0, 0, 0, 0, 2, 255, 171, 174, 5, 0, 67, 191, 166, 163, 2, 0, 0, 0]

/-- The object is returned whole when the last octet of its length is missing. -/
theorem short_body_taken :
    ¬∀ b, boundedGunzip (oneMember emptyObject [0x7b, 0x7d] 13 (by decide) (by decide))
        (emptyObject.take 21) 268435456 = .ok b →
      Complete (oneMember emptyObject [0x7b, 0x7d] 13 (by decide) (by decide))
        (emptyObject.take 21) b ∧ (b.length : Int) ≤ 268435456 := by
  intro h
  have hparse : (oneMember emptyObject [0x7b, 0x7d] 13 (by decide) (by decide)).parse
      (emptyObject.take 21) = .pending [0x7b, 0x7d] := by decide
  obtain ⟨hcomplete, -⟩ := h _ (boundedGunzip_pending hparse ⟨by decide, .inr (by decide)⟩)
  obtain h | ⟨first, rest, out', -, -, h, -⟩ := Complete.cases_iff.1 hcomplete <;>
    rw [hparse] at h <;> cases h

end Pulse.Ingest
