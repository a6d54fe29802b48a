import Mathlib.Data.List.TakeWhile
import Mathlib.Tactic.Common

/-!
# URLs

A URL as the usual standard library splits it, over lists of characters, and the octets that a
server reads of a path. The checks of a network location that is no plain name are left out.
-/

namespace Pulse.Lib

/-! ### Splitting -/

structure SplitResult where
  scheme : List Char
  netloc : List Char
  path : List Char
  query : List Char
  fragment : List Char
  deriving DecidableEq

def isSchemeChar (c : Char) : Bool := c.isAlphanum || c = '+' || c = '-' || c = '.'

def isScheme : List Char → Bool
  | [] => false
  | c :: cs => c.isAlpha && cs.all isSchemeChar

/-- The characters that are removed from a URL before it is read. -/
def isRemoved (c : Char) : Bool := c = '\t' || c = '\r' || c = '\n'

/-- Where a network location ends. -/
def endsNetloc (c : Char) : Bool := c = '/' || c = '?' || c = '#'

def splitScheme (url : List Char) : List Char × List Char :=
  let s := url.takeWhile (· ≠ ':')
  if isScheme s then
    match url.dropWhile (· ≠ ':') with
    | _ :: rest => (s.map Char.toLower, rest)
    | [] => ([], url)
  else ([], url)

def splitNetloc : List Char → List Char × List Char
  | '/' :: '/' :: rest => (rest.takeWhile (!endsNetloc ·), rest.dropWhile (!endsNetloc ·))
  | url => ([], url)

/-- What is before the first separator, and what is after it. -/
def splitFirst (sep : Char) (cs : List Char) : List Char × List Char :=
  (cs.takeWhile (· ≠ sep), (cs.dropWhile (· ≠ sep)).drop 1)

def urlsplit (url : List Char) : SplitResult :=
  let url := (url.dropWhile (·.toNat ≤ 0x20)).filter (!isRemoved ·)
  let (scheme, url) := splitScheme url
  let (netloc, url) := splitNetloc url
  let (url, fragment) := splitFirst '#' url
  let (path, query) := splitFirst '?' url
  { scheme := scheme, netloc := netloc, path := path, query := query, fragment := fragment }

/-- Where a path ends. -/
def endsPath (c : Char) : Bool := c = '#' || c = '?'

/-- What a path becomes that is written into a URL as it is. -/
def plainPath (cs : List Char) : List Char :=
  (cs.filter (!isRemoved ·)).takeWhile (!endsPath ·)

/-- The character stands for itself in a path. -/
def isPlain (c : Char) : Bool := !isRemoved c && !endsPath c

lemma plainPath_sublist (cs : List Char) : (plainPath cs).Sublist cs :=
  (List.takeWhile_sublist _).trans List.filter_sublist

lemma plainPath_append {cs : List Char} (h : ∀ c ∈ cs, isPlain c = true) (ds : List Char) :
    plainPath (cs ++ ds) = cs ++ plainPath ds := by
  simp only [isPlain, Bool.and_eq_true] at h
  have hfilter : cs.filter (!isRemoved ·) = cs := List.filter_eq_self.2 fun c hc => (h c hc).1
  unfold plainPath
  rw [List.filter_append, hfilter, List.takeWhile_append_of_pos fun c hc => (h c hc).2]

/-- A query that follows takes nothing more away. -/
lemma plainPath_append_query (cs query : List Char) :
    plainPath (cs ++ '?' :: query) = plainPath cs := by
  have hquery : ('?' :: query).filter (!isRemoved ·) = '?' :: query.filter (!isRemoved ·) :=
    List.filter_cons_of_pos (by decide)
  unfold plainPath
  rw [List.filter_append, hquery, List.takeWhile_append, List.takeWhile_cons_of_neg (by decide),
    List.append_nil]
  split
  · rename_i hlength
    exact ((List.takeWhile_prefix _).eq_of_length hlength).symm
  · rfl

lemma plainPath_eq_iff {cs : List Char} : plainPath cs = cs ↔ ∀ c ∈ cs, isPlain c = true := by
  constructor
  · intro h c hc
    rw [← h] at hc
    unfold plainPath at hc
    have hends := List.mem_takeWhile_imp hc
    have hremoved := (List.mem_filter.1 ((List.takeWhile_sublist _).subset hc)).2
    rw [isPlain, hends, hremoved]
    rfl
  · intro h
    have happend := plainPath_append h []
    simpa [plainPath] using happend

lemma isSchemeChar_of_isScheme {scheme : List Char} (h : isScheme scheme = true) :
    ∀ c ∈ scheme, isSchemeChar c = true := by
  cases scheme with
  | nil => simp
  | cons c cs =>
    simp only [isScheme, Bool.and_eq_true, List.all_eq_true] at h
    rintro d (_ | ⟨_, hd⟩)
    · simp [isSchemeChar, Char.isAlphanum, h.1]
    · exact h.2 d hd

lemma not_removed_of_isSchemeChar {c : Char} (h : isSchemeChar c = true) : isRemoved c = false := by
  rw [← Bool.not_eq_true]
  intro hremoved
  simp only [isRemoved, Bool.or_eq_true, decide_eq_true_eq] at hremoved
  obtain (rfl | rfl) | rfl := hremoved <;> exact absurd h (by decide)

lemma splitScheme_append {scheme : List Char} (h : isScheme scheme = true) (rest : List Char) :
    splitScheme (scheme ++ ':' :: rest) = (scheme.map Char.toLower, rest) := by
  have hcolon : ∀ c ∈ scheme, decide (c ≠ ':') = true := by
    intro c hc
    have hchar := isSchemeChar_of_isScheme h c hc
    rw [decide_eq_true_eq]
    rintro rfl
    exact absurd hchar (by decide)
  unfold splitScheme
  rw [List.takeWhile_append_of_pos hcolon, List.dropWhile_append_of_pos hcolon,
    List.takeWhile_cons_of_neg (by decide), List.dropWhile_cons_of_neg (by decide), List.append_nil]
  simp only [h, if_true]

lemma splitNetloc_append {netloc : List Char} (h : ∀ c ∈ netloc, endsNetloc c = false)
    (path : List Char) :
    splitNetloc ('/' :: '/' :: (netloc ++ '/' :: path)) = (netloc, '/' :: path) := by
  have hends : ∀ c ∈ netloc, (!endsNetloc c) = true := fun c hc => by rw [h c hc]; rfl
  rw [splitNetloc, List.takeWhile_append_of_pos hends, List.dropWhile_append_of_pos hends,
    List.takeWhile_cons_of_neg (by decide), List.dropWhile_cons_of_neg (by decide), List.append_nil]

/-- A path ends where the fragment or the query begins. -/
lemma takeWhile_fragment_query (cs : List Char) :
    (cs.takeWhile (· ≠ '#')).takeWhile (· ≠ '?') = cs.takeWhile (!endsPath ·) := by
  rw [List.takeWhile_takeWhile]
  congr 1
  funext c
  by_cases hfragment : c = '#' <;> by_cases hquery : c = '?' <;> simp [endsPath, hfragment, hquery]

lemma toNat_of_isAlpha {c : Char} (h : c.isAlpha = true) : ¬c.toNat ≤ 0x20 := by
  change (decide (c.val ≥ 'A'.val ∧ c.val ≤ 'Z'.val) ||
    (decide (c.val ≥ 'a'.val) && decide (c.val ≤ 'z'.val))) = true at h
  simp only [Bool.or_eq_true, Bool.and_eq_true, decide_eq_true_eq, ge_iff_le,
    UInt32.le_iff_toNat_le] at h
  change ¬c.val.toNat ≤ 32
  have ha : ('a' : Char).val.toNat = 97 := rfl
  have hA : ('A' : Char).val.toNat = 65 := rfl
  omega

/-- How a URL with a scheme, a plain name and a path is read. -/
lemma urlsplit_parts {scheme netloc : List Char} (hscheme : isScheme scheme = true)
    (hnetloc : ∀ c ∈ netloc, endsNetloc c = false ∧ isRemoved c = false) (path : List Char) :
    (urlsplit (scheme ++ ':' :: '/' :: '/' :: (netloc ++ '/' :: path))).netloc = netloc ∧
      (urlsplit (scheme ++ ':' :: '/' :: '/' :: (netloc ++ '/' :: path))).path =
        plainPath ('/' :: path) := by
  have hdrop : (scheme ++ ':' :: '/' :: '/' :: (netloc ++ '/' :: path)).dropWhile
      (·.toNat ≤ 0x20) = scheme ++ ':' :: '/' :: '/' :: (netloc ++ '/' :: path) := by
    cases scheme with
    | nil => simp [isScheme] at hscheme
    | cons c cs =>
      simp only [isScheme, Bool.and_eq_true] at hscheme
      rw [List.cons_append, List.dropWhile_cons_of_neg]
      simpa using toNat_of_isAlpha hscheme.1
  have hkept (cs : List Char) (h : ∀ c ∈ cs, isRemoved c = false) :
      cs.filter (!isRemoved ·) = cs :=
    List.filter_eq_self.2 fun c hc => by rw [h c hc]; rfl
  have hfilter : (scheme ++ ':' :: '/' :: '/' :: (netloc ++ '/' :: path)).filter (!isRemoved ·) =
      scheme ++ ':' :: '/' :: '/' :: (netloc ++ '/' :: path.filter (!isRemoved ·)) := by
    rw [List.filter_append, hkept scheme fun c hc =>
      not_removed_of_isSchemeChar (isSchemeChar_of_isScheme hscheme c hc)]
    rw [List.filter_cons_of_pos (by decide), List.filter_cons_of_pos (by decide),
      List.filter_cons_of_pos (by decide), List.filter_append, hkept netloc fun c hc =>
      (hnetloc c hc).2, List.filter_cons_of_pos (by decide)]
  unfold urlsplit
  simp only [hdrop, hfilter, splitScheme_append hscheme,
    splitNetloc_append fun c hc => (hnetloc c hc).1, true_and]
  simp only [splitFirst, takeWhile_fragment_query, plainPath]
  rw [List.filter_cons_of_pos (by decide)]

/-! ### Octets -/

def hexValue (c : Char) : Option Nat :=
  if c.isDigit then some (c.toNat - 0x30)
  else if 0x61 ≤ c.toNat ∧ c.toNat ≤ 0x66 then some (c.toNat - 0x61 + 10)
  else if 0x41 ≤ c.toNat ∧ c.toNat ≤ 0x46 then some (c.toNat - 0x41 + 10)
  else none

/-- The octet that three characters stand for. -/
def escapedOctet (a b c : Char) : Option UInt8 :=
  if a = '%' then do return UInt8.ofNat (16 * (← hexValue b) + (← hexValue c)) else none

/-- The octets of a text. -/
def utf8 (cs : List Char) : List UInt8 := cs.flatMap String.utf8EncodeChar

/-- The octets that are read of a text with escapes. -/
def octets : List Char → List UInt8
  | a :: b :: c :: cs =>
    match escapedOctet a b c with
    | some x => x :: octets cs
    | none => String.utf8EncodeChar a ++ octets (b :: c :: cs)
  | cs => utf8 cs

/-- There is an escape in the text. -/
def Escapes (cs : List Char) : Prop :=
  ∃ a b c, [a, b, c] <:+: cs ∧ (escapedOctet a b c).isSome

lemma utf8_append (cs ds : List Char) : utf8 (cs ++ ds) = utf8 cs ++ utf8 ds :=
  List.flatMap_append

lemma utf8_cons (c : Char) (cs : List Char) : utf8 (c :: cs) = String.utf8EncodeChar c ++ utf8 cs :=
  List.flatMap_cons

lemma length_utf8EncodeChar_pos (c : Char) : 0 < (String.utf8EncodeChar c).length :=
  List.length_pos_iff.2 String.utf8EncodeChar_ne_nil

/-- What is left of a text is shorter in octets, unless it is all of it. -/
lemma eq_of_sublist_of_length_utf8 {cs ds : List Char} (h : cs.Sublist ds)
    (hlength : (utf8 ds).length ≤ (utf8 cs).length) : cs = ds := by
  have hle {cs ds : List Char} (h : cs.Sublist ds) : (utf8 cs).length ≤ (utf8 ds).length := by
    induction h with
    | slnil => exact le_rfl
    | cons c _ ih =>
      rw [utf8_cons, List.length_append]
      omega
    | cons_cons c _ ih =>
      rw [utf8_cons, utf8_cons, List.length_append, List.length_append]
      omega
  induction h with
  | slnil => rfl
  | cons c h' _ =>
    have hpos := length_utf8EncodeChar_pos c
    have hlt := hle h'
    rw [utf8_cons, List.length_append] at hlength
    omega
  | cons_cons c _ ih =>
    rw [utf8_cons, utf8_cons, List.length_append, List.length_append] at hlength
    rw [ih (by omega)]

lemma octets_cons_of_ne {a : Char} (h : a ≠ '%') (cs : List Char) :
    octets (a :: cs) = String.utf8EncodeChar a ++ octets cs := by
  match cs with
  | [] => simp [octets, utf8]
  | [b] => simp [octets, utf8]
  | b :: c :: cs =>
    rw [octets, escapedOctet, if_neg h]

lemma octets_append {cs : List Char} (h : '%' ∉ cs) (ds : List Char) :
    octets (cs ++ ds) = utf8 cs ++ octets ds := by
  induction cs with
  | nil => rfl
  | cons c cs ih =>
    simp only [List.mem_cons, not_or] at h
    rw [List.cons_append, octets_cons_of_ne (Ne.symm h.1), ih h.2, utf8_cons, List.append_assoc]

lemma three_le_length_utf8 (a b c : Char) (cs : List Char) :
    (utf8 cs).length + 3 ≤ (utf8 (a :: b :: c :: cs)).length := by
  have ha := length_utf8EncodeChar_pos a
  have hb := length_utf8EncodeChar_pos b
  have hc := length_utf8EncodeChar_pos c
  simp only [utf8_cons, List.length_append]
  omega

lemma length_octets_le (cs : List Char) : (octets cs).length ≤ (utf8 cs).length := by
  induction cs using octets.induct with
  | case1 a b c cs x hx ih =>
    have hthree := three_le_length_utf8 a b c cs
    rw [octets, hx, List.length_cons]
    omega
  | case2 a b c cs hnone ih =>
    rw [octets, hnone, utf8_cons]
    simp only [List.length_append]
    omega
  | case3 cs hshort =>
    rw [octets]
    exact hshort

/-- The octets that are read are those of the text exactly if it has no escape. -/
lemma octets_eq_iff {cs : List Char} : octets cs = utf8 cs ↔ ¬Escapes cs := by
  induction cs using octets.induct with
  | case1 a b c cs x hx ih =>
    refine iff_of_false (fun heq => ?_) (fun hnot => hnot ⟨a, b, c, ⟨[], cs, rfl⟩, by rw [hx]; rfl⟩)
    have hthree := three_le_length_utf8 a b c cs
    have hle := length_octets_le cs
    have hlength := congrArg List.length heq
    rw [octets, hx, List.length_cons] at hlength
    omega
  | case2 a b c cs hnone ih =>
    rw [octets, hnone, utf8_cons, List.append_right_inj, ih, not_iff_not]
    constructor
    · rintro ⟨a', b', c', hinfix, hsome⟩
      exact ⟨a', b', c', hinfix.trans (List.suffix_cons _ _).isInfix, hsome⟩
    · rintro ⟨a', b', c', hinfix, hsome⟩
      refine ⟨a', b', c', ?_, hsome⟩
      refine (List.infix_cons_iff.1 hinfix).resolve_left fun hprefix => ?_
      simp only [List.cons_prefix_cons] at hprefix
      obtain ⟨rfl, rfl, rfl, -⟩ := hprefix
      rw [hnone] at hsome
      cases hsome
  | case3 cs hshort =>
    refine iff_of_true ?_ ?_
    · rw [octets]
      exact hshort
    · rintro ⟨a, b, c, hinfix, -⟩
      have hlength := hinfix.length_le
      match cs with
      | [] | [_] | [_, _] => simp at hlength
      | a :: b :: c :: cs => exact hshort a b c cs rfl

end Pulse.Lib
