import Mathlib.Data.Char
import Mathlib.Tactic.Common
import Mathlib.Tactic.IntervalCases
import Pulse.Lib.Json

/-!
# JSON as Python writes it

`json.dumps` with its default options: separators with a space, and strings in which every character
beyond the printable ASCII ones is escaped.
-/

namespace Pulse.Lib

/-- What stands in the text for itself; the source's `[ -~]`. -/
def Printable (c : Char) : Prop := ' ' ≤ c ∧ c ≤ '~'

instance (c : Char) : Decidable (Printable c) := inferInstanceAs (Decidable (_ ∧ _))

/-- A float, by the text that `float.__repr__` makes of it. -/
structure FloatText where
  text : List Char
  printable : ∀ c ∈ text, Printable c

/-- `\uXXXX` of a 16-bit unit -/
def unicodeEscape (n : Nat) : List Char :=
  ['\\', 'u', (n / 4096 % 16).digitChar, (n / 256 % 16).digitChar, (n / 16 % 16).digitChar,
    (n % 16).digitChar]

/-- `py_encode_basestring_ascii` of a character -/
def escapeChar (c : Char) : List Char :=
  if c = '"' then ['\\', '"']
  else if c = '\\' then ['\\', '\\']
  else if c = '\n' then ['\\', 'n']
  else if c = '\r' then ['\\', 'r']
  else if c = '\t' then ['\\', 't']
  else if c = '\x0c' then ['\\', 'f']
  else if c = '\x08' then ['\\', 'b']
  else if Printable c then [c]
  else if c.toNat < 0x10000 then unicodeEscape c.toNat
  else unicodeEscape (0xd800 + (c.toNat - 0x10000) / 0x400) ++
    unicodeEscape (0xdc00 + (c.toNat - 0x10000) % 0x400)

def dumpsStr (s : String) : List Char := '"' :: s.toList.flatMap escapeChar ++ ['"']

/-- The parts with `, ` between them. -/
def commaJoin : List (List Char) → List Char := List.intercalate [',', ' ']

mutual

def dumps : Json FloatText → List Char
  | .null => ['n', 'u', 'l', 'l']
  | .bool true => ['t', 'r', 'u', 'e']
  | .bool false => ['f', 'a', 'l', 's', 'e']
  | .int i => i.repr.toList
  | .float x => x.text
  | .str s => dumpsStr s
  | .arr vs => '[' :: commaJoin (dumpsValues vs) ++ [']']
  | .obj fields => '{' :: commaJoin (dumpsFields fields) ++ ['}']

def dumpsValues : List (Json FloatText) → List (List Char)
  | [] => []
  | v :: vs => dumps v :: dumpsValues vs

def dumpsFields : List (String × Json FloatText) → List (List Char)
  | [] => []
  | (k, v) :: fields => (dumpsStr k ++ ':' :: ' ' :: dumps v) :: dumpsFields fields

end

/-! ### The characters of the text -/

/-- The characters of a text that is written out. -/
lemma printable_of_all {cs : List Char} (h : (cs.all fun c => decide (Printable c)) = true) :
    ∀ c ∈ cs, Printable c := by
  simpa using h

lemma printable_digitChar {n : Nat} (h : n < 16) : Printable n.digitChar := by
  interval_cases n <;> decide

lemma printable_unicodeEscape (n : Nat) : ∀ c ∈ unicodeEscape n, Printable c := by
  have hdigit (m : Nat) : Printable (m % 16).digitChar :=
    printable_digitChar (Nat.mod_lt _ (by decide))
  simp only [unicodeEscape, List.forall_mem_cons, hdigit, List.not_mem_nil, true_and]
  exact ⟨by decide, by decide, nofun⟩

lemma printable_escapeChar (c : Char) : ∀ d ∈ escapeChar c, Printable d := by
  rw [escapeChar]
  iterate 7
    split
    · exact printable_of_all (by decide)
  split
  · next h => exact List.forall_mem_singleton.2 h
  split
  · exact printable_unicodeEscape _
  · intro d hd
    exact (List.mem_append.1 hd).elim (printable_unicodeEscape _ d) (printable_unicodeEscape _ d)

lemma printable_dumpsStr (s : String) : ∀ c ∈ dumpsStr s, Printable c := by
  intro c hc
  simp only [dumpsStr, List.cons_append, List.mem_cons, List.mem_append, List.mem_flatMap,
    List.not_mem_nil, or_false] at hc
  obtain rfl | ⟨d, -, hc⟩ | rfl := hc
  · decide
  · exact printable_escapeChar d c hc
  · decide

lemma printable_natRepr (n : Nat) : ∀ c ∈ (Nat.repr n).toList, Printable c := by
  intro c hc
  rw [Nat.repr_eq_ofList_toDigits, String.toList_ofList] at hc
  have hdigit := Nat.isDigit_of_mem_toDigits (by decide) (by decide) hc
  simp only [Char.isDigit, ge_iff_le, Bool.and_eq_true, decide_eq_true_eq] at hdigit
  exact ⟨le_trans (by decide) hdigit.1, le_trans hdigit.2 (by decide)⟩

lemma printable_intRepr (i : Int) : ∀ c ∈ i.repr.toList, Printable c := by
  intro c hc
  rw [Int.repr_eq_if] at hc
  split at hc
  · exact printable_natRepr _ c hc
  · rw [String.toList_append] at hc
    obtain hc | hc := List.mem_append.1 hc
    · obtain rfl : c = '-' := by simpa using hc
      decide
    · exact printable_natRepr _ c hc

lemma printable_commaJoin {parts : List (List Char)} (h : ∀ part ∈ parts, ∀ c ∈ part, Printable c) :
    ∀ c ∈ commaJoin parts, Printable c := by
  induction parts with
  | nil => exact nofun
  | cons part parts ih =>
    obtain ⟨hpart, hparts⟩ := List.forall_mem_cons.1 h
    intro c hc
    by_cases hne : parts = []
    · subst hne
      exact hpart c (by simpa [commaJoin] using hc)
    · rw [commaJoin, List.intercalate_cons_of_ne_nil hne, ← commaJoin] at hc
      simp only [List.mem_append, List.mem_cons, List.not_mem_nil, or_false] at hc
      obtain (hc | rfl | rfl) | hc := hc
      · exact hpart c hc
      · decide
      · decide
      · exact ih hparts c hc

lemma dumpsValues_eq (vs : List (Json FloatText)) : dumpsValues vs = vs.map dumps := by
  induction vs with
  | nil => rfl
  | cons v vs ih => rw [dumpsValues, ih, List.map_cons]

lemma dumpsFields_eq (fields : List (String × Json FloatText)) :
    dumpsFields fields = fields.map fun e => dumpsStr e.1 ++ ':' :: ' ' :: dumps e.2 := by
  induction fields with
  | nil => rfl
  | cons e fields ih => rw [dumpsFields, ih, List.map_cons]

/-- The text has no line break in it, whatever the strings of the value contain. -/
theorem printable_dumps (v : Json FloatText) : ∀ c ∈ dumps v, Printable c := by
  induction v using Json.induct with
  | null =>
    rw [dumps]
    exact printable_of_all (by decide)
  | bool b => cases b <;> exact printable_of_all (by decide)
  | int i => exact printable_intRepr i
  | float x => exact x.printable
  | str s => exact printable_dumpsStr s
  | arr vs ih =>
    have hparts : ∀ c ∈ commaJoin (dumpsValues vs), Printable c := by
      refine printable_commaJoin fun part hpart => ?_
      rw [dumpsValues_eq] at hpart
      obtain ⟨v, hv, rfl⟩ := List.mem_map.1 hpart
      exact ih v hv
    rw [dumps, List.cons_append, List.forall_mem_cons, List.forall_mem_append]
    exact ⟨by decide, hparts, printable_of_all (by decide)⟩
  | obj fields ih =>
    have hparts : ∀ c ∈ commaJoin (dumpsFields fields), Printable c := by
      refine printable_commaJoin fun part hpart => ?_
      rw [dumpsFields_eq] at hpart
      obtain ⟨e, he, rfl⟩ := List.mem_map.1 hpart
      rw [List.forall_mem_append, List.forall_mem_cons, List.forall_mem_cons]
      exact ⟨printable_dumpsStr _, by decide, by decide, ih e he⟩
    rw [dumps, List.cons_append, List.forall_mem_cons, List.forall_mem_append]
    exact ⟨by decide, hparts, printable_of_all (by decide)⟩

end Pulse.Lib
