import Mathlib.Data.List.Basic
import Mathlib.Tactic.Common

/-!
# Schema names

`_sanitize`, `org_schema` and `ag_schema` of `db/session.py`, and the name PostgreSQL makes of
them: an identifier keeps its first 63 bytes. The names are ASCII, so bytes are characters.
-/

namespace Pulse.Db

/-- Python's `str.lower` and `str.capitalize`, whose Unicode tables are not modelled. -/
structure Casing where
  lower : String → String
  capitalize : String → String

/-- The casing of ASCII slugs. -/
def asciiCasing : Casing where
  lower s := String.ofList (s.toList.map Char.toLower)
  capitalize s := s

def defaultOrg : String := "default"

/-- `s or DEFAULT_ORG` -/
def orDefault (s : String) : String :=
  if s = "" then defaultOrg else s

abbrev Ident := List Char

/-- An identifier as PostgreSQL keeps it. -/
def ident (name : List Char) : Ident := name.take 63

/-- The character class `[a-z0-9_]`. -/
def isIdentChar (c : Char) : Bool :=
  ('a' ≤ c && c ≤ 'z') || ('0' ≤ c && c ≤ '9') || c = '_'

section Names

variable (py : Casing)

/-- `_sanitize` -/
def sanitize (slug : String) : List Char :=
  (py.lower (orDefault slug)).toList.map fun c => if isIdentChar c then c else '_'

def orgSchema (slug : String) : List Char := ['t', '_'] ++ sanitize py slug

def agSchema (slug : String) : List Char := ['a', 'g', '_'] ++ sanitize py slug

/-- The schema that holds the tables of the organisation `slug`. -/
def tableSchema (slug : String) : Ident := ident (orgSchema py slug)

/-- The schema that holds its agent views. -/
def viewSchema (slug : String) : Ident := ident (agSchema py slug)

variable {py} {a b : String}

lemma tableSchema_eq : tableSchema py a = ['t', '_'] ++ (sanitize py a).take 61 := by
  simp [tableSchema, orgSchema, ident]

lemma viewSchema_eq : viewSchema py a = ['a', 'g', '_'] ++ (sanitize py a).take 60 := by
  simp [viewSchema, agSchema, ident]

lemma tableSchema_inj :
    tableSchema py a = tableSchema py b ↔ (sanitize py a).take 61 = (sanitize py b).take 61 := by
  rw [tableSchema_eq, tableSchema_eq, List.append_cancel_left_eq]

lemma viewSchema_inj :
    viewSchema py a = viewSchema py b ↔ (sanitize py a).take 60 = (sanitize py b).take 60 := by
  rw [viewSchema_eq, viewSchema_eq, List.append_cancel_left_eq]

lemma tableSchema_ne_viewSchema : tableSchema py a ≠ viewSchema py b := by
  rw [tableSchema_eq, viewSchema_eq]
  simp

end Names

end Pulse.Db
