import Mathlib.Data.List.Nodup
import Mathlib.Data.List.Pairwise
import Pulse.Lib.Except
import Mathlib.Tactic.Common

/-!
# Relational databases with declared constraints

A schema names, for each table, its primary key, its foreign keys and its unique columns. A
`Database` carries the proofs that its rows meet them, so an operation either keeps every
constraint or is refused. `NULL` is `none`: it refers to nothing and is equal to nothing.
-/

namespace Pulse.Lib

universe u v w

/-- The constraint that a statement would break. -/
inductive Violation
  | unique
  | foreignKey
  | notNull
  deriving DecidableEq, Repr

/-- The column of a table that refers to the primary key of another. -/
structure ForeignKey (τ : Type u) (κ : Type v) where
  table : τ
  column : κ
  target : τ
  deriving DecidableEq

structure Schema (τ : Type u) (κ : Type v) where
  key : τ → κ
  foreignKeys : List (ForeignKey τ κ)
  uniques : List (τ × List κ)

abbrev Row (κ : Type v) (ν : Type w) := κ → Option ν

variable {τ : Type u} {κ : Type v} {ν : Type w}

/-- Two rows with the same values, none of them `NULL`, in all of the columns. -/
def Row.Clash (cols : List κ) (r r' : Row κ ν) : Prop :=
  ∀ c ∈ cols, r c ≠ none ∧ r c = r' c

instance [DecidableEq ν] (cols : List κ) (r r' : Row κ ν) : Decidable (r.Clash cols r') :=
  inferInstanceAs (Decidable (∀ c ∈ cols, _))

structure Database (s : Schema τ κ) (ν : Type w) where
  rows : τ → List (Row κ ν)
  key_some : ∀ t, ∀ r ∈ rows t, r (s.key t) ≠ none
  key_nodup : ∀ t, ((rows t).map fun r => r (s.key t)).Nodup
  refs : ∀ fk ∈ s.foreignKeys, ∀ r ∈ rows fk.table, r fk.column ≠ none →
    ∃ d ∈ rows fk.target, d (s.key fk.target) = r fk.column
  unique : ∀ u ∈ s.uniques, (rows u.1).Pairwise fun r r' => ¬r.Clash u.2 r'

/-- No constraint names the column of the table. -/
structure Schema.Free (s : Schema τ κ) (t : τ) (c : κ) : Prop where
  key : c ≠ s.key t
  refs : ∀ fk ∈ s.foreignKeys, fk.table = t → fk.column ≠ c
  uniques : ∀ u ∈ s.uniques, u.1 = t → c ∉ u.2

/-- The row with the value `v` in the column `c`, if it meets the condition. -/
def setRow [DecidableEq κ] (c : κ) (v : Option ν) (p : Row κ ν → Bool) (r : Row κ ν) : Row κ ν :=
  if p r then Function.update r c v else r

lemma setRow_of_ne [DecidableEq κ] {c c' : κ} (h : c' ≠ c) (v : Option ν) (p : Row κ ν → Bool)
    (r : Row κ ν) : setRow c v p r c' = r c' := by
  unfold setRow
  split
  · exact Function.update_of_ne h v r
  · rfl

namespace Database

variable {s : Schema τ κ}

variable [DecidableEq τ] [DecidableEq ν]

/-- `DELETE FROM t WHERE p`, refused while a row that stays refers to one that goes. -/
def delete (db : Database s ν) (t : τ) (p : Row κ ν → Bool) : Except Violation (Database s ν) :=
  let rows u := if u = t then (db.rows t).filter (!p ·) else db.rows u
  if h : ∀ fk ∈ s.foreignKeys, fk.target = t → ∀ r ∈ rows fk.table, r fk.column ≠ none →
      ∀ d ∈ db.rows t, p d → d (s.key t) ≠ r fk.column then .ok {
    rows
    key_some := by
      intro u r hr
      by_cases hu : u = t
      · subst hu
        simp only [rows, if_pos] at hr
        exact db.key_some u r (List.mem_of_mem_filter hr)
      · simp only [rows, if_neg hu] at hr
        exact db.key_some u r hr
    key_nodup := by
      intro u
      by_cases hu : u = t
      · subst hu
        simp only [rows, if_pos]
        exact (List.filter_sublist.map _).nodup (db.key_nodup u)
      · simp only [rows, if_neg hu]
        exact db.key_nodup u
    refs := by
      intro fk hfk r hr hnull
      have hr' : r ∈ db.rows fk.table := by
        by_cases hu : fk.table = t
        · simp only [rows, if_pos hu] at hr
          exact hu ▸ List.mem_of_mem_filter hr
        · simpa only [rows, if_neg hu] using hr
      obtain ⟨d, hd, hkey⟩ := db.refs fk hfk r hr' hnull
      refine ⟨d, ?_, hkey⟩
      by_cases ht : fk.target = t
      · simp only [rows, if_pos ht]
        refine List.mem_filter.2 ⟨ht ▸ hd, ?_⟩
        have hstays : ¬p d = true := fun hp => h fk hfk ht r hr hnull d (ht ▸ hd) hp (ht ▸ hkey)
        simpa using hstays
      · simpa only [rows, if_neg ht] using hd
    unique := by
      intro c hc
      by_cases hu : c.1 = t
      · simp only [rows, if_pos hu]
        exact (hu ▸ db.unique c hc).sublist List.filter_sublist
      · simpa only [rows, if_neg hu] using db.unique c hc }
  else .error .foreignKey

/-- `INSERT INTO t` of one row. -/
def insert (db : Database s ν) (t : τ) (row : Row κ ν) : Except Violation (Database s ν) :=
  let rows u := if u = t then db.rows t ++ [row] else db.rows u
  if hkey : row (s.key t) = none then .error .notNull
  else if hfresh : row (s.key t) ∈ (db.rows t).map fun r => r (s.key t) then .error .unique
  else if hunique : ∃ u ∈ s.uniques, u.1 = t ∧ ∃ r ∈ db.rows t, r.Clash u.2 row then .error .unique
  else if hrefs : ∀ fk ∈ s.foreignKeys, fk.table = t → row fk.column ≠ none →
      ∃ d ∈ db.rows fk.target, d (s.key fk.target) = row fk.column then .ok {
    rows
    key_some := by
      intro u r hr
      by_cases hu : u = t
      · subst hu
        simp only [rows, if_pos, List.mem_append, List.mem_singleton] at hr
        rcases hr with hr | rfl
        · exact db.key_some u r hr
        · exact hkey
      · simp only [rows, if_neg hu] at hr
        exact db.key_some u r hr
    key_nodup := by
      intro u
      by_cases hu : u = t
      · subst hu
        simp only [rows, if_pos, List.map_append, List.map_singleton]
        rw [List.nodup_append_comm]
        exact List.nodup_cons.2 ⟨hfresh, db.key_nodup u⟩
      · simp only [rows, if_neg hu]
        exact db.key_nodup u
    refs := by
      intro fk hfk r hr hnull
      have hfound : ∃ d ∈ db.rows fk.target, d (s.key fk.target) = r fk.column := by
        by_cases hu : fk.table = t
        · simp only [rows, if_pos hu, List.mem_append, List.mem_singleton] at hr
          rcases hr with hr | rfl
          · exact db.refs fk hfk r (hu ▸ hr) hnull
          · exact hrefs fk hfk hu hnull
        · simp only [rows, if_neg hu] at hr
          exact db.refs fk hfk r hr hnull
      obtain ⟨d, hd, hk⟩ := hfound
      refine ⟨d, ?_, hk⟩
      by_cases ht : fk.target = t
      · simp only [rows, if_pos ht]
        exact List.mem_append_left _ (ht ▸ hd)
      · simpa only [rows, if_neg ht] using hd
    unique := by
      intro c hc
      by_cases hu : c.1 = t
      · simp only [rows, if_pos hu]
        rw [List.pairwise_append]
        refine ⟨hu ▸ db.unique c hc, List.pairwise_singleton _ _, fun r hr r' hr' hclash => ?_⟩
        rw [List.mem_singleton.1 hr'] at hclash
        exact hunique ⟨c, hc, hu, r, hr, hclash⟩
      · simpa only [rows, if_neg hu] using db.unique c hc }
  else .error .foreignKey

/-- `UPDATE t SET c = v WHERE p`, of a column that no constraint names. -/
def set (db : Database s ν) [DecidableEq κ] (t : τ) (c : κ) (v : Option ν) (p : Row κ ν → Bool)
    (hfree : s.Free t c) : Database s ν where
  rows u := if u = t then (db.rows t).map (setRow c v p) else db.rows u
  key_some := by
    intro u r hr
    by_cases hu : u = t
    · subst hu
      rw [if_pos rfl] at hr
      obtain ⟨d, hd, rfl⟩ := List.mem_map.1 hr
      rw [setRow_of_ne hfree.key.symm]
      exact db.key_some u d hd
    · rw [if_neg hu] at hr
      exact db.key_some u r hr
  key_nodup := by
    intro u
    by_cases hu : u = t
    · subst hu
      rw [if_pos rfl, List.map_map]
      simpa only [Function.comp_def, setRow_of_ne hfree.key.symm] using db.key_nodup u
    · rw [if_neg hu]
      exact db.key_nodup u
  refs := by
    intro fk hfk r hr hnull
    have hfound : ∃ d ∈ db.rows fk.target, d (s.key fk.target) = r fk.column := by
      by_cases hu : fk.table = t
      · rw [if_pos hu] at hr
        obtain ⟨d, hd, rfl⟩ := List.mem_map.1 hr
        rw [setRow_of_ne (hfree.refs fk hfk hu)] at hnull ⊢
        exact db.refs fk hfk d (hu ▸ hd) hnull
      · rw [if_neg hu] at hr
        exact db.refs fk hfk r hr hnull
    obtain ⟨d, hd, hk⟩ := hfound
    by_cases ht : fk.target = t
    · refine ⟨setRow c v p d, ?_, ?_⟩
      · rw [if_pos ht]
        exact List.mem_map_of_mem (ht ▸ hd)
      · rw [setRow_of_ne (ht ▸ hfree.key.symm), hk]
    · rw [if_neg ht]
      exact ⟨d, hd, hk⟩
  unique := by
    intro u hu
    by_cases ht : u.1 = t
    · rw [if_pos ht, List.pairwise_map]
      have hunique : (db.rows t).Pairwise fun r r' => ¬r.Clash u.2 r' := ht ▸ db.unique u hu
      refine hunique.imp fun h hclash => h fun c' hc' => ?_
      have hne : c' ≠ c := fun he => hfree.uniques u hu ht (he ▸ hc')
      simpa only [setRow_of_ne hne] using hclash c' hc'
    · rw [if_neg ht]
      exact db.unique u hu

/-- A database without rows. -/
def empty (s : Schema τ κ) (ν : Type w) : Database s ν where
  rows _ := []
  key_some := by simp
  key_nodup := by simp
  refs := by simp
  unique := by simp

def insertAll (db : Database s ν) (rows : List (τ × Row κ ν)) : Except Violation (Database s ν) :=
  rows.foldlM (fun db (t, row) => db.insert t row) db

/-- The same `DELETE` on each of the tables. -/
def deleteAll (db : Database s ν) (ts : List τ) (p : Row κ ν → Bool) :
    Except Violation (Database s ν) :=
  ts.foldlM (fun db t => db.delete t p) db

/-! ### What the statements do -/

variable {db db' : Database s ν} {t : τ} {p : Row κ ν → Bool} {row : Row κ ν}

lemma delete_ok (h : ∀ fk ∈ s.foreignKeys, fk.target = t → ∀ r ∈ db.rows fk.table,
    (fk.table = t → p r = false) → r fk.column ≠ none →
      ∀ d ∈ db.rows t, p d → d (s.key t) ≠ r fk.column) : ∃ db', db.delete t p = .ok db' := by
  simp only [delete]
  rw [dif_pos]
  · exact ⟨_, rfl⟩
  · intro fk hfk ht r hr
    by_cases hu : fk.table = t
    · rw [if_pos hu] at hr
      obtain ⟨hr, hp⟩ := List.mem_filter.1 hr
      exact h fk hfk ht r (hu ▸ hr) fun _ => by simpa using hp
    · rw [if_neg hu] at hr
      exact h fk hfk ht r hr fun he => absurd he hu

/-- Nothing refers to the rows of a table that is no foreign key's target. -/
lemma delete_leaf (db : Database s ν) (p : Row κ ν → Bool)
    (h : ∀ fk ∈ s.foreignKeys, fk.target ≠ t) : ∃ db', db.delete t p = .ok db' :=
  delete_ok fun fk hfk ht => absurd ht (h fk hfk)

lemma delete_rows (h : db.delete t p = .ok db') : db'.rows t = (db.rows t).filter (!p ·) := by
  simp only [delete] at h
  split at h
  · cases h
    exact if_pos rfl
  · cases h

lemma delete_rows_of_ne (h : db.delete t p = .ok db') {u : τ} (hu : u ≠ t) :
    db'.rows u = db.rows u := by
  simp only [delete] at h
  split at h
  · cases h
    exact if_neg hu
  · cases h

lemma insert_ok (hkey : row (s.key t) ≠ none)
    (hfresh : ∀ r ∈ db.rows t, r (s.key t) ≠ row (s.key t))
    (hunique : ∀ u ∈ s.uniques, u.1 = t → ∀ r ∈ db.rows t, ¬r.Clash u.2 row)
    (hrefs : ∀ fk ∈ s.foreignKeys, fk.table = t → row fk.column ≠ none →
      ∃ d ∈ db.rows fk.target, d (s.key fk.target) = row fk.column) :
    ∃ db', db.insert t row = .ok db' := by
  simp only [insert]
  rw [dif_neg hkey, dif_neg (by simpa using hfresh), dif_neg, dif_pos hrefs]
  · exact ⟨_, rfl⟩
  · rintro ⟨u, hu, ht, r, hr, hclash⟩
    exact hunique u hu ht r hr hclash

lemma insert_fresh (h : db.insert t row = .ok db') :
    ∀ r ∈ db.rows t, r (s.key t) ≠ row (s.key t) := by
  simp only [insert] at h
  split at h
  · cases h
  · split at h
    · cases h
    · rename_i hfresh
      simpa using hfresh

lemma insert_noClash (h : db.insert t row = .ok db') :
    ∀ u ∈ s.uniques, u.1 = t → ∀ r ∈ db.rows t, ¬r.Clash u.2 row := by
  simp only [insert] at h
  split at h
  · cases h
  · split at h
    · cases h
    · split at h
      · cases h
      · rename_i hunique
        intro u hu ht r hr hclash
        exact hunique ⟨u, hu, ht, r, hr, hclash⟩

omit [DecidableEq τ] [DecidableEq ν] in
/-- Two rows that clash are one. -/
lemma eq_of_clash {u : τ × List κ} (hu : u ∈ s.uniques) {r r' : Row κ ν} (hr : r ∈ db.rows u.1)
    (hr' : r' ∈ db.rows u.1) (h : r.Clash u.2 r') : r = r' := by
  have : Std.Symm fun r r' : Row κ ν => ¬r.Clash u.2 r' :=
    ⟨fun a b hab hba => hab fun c hc => ⟨(hba c hc).2 ▸ (hba c hc).1, (hba c hc).2.symm⟩⟩
  by_contra hne
  exact (db.unique u hu).forall hr hr' hne h

omit [DecidableEq τ] [DecidableEq ν] in
/-- A search that finds one row at most may ask for more of it. -/
lemma find?_and {q : Row κ ν → Bool}
    (h : ∀ r ∈ db.rows t, ∀ r' ∈ db.rows t, p r = true → p r' = true → r = r') :
    (db.rows t).find? (fun r => p r && q r) = ((db.rows t).find? p).filter q := by
  cases hfind : (db.rows t).find? p with
  | none =>
    refine List.find?_eq_none.2 fun r hr => ?_
    simp [List.find?_eq_none.1 hfind r hr]
  | some r =>
    have hr := List.mem_of_find?_eq_some hfind
    have hp := List.find?_some hfind
    cases hq : q r with
    | true =>
      rw [Option.filter_some_pos hq]
      cases hfind' : (db.rows t).find? fun r => p r && q r with
      | none => exact absurd (List.find?_eq_none.1 hfind' r hr) (by simp [hp, hq])
      | some r' =>
        have hr' := List.mem_of_find?_eq_some hfind'
        have hp' := List.find?_some hfind'
        rw [h r' hr' r hr (by simpa using (Bool.and_eq_true_iff.1 hp').1) hp]
    | false =>
      rw [Option.filter_some_neg (by simp [hq])]
      refine List.find?_eq_none.2 fun r' hr' hpq => ?_
      obtain ⟨hp', hq'⟩ := Bool.and_eq_true_iff.1 hpq
      rw [h r' hr' r hr hp' hp, hq] at hq'
      cases hq'

omit [DecidableEq τ] [DecidableEq ν] in
/-- A query is answered alike from two tables with the same rows in a view that it keeps to. -/
lemma filter_eq_of_view {v v' : Row κ ν → Bool}
    (h : (db.rows t).filter v = (db'.rows t).filter v') (hv : ∀ r ∈ db.rows t, p r → v r)
    (hv' : ∀ r ∈ db'.rows t, p r → v' r) : (db.rows t).filter p = (db'.rows t).filter p := by
  have hkeep {rows : List (Row κ ν)} {v : Row κ ν → Bool} (hv : ∀ r ∈ rows, p r → v r) :
      rows.filter p = (rows.filter v).filter p := by
    rw [List.filter_filter]
    refine List.filter_congr fun r hr => ?_
    cases hp : p r with
    | false => rfl
    | true => simp [hv r hr hp]
  rw [hkeep hv, h, ← hkeep hv']

lemma insert_rows (h : db.insert t row = .ok db') : db'.rows t = db.rows t ++ [row] := by
  simp only [insert] at h
  repeat' split at h
  all_goals cases h
  exact if_pos rfl

lemma insert_rows_of_ne (h : db.insert t row = .ok db') {u : τ} (hu : u ≠ t) :
    db'.rows u = db.rows u := by
  simp only [insert] at h
  repeat' split at h
  all_goals cases h
  exact if_neg hu

/-- What inserts into several tables add, if they go through. -/
lemma insertAll_rows {db db' : Database s ν} {added : List (τ × Row κ ν)}
    (h : db.insertAll added = .ok db') (u : τ) :
    db'.rows u = db.rows u ++ (added.filter fun e => e.1 = u).map Prod.snd := by
  induction added generalizing db with
  | nil =>
    cases h
    simp
  | cons e added ih =>
    rw [insertAll, List.foldlM_cons] at h
    obtain ⟨db₁, h₁, h₂⟩ := bind_eq_ok.1 h
    rw [ih h₂]
    rcases eq_or_ne e.1 u with rfl | hne
    · simp [insert_rows h₁]
    · simp [insert_rows_of_ne h₁ hne.symm, hne]

/-- What deletes from several tables leave, if they go through. -/
lemma deleteAll_rows {db db' : Database s ν} {ts : List τ} {p : Row κ ν → Bool}
    (h : db.deleteAll ts p = .ok db') (u : τ) :
    db'.rows u = if u ∈ ts then (db.rows u).filter (!p ·) else db.rows u := by
  induction ts generalizing db with
  | nil =>
    cases h
    simp
  | cons t ts ih =>
    rw [deleteAll, List.foldlM_cons] at h
    obtain ⟨db₁, h₁, h₂⟩ := bind_eq_ok.1 h
    rw [ih h₂]
    by_cases hut : u = t
    · subst hut
      simp [delete_rows h₁, List.filter_filter]
    · simp [delete_rows_of_ne h₁ hut, hut]

lemma deleteAll_append {ts us : List τ} {db₁ : Database s ν} (h : db.deleteAll ts p = .ok db₁)
    (h' : db₁.deleteAll us p = .ok db') : db.deleteAll (ts ++ us) p = .ok db' := by
  rw [deleteAll, List.foldlM_append]
  exact bind_eq_ok.2 ⟨db₁, h, h'⟩

/-- Deletes from tables that nothing refers to go through, and touch no other table. -/
theorem deleteAll_leaf (db : Database s ν) (p : Row κ ν → Bool) (ts : List τ)
    (h : ∀ t ∈ ts, ∀ fk ∈ s.foreignKeys, fk.target ≠ t) : ∃ db', db.deleteAll ts p = .ok db' ∧
      ∀ u, db'.rows u = if u ∈ ts then (db.rows u).filter (!p ·) else db.rows u := by
  induction ts generalizing db with
  | nil => exact ⟨db, rfl, fun u => by simp⟩
  | cons t ts ih =>
    obtain ⟨db₁, h₁⟩ := db.delete_leaf p (h t List.mem_cons_self)
    obtain ⟨db₂, h₂, -⟩ := ih db₁ fun u hu => h u (List.mem_cons_of_mem t hu)
    have hok : db.deleteAll (t :: ts) p = .ok db₂ := by
      rw [deleteAll, List.foldlM_cons]
      exact bind_eq_ok.2 ⟨db₁, h₁, h₂⟩
    exact ⟨db₂, hok, deleteAll_rows hok⟩

end Database

end Pulse.Lib
