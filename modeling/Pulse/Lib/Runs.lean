import Mathlib.Data.List.Nodup
import Mathlib.Data.List.Sort
import Mathlib.Tactic.Common

/-!
# Runs of flags

The maximal runs of a list of flags, each as its first index and the one after its last, and the
segments that remain when runs with a short gap between them are joined.
-/

namespace Pulse.Lib

/-! ### Maximal runs -/

/-- From `s` on and before `e` all flags are set, and neither the flag before nor the one at `e`
is. -/
structure MaximalRun (flags : List Bool) (s e : Nat) : Prop where
  lt : s < e
  set : ∀ k, s ≤ k → k < e → flags[k]? = some true
  before : ∀ k, k + 1 = s → flags[k]? ≠ some true
  after : flags[e]? ≠ some true

/-- The maximal runs of a list of flags, in order. -/
structure Runs (flags : List Bool) (rs : List (Nat × Nat)) : Prop where
  mem : ∀ r, r ∈ rs ↔ MaximalRun flags r.1 r.2
  ordered : rs.Pairwise fun r r' => r.2 < r'.1

/-- The runs of the flags from index `i` on, the first of which may have begun before. -/
def runsFrom (i : Nat) (start : Option Nat) : List Bool → List (Nat × Nat)
  | [] => (start.map (·, i)).toList
  | true :: flags => runsFrom (i + 1) (some (start.getD i)) flags
  | false :: flags => (start.map (·, i)).toList ++ runsFrom (i + 1) none flags

def runs (flags : List Bool) : List (Nat × Nat) :=
  runsFrom 0 none flags

namespace MaximalRun

variable {flags more : List Bool} {s s' e : Nat}

lemma last (h : MaximalRun flags s e) : flags[e - 1]? = some true :=
  h.set (e - 1) (by have := h.lt; omega) (by have := h.lt; omega)

lemma le_length (h : MaximalRun flags s e) : e ≤ flags.length := by
  have hlast := (List.getElem?_eq_some_iff.1 h.last).1
  omega

lemma start_unique (h : MaximalRun flags s e) (h' : MaximalRun flags s' e) : s = s' := by
  have hle {s s' : Nat} (h : MaximalRun flags s e) (h' : MaximalRun flags s' e) : s ≤ s' := by
    by_contra hlt
    exact h.before (s - 1) (by omega) (h'.set (s - 1) (by omega) (by have := h.lt; omega))
  exact le_antisymm (hle h h') (hle h' h)

/-- A run that ends within the first flags is one of these. -/
lemma append_iff (h : e ≤ flags.length) (hnext : e = flags.length → more[0]? ≠ some true) :
    MaximalRun (flags ++ more) s e ↔ MaximalRun flags s e := by
  have hbefore (k : Nat) (hk : k < flags.length) : (flags ++ more)[k]? = flags[k]? :=
    List.getElem?_append_left hk
  constructor
  · intro hrun
    refine ⟨hrun.lt, fun k hs he => ?_, fun k hs => ?_, ?_⟩
    · rw [← hbefore k (by omega), hrun.set k hs he]
    · rw [← hbefore k (by have := hrun.lt; omega)]
      exact hrun.before k hs
    · by_cases heq : e = flags.length
      · rw [heq, List.getElem?_eq_none le_rfl]
        exact nofun
      · rw [← hbefore e (by omega)]
        exact hrun.after
  · intro hrun
    refine ⟨hrun.lt, fun k hs he => ?_, fun k hs => ?_, ?_⟩
    · rw [hbefore k (by omega), hrun.set k hs he]
    · rw [hbefore k (by have := hrun.lt; omega)]
      exact hrun.before k hs
    · by_cases heq : e = flags.length
      · rw [heq, List.getElem?_append_right le_rfl, Nat.sub_self]
        exact hnext heq
      · rw [hbefore e (by omega)]
        exact hrun.after

/-- What is before the flags changes nothing for a run that does not begin with them. -/
lemma prepend_iff (before : List Bool) (hs : 0 < s) :
    MaximalRun (before ++ flags) (before.length + s) (before.length + e) ↔ MaximalRun flags s e := by
  have hget (k : Nat) : (before ++ flags)[before.length + k]? = flags[k]? := by
    rw [List.getElem?_append_right (Nat.le_add_right _ _), Nat.add_sub_cancel_left]
  constructor
  · intro hrun
    refine ⟨by have := hrun.lt; omega, fun k hk he => ?_, fun k hk => ?_, ?_⟩
    · rw [← hget, hrun.set (before.length + k) (by omega) (by omega)]
    · rw [← hget]
      exact hrun.before (before.length + k) (by omega)
    · rw [← hget]
      exact hrun.after
  · intro hrun
    refine ⟨by have := hrun.lt; omega, fun k hk he => ?_, fun k hk => ?_, ?_⟩
    · obtain ⟨i, rfl⟩ := Nat.exists_eq_add_of_le ((Nat.le_add_right _ _).trans hk)
      rw [hget, hrun.set i (by omega) (by omega)]
    · obtain ⟨i, rfl⟩ := Nat.exists_eq_add_of_le (by omega : before.length ≤ k)
      rw [hget]
      exact hrun.before i (by omega)
    · rw [hget]
      exact hrun.after

end MaximalRun

/-- The run that begins at `start` is not over where the flags are; without one the last flag is not
set. -/
structure Pending (flags : List Bool) (start : Option Nat) : Prop where
  run : ∀ s, start = some s → MaximalRun flags s flags.length
  idle : start = none → ∀ k, k + 1 = flags.length → flags[k]? ≠ some true

lemma Pending.eq_some_iff {flags : List Bool} {start : Option Nat} (h : Pending flags start)
    {s : Nat} : start = some s ↔ MaximalRun flags s flags.length := by
  refine ⟨h.run s, fun hrun => ?_⟩
  cases hstart : start with
  | none =>
    have hlt := hrun.lt
    exact absurd hrun.last (h.idle hstart _ (by omega))
  | some s' => rw [hrun.start_unique (h.run s' hstart)]

lemma Pending.concat_false (flags : List Bool) : Pending (flags ++ [false]) none where
  run := nofun
  idle _ k hk := by
    rw [List.length_append, List.length_singleton, Nat.add_right_cancel_iff] at hk
    simp [hk]

lemma Pending.concat_true {flags : List Bool} {start : Option Nat} (h : Pending flags start) :
    Pending (flags ++ [true]) (some (start.getD flags.length)) := by
  have hbefore (k : Nat) (hk : k < flags.length) : (flags ++ [true])[k]? = flags[k]? :=
    List.getElem?_append_left hk
  refine ⟨fun s hs => ?_, nofun⟩
  rw [List.length_append, List.length_singleton]
  have hend : (flags ++ [true])[flags.length + 1]? ≠ some true := by simp
  cases start with
  | none =>
    obtain rfl := Option.some.inj hs
    refine ⟨Nat.lt_succ_self _, fun k hk he => ?_, fun k hk => ?_, hend⟩
    · rw [Option.getD_none] at hk
      rw [show k = flags.length by omega, List.getElem?_concat_length]
    · rw [Option.getD_none] at hk
      rw [hbefore k (by omega)]
      exact h.idle rfl k hk
  | some s' =>
    obtain rfl := Option.some.inj hs
    have hrun := h.run s' rfl
    have hlt := hrun.lt
    refine ⟨by rw [Option.getD_some]; omega, fun k hk he => ?_, fun k hk => ?_, hend⟩
    · by_cases heq : k = flags.length
      · rw [heq, List.getElem?_concat_length]
      · rw [hbefore k (by omega), hrun.set k hk (by omega)]
    · rw [Option.getD_some] at hk
      rw [hbefore k (by omega)]
      exact hrun.before k hk

lemma Pending.mem_toList {flags : List Bool} {start : Option Nat} (h : Pending flags start)
    {s e : Nat} : (s, e) ∈ (start.map (·, flags.length)).toList ↔
      MaximalRun flags s e ∧ flags.length ≤ e := by
  rw [Option.mem_toList, Option.map_eq_some_iff]
  constructor
  · rintro ⟨s', hs', heq⟩
    obtain ⟨rfl, rfl⟩ := Prod.mk.inj heq
    exact ⟨h.run s' hs', le_rfl⟩
  · rintro ⟨hrun, hle⟩
    obtain rfl : e = flags.length := le_antisymm hrun.le_length hle
    exact ⟨s, h.eq_some_iff.2 hrun, rfl⟩

lemma mem_runsFrom {flags : List Bool} {start : Option Nat} (h : Pending flags start)
    (more : List Bool) {s e : Nat} : (s, e) ∈ runsFrom flags.length start more ↔
      MaximalRun (flags ++ more) s e ∧ flags.length ≤ e := by
  induction more generalizing flags start with
  | nil => rw [List.append_nil, runsFrom, h.mem_toList]
  | cons flag more ih =>
    have hnext : (flags ++ [flag]).length = flags.length + 1 := by simp
    rw [List.append_cons]
    cases flag with
    | true =>
      have hrest := ih h.concat_true
      rw [hnext] at hrest
      rw [runsFrom, hrest]
      refine and_congr_right fun hrun => ⟨fun hle => by omega, fun hle => ?_⟩
      -- a run does not end at a flag that is set
      have hne : e ≠ flags.length := by
        rintro rfl
        exact hrun.after (by simp)
      omega
    | false =>
      have hrest := ih (Pending.concat_false flags)
      rw [hnext] at hrest
      rw [runsFrom, List.mem_append, hrest, h.mem_toList]
      constructor
      · rintro (⟨hrun, hle⟩ | ⟨hrun, hle⟩)
        · refine ⟨?_, hle⟩
          rw [← List.append_cons, MaximalRun.append_iff hrun.le_length (by simp)]
          exact hrun
        · exact ⟨hrun, by omega⟩
      · rintro ⟨hrun, hle⟩
        by_cases heq : e = flags.length
        · rw [← List.append_cons, MaximalRun.append_iff heq.le (by simp)] at hrun
          exact .inl ⟨hrun, hle⟩
        · exact .inr ⟨hrun, by omega⟩

lemma start_le_of_mem_runsFrom {i : Nat} {start : Option Nat} {flags : List Bool} {r : Nat × Nat}
    (hr : r ∈ runsFrom i start flags) : start = some r.1 ∨ i ≤ r.1 := by
  induction flags generalizing i start with
  | nil =>
    obtain ⟨s, hs, rfl⟩ := Option.map_eq_some_iff.1 (Option.mem_toList.1 hr)
    exact .inl hs
  | cons flag flags ih =>
    cases flag with
    | true =>
      rcases ih hr with hs | hle
      · cases start with
        | none => exact .inr (Option.some.inj hs).le
        | some s => exact .inl hs
      · exact .inr (by omega)
    | false =>
      rcases List.mem_append.1 hr with hr | hr
      · obtain ⟨s, hs, rfl⟩ := Option.map_eq_some_iff.1 (Option.mem_toList.1 hr)
        exact .inl hs
      · rcases ih hr with hs | hle
        · cases hs
        · exact .inr (by omega)

lemma runsFrom_ordered (i : Nat) (start : Option Nat) (flags : List Bool) :
    (runsFrom i start flags).Pairwise fun r r' => r.2 < r'.1 := by
  induction flags generalizing i start with
  | nil => cases start <;> simp [runsFrom]
  | cons flag flags ih =>
    cases flag with
    | true => exact ih (i + 1) _
    | false =>
      cases start with
      | none => exact ih (i + 1) none
      | some s =>
        refine List.pairwise_cons.2 ⟨fun r hr => ?_, ih (i + 1) none⟩
        rcases start_le_of_mem_runsFrom hr with hs | hle
        · cases hs
        · exact hle

theorem runs_spec (flags : List Bool) : Runs flags (runs flags) where
  mem r := by
    have hstart : Pending [] none := ⟨nofun, fun _ k hk => absurd hk (Nat.succ_ne_zero k)⟩
    have hmem := mem_runsFrom hstart flags (s := r.1) (e := r.2)
    rw [List.nil_append] at hmem
    exact hmem.trans (and_iff_left (Nat.zero_le _))
  ordered := runsFrom_ordered 0 none flags

/-- There is one list of the maximal runs. -/
theorem Runs.eq {flags : List Bool} {rs : List (Nat × Nat)} (h : Runs flags rs) : rs = runs flags := by
  have hordered {rs : List (Nat × Nat)} (h : Runs flags rs) : rs.Pairwise fun r r' => r.1 < r'.1 :=
    h.ordered.imp_of_mem fun {r r'} hr _ hlt => by
      have := ((h.mem r).1 hr).lt
      omega
  have hperm : rs.Perm (runs flags) :=
    (List.perm_ext_iff_of_nodup ((hordered h).imp fun hlt heq => by simp [heq] at hlt)
      ((hordered (runs_spec flags)).imp fun hlt heq => by simp [heq] at hlt)).2
        fun r => (h.mem r).trans ((runs_spec flags).mem r).symm
  exact hperm.eq_of_pairwise (fun r r' _ _ hlt hlt' => by omega) (hordered h)
    (hordered (runs_spec flags))

/-! ### Joined runs -/

/-- A segment and runs after it, with the runs joined that begin at most `h` after what is before
them ends. -/
def joinFrom (h : Nat) (s e : Nat) : List (Nat × Nat) → List (Nat × Nat)
  | [] => [(s, e)]
  | r :: rs => if r.1 - e ≤ h then joinFrom h s r.2 rs else (s, e) :: joinFrom h r.1 r.2 rs

/-- Runs, with those joined that have a gap of at most `h` between them. -/
def join (h : Nat) : List (Nat × Nat) → List (Nat × Nat)
  | [] => []
  | r :: rs => joinFrom h r.1 r.2 rs

section

variable {h : Nat}

/-- A run goes on as its segment does. -/
lemma joinFrom_runsFrom {s e i : Nat} (hgap : i - e ≤ h) (j : Nat) (flags : List Bool) :
    joinFrom h s e (runsFrom j (some i) flags) = joinFrom h s j (runsFrom j none flags) := by
  induction flags generalizing e i j with
  | nil =>
    change joinFrom h s e [(i, j)] = [(s, j)]
    rw [joinFrom, if_pos hgap, joinFrom]
  | cons flag flags ih =>
    cases flag with
    | true =>
      have hgo : j - j ≤ h := by omega
      rw [runsFrom, runsFrom, Option.getD_some, Option.getD_none, ih hgap, ih hgo]
    | false =>
      change joinFrom h s e ((i, j) :: runsFrom (j + 1) none flags) = _
      rw [joinFrom, if_pos hgap]
      rfl

lemma join_runsFrom (i j : Nat) (flags : List Bool) :
    join h (runsFrom j (some i) flags) = joinFrom h i j (runsFrom j none flags) := by
  induction flags generalizing j with
  | nil => rfl
  | cons flag flags ih =>
    cases flag with
    | true =>
      have hgo : j - j ≤ h := by omega
      rw [runsFrom, runsFrom, Option.getD_some, Option.getD_none, ih, joinFrom_runsFrom hgo]
    | false => rfl

/-- A segment ends where a longer gap follows. -/
lemma joinFrom_of_lt {s e j : Nat} (hgap : e + h < j) (flags : List Bool) :
    joinFrom h s e (runsFrom j none flags) = (s, e) :: join h (runsFrom j none flags) := by
  cases hruns : runsFrom j none flags with
  | nil => rfl
  | cons r rs =>
    have hstart : none = some r.1 ∨ j ≤ r.1 :=
      start_le_of_mem_runsFrom (hruns ▸ List.mem_cons_self)
    have hle : j ≤ r.1 := hstart.resolve_left nofun
    rw [joinFrom, if_neg (by omega), join]

end

end Pulse.Lib
