import Mathlib.Logic.Function.Basic
import Pulse.Db.EntryPoints
import Pulse.Lib.Run

/-!
# The pool of connections

The sessions share connections, and `use_org_schema` pins a connection and not the session:
`SET search_path` lasts for the connection once its transaction commits and is undone when it
rolls back. A session gives its connection back at the end of each transaction and is handed
any other for its next statement.
-/

namespace Pulse.Db

/-- A connection in use: the search path of its transaction and the one a rollback leaves. -/
structure Connection where
  kept : Ident
  current : Ident
  deriving DecidableEq, Repr

/-- The search path of a new connection. -/
def publicPath : Ident := "public".toList

/-- A data statement as it was executed. -/
structure Statement where
  session : Nat
  org : String
  path : Ident
  deriving DecidableEq, Repr

structure Pool where
  /-- The search paths that the idle connections keep. -/
  idle : List Ident := []
  conn : Nat → Option Connection := fun _ => none
  todo : Nat → List Op := fun _ => []
  log : List Statement := []

namespace Pool

/-- The connection a session executes its next statement on: its own, the idle one that is
picked, or a new one. -/
def checkout (s : Pool) (i : Nat) (pick : Option Nat) : Option (Connection × List Ident) :=
  match s.conn i with
  | some c => some (c, s.idle)
  | none =>
    match pick with
    | none => some (⟨publicPath, publicPath⟩, s.idle)
    | some k => s.idle[k]?.map fun path => (⟨path, path⟩, s.idle.eraseIdx k)

/-- The session gives its connection back with this search path. -/
def giveBack (s : Pool) (i : Nat) (path : Connection → Ident) (rest : List Op) : Pool :=
  { s with
    idle := (s.conn i).toList.map path ++ s.idle
    conn := Function.update s.conn i none
    todo := Function.update s.todo i rest }

def use (s : Pool) (i : Nat) (c : Connection) (idle : List Ident) (rest : List Op) : Pool :=
  { s with
    idle := idle
    conn := Function.update s.conn i (some c)
    todo := Function.update s.todo i rest }

def record (s : Pool) (i : Nat) (org : String) (path : Ident) : Pool :=
  { s with log := ⟨i, org, path⟩ :: s.log }

end Pool

inductive PoolAction
  | start (i : Nat) (entry : Entry)
  | next (i : Nat) (pick : Option Nat)
  /-- An error, or a stream whose client has gone: what is left is the rollback. -/
  | interrupt (i : Nat)
  deriving Repr

section

variable (py : Casing)

def execute (s : Pool) (i : Nat) (pick : Option Nat) (rest : List Op) : Op → Option Pool
  | .commit => some (s.giveBack i (·.current) rest)
  | .rollback => some (s.giveBack i (·.kept) rest)
  | .catalog => (s.checkout i pick).map fun (c, idle) => s.use i c idle rest
  | .pin org => (s.checkout i pick).map fun (c, idle) =>
      s.use i { c with current := tableSchema py org } idle rest
  | .data org => (s.checkout i pick).map fun (c, idle) =>
      (s.use i c idle rest).record i org c.current

def poolStep (s : Pool) : PoolAction → Option Pool
  | .start i entry =>
    if s.todo i = [] ∧ s.conn i = none then
      some { s with todo := Function.update s.todo i entry.ops }
    else none
  | .next i pick =>
    match s.todo i with
    | [] => none
    | op :: rest => execute py s i pick rest op
  | .interrupt i => some { s with todo := Function.update s.todo i [.rollback] }

def PoolSteps (s : Pool) (a : PoolAction) (t : Pool) : Prop :=
  poolStep py s a = some t

/-- The condition on a step: a data statement that opens a transaction is handed a connection
that was last left in the schema of its organisation. -/
def HandedOwn (s : Pool) : PoolAction → Prop
  | .next i pick => ∀ org rest, s.todo i = .data org :: rest → s.conn i = none →
      ∀ c idle, s.checkout i pick = some (c, idle) → c.kept = tableSchema py org
  | _ => True

/-- Every data statement ran in the schema of its organisation. -/
def RanAtHome (s : Pool) : Prop :=
  ∀ st ∈ s.log, st.path = tableSchema py st.org

/-- The session's connection is pinned as its transaction needs it. -/
def Matches : Option Connection → Held → Prop
  | none, .nothing => True
  | some _, .unpinned => True
  | some c, .under org => c.current = tableSchema py org
  | _, _ => False

/-- The invariant: what is left of each session is accepted from the transaction it has open. -/
structure PoolInv (strict : Bool) (s : Pool) : Prop where
  home : RanAtHome py s
  session : ∀ i, ∃ h h', Lib.follow (Held.next strict) h (s.todo i) = some h' ∧
    Matches py (s.conn i) h

end

section

variable {py : Casing} {strict : Bool} {s t : Pool} {i : Nat}

lemma checkout_own {pick : Option Nat} {c : Connection} {idle : List Ident}
    (h : s.checkout i pick = some (c, idle)) :
    s.conn i = some c ∨ s.conn i = none ∧ c.current = c.kept := by
  unfold Pool.checkout at h
  split at h
  · rename_i c' hc
    cases h
    exact .inl hc
  · rename_i hnone
    refine .inr ⟨hnone, ?_⟩
    split at h
    · cases h
      rfl
    · obtain ⟨path, -, hpath⟩ := Option.map_eq_some_iff.1 h
      cases hpath
      rfl

lemma PoolInv.update {rest : List Op} {c : Option Connection} (h : PoolInv py strict s)
    (hconn : t.conn = Function.update s.conn i c) (htodo : t.todo = Function.update s.todo i rest)
    (hhome : RanAtHome py t)
    (hi : ∃ h h', Lib.follow (Held.next strict) h rest = some h' ∧ Matches py c h) :
    PoolInv py strict t := by
  refine ⟨hhome, fun j => ?_⟩
  rw [hconn, htodo]
  by_cases hji : j = i
  · subst hji
    simpa only [Function.update_self] using hi
  · simpa only [Function.update_of_ne hji] using h.session j

lemma PoolInv.giveBack {path : Connection → Ident} {rest : List Op} {h' : Held}
    (h : PoolInv py strict s)
    (hrest : Lib.follow (Held.next strict) .nothing rest = some h') :
    PoolInv py strict (s.giveBack i path rest) :=
  h.update (c := none) rfl rfl h.home ⟨.nothing, h', hrest, trivial⟩

lemma PoolInv.use {c : Connection} {idle : List Ident} {rest : List Op} {held h' : Held}
    (h : PoolInv py strict s) (hrest : Lib.follow (Held.next strict) held rest = some h')
    (hc : Matches py (some c) held) : PoolInv py strict (s.use i c idle rest) :=
  h.update (c := some c) rfl rfl h.home ⟨held, h', hrest, hc⟩

lemma RanAtHome.record {org : String} {path : Ident} (h : RanAtHome py s)
    (hpath : path = tableSchema py org) : RanAtHome py (s.record i org path) := by
  intro st hst
  rcases List.mem_cons.1 hst with rfl | hst
  · exact hpath
  · exact h st hst

/-- What a session's next statement finds: a transaction of its own, or none. -/
lemma matches_checkout {pick : Option Nat} {c : Connection} {idle : List Ident} {held : Held}
    (hm : Matches py (s.conn i) held) (h : s.checkout i pick = some (c, idle)) :
    held = .nothing ∧ s.conn i = none ∧ c.current = c.kept ∨
      held ≠ .nothing ∧ Matches py (some c) held := by
  rcases checkout_own h with hc | ⟨hnone, hsame⟩
  · rw [hc] at hm
    refine .inr ⟨?_, hm⟩
    rintro rfl
    exact hm
  · rw [hnone] at hm
    cases held with
    | nothing => exact .inl ⟨rfl, hnone, hsame⟩
    | _ => exact absurd hm id

lemma PoolInv.execute {pick : Option Nat} {op : Op} {rest : List Op} (h : PoolInv py strict s)
    (htodo : s.todo i = op :: rest) (hhanded : strict = true ∨ HandedOwn py s (.next i pick))
    (hstep : execute py s i pick rest op = some t) : PoolInv py strict t := by
  obtain ⟨held, h', hfollow, hm⟩ := h.session i
  rw [htodo] at hfollow
  obtain ⟨held', hnext, hrest⟩ := Option.bind_eq_some_iff.1 hfollow
  cases op with
  | commit =>
    cases hstep
    obtain rfl : held' = .nothing := Option.some.inj (hnext.symm.trans held.next_commit)
    exact h.giveBack hrest
  | rollback =>
    cases hstep
    obtain rfl : held' = .nothing := Option.some.inj (hnext.symm.trans held.next_rollback)
    exact h.giveBack hrest
  | catalog =>
    obtain ⟨⟨c, idle⟩, hout, rfl⟩ := Option.map_eq_some_iff.1 hstep
    apply h.use hrest
    rcases matches_checkout hm hout with ⟨rfl, -, -⟩ | ⟨hheld, hc⟩
    · cases hnext
      trivial
    · cases held with
      | nothing => exact absurd rfl hheld
      | unpinned => cases hnext; exact hc
      | under org => cases hnext; exact hc
  | pin org =>
    obtain ⟨⟨c, idle⟩, hout, rfl⟩ := Option.map_eq_some_iff.1 hstep
    obtain rfl : held' = .under org := Option.some.inj (hnext.symm.trans held.next_pin)
    exact h.use hrest rfl
  | data org =>
    obtain ⟨⟨c, idle⟩, hout, rfl⟩ := Option.map_eq_some_iff.1 hstep
    -- A transaction is for the organisation already, or this statement opens it.
    have hpath : held' = .under org ∧ c.current = tableSchema py org := by
      rcases matches_checkout hm hout with ⟨rfl, hnone, hsame⟩ | ⟨hheld, hc⟩
      · rcases hhanded with rfl | hhanded
        · cases hnext
        · cases strict
          · cases hnext
            exact ⟨rfl, hsame.trans (hhanded org rest htodo hnone c idle hout)⟩
          · cases hnext
      · cases held with
        | nothing => exact absurd rfl hheld
        | unpinned => cases hnext
        | under slug =>
          by_cases hslug : slug = org
          · subst hslug
            rw [Held.next_under, if_pos rfl] at hnext
            exact ⟨(Option.some.inj hnext).symm, hc⟩
          · rw [Held.next_under, if_neg hslug] at hnext
            cases hnext
    have hused : PoolInv py strict (s.use i c idle rest) :=
      h.use hrest (hpath.1 ▸ hpath.2 : Matches py (some c) held')
    exact ⟨hused.home.record hpath.2, hused.session⟩

/-- A step keeps the invariant when its condition holds, or when every session pins. -/
lemma PoolInv.step {a : PoolAction} (h : PoolInv py strict s)
    (hpins : strict = true → ∀ i entry, a = .start i entry → entry.Pins = true)
    (hhanded : strict = true ∨ HandedOwn py s a) (hstep : PoolSteps py s a t) :
    PoolInv py strict t := by
  cases a with
  | start i entry =>
    simp only [PoolSteps, poolStep] at hstep
    split at hstep <;> cases hstep
    rename_i hidle
    have hops : ∃ h', Lib.follow (Held.next strict) .nothing entry.ops = some h' := by
      cases strict with
      | false => exact (entry.leads .nothing rfl).imp fun _ h => h.1
      | true => exact (entry.leads_of_pins (hpins rfl i entry rfl) .nothing rfl).imp fun _ h => h.1
    obtain ⟨h', hops⟩ := hops
    exact h.update (c := none) (by rw [← hidle.2, Function.update_eq_self]) rfl h.home
      ⟨.nothing, h', hops, trivial⟩
  | next i pick =>
    simp only [PoolSteps, poolStep] at hstep
    split at hstep
    · cases hstep
    · rename_i op rest htodo
      exact h.execute htodo hhanded hstep
  | interrupt i =>
    cases hstep
    obtain ⟨held, -, -, hm⟩ := h.session i
    exact h.update (c := s.conn i) (Function.update_eq_self i s.conn).symm rfl h.home
      ⟨held, .nothing, by cases held <;> rfl, hm⟩

lemma PoolInv.empty : PoolInv py strict {} where
  home := by simp [RanAtHome]
  session _ := ⟨.nothing, .nothing, rfl, trivial⟩

lemma execute_log {pick : Option Nat} {op : Op} {rest : List Op}
    (h : execute py s i pick rest op = some t) : ∀ st ∈ s.log, st ∈ t.log := by
  intro st hst
  cases op with
  | commit =>
    cases h
    exact hst
  | rollback =>
    cases h
    exact hst
  | data org =>
    obtain ⟨⟨c, idle⟩, -, rfl⟩ := Option.map_eq_some_iff.1 h
    exact List.mem_cons_of_mem _ hst
  | _ =>
    obtain ⟨⟨c, idle⟩, -, rfl⟩ := Option.map_eq_some_iff.1 h
    exact hst

lemma PoolSteps.log {a : PoolAction} (h : PoolSteps py s a t) : ∀ st ∈ s.log, st ∈ t.log := by
  cases a with
  | start i entry =>
    simp only [PoolSteps, poolStep] at h
    split at h <;> cases h
    exact fun st hst => hst
  | next i pick =>
    simp only [PoolSteps, poolStep] at h
    split at h
    · cases h
    · exact execute_log h
  | interrupt i =>
    cases h
    exact fun st hst => hst

lemma RanAtHome.of_step {a : PoolAction} (h : RanAtHome py t) (hstep : PoolSteps py s a t) :
    RanAtHome py s :=
  fun st hst => h st (hstep.log st hst)

/-- A statement that is handed a foreign connection is logged with its search path. -/
lemma RanAtHome.handedOwn {a : PoolAction} (h : RanAtHome py t) (hstep : PoolSteps py s a t) :
    HandedOwn py s a := by
  cases a with
  | next i pick =>
    intro org rest htodo hnone c idle hout
    simp only [PoolSteps, poolStep, htodo, Pulse.Db.execute, hout, Option.map_some,
      Option.some.injEq] at hstep
    subst hstep
    have hsame : c.current = c.kept := by
      rcases checkout_own hout with hc | ⟨-, hsame⟩
      · rw [hnone] at hc
        cases hc
      · exact hsame
    exact hsame.symm.trans (h ⟨i, org, c.current⟩ List.mem_cons_self)
  | _ => trivial

lemma RanAtHome.of_run {as : List PoolAction} (hrun : Lib.Run (PoolSteps py) s as t)
    (h : RanAtHome py t) :
    RanAtHome py s ∧ Lib.Run (Lib.guarded (PoolSteps py) (HandedOwn py)) s as t := by
  induction hrun with
  | nil s => exact ⟨h, .nil s⟩
  | cons hstep _ ih =>
    obtain ⟨hmid, hrest⟩ := ih h
    exact ⟨hmid.of_step hstep, .cons ⟨hstep, hmid.handedOwn hstep⟩ hrest⟩

/-- The entry points that pin each of their transactions need no luck with the pool. -/
theorem ranAtHome_of_pins {as : List PoolAction}
    (h : Lib.Run (Lib.guarded (PoolSteps py)
      (fun _ a => ∀ i entry, a = .start i entry → entry.Pins = true)) {} as t) :
    RanAtHome py t :=
  (h.invariant_guarded (I := PoolInv py true)
    (fun _ _ _ hinv hok hstep => hinv.step (fun _ => hok) (.inl rfl) hstep) PoolInv.empty).home

end

section

def afterPool (as : List PoolAction) : Pool :=
  as.foldl (fun s a => (poolStep asciiCasing s a).getD s) {}

/-- The boards stream of an organisation is handed the connection of its own request. -/
def boardsAfterOwnRequest : List PoolAction :=
  [.start 0 (.request [("acme", 1)] true), .next 0 none, .next 0 none, .next 0 none,
    .start 1 (.boardsStream "acme" 1 []), .next 1 (some 0)]

/-- A request of one organisation comes and goes, and the boards stream of another is handed its
connection. -/
def boardsAfterRequest : List PoolAction :=
  [.start 0 (.request [("beta", 1)] true), .next 0 none, .next 0 none, .next 0 none,
    .start 1 (.boardsStream "acme" 1 []), .next 1 (some 0)]

end

end Pulse.Db
