import Mathlib.Data.List.Nodup
import Mathlib.Data.Finset.Card
import Mathlib.Logic.Function.Basic
import Mathlib.Tactic.Common
import Pulse.Lib.Run

/-!
# The rate limiter

`allow` of `ratelimit.py` where it has a Redis client: INCR, then EXPIRE when the counter is new. Each
command is one step, other calls may come between the two, either can fail, and the process can die
between them.
-/

namespace Pulse.Auth.Limiter

open Lib (Run guarded)

/-- The arguments of `allow`. -/
structure Call where
  key : String
  limit : Int
  windowS : Int
  deriving DecidableEq

/-- A counter in Redis, and when it lapses. -/
structure Counter where
  value : Nat
  deadline : Option Int := none
  deriving DecidableEq

/-- The number that a call got from INCR, in one lifetime of its key. -/
structure Ticket where
  call : Call
  lifetime : Nat
  n : Nat
  deriving DecidableEq

/-- Redis with its clock in milliseconds, and the calls that got 1 and have EXPIRE to send. Beside
them the run's history: how many lifetimes of a key are over, and the calls that were admitted by
what Redis answered. -/
structure State where
  now : Int := 0
  redis : String → Option Counter := fun _ => none
  pending : List Ticket := []
  lifetime : String → Nat := fun _ => 0
  admitted : List Ticket := []

namespace State

variable (s : State)

def count (key : String) : Nat := (s.redis key).elim 0 Counter.value

/-- A key goes. -/
def drop (key : String) : State :=
  { s with
    redis := Function.update s.redis key none
    lifetime := Function.update s.lifetime key (s.lifetime key + 1) }

def incr (key : String) : State :=
  let counter : Counter :=
    { value := s.count key + 1, deadline := (s.redis key).bind Counter.deadline }
  { s with redis := Function.update s.redis key (some counter) }

/-- A time to live that is not positive deletes the key. -/
def expire (key : String) (windowS : Int) : State :=
  if s.redis key = none then s
  else if windowS ≤ 0 then s.drop key
  else
    let counter := (s.redis key).map ({ · with deadline := some (s.now + 1000 * windowS) })
    { s with redis := Function.update s.redis key counter }

def lapsed (now : Int) (key : String) : Bool :=
  ((s.redis key).bind Counter.deadline).any (· ≤ now)

/-- Time goes on, and the counters lapse whose time to live is over. -/
def tick (ms : Nat) : State :=
  { s with
    now := s.now + ms
    redis := fun key => if s.lapsed (s.now + ms) key then none else s.redis key
    lifetime := fun key => if s.lapsed (s.now + ms) key then s.lifetime key + 1 else s.lifetime key }

/-- `n <= limit` -/
def answer (t : Ticket) : State :=
  if (t.n : Int) ≤ t.call.limit then { s with admitted := t :: s.admitted } else s

def leave (t : Ticket) : State := { s with pending := s.pending.erase t }

/-- The ticket of a call that increments now. -/
def ticket (c : Call) : Ticket :=
  { call := c, lifetime := s.lifetime c.key, n := s.count c.key + 1 }

end State

inductive Action
  /-- Redis answers INCR. -/
  | incr (c : Call)
  /-- The command raises, before or after Redis has carried it out. -/
  | incrError (c : Call) (done : Bool)
  | expire (t : Ticket)
  | expireError (t : Ticket) (done : Bool)
  /-- The process dies before EXPIRE. -/
  | crash (t : Ticket)
  | tick (ms : Nat)
  /-- Redis loses a key. -/
  | lose (key : String)

/-- The state after an action, if it can be taken now. -/
def act (s : State) : Action → Option State
  | .incr c =>
    let t := s.ticket c
    if t.n = 1 then some { s.incr c.key with pending := t :: s.pending }
    else some ((s.incr c.key).answer t)
  -- `_safe` answers with its default, True
  | .incrError c done => some (if done then s.incr c.key else s)
  | .expire t =>
    if t ∈ s.pending then some (((s.leave t).expire t.call.key t.call.windowS).answer t) else none
  | .expireError t done =>
    if t ∈ s.pending then
      some (if done then (s.leave t).expire t.call.key t.call.windowS else s.leave t)
    else none
  | .crash t => if t ∈ s.pending then some (s.leave t) else none
  | .tick ms => some (s.tick ms)
  | .lose key => some (s.drop key)

def Acts (s : State) (a : Action) (t : State) : Prop := act s a = some t

/-- The branches of `act`. -/
inductive Step (s : State) : Action → State → Prop
  | first {c : Call} : (s.ticket c).n = 1 →
      Step s (.incr c) { s.incr c.key with pending := s.ticket c :: s.pending }
  | later {c : Call} : (s.ticket c).n ≠ 1 →
      Step s (.incr c) ((s.incr c.key).answer (s.ticket c))
  | incrLost {c : Call} : Step s (.incrError c false) s
  | incrDone {c : Call} : Step s (.incrError c true) (s.incr c.key)
  | expire {p : Ticket} : p ∈ s.pending →
      Step s (.expire p) (((s.leave p).expire p.call.key p.call.windowS).answer p)
  | expireLost {p : Ticket} : Step s (.expireError p false) (s.leave p)
  | expireDone {p : Ticket} :
      Step s (.expireError p true) ((s.leave p).expire p.call.key p.call.windowS)
  | crash {p : Ticket} : Step s (.crash p) (s.leave p)
  | tick {ms : Nat} : Step s (.tick ms) (s.tick ms)
  | lose {key : String} : Step s (.lose key) (s.drop key)

lemma Acts.step {s t : State} {a : Action} (hact : Acts s a t) : Step s a t := by
  cases a with
  | incr c =>
    simp only [Acts, act] at hact
    split at hact
    · next hfirst =>
      cases hact
      exact .first hfirst
    · next hlater =>
      cases hact
      exact .later hlater
  | incrError c done =>
    cases hact
    cases done with
    | false => exact .incrLost
    | true => exact .incrDone
  | expire p =>
    simp only [Acts, act] at hact
    split at hact
    · next hp =>
      cases hact
      exact .expire hp
    · cases hact
  | expireError p done =>
    simp only [Acts, act] at hact
    split at hact
    · cases hact
      cases done with
      | false => exact .expireLost
      | true => exact .expireDone
    · cases hact
  | crash p =>
    simp only [Acts, act] at hact
    split at hact
    · cases hact
      exact .crash
    · cases hact
  | tick ms =>
    cases hact
    exact .tick
  | lose key =>
    cases hact
    exact .lose

/-! ### Admitted calls -/

/-- Each key is in a later lifetime, or in the same one with a counter no lower. -/
def Onward (s t : State) : Prop := ∀ key,
  s.lifetime key < t.lifetime key ∨ s.lifetime key = t.lifetime key ∧ s.count key ≤ t.count key

/-- The tickets of one lifetime of a key are different numbers, none above its counter. -/
structure Numbered (s : State) (ts : List Ticket) : Prop where
  nodup : (ts.map fun t => (t.call.key, t.lifetime, t.n)).Nodup
  pos : ∀ t ∈ ts, 0 < t.n
  counted : ∀ t ∈ ts, t.lifetime < s.lifetime t.call.key ∨
    t.lifetime = s.lifetime t.call.key ∧ t.n ≤ s.count t.call.key

/-- What holds between the actions. -/
structure Inv (s : State) : Prop where
  numbered : Numbered s (s.pending ++ s.admitted)
  below : ∀ t ∈ s.admitted, (t.n : Int) ≤ t.call.limit

section

variable {s t : State} {key : String} {a : Action} {p : Ticket} {ts : List Ticket}

lemma onward_refl : Onward s s := fun _ => .inr ⟨rfl, le_rfl⟩

lemma onward_drop : Onward s (s.drop key) := by
  intro key'
  by_cases hkey : key' = key
  · left
    simp [State.drop, hkey]
  · right
    simp [State.drop, State.count, hkey]

lemma onward_incr : Onward s (s.incr key) := by
  intro key'
  right
  by_cases hkey : key' = key
  · simp [State.incr, State.count, hkey]
  · simp [State.incr, State.count, hkey]

lemma onward_tick {ms : Nat} : Onward s (s.tick ms) := by
  intro key'
  by_cases hlapsed : s.lapsed (s.now + ms) key'
  · left
    simp [State.tick, hlapsed]
  · right
    simp [State.tick, State.count, hlapsed]

/-- EXPIRE leaves the state as it is, or drops the key, or gives its counter a deadline. -/
lemma expire_cases (s : State) (key : String) (windowS : Int) :
    s.redis key = none ∧ s.expire key windowS = s ∨
      windowS ≤ 0 ∧ s.expire key windowS = s.drop key ∨
      ∃ c, 0 < windowS ∧ s.redis key = some c ∧ s.expire key windowS =
        { s with
          redis := Function.update s.redis key
            (some { c with deadline := some (s.now + 1000 * windowS) }) } := by
  rw [State.expire]
  split
  · next hnone => exact .inl ⟨hnone, rfl⟩
  · next hsome =>
    split
    · next hw => exact .inr (.inl ⟨hw, rfl⟩)
    · next hw =>
      obtain ⟨c, hc⟩ := Option.ne_none_iff_exists'.1 hsome
      refine .inr (.inr ⟨c, by omega, hc, ?_⟩)
      rw [hc]
      rfl

lemma onward_expire {windowS : Int} : Onward s (s.expire key windowS) := by
  obtain ⟨-, heq⟩ | ⟨-, heq⟩ | ⟨c, -, hc, heq⟩ := expire_cases s key windowS
  · rw [heq]
    exact onward_refl
  · rw [heq]
    exact onward_drop
  · rw [heq]
    intro key'
    right
    by_cases hkey : key' = key
    · simp [State.count, hkey, hc]
    · simp [State.count, hkey]

lemma Numbered.onward (h : Numbered s ts) (hst : Onward s t) : Numbered t ts := by
  refine ⟨h.nodup, h.pos, fun p hp => ?_⟩
  have hcounted := h.counted p hp
  have hon := hst p.call.key
  omega

lemma Numbered.sublist {ts' : List Ticket} (h : Numbered s ts) (hsub : ts'.Sublist ts) :
    Numbered s ts' :=
  ⟨h.nodup.sublist (hsub.map _), fun p hp => h.pos p (hsub.subset hp),
    fun p hp => h.counted p (hsub.subset hp)⟩

lemma Numbered.perm {ts' : List Ticket} (h : Numbered s ts) (hperm : ts'.Perm ts) :
    Numbered s ts' :=
  ⟨(hperm.map _).nodup_iff.2 h.nodup, fun p hp => h.pos p (hperm.mem_iff.1 hp),
    fun p hp => h.counted p (hperm.mem_iff.1 hp)⟩

/-- The ticket that INCR gives out is a new one. -/
lemma Numbered.ticket (h : Numbered s ts) (c : Call) :
    Numbered (s.incr c.key) (s.ticket c :: ts) := by
  refine ⟨?_, ?_, ?_⟩
  · rw [List.map_cons, List.nodup_cons]
    refine ⟨fun hmem => ?_, h.nodup⟩
    obtain ⟨p, hp, heq⟩ := List.mem_map.1 hmem
    obtain ⟨hkey, hlifetime, hn⟩ : p.call.key = c.key ∧ p.lifetime = s.lifetime c.key ∧
        p.n = s.count c.key + 1 := by simpa [State.ticket] using heq
    have hcounted := h.counted p hp
    rw [hkey, hlifetime, hn] at hcounted
    omega
  · refine List.forall_mem_cons.2 ⟨?_, h.pos⟩
    exact Nat.succ_pos _
  · refine List.forall_mem_cons.2 ⟨.inr ⟨rfl, ?_⟩, (h.onward onward_incr).counted⟩
    simp [State.ticket, State.incr, State.count]

@[simp] lemma expire_pending (windowS : Int) : (s.expire key windowS).pending = s.pending := by
  obtain ⟨-, heq⟩ | ⟨-, heq⟩ | ⟨c, -, -, heq⟩ := expire_cases s key windowS
  · rw [heq]
  · rw [heq, State.drop]
  · rw [heq]

@[simp] lemma expire_admitted (windowS : Int) : (s.expire key windowS).admitted = s.admitted := by
  obtain ⟨-, heq⟩ | ⟨-, heq⟩ | ⟨c, -, -, heq⟩ := expire_cases s key windowS
  · rw [heq]
  · rw [heq, State.drop]
  · rw [heq]

lemma Inv.onward (h : Inv s) (hst : Onward s t) (hpending : t.pending.Sublist s.pending)
    (hadmitted : t.admitted = s.admitted) : Inv t := by
  refine ⟨?_, hadmitted ▸ h.below⟩
  rw [hadmitted]
  exact (h.numbered.sublist (hpending.append_right _)).onward hst

/-- A ticket of a state whose other tickets are numbered is answered. -/
lemma Inv.answer (h : Numbered s (p :: (s.pending ++ s.admitted)))
    (hbelow : ∀ t ∈ s.admitted, (t.n : Int) ≤ t.call.limit) : Inv (s.answer p) := by
  rw [State.answer]
  split
  · next hlimit =>
    refine ⟨?_, List.forall_mem_cons.2 ⟨hlimit, hbelow⟩⟩
    exact (h.perm List.perm_middle).onward onward_refl
  · exact ⟨h.sublist (List.sublist_cons_self ..), hbelow⟩

lemma Inv.expire (h : Inv s) (hp : p ∈ s.pending) :
    Inv (((s.leave p).expire p.call.key p.call.windowS).answer p) := by
  apply Inv.answer
  · rw [expire_pending, expire_admitted]
    have hperm := (List.perm_cons_erase hp).symm
    exact (h.numbered.perm (hperm.append_right _)).onward (onward_expire (s := s.leave p))
  · rw [expire_admitted]
    exact h.below

lemma Inv.leave (h : Inv s) : Inv (s.leave p) := h.onward onward_refl List.erase_sublist rfl

lemma Inv.act (h : Inv s) (hact : Acts s a t) : Inv t := by
  cases hact.step with
  | first => exact ⟨(h.numbered.ticket _).onward onward_refl, h.below⟩
  | later => exact Inv.answer (h.numbered.ticket _) h.below
  | incrLost => exact h
  | incrDone => exact h.onward onward_incr (List.Sublist.refl _) rfl
  | expire hp => exact h.expire hp
  | expireLost | crash => exact h.leave
  | expireDone =>
    apply h.leave.onward onward_expire
    · rw [expire_pending]
    · exact expire_admitted _
  | tick => exact h.onward onward_tick (List.Sublist.refl _) rfl
  | lose => exact h.onward onward_drop (List.Sublist.refl _) rfl

/-- Of the calls with at most some limit no more than that are admitted in one lifetime. -/
lemma Inv.admitted_le (h : Inv s) (key : String) (lifetime : Nat) (limit : Int) :
    s.admitted.countP (fun t => t.call.key = key ∧ t.lifetime = lifetime ∧ t.call.limit ≤ limit) ≤
      limit.toNat := by
  rw [List.countP_eq_length_filter]
  let ts := s.admitted.filter fun t =>
    t.call.key = key ∧ t.lifetime = lifetime ∧ t.call.limit ≤ limit
  have hmem : ∀ t ∈ ts, t ∈ s.admitted ∧ t.call.key = key ∧ t.lifetime = lifetime ∧
      t.call.limit ≤ limit := by
    intro t ht
    simpa [ts] using ht
  have hnodup : (ts.map Ticket.n).Nodup := by
    have hall := h.numbered.nodup.sublist
      ((List.sublist_append_right s.pending s.admitted).map _)
    have hts := hall.sublist (List.filter_sublist.map _ : (ts.map _).Sublist _)
    refine List.Nodup.of_map (fun n => (key, lifetime, n)) ?_
    rw [List.map_map]
    convert hts using 1
    refine List.map_congr_left fun t ht => ?_
    obtain ⟨-, hkey, hlifetime, -⟩ := hmem t ht
    simp [hkey, hlifetime]
  have hsub : ts.map Ticket.n ⊆ List.range' 1 limit.toNat := by
    intro n hn
    obtain ⟨t, ht, rfl⟩ := List.mem_map.1 hn
    obtain ⟨hadm, -, -, hlimit⟩ := hmem t ht
    have hpos := h.numbered.pos t (List.mem_append_right _ hadm)
    have hbelow := h.below t hadm
    rw [List.mem_range'_1]
    omega
  have hlen := (List.subperm_of_subset hnodup hsub).length_le
  rwa [List.length_map, List.length_range'] at hlen

end

/-! ### Counters that lapse -/

/-- The key has a counter that does not lapse. -/
def Stuck (s : State) (key : String) : Prop := ∃ c, s.redis key = some c ∧ c.deadline = none

instance (s : State) (key : String) : Decidable (Stuck s key) :=
  decidable_of_iff ((s.redis key).any fun c => c.deadline.isNone) (by
    simp [Stuck, Option.any_eq_true])

/-- No other call has EXPIRE to send for a counter that does not lapse. -/
def Deserted (s : State) (t : Ticket) : Prop :=
  Stuck s t.call.key ∧ ∀ p ∈ s.pending.erase t, p.call.key ≠ t.call.key

/-- No command and no process fails between the creation of a counter and its EXPIRE. -/
def Kept (s : State) : Action → Prop
  | .incrError c done => done = true → s.redis c.key ≠ none
  | .expireError t done => done = false → ¬Deserted s t
  | .crash t => ¬Deserted s t
  | _ => True

/-- Each counter lapses, or a call has EXPIRE to send for it. -/
def Lapses (s : State) : Prop :=
  ∀ key, Stuck s key → ∃ p ∈ s.pending, p.call.key = key

def Action.call : Action → Option Call
  | .incr c | .incrError c _ => some c
  | .expire t | .expireError t _ | .crash t => some t.call
  | .tick _ | .lose _ => none

/-- The counter of the key lapses in the future, and within a window. -/
def Due (key : String) (windowS : Int) (s : State) : Prop :=
  ∀ c d, s.redis key = some c → c.deadline = some d → s.now < d ∧ d ≤ s.now + 1000 * windowS

section

variable {s t : State} {key : String} {windowS : Int} {a : Action} {p : Ticket}

lemma not_stuck_drop (key : String) : ¬Stuck (s.drop key) key := by
  simp [Stuck, State.drop]

lemma stuck_drop {key' : String} (h : Stuck (s.drop key) key') : Stuck s key' := by
  by_cases hkey : key' = key
  · subst hkey
    exact absurd h (not_stuck_drop key')
  · simpa [Stuck, State.drop, hkey] using h

lemma stuck_incr {key' : String} (h : Stuck (s.incr key) key') :
    Stuck s key' ∨ key' = key ∧ s.redis key = none := by
  by_cases hkey : key' = key
  · subst hkey
    cases hc : s.redis key' with
    | none => exact .inr ⟨rfl, rfl⟩
    | some c =>
      left
      simpa [Stuck, State.incr, hc] using h
  · left
    simpa [Stuck, State.incr, hkey] using h

lemma not_stuck_expire : ¬Stuck (s.expire key windowS) key := by
  obtain ⟨hnone, heq⟩ | ⟨-, heq⟩ | ⟨c, -, -, heq⟩ := expire_cases s key windowS
  · rw [heq]
    simp [Stuck, hnone]
  · rw [heq]
    exact not_stuck_drop key
  · rw [heq]
    simp [Stuck]

lemma stuck_expire {key' : String} (h : Stuck (s.expire key windowS) key') :
    Stuck s key' ∧ key' ≠ key := by
  have hkey : key' ≠ key := by
    rintro rfl
    exact not_stuck_expire h
  refine ⟨?_, hkey⟩
  obtain ⟨-, heq⟩ | ⟨-, heq⟩ | ⟨c, -, -, heq⟩ := expire_cases s key windowS
  · rwa [heq] at h
  · rw [heq] at h
    exact stuck_drop h
  · rw [heq] at h
    simpa [Stuck, hkey] using h

lemma stuck_tick {ms : Nat} (h : Stuck (s.tick ms) key) : Stuck s key := by
  obtain ⟨c, hc, hdeadline⟩ := h
  simp only [State.tick] at hc
  split at hc
  · cases hc
  · exact ⟨c, hc, hdeadline⟩

lemma answer_redis : (s.answer p).redis = s.redis := by
  rw [State.answer]
  split <;> rfl

lemma answer_pending : (s.answer p).pending = s.pending := by
  rw [State.answer]
  split <;> rfl

lemma stuck_answer (h : Stuck (s.answer p) key) : Stuck s key := by
  rwa [Stuck, answer_redis] at h

lemma mem_leave {q : Ticket} (hq : q ∈ s.pending) (hne : q.call.key ≠ p.call.key) :
    q ∈ (s.leave p).pending := by
  refine (List.mem_erase_of_ne ?_).2 hq
  rintro rfl
  exact hne rfl

/-- A call that goes without its EXPIRE leaves a counter that lapses, or another call. -/
lemma Lapses.leave (h : Lapses s) (hkept : ¬Deserted s p) : Lapses (s.leave p) := by
  intro key hstuck
  have hstuck : Stuck s key := hstuck
  by_cases hkey : key = p.call.key
  · subst hkey
    by_contra hnone
    exact hkept ⟨hstuck, fun q hq heq => hnone ⟨q, hq, heq⟩⟩
  · obtain ⟨q, hq, rfl⟩ := h key hstuck
    exact ⟨q, mem_leave hq hkey, rfl⟩

lemma Lapses.expire (h : Lapses s) : Lapses ((s.leave p).expire p.call.key windowS) := by
  intro key hstuck
  obtain ⟨hstuck, hkey⟩ := stuck_expire hstuck
  obtain ⟨q, hq, rfl⟩ := h key hstuck
  refine ⟨q, ?_, rfl⟩
  rw [expire_pending]
  exact mem_leave hq hkey

/-- The call that creates a counter has EXPIRE to send. -/
lemma Lapses.first {c : Call} (h : Lapses s) :
    Lapses { s.incr c.key with pending := s.ticket c :: s.pending } := by
  intro key hstuck
  obtain hstuck | ⟨rfl, -⟩ := stuck_incr hstuck
  · obtain ⟨q, hq, rfl⟩ := h key hstuck
    exact ⟨q, List.mem_cons_of_mem _ hq, rfl⟩
  · exact ⟨s.ticket c, List.mem_cons_self, rfl⟩

lemma Lapses.incr (h : Lapses s) (hkey : s.redis key ≠ none) : Lapses (s.incr key) := by
  intro key' hstuck
  obtain hstuck | ⟨rfl, hnone⟩ := stuck_incr hstuck
  · exact h key' hstuck
  · exact absurd hnone hkey

lemma Lapses.answer (h : Lapses s) : Lapses (s.answer p) := by
  intro key hstuck
  rw [answer_pending]
  exact h key (stuck_answer hstuck)

lemma Lapses.act (h : Lapses s) (hkept : Kept s a) (hact : Acts s a t) : Lapses t := by
  cases hact.step with
  | first => exact h.first
  | later hlater =>
    refine (h.incr fun hnone => hlater ?_).answer
    rw [State.ticket, State.count, hnone]
    rfl
  | incrLost => exact h
  | incrDone => exact h.incr (hkept rfl)
  | expire => exact h.expire.answer
  | expireLost => exact h.leave (hkept rfl)
  | expireDone => exact h.expire
  | crash => exact h.leave hkept
  | tick => exact fun key hstuck => h key (stuck_tick hstuck)
  | lose => exact fun key hstuck => h key (stuck_drop hstuck)

/-! ### Silence -/

lemma due_of_le (h : Due key windowS s) (hnow : t.now = s.now)
    (hredis : ∀ c, t.redis key = some c → c.deadline = none ∨
      ∃ b, s.redis key = some b ∧ b.deadline = c.deadline) : Due key windowS t := by
  intro c d hc hd
  rw [hnow]
  obtain hnone | ⟨b, hb, hdeadline⟩ := hredis c hc
  · rw [hnone] at hd
    cases hd
  · exact h b d hb (hdeadline.trans hd)

lemma Due.drop (h : Due key windowS s) (key' : String) : Due key windowS (s.drop key') := by
  refine due_of_le h rfl fun c hc => .inr ⟨c, ?_, rfl⟩
  by_cases hkey : key = key'
  · simp [State.drop, hkey] at hc
  · simpa [State.drop, hkey] using hc

lemma Due.incr (h : Due key windowS s) (key' : String) : Due key windowS (s.incr key') := by
  refine due_of_le h rfl fun c hc => ?_
  by_cases hkey : key = key'
  · subst hkey
    obtain rfl : _ = c := by simpa [State.incr] using hc
    cases hb : s.redis key with
    | none => exact .inl rfl
    | some b => exact .inr ⟨b, rfl, rfl⟩
  · exact .inr ⟨c, by simpa [State.incr, hkey] using hc, rfl⟩

lemma Due.expire {key' : String} {w : Int} (h : Due key windowS s)
    (hw : key' = key → w ≤ windowS) : Due key windowS (s.expire key' w) := by
  obtain ⟨-, heq⟩ | ⟨-, heq⟩ | ⟨b, hpos, -, heq⟩ := expire_cases s key' w
  · rwa [heq]
  · rw [heq]
    exact h.drop key'
  · rw [heq]
    intro c d hc hd
    by_cases hkey : key' = key
    · subst hkey
      obtain rfl : _ = c := by simpa using hc
      obtain rfl : s.now + 1000 * w = d := by simpa using hd
      have hle := hw rfl
      dsimp only
      omega
    · exact h c d (by simpa [Ne.symm hkey] using hc) hd

lemma Due.answer (h : Due key windowS s) : Due key windowS (s.answer p) := by
  rw [State.answer]
  split
  · exact h
  · exact h

lemma Due.tick (h : Due key windowS s) (ms : Nat) : Due key windowS (s.tick ms) := by
  intro c d hc hd
  simp only [State.tick] at hc ⊢
  split at hc
  · cases hc
  · next hlapsed =>
    have hlater : s.now + ms < d := by simpa [State.lapsed, hc, hd] using hlapsed
    have hdue := h c d hc hd
    omega

lemma Due.act (h : Due key windowS s)
    (hcall : ∀ c, a.call = some c → c.key = key → c.windowS ≤ windowS) (hact : Acts s a t) :
    Due key windowS t := by
  have hexpire (q : Ticket) (hq : a.call = some q.call) :
      Due key windowS ((s.leave q).expire q.call.key q.call.windowS) :=
    Due.expire (s := s.leave q) h (hcall q.call hq)
  cases hact.step with
  | first => exact h.incr _
  | later => exact (h.incr _).answer
  | incrLost | expireLost | crash => exact h
  | incrDone => exact h.incr _
  | expire => exact (hexpire _ rfl).answer
  | expireDone => exact hexpire _ rfl
  | tick => exact h.tick _
  | lose => exact h.drop _

lemma expire_redis (hne : p.call.key ≠ key) :
    ((s.leave p).expire p.call.key windowS).redis key = s.redis key := by
  obtain ⟨-, heq⟩ | ⟨-, heq⟩ | ⟨b, -, -, heq⟩ := expire_cases (s.leave p) p.call.key windowS
  · rw [heq, State.leave]
  · rw [heq]
    exact Function.update_of_ne (Ne.symm hne) ..
  · rw [heq]
    exact Function.update_of_ne (Ne.symm hne) ..

lemma incr_redis {key' : String} (hne : key' ≠ key) : (s.incr key').redis key = s.redis key :=
  Function.update_of_ne (Ne.symm hne) ..

/-- Calls for other keys leave a counter alone. -/
lemma act_redis (hact : Acts s a t) (hcall : ∀ c, a.call = some c → c.key ≠ key) :
    t.redis key = none ∨ t.redis key = s.redis key := by
  cases hact.step with
  | first | incrDone => exact .inr (incr_redis (hcall _ rfl))
  | later =>
    rw [answer_redis]
    exact .inr (incr_redis (hcall _ rfl))
  | incrLost | expireLost | crash => exact .inr rfl
  | expire =>
    rw [answer_redis]
    exact .inr (expire_redis (hcall _ rfl))
  | expireDone => exact .inr (expire_redis (hcall _ rfl))
  | tick =>
    simp only [State.tick]
    split
    · exact .inl rfl
    · exact .inr rfl
  | lose =>
    next key' =>
    by_cases hkey : key = key'
    · exact .inl (by simp [State.drop, hkey])
    · exact .inr (by simp [State.drop, hkey])

/-- A run without a call for the key. -/
def Silent (key : String) (as : List Action) : Prop :=
  ∀ a ∈ as, ∀ c, a.call = some c → c.key ≠ key

lemma run_redis {as : List Action} (hrun : Run Acts s as t) (hsilent : Silent key as) :
    t.redis key = none ∨ t.redis key = s.redis key := by
  induction hrun with
  | nil s => exact .inr rfl
  | cons hact _ ih =>
    have hrest := ih fun b hb => hsilent b (List.mem_cons_of_mem _ hb)
    obtain hnone | hsame := hrest
    · exact .inl hnone
    · rw [hsame]
      exact act_redis hact (hsilent _ List.mem_cons_self)

lemma Due.run {as : List Action} (h : Due key windowS s) (hrun : Run Acts s as t)
    (hcall : ∀ a ∈ as, ∀ c, a.call = some c → c.key = key → c.windowS ≤ windowS) :
    Due key windowS t := by
  induction hrun with
  | nil s => exact h
  | cons hact _ ih =>
    exact ih (h.act (hcall _ List.mem_cons_self) hact) fun b hb =>
      hcall b (List.mem_cons_of_mem _ hb)

/-- A counter that lapses is gone after a window without a call. -/
lemma redis_after_silence {as : List Action} (hdue : Due key windowS s) (hlapses : ¬Stuck s key)
    (hrun : Run Acts s as t) (hsilent : Silent key as) (hlong : s.now + 1000 * windowS ≤ t.now) :
    t.redis key = none := by
  obtain hnone | hsame := run_redis hrun hsilent
  · exact hnone
  · cases hc : s.redis key with
    | none => rw [hsame, hc]
    | some c =>
      cases hd : c.deadline with
      | none => exact absurd ⟨c, hc, hd⟩ hlapses
      | some d =>
        have hwithin := (hdue c d hc hd).2
        have hdue' : Due key windowS t := hdue.run hrun fun a ha c hca heq =>
          absurd heq (hsilent a ha c hca)
        have hlater := (hdue' c d (hsame.trans hc) hd).1
        omega

/-- A call for a key without a counter gets through. -/
lemma admitted_of_none {c : Call} (hnone : s.redis c.key = none) (hlimit : 1 ≤ c.limit) :
    ∃ u v, Acts s (.incr c) u ∧ Acts u (.expire (s.ticket c)) v ∧ s.ticket c ∈ v.admitted := by
  have hn : (s.ticket c).n = 1 := by simp [State.ticket, State.count, hnone]
  have hincr : Acts s (.incr c) { s.incr c.key with pending := s.ticket c :: s.pending } := if_pos hn
  refine ⟨_, _, hincr, if_pos List.mem_cons_self, ?_⟩
  rw [State.answer, if_pos]
  · exact List.mem_cons_self
  · rw [hn]
    exact hlimit

/-- In no run are more calls admitted in one lifetime of a key than their limit. While nothing fails
between the creation of a counter and its EXPIRE, each counter lapses once no call is left that would
make it, and after a window of silence a call is admitted. -/
theorem limiter_runs {as : List Action} {s : State} (hrun : Run Acts {} as s) :
    (∀ key lifetime limit, s.admitted.countP (fun t =>
      t.call.key = key ∧ t.lifetime = lifetime ∧ t.call.limit ≤ limit) ≤ limit.toNat) ∧
    (Run (guarded Acts Kept) {} as s → ∀ key, (∀ p ∈ s.pending, p.call.key ≠ key) →
      ¬Stuck s key ∧ ∀ windowS,
        (∀ a ∈ as, ∀ c, a.call = some c → c.key = key → c.windowS ≤ windowS) →
        ∀ bs t, Run Acts s bs t → Silent key bs → s.now + 1000 * windowS ≤ t.now →
          ∀ c, c.key = key → 1 ≤ c.limit → ∃ u v, Acts t (.incr c) u ∧
            Acts u (.expire (t.ticket c)) v ∧ t.ticket c ∈ v.admitted) := by
  constructor
  · have hinit : Inv {} := ⟨⟨List.nodup_nil, by simp, by simp⟩, by simp⟩
    have hinv : Inv s := hrun.invariant (fun _ _ _ h hact => h.act hact) hinit
    exact fun key lifetime limit => hinv.admitted_le key lifetime limit
  · intro hkept key hidle
    have hlapses : Lapses s := hkept.invariant_guarded
      (fun _ _ _ h hok hact => h.act hok hact) (by simp [Lapses, Stuck])
    have hstuck : ¬Stuck s key := by
      intro hstuck
      obtain ⟨p, hp, heq⟩ := hlapses key hstuck
      exact hidle p hp heq
    refine ⟨hstuck, ?_⟩
    rintro windowS hwindow bs t hbs hsilent hlong c rfl hlimit
    have hdue : Due c.key windowS s := Due.run (by simp [Due]) hrun hwindow
    exact admitted_of_none (redis_after_silence hdue hstuck hbs hsilent hlong) hlimit

end

/-! ### A crash between the commands -/

def attempt : Call := { key := "rl:login:1.2.3.4", limit := 1, windowS := 60 }

def first : Ticket := { call := attempt, lifetime := 0, n := 1 }

def after (as : List Action) : State := (as.foldlM act {}).getD {}

/-- A call and, a minute later, a second one. -/
theorem limiter_runs_again :
    (after [.incr attempt, .expire first]).admitted.countP (fun t =>
      t.call.key = attempt.key ∧ t.lifetime = 0 ∧ t.call.limit ≤ 1) ≤ 1 ∧
    ∃ u v, Acts (after [.incr attempt, .expire first, .tick 60000]) (.incr attempt) u ∧
      Acts u (.expire { first with lifetime := 1 }) v ∧
        { first with lifetime := 1 } ∈ v.admitted := by
  have hact : Acts {} (.incr attempt) (after [.incr attempt]) := rfl
  have hact' : Acts (after [.incr attempt]) (.expire first)
      (after [.incr attempt, .expire first]) := rfl
  have hminute : Run Acts (after [.incr attempt, .expire first]) [.tick 60000]
      (after [.incr attempt, .expire first, .tick 60000]) := Lib.run_of_foldlM (by rfl)
  have h := limiter_runs (.cons hact (.cons hact' (.nil _)))
  refine ⟨h.1 attempt.key 0 1, ?_⟩
  have hkept : Run (guarded Acts Kept) {} [.incr attempt, .expire first]
      (after [.incr attempt, .expire first]) :=
    .cons ⟨hact, trivial⟩ (.cons ⟨hact', trivial⟩ (.nil _))
  refine ((h.2 hkept attempt.key (List.forall_mem_nil _)).2 60 ?_) _ _ hminute ?_ (by decide)
    attempt rfl le_rfl
  · simp [Action.call, first, attempt]
  · simp [Silent, Action.call]

/-- The process dies after INCR: the counter never lapses, and a day later the client is refused. -/
theorem limiter_stuck :
    (¬∀ as s, Run Acts {} as s → s.pending = [] → ∀ key, ¬Stuck s key) ∧
    ¬∀ as s, Run Acts {} as s → s.pending = [] → ∀ bs t, Run Acts s bs t →
      Silent attempt.key bs → s.now + 1000 * attempt.windowS ≤ t.now →
        ∃ u v, Acts t (.incr attempt) u ∧ Acts u (.expire (t.ticket attempt)) v ∧
          t.ticket attempt ∈ v.admitted := by
  have hrun : Run Acts {} [.incr attempt, .crash first] (after [.incr attempt, .crash first]) :=
    Lib.run_of_foldlM (by rfl)
  constructor
  · intro h
    exact h _ _ hrun rfl attempt.key ⟨{ value := 1 }, rfl, rfl⟩
  · intro h
    have hday : Run Acts (after [.incr attempt, .crash first]) [.tick 86400000]
        (after [.incr attempt, .crash first, .tick 86400000]) := Lib.run_of_foldlM (by rfl)
    obtain ⟨u, v, hu, hv, -⟩ := h _ _ hrun rfl _ _ hday (by simp [Silent, Action.call]) (by decide)
    have hincr : Acts (after [.incr attempt, .crash first, .tick 86400000]) (.incr attempt)
        (after [.incr attempt, .crash first, .tick 86400000, .incr attempt]) := rfl
    obtain rfl := Option.some.inj (hincr.symm.trans hu)
    cases hv

end Pulse.Auth.Limiter
