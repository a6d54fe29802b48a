import Mathlib.Logic.Function.Basic
import Mathlib.Order.Basic
import Pulse.Lib.Run

/-!
# Consumers of a partitioned log

Producers append to the partitions of a topic. The owner of a partition takes the record at its
position through a handler, again after each failure, sends it away as a dead letter when its
attempts are used up, and commits its position. An owner can be lost at any time; the next one
starts at the offset that was committed last.
-/

namespace Pulse.Lib

universe u v w

/-- The offset that an owner has come to, and how often it has tried the record there. -/
structure Owner where
  position : Nat
  tries : Nat := 0

structure Partition (α : Type v) where
  log : List α := []
  committed : Nat := 0
  owner : Option Owner := none

/-- What a consumer does with a record. An attempt that fails may leave something behind. -/
structure Handler (σ : Type u) (α : Type v) where
  handles : σ → α → σ → Prop
  fails : σ → α → σ → Prop
  deadLetter : σ → α → σ
  retries : Nat

/-- The partitions, and what the consumers and everyone else write to. -/
structure Consumption (κ : Type w) (σ : Type u) (α : Type v) where
  partitions : κ → Partition α
  state : σ

inductive ConsumerStep (κ : Type w)
  | appended (p : κ)
  | assigned (p : κ)
  | lost (p : κ)
  | handled (p : κ)
  | failed (p : κ)
  | deadLettered (p : κ)
  | committed (p : κ)
  | other

variable {κ : Type w} [DecidableEq κ] {σ : Type u} {α : Type v}

namespace Consumption

def setPartition (c : Consumption κ σ α) (p : κ) (q : Partition α) (s : σ) : Consumption κ σ α :=
  ⟨Function.update c.partitions p q, s⟩

@[simp] lemma setPartition_state (c : Consumption κ σ α) (p : κ) (q : Partition α) (s : σ) :
    (c.setPartition p q s).state = s := rfl

@[simp] lemma setPartition_self (c : Consumption κ σ α) (p : κ) (q : Partition α) (s : σ) :
    (c.setPartition p q s).partitions p = q := Function.update_self ..

lemma setPartition_of_ne (c : Consumption κ σ α) {p p' : κ} (h : p' ≠ p) (q : Partition α) (s : σ) :
    (c.setPartition p q s).partitions p' = c.partitions p' := Function.update_of_ne h ..

end Consumption

open Consumption

/-- One step of a producer, of a consumer or of another writer. -/
inductive TopicStep (h : Handler σ α) (produces : σ → κ → α → Prop) (other : σ → σ → Prop) :
    Consumption κ σ α → ConsumerStep κ → Consumption κ σ α → Prop
  | appended {c : Consumption κ σ α} {p : κ} {a : α} (hproduces : produces c.state p a) :
      TopicStep h produces other c (.appended p)
        (c.setPartition p { c.partitions p with log := (c.partitions p).log ++ [a] } c.state)
  | assigned (c : Consumption κ σ α) (p : κ) :
      TopicStep h produces other c (.assigned p)
        (c.setPartition p { c.partitions p with owner := some ⟨(c.partitions p).committed, 0⟩ }
          c.state)
  | lost (c : Consumption κ σ α) (p : κ) :
      TopicStep h produces other c (.lost p)
        (c.setPartition p { c.partitions p with owner := none } c.state)
  | handled {c : Consumption κ σ α} {p : κ} {o : Owner} {a : α} {s : σ}
      (howner : (c.partitions p).owner = some o)
      (hrecord : (c.partitions p).log[o.position]? = some a)
      (htries : o.tries < h.retries) (hhandles : h.handles c.state a s) :
      TopicStep h produces other c (.handled p)
        (c.setPartition p { c.partitions p with owner := some ⟨o.position + 1, 0⟩ } s)
  | failed {c : Consumption κ σ α} {p : κ} {o : Owner} {a : α} {s : σ}
      (howner : (c.partitions p).owner = some o)
      (hrecord : (c.partitions p).log[o.position]? = some a)
      (htries : o.tries < h.retries) (hfails : h.fails c.state a s) :
      TopicStep h produces other c (.failed p)
        (c.setPartition p { c.partitions p with owner := some ⟨o.position, o.tries + 1⟩ } s)
  | deadLettered {c : Consumption κ σ α} {p : κ} {o : Owner} {a : α}
      (howner : (c.partitions p).owner = some o)
      (hrecord : (c.partitions p).log[o.position]? = some a)
      (htries : o.tries = h.retries) :
      TopicStep h produces other c (.deadLettered p)
        (c.setPartition p { c.partitions p with owner := some ⟨o.position + 1, 0⟩ }
          (h.deadLetter c.state a))
  | committed {c : Consumption κ σ α} {p : κ} {o : Owner}
      (howner : (c.partitions p).owner = some o) :
      TopicStep h produces other c (.committed p)
        (c.setPartition p { c.partitions p with committed := o.position } c.state)
  | other {c : Consumption κ σ α} {s : σ} (hother : other c.state s) :
      TopicStep h produces other c .other ⟨c.partitions, s⟩

variable {h : Handler σ α} {produces : σ → κ → α → Prop} {other : σ → σ → Prop}
  {c c' : Consumption κ σ α} {l : ConsumerStep κ}

/-- A partition that is not appended to keeps its log. -/
lemma TopicStep.log (hstep : TopicStep h produces other c l c') (p : κ) :
    (c'.partitions p).log = (c.partitions p).log ∨
      ∃ a, produces c.state p a ∧ (c'.partitions p).log = (c.partitions p).log ++ [a] := by
  have hset : ∀ (q : κ) (part : Partition α) (s : σ), part.log = (c.partitions q).log →
      ((c.setPartition q part s).partitions p).log = (c.partitions p).log := by
    intro q part s hlog
    by_cases hp : p = q
    · subst hp
      rw [setPartition_self, hlog]
    · rw [setPartition_of_ne c hp]
  cases hstep with
  | @appended q a hproduces =>
    by_cases hp : p = q
    · subst hp
      exact .inr ⟨a, hproduces, by rw [setPartition_self]⟩
    · exact .inl (by rw [setPartition_of_ne c hp])
  | assigned q => exact .inl (hset q _ _ rfl)
  | lost q => exact .inl (hset q _ _ rfl)
  | handled howner hrecord htries hhandles => exact .inl (hset _ _ _ rfl)
  | failed howner hrecord htries hfails => exact .inl (hset _ _ _ rfl)
  | deadLettered howner hrecord htries => exact .inl (hset _ _ _ rfl)
  | committed howner => exact .inl (hset _ _ _ rfl)
  | other hother => exact .inl rfl

lemma TopicStep.getElem?_log (hstep : TopicStep h produces other c l c') {p : κ} {n : Nat} {a : α}
    (ha : (c.partitions p).log[n]? = some a) : (c'.partitions p).log[n]? = some a := by
  obtain heq | ⟨b, -, heq⟩ := hstep.log p
  · rw [heq, ha]
  · rw [heq, List.getElem?_append_left (List.getElem?_eq_some_iff.1 ha).1, ha]

/-- A record is at its offset for good. -/
lemma getElem?_log_of_run {ls : List (ConsumerStep κ)}
    (hrun : Run (TopicStep h produces other) c ls c') {p : κ} {n : Nat} {a : α}
    (ha : (c.partitions p).log[n]? = some a) :
    (c'.partitions p).log[n]? = some a :=
  hrun.invariant (I := fun c => (c.partitions p).log[n]? = some a)
    (fun _ _ _ hlog hstep => hstep.getElem?_log hlog) ha

/-! ### What is below the committed offset -/

/-- What a step does to the state, if the records of the topic meet a condition. -/
inductive StateStep (h : Handler σ α) (other : σ → σ → Prop) (P : α → Prop) (s : σ) : σ → Prop
  | same : StateStep h other P s s
  | handled {a : α} {s' : σ} (ha : P a) (hhandles : h.handles s a s') : StateStep h other P s s'
  | failed {a : α} {s' : σ} (ha : P a) (hfails : h.fails s a s') : StateStep h other P s s'
  | deadLettered {a : α} (ha : P a) : StateStep h other P s (h.deadLetter s a)
  | other {s' : σ} (hother : other s s') : StateStep h other P s s'

variable {P : α → Prop} {I : σ → Prop} {Done : σ → α → Prop}

lemma TopicStep.state (hstep : TopicStep h produces other c l c')
    (hlog : ∀ p, ∀ a ∈ (c.partitions p).log, P a) : StateStep h other P c.state c'.state := by
  cases hstep with
  | appended hproduces => exact .same
  | assigned p => exact .same
  | lost p => exact .same
  | handled howner hrecord htries hhandles =>
    exact .handled (hlog _ _ (List.mem_of_getElem? hrecord)) hhandles
  | failed howner hrecord htries hfails =>
    exact .failed (hlog _ _ (List.mem_of_getElem? hrecord)) hfails
  | deadLettered howner hrecord htries =>
    exact .deadLettered (hlog _ _ (List.mem_of_getElem? hrecord))
  | committed howner => exact .same
  | other hother => exact .other hother

/-- When a record that a consumer has passed is done, and stays so. -/
structure AtLeastOnce (h : Handler σ α) (produces : σ → κ → α → Prop) (other : σ → σ → Prop)
    (P : α → Prop) (I : σ → Prop) (Done : σ → α → Prop) : Prop where
  produced : ∀ s p a, produces s p a → P a
  kept : ∀ s s', StateStep h other P s s' → I s → I s'
  handled : ∀ s a s', I s → P a → h.handles s a s' → Done s' a
  deadLettered : ∀ s a, Done (h.deadLetter s a) a
  stable : ∀ s s' a, StateStep h other P s s' → I s → Done s a → Done s' a

/-- The offset is below the one that was committed, or below the owner's position. -/
def Partition.Passed (q : Partition α) (n : Nat) : Prop :=
  n < q.committed ∨ ∃ o, q.owner = some o ∧ n < o.position

/-- What is in the log and in the state, and every record that the consumers have passed is done. -/
structure Delivered (P : α → Prop) (I : σ → Prop) (Done : σ → α → Prop) (c : Consumption κ σ α) :
    Prop where
  log : ∀ p, ∀ a ∈ (c.partitions p).log, P a
  state : I c.state
  done : ∀ p n, (c.partitions p).Passed n → ∃ a, (c.partitions p).log[n]? = some a ∧ Done c.state a

namespace Delivered

omit [DecidableEq κ] in
lemma start {s : σ} (hs : I s) : Delivered P I Done (⟨fun _ => {}, s⟩ : Consumption κ σ α) where
  log _ _ ha := nomatch ha
  state := hs
  done _ _ hpassed := (hpassed.elim nofun nofun : False).elim

lemma passed_step (hrule : AtLeastOnce h produces other P I Done) (hc : Delivered P I Done c)
    (hstep : TopicStep h produces other c l c') :
    ∀ p n, (c'.partitions p).Passed n → ∃ a, (c'.partitions p).log[n]? = some a ∧
      Done c'.state a := by
  have hkeep : ∀ p n, (c.partitions p).Passed n → ∃ a, (c'.partitions p).log[n]? = some a ∧
      Done c'.state a := by
    intro p n hpassed
    obtain ⟨a, ha, hdone⟩ := hc.done p n hpassed
    exact ⟨a, hstep.getElem?_log ha, hrule.stable _ _ _ (hstep.state hc.log) hc.state hdone⟩
  -- a partition that passes nothing new is covered by what was done before
  have hset : ∀ (q : κ) (part : Partition α) (s : σ), c' = c.setPartition q part s →
      (∀ n, part.Passed n → (c.partitions q).Passed n ∨ ∃ a, part.log[n]? = some a ∧ Done s a) →
        ∀ p n, (c'.partitions p).Passed n → ∃ a, (c'.partitions p).log[n]? = some a ∧
          Done c'.state a := by
    intro q part s hc' hpart p n hpassed
    by_cases hp : p = q
    · subst hp
      have hpartition : c'.partitions p = part := by rw [hc', setPartition_self]
      obtain hold | ⟨a, ha, hdone⟩ := hpart n (hpartition ▸ hpassed)
      · exact hkeep p n hold
      · exact ⟨a, hpartition ▸ ha, hc' ▸ hdone⟩
    · have hpartition : c'.partitions p = c.partitions p := by rw [hc', setPartition_of_ne c hp]
      exact hkeep p n (hpartition ▸ hpassed)
  -- the owner goes past one record, which is done
  have hadvance : ∀ {q : κ} {o : Owner} {b : α} {s : σ}, (c.partitions q).owner = some o →
      (c.partitions q).log[o.position]? = some b → Done s b →
        ∀ n, Partition.Passed { c.partitions q with owner := some ⟨o.position + 1, 0⟩ } n →
          (c.partitions q).Passed n ∨ ∃ a, (c.partitions q).log[n]? = some a ∧ Done s a := by
    intro q o b s howner hb hs n hpassed
    obtain hcommitted | ⟨o', ho', hlt⟩ := hpassed
    · exact .inl (.inl hcommitted)
    · cases ho'
      obtain hlt | rfl := Nat.lt_or_eq_of_le (Nat.le_of_lt_succ hlt)
      · exact .inl (.inr ⟨o, howner, hlt⟩)
      · exact .inr ⟨b, hb, hs⟩
  have hmem : ∀ {q : κ} {o : Owner} {b : α}, (c.partitions q).log[o.position]? = some b → P b :=
    fun hb => hc.log _ _ (List.mem_of_getElem? hb)
  cases hstep with
  | appended hproduces => exact hset _ _ _ rfl fun n hpassed => .inl hpassed
  | assigned q =>
    refine hset _ _ _ rfl fun n hpassed => .inl (hpassed.elim .inl ?_)
    rintro ⟨o, ho, hlt⟩
    cases ho
    exact .inl hlt
  | lost q => exact hset _ _ _ rfl fun n hpassed => .inl (hpassed.elim .inl nofun)
  | handled howner hrecord htries hhandles =>
    have hdone := hrule.handled _ _ _ hc.state (hmem hrecord) hhandles
    exact hset _ _ _ rfl (hadvance howner hrecord hdone)
  | failed howner hrecord htries hfails =>
    refine hset _ _ _ rfl fun n hpassed => .inl (hpassed.imp id ?_)
    rintro ⟨o, ho, hlt⟩
    cases ho
    exact ⟨_, howner, hlt⟩
  | deadLettered howner hrecord htries =>
    exact hset _ _ _ rfl (hadvance howner hrecord (hrule.deadLettered _ _))
  | committed howner =>
    refine hset _ _ _ rfl fun n hpassed => .inl (.inr ?_)
    obtain hlt | hlt := hpassed
    · exact ⟨_, howner, hlt⟩
    · exact hlt
  | other hother => exact hkeep

lemma step (hrule : AtLeastOnce h produces other P I Done) (hc : Delivered P I Done c)
    (hstep : TopicStep h produces other c l c') : Delivered P I Done c' where
  log p a ha := by
    obtain heq | ⟨b, hb, heq⟩ := hstep.log p
    · exact hc.log p a (heq ▸ ha)
    · rw [heq] at ha
      obtain ha | ha := List.mem_append.1 ha
      · exact hc.log p a ha
      · rw [List.mem_singleton.1 ha]
        exact hrule.produced _ _ _ hb
  state := hrule.kept _ _ (hstep.state hc.log) hc.state
  done := hc.passed_step hrule hstep

/-- However producers, consumers and the others interleave, a record below the committed offset of
its partition is done. -/
theorem run (hrule : AtLeastOnce h produces other P I Done) {ls : List (ConsumerStep κ)} {s : σ}
    (hs : I s) (hrun : Run (TopicStep h produces other) ⟨fun _ => {}, s⟩ ls c) :
    Delivered P I Done c :=
  hrun.invariant (fun _ _ _ hc hstep => hc.step hrule hstep) (start hs)

omit [DecidableEq κ] in
lemma committed_le (hc : Delivered P I Done c) (p : κ) :
    (c.partitions p).committed ≤ (c.partitions p).log.length := by
  by_contra hlt
  obtain ⟨a, ha, -⟩ := hc.done p (c.partitions p).log.length (.inl (Nat.lt_of_not_le hlt))
  exact Nat.lt_irrefl _ (List.getElem?_eq_some_iff.1 ha).1

end Delivered

/-! ### A partition can be drained -/

/-- Steps of one partition that leave its log. -/
def Advances (h : Handler σ α) (produces : σ → κ → α → Prop) (other : σ → σ → Prop) (p : κ)
    (c c' : Consumption κ σ α) : Prop :=
  (∃ ls, Run (TopicStep h produces other) c ls c') ∧ (c'.partitions p).log = (c.partitions p).log

lemma Advances.refl (p : κ) (c : Consumption κ σ α) : Advances h produces other p c c :=
  ⟨⟨[], .nil c⟩, rfl⟩

lemma Advances.trans {p : κ} {c'' : Consumption κ σ α} (h₁ : Advances h produces other p c c')
    (h₂ : Advances h produces other p c' c'') : Advances h produces other p c c'' := by
  obtain ⟨⟨ls, hrun⟩, hlog⟩ := h₁
  obtain ⟨⟨ls', hrun'⟩, hlog'⟩ := h₂
  exact ⟨⟨ls ++ ls', hrun.append hrun'⟩, hlog'.trans hlog⟩

lemma Advances.single {p : κ} {part : Partition α} {s : σ}
    (hstep : TopicStep h produces other c l (c.setPartition p part s))
    (hlog : part.log = (c.partitions p).log) :
    Advances h produces other p c (c.setPartition p part s) :=
  ⟨⟨[l], .single hstep⟩, by rw [setPartition_self, hlog]⟩

/-- A record is handled or becomes a dead letter after finitely many attempts. -/
lemma exists_past (htotal : ∀ s a, (∃ s', h.handles s a s') ∨ ∃ s', h.fails s a s') {p : κ}
    {n : Nat} {a : α} : ∀ (k : Nat) (c : Consumption κ σ α) (t : Nat), t + k = h.retries →
      (c.partitions p).owner = some ⟨n, t⟩ → (c.partitions p).log[n]? = some a →
        ∃ c', Advances h produces other p c c' ∧ (c'.partitions p).owner = some ⟨n + 1, 0⟩ := by
  intro k
  induction k with
  | zero =>
    intro c t ht howner hrecord
    exact ⟨_, .single (.deadLettered howner hrecord ht) rfl, by rw [setPartition_self]⟩
  | succ k ih =>
    intro c t ht howner hrecord
    have htries : t < h.retries := by omega
    obtain ⟨s', hhandles⟩ | ⟨s', hfails⟩ := htotal c.state a
    · exact ⟨_, .single (.handled howner hrecord htries hhandles) rfl, by rw [setPartition_self]⟩
    · obtain ⟨c₁, hfailed, howner₁⟩ : ∃ c₁, Advances h produces other p c c₁ ∧
          (c₁.partitions p).owner = some ⟨n, t + 1⟩ :=
        ⟨_, .single (.failed howner hrecord htries hfails) rfl, by rw [setPartition_self]⟩
      obtain ⟨c', hrest, hdone⟩ := ih c₁ (t + 1) (by omega) howner₁ (hfailed.2 ▸ hrecord)
      exact ⟨c', hfailed.trans hrest, hdone⟩

/-- Whatever is in the log, a consumer can come to its end and commit it. -/
theorem exists_drained (htotal : ∀ s a, (∃ s', h.handles s a s') ∨ ∃ s', h.fails s a s')
    (c : Consumption κ σ α) (p : κ)
    (hc : (c.partitions p).committed ≤ (c.partitions p).log.length) :
    ∃ c', Advances h produces other p c c' ∧
      (c'.partitions p).committed = (c.partitions p).log.length := by
  have hend : ∀ (k : Nat) (c : Consumption κ σ α) (n : Nat), n + k = (c.partitions p).log.length →
      (c.partitions p).owner = some ⟨n, 0⟩ → ∃ c', Advances h produces other p c c' ∧
        (c'.partitions p).committed = (c.partitions p).log.length := by
    intro k
    induction k with
    | zero =>
      intro c n hn howner
      exact ⟨_, .single (.committed howner) rfl, by rw [setPartition_self]; exact hn⟩
    | succ k ih =>
      intro c n hn howner
      obtain ⟨a, ha⟩ : ∃ a, (c.partitions p).log[n]? = some a :=
        ⟨_, List.getElem?_eq_getElem (by omega)⟩
      obtain ⟨c₁, hpast, howner₁⟩ : ∃ c₁, Advances h produces other p c c₁ ∧
          (c₁.partitions p).owner = some ⟨n + 1, 0⟩ :=
        exists_past htotal h.retries c 0 (by omega) howner ha
      obtain ⟨c', hrest, hcommitted⟩ := ih c₁ (n + 1) (by rw [hpast.2]; omega) howner₁
      exact ⟨c', hpast.trans hrest, hcommitted.trans (congrArg List.length hpast.2)⟩
  obtain ⟨c₁, hassigned, howner⟩ : ∃ c₁, Advances h produces other p c c₁ ∧
      (c₁.partitions p).owner = some ⟨(c.partitions p).committed, 0⟩ :=
    ⟨_, .single (.assigned c p) rfl, by rw [setPartition_self]⟩
  obtain ⟨c', hrest, hcommitted⟩ := hend ((c.partitions p).log.length - (c.partitions p).committed)
    c₁ (c.partitions p).committed (by rw [hassigned.2]; omega) howner
  exact ⟨c', hassigned.trans hrest, hcommitted.trans (congrArg List.length hassigned.2)⟩

end Pulse.Lib
