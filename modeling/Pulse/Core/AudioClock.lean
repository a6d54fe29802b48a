import Pulse.Core.Shift
import Pulse.Lib.Run

/-!
# Which clock a turn is on

A turn that is derived from events carries the times of these events. So an analysis is invariant
under a shift of the call clock exactly when its turns come from spans or no derived turn has a
time, and that can be read off the events.
-/

namespace Pulse.Core

open Lib (PyFloat)

section

variable {F H M R : Type}

/-! ### Groups of events -/

/-- A group that `close` makes a turn of. -/
def Group.kept (g : Group F) : Prop :=
  g.sttFinal.isSome ∨ g.llmSpoken.isSome ∨ g.ttsFirst.isSome

/-- The events that have a time, with it. -/
def timedEvents (spans : List (Span F)) : List (F × SpanEvent F) :=
  (spans.flatMap Span.events).filterMap fun e => e.t.map (·, e)

namespace Calculator

variable {c : Calculator F H M R}

lemma close_of_kept {turns : List (Turn M)} {g : Group F} (h : g.kept) :
    c.close turns g =
      turns ++ [⟨turns.length, "ev:" ++ toString turns.length, c.eventTurn g⟩] := by
  have hkept : ¬(g.sttFinal.isNone ∧ g.llmSpoken.isNone ∧ g.ttsFirst.isNone) := by
    simp only [Option.isNone_iff_eq_none]
    rintro ⟨h1, h2, h3⟩
    simp [Group.kept, h1, h2, h3] at h
  rw [close, if_neg hkept]

lemma mem_close {turns : List (Turn M)} {g : Group F} {turn : Turn M}
    (h : turn ∈ c.close turns g) : turn ∈ turns ∨ g.kept ∧ turn.measured = c.eventTurn g := by
  by_cases hkept : g.kept
  · rw [close_of_kept hkept] at h
    rcases List.mem_append.1 h with h | h
    · exact .inl h
    · exact .inr ⟨hkept, by rw [List.mem_singleton.1 h]⟩
  · have hnone : g.sttFinal.isNone ∧ g.llmSpoken.isNone ∧ g.ttsFirst.isNone := by
      simpa [Group.kept] using hkept
    rw [close, if_pos hnone] at h
    exact .inl h

lemma close_subset {turns : List (Turn M)} {g : Group F} {turn : Turn M} (h : turn ∈ turns) :
    turn ∈ c.close turns g := by
  unfold close
  split
  · exact h
  · exact List.mem_append_left _ h

variable [Builtins F]

/-- The sorted events of the fold. -/
def sortedEvents (spans : List (Span F)) : List (F × SpanEvent F) :=
  Lib.sorted (fun a b => Builtins.lt a.1 b.1) (timedEvents spans)

lemma turnsFromEvents_eq (trace : Trace F H) : c.turnsFromEvents trace =
    match (sortedEvents trace.spans).foldl c.eventStep ([], none) with
    | (turns, some group) => c.close turns group
    | (turns, none) => turns := rfl

/-- What holds of every group as events are added holds of the groups of the turns. -/
theorem mem_turnsFromEvents {Q : Group F → Prop} {trace : Trace F H} (hempty : Q {})
    (hadd : ∀ g, ∀ e ∈ timedEvents trace.spans, Q g → Q (g.add e.1 e.2)) {turn : Turn M}
    (h : turn ∈ c.turnsFromEvents trace) : ∃ g, Q g ∧ g.kept ∧ turn.measured = c.eventTurn g := by
  have hfold := Lib.foldl_history c.eventStep (sortedEvents trace.spans)
    (fun _ acc => (∀ turn ∈ acc.1, ∃ g, Q g ∧ g.kept ∧ turn.measured = c.eventTurn g) ∧
      ∀ g, acc.2 = some g → Q g) ?_ ([], none) [] ⟨by simp, by simp⟩
  · rw [turnsFromEvents_eq] at h
    generalize (sortedEvents trace.spans).foldl c.eventStep ([], none) = acc at h hfold
    obtain ⟨turns, group⟩ := acc
    cases group with
    | none => exact hfold.1 turn h
    | some g =>
      rcases mem_close h with h | ⟨hkept, hturn⟩
      · exact hfold.1 turn h
      · exact ⟨g, hfold.2 g rfl, hkept, hturn⟩
  · rintro - ⟨turns, group⟩ e he ⟨hturns, hgroup⟩
    have he' : e ∈ timedEvents trace.spans := Lib.mem_sorted.1 he
    cases group with
    | none => exact ⟨hturns, fun g hg => Option.some.inj hg ▸ hadd {} e he' hempty⟩
    | some g =>
      unfold eventStep
      dsimp only
      split
      · refine ⟨fun turn hturn => ?_, fun g' hg => Option.some.inj hg ▸ hadd {} e he' hempty⟩
        rcases mem_close hturn with hturn | ⟨hkept, hturn⟩
        · exact hturns turn hturn
        · exact ⟨g, hgroup g rfl, hkept, hturn⟩
      · exact ⟨hturns, fun g' hg => Option.some.inj hg ▸ hadd g e he' (hgroup g rfl)⟩

/-- An event that marks its group for good, so that it is kept, is in the group of a turn. -/
theorem exists_turnFromEvents {φ : Group F → Prop} {trace : Trace F H} {e : F × SpanEvent F}
    (he : e ∈ timedEvents trace.spans) (hkept : ∀ g, φ g → g.kept)
    (hmarks : ∀ g : Group F, φ (g.add e.1 e.2)) (hadd : ∀ (g : Group F) t e, φ g → φ (g.add t e)) :
    ∃ turn ∈ c.turnsFromEvents trace, ∃ g, φ g ∧ turn.measured = c.eventTurn g := by
  have hfold := Lib.foldl_history c.eventStep (sortedEvents trace.spans)
    (fun past acc => e ∈ past → (∃ turn ∈ acc.1, ∃ g, φ g ∧ turn.measured = c.eventTurn g) ∨
      ∃ g, acc.2 = some g ∧ φ g) ?_ ([], none) [] (by simp) (List.mem_append_right _ (Lib.mem_sorted.2 he))
  · rw [turnsFromEvents_eq]
    generalize (sortedEvents trace.spans).foldl c.eventStep ([], none) = acc at hfold
    obtain ⟨turns, group⟩ := acc
    rcases hfold with ⟨turn, hturn, hg⟩ | ⟨g, rfl, hg⟩
    · cases group with
      | none => exact ⟨turn, hturn, hg⟩
      | some g => exact ⟨turn, close_subset hturn, hg⟩
    · refine ⟨⟨turns.length, "ev:" ++ toString turns.length, c.eventTurn g⟩, ?_, g, hg, rfl⟩
      dsimp only
      rw [close_of_kept (hkept g hg)]
      simp
  · rintro past ⟨turns, group⟩ e' - hI hin
    have hnow : e ∈ past ∨ e = e' := by simpa using hin
    cases group with
    | none =>
      rcases hnow with hpast | rfl
      · rcases hI hpast with hturn | ⟨g, hg, -⟩
        · exact .inl hturn
        · cases hg
      · exact .inr ⟨_, rfl, hmarks {}⟩
    | some g =>
      unfold eventStep
      dsimp only
      split
      · rcases hnow with hpast | rfl
        · rcases hI hpast with ⟨turn, hturn, hg⟩ | ⟨g', hg', hφ⟩
          · exact .inl ⟨turn, close_subset hturn, hg⟩
          · obtain rfl := Option.some.inj hg'
            rw [close_of_kept (hkept g hφ)]
            exact .inl ⟨_, List.mem_append_right _ (List.mem_singleton_self _), g, hφ, rfl⟩
        · exact .inr ⟨_, rfl, hmarks {}⟩
      · rcases hnow with hpast | rfl
        · rcases hI hpast with hturn | ⟨g', hg', hφ⟩
          · exact .inl hturn
          · obtain rfl := Option.some.inj hg'
            exact .inr ⟨_, rfl, hadd g _ _ hφ⟩
        · exact .inr ⟨_, rfl, hmarks g⟩

/-- Without a final transcript all events are in one group. -/
theorem foldl_eventStep_of_no_final {events : List (F × SpanEvent F)}
    (h : ∀ e ∈ events, e.2.name ≠ "stt.final") (turns : List (Turn M)) (g : Group F) :
    events.foldl c.eventStep (turns, some g) =
      (turns, some (events.foldl (fun g e => g.add e.1 e.2) g)) := by
  induction events generalizing g with
  | nil => rfl
  | cons e events ih =>
    have hname : ¬(e.2.name = "stt.final" ∧ g.agentSeen) := fun hname =>
      h e List.mem_cons_self hname.1
    rw [List.foldl_cons, List.foldl_cons, eventStep, if_neg hname]
    exact ih (fun e he => h e (List.mem_cons_of_mem _ he)) _

end Calculator

section

variable [Builtins F]

/-! ### What an event adds -/

/-- The marks of a group are set once, each by its own event. -/
lemma Group.add_marks (g : Group F) (t : F) (e : SpanEvent F) :
    ((g.add t e).sttFinal = if e.name = "stt.final" then g.sttFinal.or (some t) else g.sttFinal) ∧
    ((g.add t e).committed =
      if e.name = "turn.committed" then g.committed.or (some t) else g.committed) ∧
    ((g.add t e).llmFirst =
      if e.name = "llm.first_token" then g.llmFirst.or (some t) else g.llmFirst) ∧
    ((g.add t e).ttsFirst =
      if e.name = "tts.first_audio" then g.ttsFirst.or (some t) else g.ttsFirst) ∧
    (g.add t e).llmSpoken =
      if e.name = "llm.spoken" then g.llmSpoken.or e.text else g.llmSpoken := by
  unfold Group.add
  split <;> split <;> simp_all

lemma Group.add_sttFinal (g : Group F) (t : F) (e : SpanEvent F) : (g.add t e).sttFinal =
    if e.name = "stt.final" then g.sttFinal.or (some t) else g.sttFinal :=
  (g.add_marks t e).1

lemma Group.add_committed (g : Group F) (t : F) (e : SpanEvent F) : (g.add t e).committed =
    if e.name = "turn.committed" then g.committed.or (some t) else g.committed :=
  (g.add_marks t e).2.1

lemma Group.add_llmFirst (g : Group F) (t : F) (e : SpanEvent F) : (g.add t e).llmFirst =
    if e.name = "llm.first_token" then g.llmFirst.or (some t) else g.llmFirst :=
  (g.add_marks t e).2.2.1

lemma Group.add_ttsFirst (g : Group F) (t : F) (e : SpanEvent F) : (g.add t e).ttsFirst =
    if e.name = "tts.first_audio" then g.ttsFirst.or (some t) else g.ttsFirst :=
  (g.add_marks t e).2.2.2.1

lemma Group.add_llmSpoken (g : Group F) (t : F) (e : SpanEvent F) : (g.add t e).llmSpoken =
    if e.name = "llm.spoken" then g.llmSpoken.or e.text else g.llmSpoken :=
  (g.add_marks t e).2.2.2.2

/-- What an event marks stays marked. -/
lemma foldl_add_of_mem {φ : Group F → Prop} {events : List (F × SpanEvent F)} {e : F × SpanEvent F}
    (he : e ∈ events) (hmarks : ∀ g : Group F, φ (g.add e.1 e.2)) (hadd : ∀ (g : Group F) t e, φ g → φ (g.add t e))
    (g : Group F) : φ (events.foldl (fun g e => g.add e.1 e.2) g) := by
  have hfold := Lib.foldl_history (fun (g : Group F) (e : F × SpanEvent F) => g.add e.1 e.2) events
    (fun past g => e ∈ past → φ g) ?_ g [] (by simp)
  · exact hfold (by simpa using he)
  · intro past g e' _ hI hin
    have hnow : e ∈ past ∨ e = e' := by simpa using hin
    rcases hnow with hpast | rfl
    · exact hadd g _ _ (hI hpast)
    · exact hmarks g

end

end

/-! ### Times of derived turns -/

/-- A turn without any of the times that events give. -/
def Measured.Untimed (m : Measured) : Prop :=
  m.sttFinalAt = none ∧ m.committedAt = none ∧ m.llmFirstTokenAt = none ∧ m.ttsFirstAudioAt = none

/-- The times of the spans' events are rationals. -/
def RationalEvents (spans : List (Span PyFloat)) : Prop :=
  ∀ e ∈ timedEvents spans, ∃ q, e.1 = .fin q

lemma map_add_fin_eq_iff {a : Option PyFloat} {d : ℚ} (h : ∀ t ∈ a, ∃ q, t = .fin q) :
    a.map (· + .fin d) = a ↔ d = 0 ∨ a = none := by
  cases a with
  | none => simp
  | some t =>
    obtain ⟨q, rfl⟩ := h t rfl
    simp

/-- No event gives a derived turn a time: none is a final transcript or the agent's first audio, and
none is a commit or a first token where the agent's words make a turn. -/
def NoEventTimes [Builtins PyFloat] (spans : List (Span PyFloat)) : Prop :=
  (∀ e ∈ timedEvents spans, e.2.name ≠ "stt.final" ∧ e.2.name ≠ "tts.first_audio") ∧
    ((∀ e ∈ timedEvents spans, e.2.name = "llm.spoken" → e.2.text = none) ∨
      ∀ e ∈ timedEvents spans, e.2.name ≠ "turn.committed" ∧ e.2.name ≠ "llm.first_token")

/-- Each field of the group comes from an event. -/
structure FromEvents [Builtins PyFloat] (spans : List (Span PyFloat)) (g : Group PyFloat) : Prop where
  sttFinal : ∀ t ∈ g.sttFinal, ∃ e ∈ timedEvents spans, e.1 = t ∧ e.2.name = "stt.final"
  committed : ∀ t ∈ g.committed, ∃ e ∈ timedEvents spans, e.1 = t ∧ e.2.name = "turn.committed"
  llmFirst : ∀ t ∈ g.llmFirst, ∃ e ∈ timedEvents spans, e.1 = t ∧ e.2.name = "llm.first_token"
  ttsFirst : ∀ t ∈ g.ttsFirst, ∃ e ∈ timedEvents spans, e.1 = t ∧ e.2.name = "tts.first_audio"
  llmSpoken : ∀ s ∈ g.llmSpoken, ∃ e ∈ timedEvents spans, e.2.name = "llm.spoken" ∧ e.2.text = some s

section

variable [Text] {spans : List (Span PyFloat)}

lemma FromEvents.add {g : Group PyFloat} (h : FromEvents spans g) {e : PyFloat × SpanEvent PyFloat}
    (he : e ∈ timedEvents spans) : FromEvents spans (g.add e.1 e.2) := by
  have hor {α : Type} {a b : Option α} {p : α → Prop} (ha : ∀ x ∈ a, p x) {q : Prop} [Decidable q]
      (hb : q → ∀ x ∈ b, p x) : ∀ x ∈ (if q then a.or b else a), p x := by
    split
    · exact fun x hx => (Option.or_eq_some_iff.1 hx).elim (ha x) fun hx => hb ‹_› x hx.2
    · exact ha
  have hnow {name : String} (hname : e.2.name = name) :
      ∀ t ∈ some e.1, ∃ e ∈ timedEvents spans, e.1 = t ∧ e.2.name = name :=
    fun t ht => ⟨e, he, Option.some.inj ht, hname⟩
  constructor
  · rw [Group.add_sttFinal]
    exact hor h.sttFinal hnow
  · rw [Group.add_committed]
    exact hor h.committed hnow
  · rw [Group.add_llmFirst]
    exact hor h.llmFirst hnow
  · rw [Group.add_ttsFirst]
    exact hor h.ttsFirst hnow
  · rw [Group.add_llmSpoken]
    exact hor h.llmSpoken fun hname s hs => ⟨e, he, hname, hs⟩

lemma fromEvents_empty : FromEvents spans {} := by
  constructor <;> simp

/-! ### When a derived turn has a time -/

lemma FromEvents.shift_eq_iff {g : Group PyFloat} {d : ℚ} (h : FromEvents spans g)
    (hrational : RationalEvents spans) :
    (eventTurn g).shift d = eventTurn g ↔ d = 0 ∨ (eventTurn g).Untimed := by
  have hfin {a : Option PyFloat} {name : String}
      (ha : ∀ t ∈ a, ∃ e ∈ timedEvents spans, e.1 = t ∧ e.2.name = name) :
      a.map (· + .fin d) = a ↔ d = 0 ∨ a = none := by
    apply map_add_fin_eq_iff
    intro t ht
    obtain ⟨e, he, rfl, -⟩ := ha t ht
    exact hrational e he
  have heq : (eventTurn g).shift d = eventTurn g ↔ g.sttFinal.map (· + .fin d) = g.sttFinal ∧
      g.committed.map (· + .fin d) = g.committed ∧ g.llmFirst.map (· + .fin d) = g.llmFirst ∧
      g.ttsFirst.map (· + .fin d) = g.ttsFirst := by
    simp [Measured.shift, eventTurn]
  rw [heq, hfin h.sttFinal, hfin h.committed, hfin h.llmFirst, hfin h.ttsFirst, Measured.Untimed,
    eventTurn]
  tauto

lemma noEventTimes_of_untimed {c : Calculator PyFloat CallHeader Measured Report}
    (hc : c.eventTurn = eventTurn) {trace : Trace PyFloat CallHeader}
    (h : ∀ turn ∈ c.turnsFromEvents trace, turn.measured.Untimed) : NoEventTimes trace.spans := by
  have hkeeps {α : Type} {a b : Option α} {q : Prop} [Decidable q] (ha : a.isSome) :
      (if q then a.or b else a).isSome := by
    split <;> simp [ha]
  have hfinal : ∀ e ∈ timedEvents trace.spans, e.2.name ≠ "stt.final" := by
    intro e he hname
    obtain ⟨turn, hturn, g, hg, hmeasured⟩ := c.exists_turnFromEvents (φ := (·.sttFinal.isSome)) he
      (fun g hg => .inl hg) (fun g => by rw [Group.add_sttFinal, if_pos hname]; simp)
      fun g t e hg => by rw [Group.add_sttFinal]; exact hkeeps hg
    have huntimed := (h turn hturn).1
    rw [hmeasured, hc] at huntimed
    have hnone : g.sttFinal = none := huntimed
    simp [hnone] at hg
  have haudio : ∀ e ∈ timedEvents trace.spans, e.2.name ≠ "tts.first_audio" := by
    intro e he hname
    obtain ⟨turn, hturn, g, hg, hmeasured⟩ := c.exists_turnFromEvents (φ := (·.ttsFirst.isSome)) he
      (fun g hg => .inr (.inr hg)) (fun g => by rw [Group.add_ttsFirst, if_pos hname]; simp)
      fun g t e hg => by rw [Group.add_ttsFirst]; exact hkeeps hg
    have huntimed := (h turn hturn).2.2.2
    rw [hmeasured, hc] at huntimed
    have hnone : g.ttsFirst = none := huntimed
    simp [hnone] at hg
  refine ⟨fun e he => ⟨hfinal e he, haudio e he⟩, ?_⟩
  by_contra hboth
  push Not at hboth
  obtain ⟨⟨spoken, hspoken, hname, htext⟩, e, he, hanchor⟩ := hboth
  -- all events are in one group, and the words of the agent make it a turn
  obtain ⟨g, hturns, hkept, htimed⟩ : ∃ g, c.turnsFromEvents trace = c.close [] g ∧
      g.llmSpoken.isSome ∧ (g.committed.isSome ∨ g.llmFirst.isSome) := by
    have hno : ∀ e ∈ Calculator.sortedEvents trace.spans, e.2.name ≠ "stt.final" :=
      fun e he => hfinal e (Lib.mem_sorted.1 he)
    have hspoken' : spoken ∈ Calculator.sortedEvents trace.spans := Lib.mem_sorted.2 hspoken
    have he' : e ∈ Calculator.sortedEvents trace.spans := Lib.mem_sorted.2 he
    rw [Calculator.turnsFromEvents_eq]
    refine ⟨(Calculator.sortedEvents trace.spans).foldl (fun g e => g.add e.1 e.2) {}, ?_, ?_, ?_⟩
    · cases hevents : Calculator.sortedEvents trace.spans with
      | nil => simp [hevents] at he'
      | cons first rest =>
        rw [hevents] at hno
        rw [List.foldl_cons, List.foldl_cons, Calculator.eventStep,
          Calculator.foldl_eventStep_of_no_final fun e he => hno e (List.mem_cons_of_mem _ he)]
    · refine foldl_add_of_mem (φ := (·.llmSpoken.isSome)) hspoken' (fun g => ?_) (fun g t e hg => ?_) _
      · rw [Group.add_llmSpoken, if_pos hname, Option.isSome_or]
        simp [Option.isSome_iff_ne_none, htext]
      · rw [Group.add_llmSpoken]
        exact hkeeps hg
    · by_cases hcommit : e.2.name = "turn.committed"
      · left
        refine foldl_add_of_mem (φ := (·.committed.isSome)) he' (fun g => ?_) (fun g t e hg => ?_) _
        · rw [Group.add_committed, if_pos hcommit]
          simp
        · rw [Group.add_committed]
          exact hkeeps hg
      · right
        refine foldl_add_of_mem (φ := (·.llmFirst.isSome)) he' (fun g => ?_) (fun g t e hg => ?_) _
        · rw [Group.add_llmFirst, if_pos (hanchor hcommit)]
          simp
        · rw [Group.add_llmFirst]
          exact hkeeps hg
  rw [Calculator.close_of_kept (.inr (.inl hkept))] at hturns
  obtain ⟨-, hcommitted, hfirst, -⟩ := h ⟨_, _, c.eventTurn g⟩ (by
    rw [hturns]
    exact List.mem_singleton_self _)
  rw [hc] at hcommitted hfirst
  have hcommitted' : g.committed = none := hcommitted
  have hfirst' : g.llmFirst = none := hfirst
  simp [hcommitted', hfirst'] at htimed

lemma untimed_of_noEventTimes {c : Calculator PyFloat CallHeader Measured Report}
    (hc : c.eventTurn = eventTurn) {trace : Trace PyFloat CallHeader}
    (h : NoEventTimes trace.spans) : ∀ turn ∈ c.turnsFromEvents trace, turn.measured.Untimed := by
  intro turn hturn
  obtain ⟨g, hg, hkept, hmeasured⟩ := c.mem_turnsFromEvents fromEvents_empty
    (fun g e he hg => hg.add he) hturn
  have hnone {a : Option PyFloat} {name : String}
      (ha : ∀ t ∈ a, ∃ e ∈ timedEvents trace.spans, e.1 = t ∧ e.2.name = name)
      (hname : ∀ e ∈ timedEvents trace.spans, e.2.name ≠ name) : a = none := by
    cases a with
    | none => rfl
    | some t =>
      obtain ⟨e, he, -, hn⟩ := ha t rfl
      exact absurd hn (hname e he)
  have hfinal := hnone hg.sttFinal fun e he => (h.1 e he).1
  have haudio := hnone hg.ttsFirst fun e he => (h.1 e he).2
  have hspoken : g.llmSpoken.isSome := by simpa [Group.kept, hfinal, haudio] using hkept
  obtain ⟨s, hs⟩ := Option.isSome_iff_exists.1 hspoken
  obtain ⟨e, he, hname, htext⟩ := hg.llmSpoken s hs
  rcases h.2 with hsilent | hunanchored
  · rw [hsilent e he hname] at htext
    cases htext
  · rw [hmeasured, hc]
    exact ⟨hfinal, hnone hg.committed fun e he => (hunanchored e he).1,
      hnone hg.llmFirst fun e he => (hunanchored e he).2, haudio⟩

/-- The analysis of a trace is the same on a shifted call clock exactly when nothing is shifted, its
turns are spans, or no event gives a derived turn a time. -/
theorem analyze_shift_iff {cfg : MetricConfig} {audioEnabled : Bool}
    {trace : Trace PyFloat CallHeader} {audio : Option (AudioAnalysis PyFloat)} {o d : ℚ}
    {a : Analysis Measured Report} (hrational : RationalEvents trace.spans)
    (h : (canonical cfg audioEnabled).analyze trace audio (some (.fin o)) = .ok a) :
    (∃ a', (canonical cfg audioEnabled).analyze (trace.shift d) audio (some (.fin (o + d))) = .ok a' ∧
      a'.turns = a.turns ∧ a'.report.metrics = a.report.metrics) ↔
      d = 0 ∨ HasTurnSpan trace.spans ∨ NoEventTimes trace.spans := by
  obtain ⟨a', ha', hmetrics, hturns⟩ := analyze_shift (d := d) h
  have hsame : (∃ a', (canonical cfg audioEnabled).analyze (trace.shift d) audio
      (some (.fin (o + d))) = .ok a' ∧ a'.turns = a.turns ∧
        a'.report.metrics = a.report.metrics) ↔ a'.turns = a.turns := by
    rw [ha']
    constructor
    · rintro ⟨a'', heq, hturns, -⟩
      cases heq
      exact hturns
    · exact fun hturns => ⟨a', rfl, hturns, hmetrics⟩
  rw [hsame]
  rcases hturns with ⟨hturn, heq⟩ | ⟨hturn, hderived, heq⟩
  · exact iff_of_true heq (.inr (.inl hturn))
  · have hshift : ∀ turn ∈ a.turns, turn.shift d = turn ↔ d = 0 ∨ turn.measured.Untimed := by
      intro turn hin
      rw [hderived] at hin
      obtain ⟨g, hg, -, hmeasured⟩ := (canonical cfg audioEnabled).mem_turnsFromEvents
        fromEvents_empty (fun g e he hg => hg.add he) hin
      have hm : turn.measured = eventTurn g := hmeasured
      rw [hm, ← hg.shift_eq_iff hrational, ← hm]
      obtain ⟨index, id, measured⟩ := turn
      simp [Turn.shift]
    have hmap : a.turns.map (Turn.shift d) = a.turns ↔ ∀ turn ∈ a.turns, turn.shift d = turn := by
      conv_lhs => rhs; rw [← List.map_id a.turns]
      exact List.map_inj_left
    rw [heq, hmap, forall₂_congr hshift]
    constructor
    · intro hall
      by_cases hd : d = 0
      · exact .inl hd
      · refine .inr (.inr (noEventTimes_of_untimed (c := canonical cfg audioEnabled) rfl ?_))
        intro turn hin
        exact (hall turn (hderived ▸ hin)).resolve_left hd
    · rintro (hd | hspan | hnone) turn hin
      · exact .inl hd
      · exact absurd hspan hturn
      · exact .inr (untimed_of_noEventTimes (c := canonical cfg audioEnabled) rfl hnone turn
          (hderived ▸ hin))

end

/-! ### A transcript and an answer -/

/-- A call whose root span has the caller's words and the agent's first audio as events. -/
def answeredTrace : Trace PyFloat CallHeader where
  header := { callId := "c1", source := "pipecat", environment := "prod" }
  spans := [{
    spanId := "s1"
    name := "call"
    stage := .call
    tStart := some (.fin 0)
    events := [
      { name := "stt.final", t := some (.fin 1), content := [("transcript", .str "hello")] },
      { name := "tts.first_audio", t := some (.fin 2) }] }]

lemma rationalEvents_answeredTrace : RationalEvents answeredTrace.spans := by
  have hevents : ∀ e ∈ (timedEvents answeredTrace.spans).map Prod.fst, e = .fin 1 ∨ e = .fin 2 := by
    decide +kernel
  intro e he
  rcases hevents e.1 (List.mem_map_of_mem he) with h | h
  · exact ⟨1, h⟩
  · exact ⟨2, h⟩

/-- When the caller's words end, by the turns of an analysis. -/
def sttFinals (a : Analysis Measured Report) : List (Option PyFloat) :=
  a.turns.map (·.measured.sttFinalAt)

/-- Without a shift the analysis is the same. -/
theorem analyze_shift_iff_zero : ∃ a a' : Analysis Measured Report,
    (canonical {} false).analyze answeredTrace none (some (.fin 0)) = .ok a ∧
      (canonical {} false).analyze (answeredTrace.shift 0) none (some (.fin (0 + 0))) = .ok a' ∧
      a'.turns = a.turns := by
  have hbefore : ∃ a, (canonical {} false).analyze answeredTrace none (some (.fin 0)) = .ok a :=
    ⟨_, rfl⟩
  obtain ⟨a, ha⟩ := hbefore
  obtain ⟨a', ha', hturns, -⟩ :=
    (analyze_shift_iff (d := 0) rationalEvents_answeredTrace ha).2 (.inl rfl)
  exact ⟨a, a', ha, ha', hturns⟩

/-- The derived turn moves with the call clock. -/
theorem analyze_shift_moves_derived_turn :
    ¬∀ (trace : Trace PyFloat CallHeader) (o d : ℚ) (a : Analysis Measured Report),
      RationalEvents trace.spans →
      (canonical {} false).analyze trace none (some (.fin o)) = .ok a →
      ∃ a', (canonical {} false).analyze (trace.shift d) none (some (.fin (o + d))) = .ok a' ∧
        a'.turns = a.turns ∧ a'.report.metrics = a.report.metrics := by
  intro h
  have hbefore : ((canonical {} false).analyze answeredTrace none (some (.fin 0))).map sttFinals =
      .ok [some (.fin 1)] := rfl
  have hafter : ((canonical {} false).analyze (answeredTrace.shift 1) none
      (some (.fin (0 + 1)))).map sttFinals = .ok [some (.fin 2)] := by decide +kernel
  obtain ⟨a, ha, hstt⟩ := Lib.map_eq_ok.1 hbefore
  obtain ⟨a', ha', hturns, -⟩ := h answeredTrace 0 1 a rationalEvents_answeredTrace ha
  rw [ha'] at hafter
  have hstt' : sttFinals a' = [some (.fin 2)] := Except.ok.inj hafter
  have hsame : sttFinals a' = sttFinals a := by simp only [sttFinals, hturns]
  rw [hstt, hstt'] at hsame
  exact absurd hsame (by decide +kernel)

end Pulse.Core
