import Mathlib.Data.List.Infix
import Pulse.Chat.Isolation
import Pulse.Lib.Separated
import Pulse.Lib.Truth

/-!
# The scope predicates in both dialects

The predicates of `db/agent_views.py` as PostgreSQL and SQLite evaluate them: membership in an array
in one, a search in the joined list in the other. The search also finds several neighbours of the
list, joined.
-/

namespace Pulse.Chat

open Pulse.Db
open Lib (Truth)

inductive Dialect
  | postgresql
  | sqlite
  deriving DecidableEq, Repr

/-! ### The predicates -/

namespace Dialect

/-- The text that `||` makes of a cell. -/
def textOf : Cell → Option String
  | some (.text s) => some s
  | some (.int i) => some (toString i)
  | none => none

/-- `instr(x, y)`: where `y` begins in `x`, counted from 1, and 0 if it is not there. -/
def instr (x y : List Char) : Nat :=
  ((x.tails.findIdx? (y.isPrefixOf ·)).map (· + 1)).getD 0

/-- `',' || s || ','` -/
def wrapped (s : String) : List Char := ',' :: s.toList ++ [',']

/-- `_agent_member`, where the setting is `va`. -/
def agentMember (va : Option String) (col : Cell) : Dialect → Truth
  | .postgresql => (Truth.eq va (some "*")).or
      (Truth.eqAny col (va.map fun s => (stringToArray s).map .text))
  | .sqlite => (Truth.eq va (some "*")).or (va.bind fun s =>
      (textOf col).map fun o => decide (instr (wrapped s) (wrapped o) > 0))

/-- `_call_match`, where the setting is `cs`. -/
def callMatch (cs : Option String) (col : Cell) : Truth :=
  (Truth.eq (some (cs.getD "")) (some "")).or (Truth.eq col (cs.map .text))

/-- `_predicate` -/
def predicate (d : Dialect) (va cs : Option String) (tables : Table → List Row) (scope : Scope)
    (b : Row) : Truth :=
  match scope with
  | .call => (agentMember va (b .agentId) d).and (callMatch cs (b .id))
  | .agent => agentMember va (b .id) d
  | .ownCall => (agentMember va (b .agentId) d).and (callMatch cs (b .callId))
  | .own => agentMember va (b .agentId) d
  | .viaCall => some ((tables .call).any fun c =>
      ((Truth.eq (c .id) (b .callId)).and
        ((agentMember va (c .agentId) d).and (callMatch cs (c .id)))).holds)

end Dialect

/-! ### What they are for -/

/-- The tables whose `call_id` is declared not to be null. -/
def callRequired : List Table := [
  .event, .utterance, .turn, .metric, .media, .ingestRun, Table.annotation, .label, .transcript,
  .judgment, .callEmbedding, .callCluster, .audioDiscrepancy]

/-- The rows of an organisation, with the declared types of their ids. -/
structure Content where
  db : OrgDb
  text : ∀ t, ∀ r ∈ db.rows t, ∀ c ∈ [Column.id, .callId, .agentId], ∀ v, r c = some v →
    ∃ s, v = .text s
  call_some : ∀ t ∈ callRequired, ∀ r ∈ db.rows t, r .callId ≠ none

/-- Ids as the caller lists them. -/
structure Ids where
  ids : List String
  plain : ∀ a ∈ ids, a ≠ "" ∧ a ≠ "*" ∧ ',' ∉ a.toList

/-- The rows have to do with a call. -/
def callLinked : Scope → Bool
  | .call | .ownCall | .viaCall => true
  | .agent | .own => false

def owningCall : Scope → Row → Cell
  | .call, b => b .id
  | .ownCall, b | .viaCall, b => b .callId
  | .agent, _ | .own, _ => none

/-- The agent of the row, or of its call. -/
def owningAgent (tables : Table → List Row) : Scope → Row → Cell
  | .agent, b => b .id
  | .call, b | .own, b | .ownCall, b => b .agentId
  | .viaCall, b => ((tables .call).find? fun c => c .id = b .callId).bind (· .agentId)

def AgentIn (visible : Option Ids) (agent : Cell) : Prop :=
  ∀ l, visible = some l → ∃ a ∈ l.ids, agent = some (.text a)

/-- No call is bound by an empty id. -/
def OfBoundCall (callId : Option String) (scope : Scope) (b : Row) : Prop :=
  ∀ id, callId = some id → id ≠ "" → callLinked scope = true →
    owningCall scope b = some (.text id)

/-- The id is one that the list does not have, but the joined list seems to: several neighbours
joined, or nothing in an empty list. -/
def Spliced (ids : List String) (id : String) : Prop :=
  ∃ run, run <:+: ids ∧ run.length ≠ 1 ∧ (run = [] → ids = []) ∧ id = join run

/-- For each view and each dialect the predicate is membership, and nothing is selected while the
setting for the agents is not made. -/
def MeansMembership (content : Content) (visible : Option Ids) (callId : Option String) : Prop :=
  ∀ e ∈ agentViews, ∀ b ∈ content.db.rows e.table, ∀ d : Dialect,
    ((d.predicate (some (agentsVal (visible.map (·.ids)))) (some (callId.getD "")) content.db.rows
        e.scope b).holds = true ↔
      AgentIn visible (owningAgent content.db.rows e.scope b) ∧ OfBoundCall callId e.scope b) ∧
    (visible ≠ none → owningAgent content.db.rows e.scope b = none →
      (d.predicate (some (agentsVal (visible.map (·.ids)))) (some (callId.getD ""))
        content.db.rows e.scope b).holds = false) ∧
    ∀ cs, (d.predicate none cs content.db.rows e.scope b).holds = false

/-- No row that the bound call admits has an owner that is spliced out of the list. -/
def NoneSpliced (content : Content) (visible : Option Ids) (callId : Option String) : Prop :=
  ∀ l, visible = some l → ∀ e ∈ agentViews, ∀ b ∈ content.db.rows e.table,
    OfBoundCall callId e.scope b → ∀ s, owningAgent content.db.rows e.scope b = some (.text s) →
      ¬ Spliced l.ids s

/-! ### One agent, one call -/

variable {visible : Option Ids} {callId : Option String}

lemma join_toList (ids : List String) : (join ids).toList = [','].intercalate (ids.map (·.toList)) :=
  String.toList_ofList

lemma join_singleton (a : String) : join [a] = a := by
  rw [← String.toList_inj, join_toList]
  simp

lemma join_ne_star (l : Ids) : join l.ids ≠ "*" := by
  intro hstar
  have harray := stringToArray_join fun a ha => ⟨(l.plain a ha).1, (l.plain a ha).2.2⟩
  rw [hstar] at harray
  have hmem : "*" ∈ l.ids := by
    rw [← harray]
    decide
  exact (l.plain "*" hmem).2.1 rfl

lemma instr_pos_iff {x y : List Char} : Dialect.instr x y > 0 ↔ y <:+: x := by
  unfold Dialect.instr
  cases hfind : x.tails.findIdx? (y.isPrefixOf ·) with
  | none =>
    rw [List.findIdx?_eq_none_iff] at hfind
    apply iff_of_false (by simp)
    rintro ⟨s, t, rfl⟩
    have hprefix := hfind (y ++ t) ((List.mem_tails _ _).2 ⟨s, by simp⟩)
    rw [List.isPrefixOf_iff_prefix.2 (List.prefix_append y t)] at hprefix
    cases hprefix
  | some i =>
    obtain ⟨hi, hprefix, -⟩ := List.findIdx?_eq_some_iff_getElem.1 hfind
    apply iff_of_true (by simp)
    have htail := (List.mem_tails _ _).1 (List.getElem_mem hi)
    exact (List.isPrefixOf_iff_prefix.1 hprefix).isInfix.trans htail.isInfix

/-- What the search finds in the joined list. -/
lemma instr_wrapped_iff (l : Ids) (id : String) :
    Dialect.instr (Dialect.wrapped (join l.ids)) (Dialect.wrapped id) > 0 ↔
      id ∈ l.ids ∨ Spliced l.ids id := by
  have hcomma : ∀ part ∈ l.ids.map (·.toList), ',' ∉ part := by
    intro part hpart
    obtain ⟨a, ha, rfl⟩ := List.mem_map.1 hpart
    exact (l.plain a ha).2.2
  rw [instr_pos_iff, Dialect.wrapped, Dialect.wrapped, join_toList,
    Lib.wrapped_infix_intercalate_iff hcomma]
  have hmap : (∃ run, run <:+: l.ids.map (·.toList) ∧ (run = [] → l.ids.map (·.toList) = []) ∧
      id.toList = [','].intercalate run) ↔
      ∃ run, run <:+: l.ids ∧ (run = [] → l.ids = []) ∧ id = join run := by
    simp only [List.infix_map_iff, ← String.toList_inj, join_toList]
    constructor
    · rintro ⟨_, ⟨run, hrun, rfl⟩, hne, hid⟩
      exact ⟨run, hrun, by simpa using hne, hid⟩
    · rintro ⟨run, hrun, hne, hid⟩
      exact ⟨_, ⟨run, hrun, rfl⟩, by simpa using hne, hid⟩
  rw [hmap]
  constructor
  · rintro ⟨run, hrun, hne, hid⟩
    by_cases hone : run.length = 1
    · obtain ⟨a, rfl⟩ := List.length_eq_one_iff.1 hone
      rw [hid, join_singleton]
      exact .inl (hrun.subset List.mem_cons_self)
    · exact .inr ⟨run, hrun, hone, hne, hid⟩
  · rintro (hmem | ⟨run, hrun, -, hne, hid⟩)
    · obtain ⟨front, back, hids⟩ := List.append_of_mem hmem
      refine ⟨[id], ⟨front, back, by simp [hids]⟩, fun h => absurd h (List.cons_ne_nil _ _), ?_⟩
      rw [join_singleton]
    · exact ⟨run, hrun, hne, hid⟩

lemma holds_agentMember_postgresql (agent : Cell) :
    (Dialect.agentMember (some (agentsVal (visible.map (·.ids)))) agent .postgresql).holds = true ↔
      AgentIn visible agent := by
  cases visible with
  | none => simp [Dialect.agentMember, agentsVal, AgentIn, Truth.holds_eq]
  | some l =>
    have harray := stringToArray_join fun a ha => ⟨(l.plain a ha).1, (l.plain a ha).2.2⟩
    have hstar := join_ne_star l
    simp [Dialect.agentMember, agentsVal, AgentIn, Truth.holds_eq, Truth.holds_eqAny, hstar, harray]

lemma holds_agentMember_sqlite (agent : Cell) (htext : ∀ v, agent = some v → ∃ s, v = .text s) :
    (Dialect.agentMember (some (agentsVal (visible.map (·.ids)))) agent .sqlite).holds = true ↔
      AgentIn visible agent ∨
        ∃ l s, visible = some l ∧ agent = some (.text s) ∧ Spliced l.ids s := by
  cases visible with
  | none => simp [Dialect.agentMember, agentsVal, AgentIn, Truth.holds_eq]
  | some l =>
    have hstar := join_ne_star l
    rw [Option.map_some, agentsVal, Dialect.agentMember, Truth.holds_or, Bool.or_eq_true,
      Truth.holds_eq, or_iff_right fun h => hstar (Option.some.inj h.2), Option.bind_some]
    cases agent with
    | none => simp [Dialect.textOf, AgentIn, Truth.holds]
    | some v =>
      obtain ⟨s, rfl⟩ := htext v rfl
      have hin : AgentIn (some l) (some (.text s)) ↔ s ∈ l.ids := by simp [AgentIn]
      rw [hin, Dialect.textOf, Option.map_some, Truth.holds_some, decide_eq_true_iff,
        instr_wrapped_iff]
      simp

lemma holds_agentMember_none (agent : Cell) (d : Dialect) :
    (Dialect.agentMember none agent d).holds = false := by
  cases d with
  | postgresql => rfl
  | sqlite => rfl

lemma holds_callMatch (call : Cell) :
    (Dialect.callMatch (some (callId.getD "")) call).holds = true ↔
      ∀ id, callId = some id → id ≠ "" → call = some (.text id) := by
  cases callId with
  | none => simp [Dialect.callMatch, Truth.holds_eq]
  | some id =>
    by_cases hid : id = ""
    · simp [Dialect.callMatch, Truth.holds_eq, hid]
    · simp only [Dialect.callMatch, Truth.holds_or, Bool.or_eq_true, Truth.holds_eq, Option.getD_some,
        Option.map_some, Option.some.injEq, hid, forall_eq']
      simp [hid]
      rintro rfl
      simp

/-! ### One row -/

/-- A row of a table that refers to calls belongs to exactly one. -/
lemma exists_owner (content : Content) {e : MenuEntry} (he : e ∈ agentViews)
    (hscope : e.scope = .viaCall) {b : Row} (hb : b ∈ content.db.rows e.table) :
    ∃ c ∈ content.db.rows .call, c .id = b .callId ∧ c .id ≠ none ∧
      owningAgent content.db.rows .viaCall b = c .agentId ∧
        ∀ c' ∈ content.db.rows .call, c' .id = b .callId → c' = c := by
  have hrefers : ∀ e ∈ agentViews, e.scope = .viaCall →
      ⟨e.table, .callId, .call⟩ ∈ metadata.foreignKeys ∧ e.table ∈ callRequired := by
    decide
  obtain ⟨hfk, hrequired⟩ := hrefers e he hscope
  have hsome := content.call_some e.table hrequired b hb
  obtain ⟨c, hc, hid⟩ := content.db.refs _ hfk b hb hsome
  have hunique : ∀ c' ∈ content.db.rows .call, c' .id = b .callId → c' = c := fun c' hc' hid' =>
    List.inj_on_of_nodup_map (content.db.key_nodup .call) hc' hc (hid'.trans hid.symm)
  refine ⟨c, hc, hid, fun hnone => hsome (hid.symm.trans hnone), ?_, hunique⟩
  cases hfind : (content.db.rows .call).find? fun c => c .id = b .callId with
  | none =>
    rw [List.find?_eq_none] at hfind
    exact absurd (decide_eq_true hid) (hfind c hc)
  | some c' =>
    have hrefers := List.find?_some hfind
    have hfound := hunique c' (List.mem_of_find?_eq_some hfind) (by simpa using hrefers)
    rw [owningAgent, hfind, hfound]
    rfl

lemma owningAgent_text (content : Content) {e : MenuEntry} {b : Row}
    (hb : b ∈ content.db.rows e.table) (v : Value)
    (hv : owningAgent content.db.rows e.scope b = some v) : ∃ s, v = .text s := by
  cases hscope : e.scope with
  | viaCall =>
    rw [hscope, owningAgent] at hv
    obtain ⟨c, hc, hagent⟩ := Option.bind_eq_some_iff.1 hv
    exact content.text .call c (List.mem_of_find?_eq_some hc) .agentId (by simp) v hagent
  | agent =>
    rw [hscope] at hv
    exact content.text e.table b hb .id (by simp) v hv
  | _ =>
    rw [hscope] at hv
    exact content.text e.table b hb .agentId (by simp) v hv

/-- Every scope asks for the owner, and those that are linked to calls for the owning call. -/
lemma holds_predicate (content : Content) (d : Dialect) (va cs : Option String) {e : MenuEntry}
    (he : e ∈ agentViews) {b : Row} (hb : b ∈ content.db.rows e.table) :
    (d.predicate va cs content.db.rows e.scope b).holds = true ↔
      (Dialect.agentMember va (owningAgent content.db.rows e.scope b) d).holds = true ∧
        (callLinked e.scope = true → (Dialect.callMatch cs (owningCall e.scope b)).holds = true) := by
  cases hscope : e.scope with
  | viaCall =>
    obtain ⟨c, hc, hid, hne, howner, hunique⟩ := exists_owner content he hscope hb
    have hexists : (∃ c' ∈ content.db.rows .call, (c' .id ≠ none ∧ c' .id = b .callId) ∧
        (Dialect.agentMember va (c' .agentId) d).holds = true ∧
          (Dialect.callMatch cs (c' .id)).holds = true) ↔
        (Dialect.agentMember va (c .agentId) d).holds = true ∧
          (Dialect.callMatch cs (c .id)).holds = true := by
      constructor
      · rintro ⟨c', hc', ⟨-, hid'⟩, hholds⟩
        rwa [hunique c' hc' hid'] at hholds
      · exact fun hholds => ⟨c, hc, ⟨hne, hid⟩, hholds⟩
    rw [howner, owningCall, ← hid]
    refine Iff.trans ?_ (hexists.trans (and_congr_right fun _ => ⟨fun h _ => h, fun h => h rfl⟩))
    simp [Dialect.predicate, Truth.holds_eq]
  | call | ownCall => simp [Dialect.predicate, owningAgent, owningCall, callLinked]
  | agent | own => simp [Dialect.predicate, owningAgent, callLinked]

/-! ### The views -/

/-- What each dialect selects: SQLite also the rows whose owner is spliced out of the list. -/
lemma holds_predicate_scope (content : Content) (visible : Option Ids) (callId : Option String)
    (d : Dialect) {e : MenuEntry} (he : e ∈ agentViews) {b : Row}
    (hb : b ∈ content.db.rows e.table) :
    (d.predicate (some (agentsVal (visible.map (·.ids)))) (some (callId.getD "")) content.db.rows
        e.scope b).holds = true ↔
      (AgentIn visible (owningAgent content.db.rows e.scope b) ∨ d = .sqlite ∧ ∃ l s,
        visible = some l ∧ owningAgent content.db.rows e.scope b = some (.text s) ∧
          Spliced l.ids s) ∧ OfBoundCall callId e.scope b := by
  have hcall : (callLinked e.scope = true → (Dialect.callMatch (some (callId.getD ""))
      (owningCall e.scope b)).holds = true) ↔ OfBoundCall callId e.scope b := by
    rw [holds_callMatch]
    exact ⟨fun h id hid hne hlinked => h hlinked id hid hne,
      fun h hlinked id hid hne => h id hid hne hlinked⟩
  rw [holds_predicate content d _ _ he hb, hcall]
  cases d with
  | postgresql => simp [holds_agentMember_postgresql]
  | sqlite =>
    rw [holds_agentMember_sqlite _ (owningAgent_text content hb)]
    simp

lemma not_mem_of_spliced (l : Ids) {id : String} (h : Spliced l.ids id) : id ∉ l.ids := by
  obtain ⟨run, hrun, hone, -, rfl⟩ := h
  intro hmem
  match run with
  | [] => exact (l.plain _ hmem).1 rfl
  | [_] => exact hone rfl
  | a :: b :: run =>
    have hcomma : ',' ∈ (join (a :: b :: run)).toList := by
      rw [join_toList, List.map_cons, List.map_cons, List.intercalate_cons_cons]
      simp
    exact (l.plain _ hmem).2.2 hcomma

lemma noneSpliced_of_means {content : Content} (h : MeansMembership content visible callId) :
    NoneSpliced content visible callId := by
  rintro l rfl e he b hb hcall s howner hspliced
  have hholds := (holds_predicate_scope content (some l) callId .sqlite he hb).2
    ⟨.inr ⟨rfl, l, s, rfl, howner, hspliced⟩, hcall⟩
  obtain ⟨a, ha, hsome⟩ := ((h e he b hb .sqlite).1.1 hholds).1 l rfl
  rw [howner, Option.some.injEq, Value.text.injEq] at hsome
  exact not_mem_of_spliced l hspliced (hsome ▸ ha)

lemma means_of_noneSpliced {content : Content} (h : NoneSpliced content visible callId) :
    MeansMembership content visible callId := by
  intro e he b hb d
  have hscope := holds_predicate_scope content visible callId d he hb
  refine ⟨?_, fun hvisible howner => ?_, fun cs => ?_⟩
  · rw [hscope]
    constructor
    · rintro ⟨hin | ⟨-, l, s, hl, howner, hspliced⟩, hcall⟩
      · exact ⟨hin, hcall⟩
      · exact absurd hspliced (h l hl e he b hb hcall s howner)
    · exact fun hin => ⟨.inl hin.1, hin.2⟩
  · rw [← Bool.not_eq_true, hscope]
    rintro ⟨hin | ⟨-, l, s, -, hsome, -⟩, -⟩
    · obtain ⟨l, hl⟩ := Option.ne_none_iff_exists'.1 hvisible
      obtain ⟨a, -, ha⟩ := hin l hl
      rw [howner] at ha
      cases ha
    · rw [howner] at hsome
      cases hsome
  · rw [← Bool.not_eq_true, holds_predicate content d none cs he hb, holds_agentMember_none]
    simp

/-- The views mean membership exactly when no owner is spliced out of the list. -/
theorem predicates_mean_membership_iff (content : Content) (visible : Option Ids)
    (callId : Option String) :
    MeansMembership content visible callId ↔ NoneSpliced content visible callId :=
  ⟨noneSpliced_of_means, means_of_noneSpliced⟩

def twoAgents : Ids := ⟨["a", "b"], by decide⟩

/-- A call whose agent is `a,b` is shown to one who sees `a` and `b`. -/
theorem predicates_find_neighbours :
    ¬ ∀ (content : Content) (visible : Option Ids) (callId : Option String),
      MeansMembership content visible callId := by
  intro h
  obtain ⟨db, hdb⟩ := exists_callOf "k1" (some (.text "a,b"))
  have hrow : ∀ t, ∀ r ∈ db.rows t, t = .call ∧ r = callOf "k1" (some (.text "a,b")) := by
    intro t r hr
    rw [hdb] at hr
    split at hr
    · exact ⟨‹_›, List.mem_singleton.1 hr⟩
    · cases hr
  have htext : ∀ c ∈ [Column.id, .callId, .agentId], ∀ v,
      callOf "k1" (some (.text "a,b")) c = some v → ∃ s, v = .text s := by
    intro c hc v hv
    simp only [List.mem_cons, List.not_mem_nil, or_false] at hc
    rcases hc with rfl | rfl | rfl
    · exact ⟨"k1", (Option.some.inj hv).symm⟩
    · cases hv
    · exact ⟨"a,b", (Option.some.inj hv).symm⟩
  let content : Content := ⟨db, fun t r hr => (hrow t r hr).2 ▸ htext, fun t ht r hr =>
    absurd ((hrow t r hr).1 ▸ ht) (by decide)⟩
  obtain ⟨e, he, -, htable, hscope⟩ := menu_calls_over []
  have hmem : callOf "k1" (some (.text "a,b")) ∈ content.db.rows e.table := by
    change _ ∈ db.rows e.table
    rw [htable, hdb, if_pos rfl]
    exact List.mem_singleton.2 rfl
  refine noneSpliced_of_means (h content (some twoAgents) none) twoAgents rfl e he _ hmem
    (fun _ hid => (nomatch hid)) "a,b" (by rw [hscope]; rfl) ⟨["a", "b"], List.infix_refl _, ?_⟩
  exact ⟨by decide, (nomatch ·), by decide⟩

/-! ### The queries of the agent -/

lemma holds_agentMember_eq (va : Option String) (agent : Cell) :
    (Dialect.agentMember va agent .postgresql).holds = agentMember va agent := by
  cases va with
  | none => rfl
  | some s =>
    have hany : (Truth.eqAny agent (some ((stringToArray s).map .text))).holds =
        (stringToArray s).any fun a => agent = some (.text a) := by
      rw [Bool.eq_iff_iff, Truth.holds_eqAny]
      simp
    rw [Dialect.agentMember, Truth.holds_or, Option.map_some, hany, agentMember, Truth.eq,
      Truth.holds_some]

lemma holds_callMatch_eq (cs : Option String) (call : Cell) :
    (Dialect.callMatch cs call).holds = callMatch cs call := by
  rw [Bool.eq_iff_iff]
  cases cs with
  | none => simp [Dialect.callMatch, callMatch, Truth.holds_eq]
  | some id =>
    have hcall : call ≠ none ∧ call = some (.text id) ↔ call = some (.text id) :=
      and_iff_right_of_imp fun h => h ▸ Option.some_ne_none _
    simp [Dialect.callMatch, callMatch, Truth.holds_eq, hcall]

/-- With PostgreSQL, what is selected of the views that `run_agent_sql` reads. -/
theorem holds_predicate_postgresql (va cs : Option String) (tables : Table → List Row)
    (scope : Scope) (b : Row) :
    (Dialect.predicate .postgresql va cs tables scope b).holds =
      predicate (agentMember va) (callMatch cs) tables scope b := by
  cases scope with
  | viaCall =>
    rw [Dialect.predicate, Truth.holds_some]
    apply List.any_congr rfl
    intro c
    rw [Truth.holds_and, Truth.holds_and, holds_agentMember_eq, holds_callMatch_eq,
      Bool.eq_iff_iff]
    simp [Truth.holds_eq, Option.isSome_iff_ne_none, and_assoc]
  | _ => simp [Dialect.predicate, predicate, holds_agentMember_eq, holds_callMatch_eq]

end Pulse.Chat
