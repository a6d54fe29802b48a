import Pulse.Chat.Sql

/-!
# What a query can tell

Two databases that agree on the rows a caller may see give it the same answer to a query that
keeps to the caller's own agent views and leaves the scope settings alone. Nothing holds a
query to that: another organisation's views can be named, and the settings can be set.
-/

namespace Pulse.Chat

open Pulse.Db

/-- Who asks: the organisation, the agents it may see (`none` for all of them) and the call that
a per-call chat is bound to. The ids are uuids. -/
structure Caller where
  org : String
  visible : Option (List String)
  call : Option String
  visible_plain : ∀ ids, visible = some ids → ∀ a ∈ ids, a ≠ "" ∧ a ≠ "*" ∧ ',' ∉ a.toList
  call_ne : call ≠ some ""

namespace Caller

def Sees (u : Caller) (agent : Cell) : Prop :=
  ∀ ids, u.visible = some ids → ∃ a ∈ ids, agent = some (.text a)

def BoundTo (u : Caller) (call : Cell) : Prop :=
  ∀ id, u.call = some id → call = some (.text id)

/-- The row belongs to an agent the caller sees and, where it belongs to a call, to the bound
one. -/
def MaySee (u : Caller) (tables : Table → List Row) : Scope → Row → Prop
  | .call, b => u.Sees (b .agentId) ∧ u.BoundTo (b .id)
  | .agent, b => u.Sees (b .id)
  | .ownCall, b => u.Sees (b .agentId) ∧ u.BoundTo (b .callId)
  | .own, b => u.Sees (b .agentId)
  | .viaCall, b => ∃ c ∈ tables .call, c .id ≠ none ∧ c .id = b .callId ∧
      u.Sees (c .agentId) ∧ u.BoundTo (c .id)

open Classical in
/-- The rows behind an entry of the menu that the caller may see. -/
noncomputable def visibleRows (u : Caller) (tables : Table → List Row) (e : MenuEntry) :
    List Row :=
  (tables e.table).filter fun b => decide (u.MaySee tables e.scope b)

end Caller

/-- The databases agree on the rows that the caller may see. -/
def Agree (py : Casing) (u : Caller) (c c' : Cluster) : Prop :=
  ∀ e ∈ agentViews, u.visibleRows (tablesOf c (tableSchema py u.org)) e =
    u.visibleRows (tablesOf c' (tableSchema py u.org)) e

/-- The organisation has the views that `build_agent_views` makes for it. -/
def Built (py : Casing) (c : Cluster) (slug : String) : Prop :=
  (c (viewSchema py slug)).views = menu (tableSchema py slug)

/-- A reference names the organisation's own agent views: by their schema, or without one while
the search path holds no other schema that the role may use. -/
def Names (own : Ident) (st : Settings) : Option Ident → Prop
  | none => ∀ s ∈ st.path, usable s = true → s = own
  | some s => s = own

/-- The scope settings select no agent and no call beyond the caller's. -/
structure Within (u : Caller) (visibleAgents callId : Option String) : Prop where
  agents : ∀ agent, agentMember visibleAgents agent = true → u.Sees agent
  calls : ∀ call, callMatch callId call = true → u.BoundTo call

/-- Wherever the query reads, it names an agent view of its own organisation, under scope
settings that are no wider than the caller's. -/
def Confined (pg : Postgres) (u : Caller) (own : Ident) : Settings → Query → Prop
  | _, .result _ _ | _, .noRows | _, .fail _ => True
  | st, .scan schema relation next =>
    pg.system schema relation = none ∧ Names own st schema ∧
      Within u (st.value "pulse.visible_agents") (st.value "pulse.call_id") ∧
      ∀ rows, Confined pg u own st (next rows)
  | st, .setSearchPath path next => Confined pg u own { st with path := path } next
  | st, .setConfig name value next => Confined pg u own (st.set name value) next
  | st, .currentSetting name next => Confined pg u own st (next (st.value name))

/-! ### The predicates in terms of the caller -/

lemma stringToArray_join {ids : List String} (h : ∀ a ∈ ids, a ≠ "" ∧ ',' ∉ a.toList) :
    stringToArray (join ids) = ids := by
  cases ids with
  | nil => rfl
  | cons a as =>
    have hsplit : (join (a :: as)).toList.splitOn ',' = (a :: as).map (·.toList) := by
      rw [join, String.toList_ofList]
      apply List.splitOn_intercalate
      · intro l hl
        obtain ⟨b, hb, rfl⟩ := List.mem_map.1 hl
        exact (h b hb).2
      · simp
    have hne : join (a :: as) ≠ "" := by
      intro hempty
      rw [hempty] at hsplit
      have ha : a.toList = [] := by
        have : ([[]] : List (List Char)) = (a :: as).map (·.toList) := hsplit
        simpa using (congrArg List.head? this).symm
      exact (h a List.mem_cons_self).1 (String.toList_eq_nil_iff.1 ha)
    rw [stringToArray, if_neg hne, hsplit, List.map_map]
    simp

section

variable {py : Casing} {pg : Postgres} {u : Caller}

lemma agentMember_iff (agent : Cell) :
    agentMember (some (agentsVal u.visible)) agent = true ↔ u.Sees agent := by
  cases hvisible : u.visible with
  | none => simp [agentMember, agentsVal, Caller.Sees, hvisible]
  | some ids =>
    have hplain := u.visible_plain ids hvisible
    have harray : stringToArray (join ids) = ids :=
      stringToArray_join fun a ha => ⟨(hplain a ha).1, (hplain a ha).2.2⟩
    have hstar : join ids ≠ "*" := by
      intro hstar
      rw [hstar] at harray
      have hmem : "*" ∈ ids := by
        rw [← harray]
        decide
      exact (hplain "*" hmem).2.1 rfl
    simp [agentMember, agentsVal, Caller.Sees, hvisible, hstar, harray]

lemma callMatch_iff (call : Cell) :
    callMatch (some (u.call.getD "")) call = true ↔ u.BoundTo call := by
  cases hcall : u.call with
  | none => simp [callMatch, Caller.BoundTo, hcall]
  | some id =>
    have hne : id ≠ "" := fun h => u.call_ne (h ▸ hcall)
    simp [callMatch, Caller.BoundTo, hcall, hne]

/-- Under the settings of the caller, a view's predicate selects what the caller may see. -/
theorem predicate_iff (tables : Table → List Row) (scope : Scope) (b : Row) :
    predicate (agentMember (some (agentsVal u.visible))) (callMatch (some (u.call.getD ""))) tables
      scope b = true ↔ u.MaySee tables scope b := by
  cases scope with
  | viaCall =>
    simp [predicate, Caller.MaySee, agentMember_iff, callMatch_iff, Option.isSome_iff_ne_none,
      and_assoc]
  | _ => simp [predicate, Caller.MaySee, agentMember_iff, callMatch_iff]

/-- The settings that `run_agent_sql` starts a query with. -/
lemma within_scopeSettings : Within u
    ((scopeSettings py pg u.org u.visible u.call).value "pulse.visible_agents")
    ((scopeSettings py pg u.org u.visible u.call).value "pulse.call_id") := by
  have hagents : (scopeSettings py pg u.org u.visible u.call).value "pulse.visible_agents" =
      some (agentsVal u.visible) := by
    simp [scopeSettings, Settings.set]
  have hcall : (scopeSettings py pg u.org u.visible u.call).value "pulse.call_id" =
      some (u.call.getD "") := by
    simp [scopeSettings, Settings.set]
  rw [hagents, hcall]
  exact ⟨fun agent => (agentMember_iff agent).1, fun call => (callMatch_iff call).1⟩

/-! ### Confined queries -/

section

variable {tables tables' : Table → List Row} {va cid : Option String}

/-- What a predicate selects, the caller may see. -/
lemma Within.maySee (h : Within u va cid) {scope : Scope} {b : Row}
    (hb : predicate (agentMember va) (callMatch cid) tables scope b = true) :
    u.MaySee tables scope b := by
  cases scope with
  | viaCall =>
    simp only [predicate, List.any_eq_true, Bool.and_eq_true, decide_eq_true_eq,
      Option.isSome_iff_ne_none] at hb
    obtain ⟨c, hc, ⟨⟨hid, hrefers⟩, hagent⟩, hcall⟩ := hb
    exact ⟨c, hc, hid, hrefers, h.agents _ hagent, h.calls _ hcall⟩
  | call | ownCall =>
    simp only [predicate, Bool.and_eq_true] at hb
    exact ⟨h.agents _ hb.1, h.calls _ hb.2⟩
  | agent | own => exact h.agents _ hb

/-- A predicate looks at no call that the caller may not see. -/
lemma Within.predicate_same (h : Within u va cid)
    (hagree : ∀ e ∈ agentViews, u.visibleRows tables e = u.visibleRows tables' e) (scope : Scope)
    (b : Row) :
    predicate (agentMember va) (callMatch cid) tables scope b =
      predicate (agentMember va) (callMatch cid) tables' scope b := by
  cases scope with
  | viaCall =>
    obtain ⟨e, he, htable, hscope⟩ : ∃ e ∈ agentViews, e.table = .call ∧ e.scope = .call := by
      decide
    have hvisible : ∀ ts : Table → List Row,
        predicate (agentMember va) (callMatch cid) ts .viaCall b = (u.visibleRows ts e).any fun c =>
          (c .id).isSome && c .id = b .callId && agentMember va (c .agentId) &&
            callMatch cid (c .id) := by
      intro ts
      rw [Caller.visibleRows, htable, hscope, List.any_filter]
      apply List.any_congr rfl
      intro c
      rw [Bool.eq_iff_iff]
      simp only [Bool.and_eq_true, decide_eq_true_eq]
      refine ⟨fun hc => ⟨⟨h.agents _ hc.1.2, h.calls _ hc.2⟩, hc⟩, fun hc => hc.2⟩
    rw [hvisible, hvisible, hagree e he]
  | _ => rfl

/-- A view of the caller's organisation shows the same rows of both databases. -/
lemma Within.viewRows_same {c c' : Cluster} (h : Within u va cid) (hagree : Agree py u c c')
    {e : MenuEntry} (he : e ∈ agentViews) :
    viewRows c va cid (e.over (tableSchema py u.org)) =
      viewRows c' va cid (e.over (tableSchema py u.org)) := by
  have hvisible : ∀ d : Cluster, viewRows d va cid (e.over (tableSchema py u.org)) =
      ((u.visibleRows (tablesOf d (tableSchema py u.org)) e).filter (predicate (agentMember va)
        (callMatch cid) (tablesOf d (tableSchema py u.org)) e.scope)).map fun b =>
          e.columns.map b := by
    intro d
    unfold viewRows Caller.visibleRows
    rw [List.filter_filter]
    congr 1
    apply List.filter_congr
    intro b _
    rw [Bool.eq_iff_iff]
    simp only [Bool.and_eq_true, decide_eq_true_eq]
    exact ⟨fun hb => ⟨hb, h.maySee hb⟩, fun hb => hb.1⟩
  rw [hvisible, hvisible, hagree e he]
  congr 1
  apply List.filter_congr
  intro b _
  exact h.predicate_same hagree e.scope b

end

lemma usable_viewSchema : usable (viewSchema py u.org) = true := by
  rw [viewSchema_eq]
  simp [usable]

/-- What a reference to the caller's own views finds depends on what the caller may see. -/
lemma lookup_same {c c' : Cluster} {st : Settings} {schema : Option Ident} {relation : String}
    (hbuilt : Built py c u.org) (hbuilt' : Built py c' u.org) (hagree : Agree py u c c')
    (hsystem : pg.system schema relation = none) (hnames : Names (viewSchema py u.org) st schema)
    (hwithin : Within u (st.value "pulse.visible_agents") (st.value "pulse.call_id")) :
    lookup pg c st schema relation = lookup pg c' st schema relation := by
  have hown : ∀ s ∈ searched st schema, s = viewSchema py u.org := by
    intro s hs
    obtain ⟨hs, husable⟩ := List.mem_filter.1 hs
    cases schema with
    | none => exact hnames s hs husable
    | some s' => exact (List.mem_singleton.1 hs).trans hnames
  have hmissing : missing c schema relation = missing c' schema relation := by
    cases schema with
    | none => rfl
    | some s =>
      obtain rfl : s = viewSchema py u.org := hnames
      simp [missing, usable_viewSchema]
  have hviews : (c' (viewSchema py u.org)).views = (c (viewSchema py u.org)).views :=
    hbuilt'.trans hbuilt.symm
  have hfind : ((searched st schema).findSome? fun s => (c' s).views relation) =
      (searched st schema).findSome? fun s => (c s).views relation := by
    rw [← List.head?_filterMap, ← List.head?_filterMap]
    congr 1
    apply List.filterMap_congr
    intro s hs
    rw [hown s hs, hviews]
  unfold lookup
  simp only [hsystem, hfind]
  cases hview : (searched st schema).findSome? fun s => (c s).views relation with
  | none => exact congrArg Except.error hmissing
  | some v =>
    obtain ⟨s, hs, hv⟩ := List.exists_of_findSome?_eq_some hview
    rw [hown s hs, hbuilt] at hv
    obtain ⟨e, he, rfl⟩ := Option.map_eq_some_iff.1 hv
    exact congrArg Except.ok (hwithin.viewRows_same hagree (List.mem_of_find?_eq_some he))

lemma run_same {c c' : Cluster} (hbuilt : Built py c u.org) (hbuilt' : Built py c' u.org)
    (hagree : Agree py u c c') (q : Query) (st : Settings)
    (hq : Confined pg u (viewSchema py u.org) st q) : q.run pg c st = q.run pg c' st := by
  induction q generalizing st with
  | result columns rows => rfl
  | noRows => rfl
  | fail message => rfl
  | scan schema relation next ih =>
    obtain ⟨hsystem, hnames, hwithin, hnext⟩ := hq
    simp only [Query.run, lookup_same hbuilt hbuilt' hagree hsystem hnames hwithin]
    cases lookup pg c' st schema relation with
    | ok rows => exact ih rows st (hnext rows)
    | error message => rfl
  | setSearchPath path next ih => exact ih _ hq
  | setConfig name value next ih => exact ih _ hq
  | currentSetting name next ih => exact ih _ st hq

/-- A database of two schemas: the tables in one, the views over them in the other, beside the
caller's own views. -/
def withCalls (py : Casing) (org : String) (tables ag : Ident) (db : OrgDb) : Cluster :=
  fun n => {
    tables := if n = tables then some db else none
    views := if n = viewSchema py org then menu (tableSchema py org)
      else if n = ag then menu tables else fun _ => none }

lemma built_withCalls {org : String} {tables ag : Ident} {db : OrgDb} :
    Built py (withCalls py org tables ag db) org := by
  simp [Built, withCalls]

lemma tablesOf_withCalls {org : String} {tables ag n : Ident} {db : OrgDb} (t : Table) :
    tablesOf (withCalls py org tables ag db) n t = if n = tables then db.rows t else [] := by
  unfold tablesOf withCalls
  split <;> rfl

/-- A call of an agent. -/
def callOf (id : String) (agent : Cell) : Row
  | .id => some (.text id)
  | .externalCallId => some (.text id)
  | .agentId => agent
  | _ => none

lemma exists_callOf (id : String) (agent : Cell) :
    ∃ db : OrgDb, ∀ t, db.rows t = if t = .call then [callOf id agent] else [] := by
  obtain ⟨db, hdb⟩ : ∃ db, (Lib.Database.empty metadata Value).insert .call (callOf id agent) =
      .ok db := by
    refine Lib.Database.insert_ok (by simp [metadata, callOf]) (by simp [Lib.Database.empty])
      (by simp [Lib.Database.empty]) (fun fk hfk ht hnull => ?_)
    have hcolumns : ∀ fk ∈ metadata.foreignKeys, fk.table = .call → fk.column = .promptId := by
      decide
    simp [hcolumns fk hfk ht, callOf] at hnull
  refine ⟨db, fun t => ?_⟩
  split
  · rename_i ht
    rw [ht, Lib.Database.insert_rows hdb]
    rfl
  · rename_i ht
    rw [Lib.Database.insert_rows_of_ne hdb ht]
    rfl

/-- `SELECT * FROM calls`, of some schema. -/
def selectCalls (schema : Option Ident) : Query :=
  .scan schema "calls" fun rows => .result [] rows

lemma menu_calls_over (schema : Ident) :
    ∃ e ∈ agentViews, menu schema "calls" = some (e.over schema) ∧ e.table = .call ∧
      e.scope = .call :=
  ⟨_, List.mem_cons_self, rfl, rfl, rfl⟩

lemma answer_ne {columns : List String} {rows rows' : List (List Cell)}
    (h : rows.length = 1) (h' : rows' = []) :
    answer py defaultMaxRows (.result columns rows) ≠
      answer py defaultMaxRows (.result columns rows') := by
  intro heq
  have hcount : ((rows.take (defaultMaxRows + 1)).take defaultMaxRows).length =
      ((rows'.take (defaultMaxRows + 1)).take defaultMaxRows).length := by
    injection heq
  simp [h', List.length_take, h, defaultMaxRows] at hcount

section

variable {query : String} {schema : Option Ident} {s : Ident} {st : Settings}

lemma run_selectCalls {c : Cluster} {tables : Ident} {e : MenuEntry}
    (hsystem : pg.system schema "calls" = none) (hfirst : (searched st schema).head? = some s)
    (hview : (c s).views "calls" = some (e.over tables)) :
    (selectCalls schema).run pg c st = .result [] (viewRows c (st.value "pulse.visible_agents")
      (st.value "pulse.call_id") (e.over tables)) := by
  obtain ⟨rest, hrest⟩ := List.head?_eq_some_iff.1 hfirst
  simp only [selectCalls, Query.run, lookup, hsystem, hrest, List.findSome?_cons, hview]

/-- A read that reaches the views `s` over `tables` under settings that select some call tells
whether it is there. -/
lemma readCalls_tells {tables : Ident} {id : String} {agent : Cell}
    (hquery : ∀ c, (pg.meaning query).run pg c (scopeSettings py pg u.org u.visible u.call) =
      (selectCalls schema).run pg c st)
    (hsystem : pg.system schema "calls" = none) (hfirst : (searched st schema).head? = some s)
    (hs : s = viewSchema py u.org → tables = tableSchema py u.org)
    (hagent : agentMember (st.value "pulse.visible_agents") agent = true)
    (hcall : callMatch (st.value "pulse.call_id") (some (.text id)) = true)
    (hunseen : tables = tableSchema py u.org →
      ¬(u.Sees agent ∧ u.BoundTo (some (.text id)))) :
    ∃ c c', Built py c u.org ∧ Built py c' u.org ∧ Agree py u c c' ∧
      runAgentSql py pg c u.org query u.visible u.call defaultMaxRows ≠
        runAgentSql py pg c' u.org query u.visible u.call defaultMaxRows := by
  obtain ⟨db, hdb⟩ := exists_callOf id agent
  have hvisible : ∀ d : OrgDb, (∀ t, d.rows t = [] ∨ t = .call ∧ d.rows t = [callOf id agent]) →
      ∀ e ∈ agentViews, u.visibleRows (tablesOf (withCalls py u.org tables s d)
        (tableSchema py u.org)) e = [] := by
    intro d hd e he
    rw [Caller.visibleRows, List.filter_eq_nil_iff]
    intro b hb
    rw [tablesOf_withCalls] at hb
    split at hb
    · rename_i htables
      have hscope : ∀ e ∈ agentViews, e.table = .call → e.scope = .call := by decide
      rcases hd e.table with hempty | ⟨htable, hrow⟩
      · simp [hempty] at hb
      · rw [hrow] at hb
        simp only [List.mem_singleton.1 hb, hscope e he htable, decide_eq_true_eq]
        exact hunseen htables.symm
    · cases hb
  have hone : ∀ t, db.rows t = [] ∨ t = .call ∧ db.rows t = [callOf id agent] := by
    intro t
    rw [hdb]
    split
    · exact .inr ⟨‹_›, rfl⟩
    · exact .inl rfl
  refine ⟨withCalls py u.org tables s db, withCalls py u.org tables s (.empty metadata Value),
    built_withCalls, built_withCalls, fun e he => ?_, ?_⟩
  · rw [hvisible db hone e he, hvisible _ (fun _ => .inl rfl) e he]
  obtain ⟨e, -, hmenu, htable, hscope⟩ := menu_calls_over tables
  have hview : ∀ d, (withCalls py u.org tables s d s).views "calls" = some (e.over tables) := by
    intro d
    by_cases hown : s = viewSchema py u.org
    · simp only [withCalls, if_pos hown, ← hs hown, hmenu]
    · simp only [withCalls, if_neg hown, if_true, hmenu]
  unfold runAgentSql
  rw [hquery, hquery, run_selectCalls hsystem hfirst (hview _),
    run_selectCalls hsystem hfirst (hview _)]
  apply answer_ne
  · simp only [viewRows, MenuEntry.over, htable, hscope, tablesOf_withCalls, if_true, hdb]
    simp [predicate, callOf, hagent, hcall]
  · simp only [viewRows, MenuEntry.over, tablesOf_withCalls, if_true]
    rfl

/-- A query that hands back the calls it reads, under the settings `st` that it has made by then,
is safe exactly when it reads the caller's own views under a scope that is no wider than the
caller's. -/
theorem readCalls_same_iff
    (hquery : ∀ c, (pg.meaning query).run pg c (scopeSettings py pg u.org u.visible u.call) =
      (selectCalls schema).run pg c st)
    (hsystem : pg.system schema "calls" = none) (hfirst : (searched st schema).head? = some s)
    (hselects : ∃ agent, agentMember (st.value "pulse.visible_agents") agent = true) :
    (∀ c c', Built py c u.org → Built py c' u.org → Agree py u c c' →
      runAgentSql py pg c u.org query u.visible u.call defaultMaxRows =
        runAgentSql py pg c' u.org query u.visible u.call defaultMaxRows) ↔
      s = viewSchema py u.org ∧
        Within u (st.value "pulse.visible_agents") (st.value "pulse.call_id") := by
  obtain ⟨agent, hagent⟩ := hselects
  set va := st.value "pulse.visible_agents" with hva
  set cid := (st.value "pulse.call_id").getD "" with hcid
  have hid : callMatch (st.value "pulse.call_id") (some (.text cid)) = true := by
    simp [callMatch, ← hcid]
  have htells : ∀ tables agent id, (s = viewSchema py u.org → tables = tableSchema py u.org) →
      agentMember va agent = true → callMatch (st.value "pulse.call_id") (some (.text id)) = true →
      (tables = tableSchema py u.org → ¬(u.Sees agent ∧ u.BoundTo (some (.text id)))) →
      ¬∀ c c', Built py c u.org → Built py c' u.org → Agree py u c c' →
        runAgentSql py pg c u.org query u.visible u.call defaultMaxRows =
          runAgentSql py pg c' u.org query u.visible u.call defaultMaxRows := by
    intro tables agent id hs hagent hid hunseen hsame
    obtain ⟨c, c', hc, hc', hagree, hne⟩ :=
      readCalls_tells hquery hsystem hfirst hs hagent hid hunseen
    exact hne (hsame c c' hc hc' hagree)
  constructor
  · intro hsame
    have hown : s = viewSchema py u.org := by
      by_contra hforeign
      have hother : tableSchema py u.org ++ ['x'] ≠ tableSchema py u.org := fun h => by
        simpa using congrArg List.length h
      exact htells (tableSchema py u.org ++ ['x']) agent cid (fun h => absurd h hforeign) hagent hid
        (fun h => absurd h hother) hsame
    have hseen : ∀ agent id, agentMember va agent = true →
        callMatch (st.value "pulse.call_id") (some (.text id)) = true → u.Sees agent ∧ u.BoundTo (some (.text id)) := by
      intro agent id hagent hid
      by_contra hunseen
      exact htells (tableSchema py u.org) agent id (fun _ => rfl) hagent hid (fun _ => hunseen)
        hsame
    refine ⟨hown, fun agent hagent => (hseen agent cid hagent hid).1, fun call hcall k hk => ?_⟩
    simp only [callMatch, ← hcid, Bool.or_eq_true, decide_eq_true_eq] at hcall
    rcases hcall with hempty | hcall
    · -- an empty setting selects every call, so also one that is not the bound one
      have hany : callMatch (st.value "pulse.call_id") (some (.text (k ++ "x"))) = true := by
        simp [callMatch, ← hcid, hempty]
      have hbound := (hseen agent (k ++ "x") hagent hany).2 k hk
      simp at hbound
    · rw [hcall]
      exact (hseen agent cid hagent hid).2 k hk
  · rintro ⟨rfl, hwithin⟩ c c' hbuilt hbuilt' hagree
    obtain ⟨e, he, hmenu, -, -⟩ := menu_calls_over (tableSchema py u.org)
    have hview : ∀ d : Cluster, Built py d u.org →
        (d (viewSchema py u.org)).views "calls" = some (e.over (tableSchema py u.org)) := by
      intro d hd
      rw [hd, hmenu]
    unfold runAgentSql
    rw [hquery, hquery, run_selectCalls hsystem hfirst (hview c hbuilt),
      run_selectCalls hsystem hfirst (hview c' hbuilt'), hwithin.viewRows_same hagree he]

end

end

/-! ### An owner and another tenant -/

/-- An owner of an organisation, in the global chat. -/
def owner (org : String) : Caller := ⟨org, none, none, by simp, by simp⟩

/-- A server on which every query text is the same query. -/
def serverOf (q : Query) : Postgres := ⟨fun _ => q, fun _ _ => none, fun _ => none⟩

def oneCall : OrgDb :=
  match (Lib.Database.empty metadata Value).insert .call (callOf "k1" (some (.text "a1"))) with
  | .ok db => db
  | .error _ => .empty metadata Value

end Pulse.Chat
