import Pulse.Ingest.Resolution

/-!
# Redelivery

Kafka delivers a record at least once. A second delivery right after the first finds the call
that the first one left and its fragment there. Later on the record may join another call: a
record is resolved by the ids that the calls have at that time.
-/

namespace Pulse.Ingest

/-- The columns of a call that ingestion owns. -/
def Call.columns (c : Call) : Pk × String × Option String × Option String × Bool :=
  (c.id, c.externalCallId, c.traceId, c.agentId, c.spansComplete)

/-- Every call's identity, trace, agent and completeness, the fragments and the tombstones are the
same in both stores. -/
structure SameColumns (db db' : Store) : Prop where
  calls : db'.calls.map Call.columns = db.calls.map Call.columns
  rawFragments : db'.rawFragments = db.rawFragments
  tombstones : db'.tombstones = db.tombstones

/-- No header counter is named after a column that ingestion owns. -/
def KeepsColumns (process : Process) : Prop :=
  ∀ db pk now db', (process db pk now).Leaves db' → SameColumns db db'

/-- The slice carries a call id or a trace id. -/
def Slice.Identified (slice : Slice) : Prop :=
  slice.callId ≠ none ∨ slice.traceId ≠ ""

/-! ### Resolving a second time -/

namespace SameColumns

variable {a b c : Store}

lemma refl (db : Store) : SameColumns db db :=
  ⟨rfl, rfl, rfl⟩

lemma trans (h : SameColumns a b) (h' : SameColumns b c) : SameColumns a c :=
  ⟨h'.1.trans h.1, h'.2.trans h.2, h'.3.trans h.3⟩

lemma sameIdentity (h : SameColumns a b) : SameIdentity a b := by
  refine ⟨?_, h.rawFragments, h.tombstones⟩
  have hcalls := congrArg (List.map fun r : Pk × String × Option String × Option String × Bool =>
    (r.1, r.2.1, r.2.2.1)) h.calls
  rw [List.map_map, List.map_map] at hcalls
  exact hcalls

lemma find_columns (h : SameColumns a b) {p : Call → Bool}
    (hp : ∀ c d : Call, c.columns = d.columns → p c = p d) :
    (b.calls.find? p).map Call.columns = (a.calls.find? p).map Call.columns := by
  have hfind : ∀ calls calls' : List Call, calls'.map Call.columns = calls.map Call.columns →
      (calls'.find? p).map Call.columns = (calls.find? p).map Call.columns := by
    intro calls
    induction calls with
    | nil =>
      intro calls' hcalls
      rw [List.map_eq_nil_iff.1 hcalls]
    | cons c calls ih =>
      intro calls' hcalls
      cases calls' with
      | nil => simp at hcalls
      | cons c' calls' =>
        obtain ⟨hc, hrest⟩ := List.cons.inj hcalls
        simp only [List.find?_cons, hp c' c hc]
        cases p c with
        | true => exact congrArg some hc
        | false => exact ih calls' hrest
  exact hfind a.calls b.calls h.calls

lemma callByExternal (h : SameColumns a b) (x : String) :
    (b.callByExternal x).map Call.columns = (a.callByExternal x).map Call.columns :=
  h.find_columns fun c d hcd => by
    have : c.externalCallId = d.externalCallId := congrArg (·.2.1) hcd
    rw [this]

lemma callByTrace (h : SameColumns a b) (t : String) :
    (b.callByTrace t).map Call.columns = (a.callByTrace t).map Call.columns :=
  h.find_columns fun c d hcd => by
    have : c.traceId = d.traceId := congrArg (·.2.2.1) hcd
    rw [this]

lemma identify_callId (h : SameColumns a b) (slice : Slice) (agentId : Option String) :
    (identify b slice agentId).callId = (identify a slice agentId).callId := by
  have hext : (b.callByTrace slice.traceId).map Call.externalCallId =
      (a.callByTrace slice.traceId).map Call.externalCallId := by
    have hrow := congrArg (Option.map fun r : Pk × String × Option String × Option String × Bool =>
      r.2.1) (h.callByTrace slice.traceId)
    rw [Option.map_map, Option.map_map] at hrow
    exact hrow
  simp only [identify, hext]

end SameColumns

lemma updateCall_sameColumns {db db' : Store} {p : Pk} {f : Call → Call}
    (h : db.updateCall p f = .ok db') (hf : ∀ c, c.id = p → ({ f c with id := c.id } : Call).columns =
      c.columns) : SameColumns db db' := by
  obtain ⟨hcalls, hframe⟩ := Store.updateCall_calls h
  refine ⟨?_, hframe.rawFragments, hframe.tombstones⟩
  rw [hcalls, List.map_map]
  apply List.map_congr_left
  intro c _
  by_cases hp : c.id = p
  · simpa [Store.onRow, hp] using hf c hp
  · rw [Function.comp_apply, Store.onRow_of_ne hp]

lemma analyse_sameColumns {process : Process} (hprocess : KeepsColumns process) {db db' : Store}
    {pk : Pk} {now : Time} {judge : Bool} (h : analyse process db pk now = .ok (db', judge)) :
    SameColumns db db' := by
  unfold analyse at h
  cases hp : process db pk now with
  | analysed db₁ =>
    simp only [hp] at h
    cases h
    exact hprocess db pk now db' (hp ▸ .analysed db')
  | raised left =>
    simp only [hp] at h
    cases h
  | unsupportedSchema db₁ =>
    have h₁ : SameColumns db db₁ := hprocess db pk now db₁ (hp ▸ .unsupportedSchema db₁)
    simp only [hp] at h
    obtain ⟨db₂, hu, h⟩ := Lib.bind_eq_ok.1 h
    cases h
    exact h₁.trans (updateCall_sameColumns (Lib.mapError_eq_ok.1 hu) fun _ _ => rfl)

/-- The second half of `handleRecord_ok` leaves the columns alone. -/
lemma handled_sameColumns {process : Process} (hprocess : KeepsColumns process) {db db' : Store}
    {now : Time} (h : db' = db ∨ ∃ pk judged, analyse process db pk now = .ok (db', judged)) :
    SameColumns db db' := by
  rcases h with rfl | ⟨pk, judged, ha⟩
  · exact .refl _
  · exact analyse_sameColumns hprocess ha

/-! ### The second delivery -/

/-- The store has taken the record in: the call that the record resolves to has its fragment and
what an upsert would fill in. -/
def Settled (db : Store) (r : Record) (slice : Slice) : Prop :=
  ∃ x c, (identify db slice (r.agentId.bind nonEmpty)).callId = some x ∧
    db.callByExternal x = some c ∧ hasFragment db c.id r.batchId r.seq = true ∧
    c.traceId.or (nonEmpty slice.traceId) = c.traceId ∧
    c.agentId.or ((r.agentId.bind nonEmpty).bind nonEmpty) = c.agentId ∧
    (c.spansComplete || (rootOf slice.spans).isSome) = c.spansComplete

lemma Settled.sameColumns {db db' : Store} {r : Record} {slice : Slice} (h : Settled db r slice)
    (hsame : SameColumns db db') : Settled db' r slice := by
  obtain ⟨x, c, hid, hcall, hfrag, htrace, hagent, hcomplete⟩ := h
  have hrow := hsame.callByExternal x
  rw [hcall] at hrow
  obtain ⟨c', hc', hcolumns⟩ := Option.map_eq_some_iff.1 hrow
  simp only [Call.columns, Prod.mk.injEq] at hcolumns
  obtain ⟨hpk, -, ht, ha, hs⟩ := hcolumns
  refine ⟨x, c', ?_, hc', ?_, ?_, ?_, ?_⟩
  · rw [hsame.identify_callId]
    exact hid
  · simpa only [hasFragment, hsame.rawFragments, hpk] using hfrag
  · rw [ht]
    exact htrace
  · rw [ha]
    exact hagent
  · rw [hs]
    exact hcomplete

/-- Taking a record in once more changes no column. -/
lemma Settled.assembled {db db' : Store} {r : Record} {slice : Slice} {now : Time}
    (h : Settled db r slice) (has : Assembled db r slice now db') : SameColumns db db' := by
  obtain ⟨x, c, hid, hcall, hfrag, htrace, hagent, hcomplete⟩ := h
  cases has with
  | dropped _ _ _ heq =>
    rw [heq]
    exact .refl db
  | unattributed hnone =>
    rw [hid] at hnone
    cases hnone
  | stored y d hy _ hup hfind htombs _ hfrags =>
    obtain rfl : y = x := Option.some.inj (hy.symm.trans hid)
    have hcalls : db'.calls = db.calls.map
        (Store.onRow c.id (fillIn db (identify db slice (r.agentId.bind nonEmpty)) now)) := by
      cases hup with
      | found e he hcalls =>
        rw [hcall] at he
        rw [hcalls, ← Option.some.inj he]
      | promoted e he => rw [hcall] at he; cases he
      | created he => rw [hcall] at he; cases he
    have hd : d.id = c.id := by
      obtain ⟨hm, hx⟩ := Store.callByExternal_some hfind
      rw [hcalls] at hm
      obtain ⟨e, he, rfl⟩ := List.mem_map.1 hm
      have hex : e.externalCallId = y := by
        by_cases hp : e.id = c.id
        · rw [Store.onRow, if_pos hp] at hx
          exact hx
        · rwa [Store.onRow_of_ne hp] at hx
      have hec := Store.callByExternal_of_mem he
      rw [hex, hcall] at hec
      rw [Store.onRow_id, Option.some.inj hec]
    refine ⟨?_, ?_, htombs⟩
    · rw [hcalls, List.map_map]
      apply List.map_congr_left
      intro e he
      by_cases hp : e.id = c.id
      · rw [Store.eq_of_id_eq he (Store.callByExternal_some hcall).1 hp]
        simp only [Function.comp_apply, Store.onRow, if_true, Call.columns, fillIn, Prod.mk.injEq,
          true_and]
        exact ⟨htrace, hagent, hcomplete⟩
      · rw [Function.comp_apply, Store.onRow_of_ne hp]
    · rw [hfrags, hd, hfrag, if_pos rfl]

/-- The id that a record resolves to is still the one it resolves to when it has been upserted. -/
lemma identify_upserted {db db' : Store} {slice : Slice} {agentId : Option String} {x : String}
    {now : Time} (hid : (identify db slice agentId).callId = some x)
    (hup : Upserted db (identify db slice agentId) x now db'.calls) :
    (identify db' slice agentId).callId = some x := by
  cases hexplicit : slice.callId with
  | some y =>
    rw [identify_callId_explicit hexplicit] at hid ⊢
    exact hid
  | none =>
    by_cases ht : slice.traceId = ""
    · simp [identify, hexplicit, ht, nonEmpty] at hid
    · rw [identify_callId_trace hexplicit rfl ht] at hid ⊢
      have hxne : nonEmpty x = some x := by
        apply nonEmpty_of_ne
        rcases Option.or_eq_some_iff.1 hid with hid | ⟨-, hid⟩
        · obtain ⟨y, -, hy⟩ := Option.bind_eq_some_iff.1 hid
          obtain ⟨hne, rfl⟩ := nonEmpty_eq_some.1 hy
          exact hne
        · exact Option.some.inj hid ▸ ht
      cases hfind : db'.callByTrace slice.traceId with
      | some c' =>
        rcases hup.callByTrace hfind with hx | hold
        · simp [hx, hxne]
        · rw [← hid, hold]
      | none =>
        cases hbefore : db.callByTrace slice.traceId with
        | some c =>
          obtain ⟨hc, htrace⟩ := Store.callByTrace_some hbefore
          obtain ⟨c', hc', -, hkeeps⟩ := hup.keeps hc
          exact absurd (hkeeps _ htrace) (Store.callByTrace_eq_none.1 hfind c' hc')
        | none => rwa [hbefore] at hid

/-- The store has taken in a record that went through the write path and was not dropped. -/
lemma Assembled.settled {db db' : Store} {r : Record} {slice : Slice} {now : Time}
    (h : Assembled db r slice now db') (hidentified : slice.Identified) :
    db' = db ∧ tombstoned db (identify db slice (r.agentId.bind nonEmpty)).callId = true ∨
      Settled db' r slice := by
  cases h with
  | dropped x hx htomb heq => exact .inl ⟨heq, by simp [hx, tombstoned, htomb]⟩
  | unattributed hnone =>
    exfalso
    rcases hidentified with hcall | ht
    · obtain ⟨y, hy⟩ := Option.ne_none_iff_exists'.1 hcall
      rw [identify_callId_explicit hy] at hnone
      cases hnone
    · rw [identify_joinedId ht] at hnone
      cases hnone
  | stored x c hx _ hup hfind _ _ hfrags =>
    obtain ⟨c₀, hc₀⟩ := hup.filled (Store.callByExternal_some hfind).1
      (Store.callByExternal_some hfind).2
    refine .inr ⟨x, c, identify_upserted hx hup, hfind, ?_, ?_, ?_, ?_⟩
    · unfold hasFragment
      rw [hfrags]
      split
      · assumption
      · simp [fragmentOf]
    · have hbt : (identify db slice (r.agentId.bind nonEmpty)).traceId = slice.traceId := rfl
      rw [hc₀, fillIn_traceId, hbt]
      cases c₀.traceId <;> cases nonEmpty slice.traceId <;> rfl
    · have hba : (identify db slice (r.agentId.bind nonEmpty)).agentId = r.agentId.bind nonEmpty := rfl
      rw [hc₀]
      simp only [fillIn, hba]
      cases c₀.agentId <;> cases (r.agentId.bind nonEmpty).bind nonEmpty <;> rfl
    · have hbr : (identify db slice (r.agentId.bind nonEmpty)).root = rootOf slice.spans := rfl
      rw [hc₀, fillIn_spansComplete, hbr, Bool.or_assoc, Bool.or_self]

/-- A store that has taken the record in has the same columns after it is delivered again. -/
lemma Settled.deliver {process : Process} (hprocess : KeepsColumns process) {db : Store}
    {d : Delivery} {slice : Slice} (hv : d.record.value = some slice)
    (h : Settled db d.record slice) : SameColumns db (deliver process db d) := by
  rcases deliver_cases process db d with hsame | ⟨judge, hok⟩
  · rw [hsame]
    exact .refl db
  · obtain ⟨slice', db₁, hv', -, has, hrest⟩ := handleRecord_ok hok
    obtain rfl : slice' = slice := Option.some.inj (hv'.symm.trans hv)
    exact (h.assembled has).trans (handled_sameColumns hprocess hrest)

/-- Delivering a record again right after it was handled changes nothing exactly when the record
carries a call id or a trace id. -/
theorem redelivered_iff {process : Process} (hprocess : KeepsColumns process) {db db₁ : Store}
    {r : Record} {now now' : Time} {judge : Option String} {slice : Slice}
    (hv : r.value = some slice) (hok : handleRecord process db r now = .ok (db₁, judge)) :
    SameColumns db₁ (deliver process db₁ ⟨r, now'⟩) ↔ slice.Identified := by
  constructor
  · intro hsame
    by_contra hnot
    obtain ⟨hcall, ht⟩ : slice.callId = none ∧ slice.traceId = "" := by
      simpa [Slice.Identified] using hnot
    have hnone : (identify db₁ slice (r.agentId.bind nonEmpty)).callId = none := by
      simp [identify, hcall, ht, nonEmpty]
    obtain ⟨db₂, hassemble, has⟩ := assembleRecord_spec db₁ r slice now'
    have hdeliver : deliver process db₁ ⟨r, now'⟩ = db₂ :=
      deliver_of_not_ready hv hassemble fun x c hx => by rw [hnone] at hx; cases hx
    cases has with
    | dropped x hx => rw [hnone] at hx; cases hx
    | stored x c hx => rw [hnone] at hx; cases hx
    | unattributed _ _ _ _ hfrags =>
      have hfragments := hsame.rawFragments
      rw [hdeliver, hfrags] at hfragments
      simp at hfragments
  · intro hidentified
    obtain ⟨slice', db', hv', -, has, hrest⟩ := handleRecord_ok hok
    obtain rfl : slice' = slice := Option.some.inj (hv'.symm.trans hv)
    rcases has.settled hidentified with ⟨heq, htomb⟩ | hsettled
    · -- the record of a tombstoned call is dropped each time
      have hsame := handled_sameColumns hprocess hrest
      have hdeliver : deliver process db₁ ⟨r, now'⟩ = db₁ := by
        have htomb' : tombstoned db₁ (identify db₁ slice' (r.agentId.bind nonEmpty)).callId =
            true := by
          rw [hsame.identify_callId, heq]
          unfold tombstoned at htomb ⊢
          have htombs : db₁.hasTombstone = db.hasTombstone := by
            funext x
            simp only [Store.hasTombstone, hsame.tombstones, heq]
          rwa [htombs]
        simp [deliver, handleRecord, hv, htomb', pure, Except.pure]
      rw [hdeliver]
      exact .refl db₁
    · exact (hsettled.sameColumns (handled_sameColumns hprocess hrest)).deliver hprocess hv

/-! ### Redelivery later on -/

/-- The slice names the call, or carries no id and is of its trace. -/
def Belongs (slice : Slice) (c : Call) : Prop :=
  slice.callId = some c.externalCallId ∨
    slice.callId = none ∧ slice.traceId ≠ "" ∧ c.traceId = some slice.traceId

/-- No two calls share a trace, and every fragment is stored once, under the call that it belongs
to. -/
structure Tidy (db : Store) : Prop where
  named : ∀ c ∈ db.calls, c.externalCallId ≠ ""
  traces : ∀ c ∈ db.calls, ∀ d ∈ db.calls, c.traceId ≠ none → c.traceId = d.traceId → c = d
  fragments : ∀ f ∈ db.rawFragments, ∃ c ∈ db.calls, f.callId = some c.id ∧ Belongs f.payload c
  keys : (db.rawFragments.map fun f => (f.batchId, f.seq)).Nodup

/-- A record that points to one call only: it carries an id, it renames no call that a stored
fragment names, it brings no trace of another call to a call without one, and its trace id is not
the external id of a call of another trace. -/
structure Unambiguous (db : Store) (slice : Slice) : Prop where
  identified : slice.Identified
  names : KeepsNames db slice
  traces : ∀ x c, slice.callId = some x → db.callByExternal x = some c → c.traceId = none →
    slice.traceId ≠ "" → ∀ d ∈ db.calls, d.traceId ≠ some slice.traceId
  own : ∀ c, slice.callId = none → db.callByTrace slice.traceId = none →
    db.callByExternal slice.traceId = some c → c.traceId = none

lemma Tidy.empty : Tidy Store.empty :=
  ⟨by simp [Store.empty], by simp [Store.empty], by simp [Store.empty], by simp [Store.empty]⟩

lemma identify_callId_ne {db : Store} {slice : Slice} {agentId : Option String} {x : String}
    (h : (identify db slice agentId).callId = some x) : x ≠ "" := by
  rcases Option.or_eq_some_iff.1 h with h | ⟨-, h⟩
  · obtain ⟨y, -, hy⟩ := Option.bind_eq_some_iff.1 h
    obtain ⟨hne, rfl⟩ := nonEmpty_eq_some.1 hy
    exact hne
  · obtain ⟨hne, rfl⟩ := nonEmpty_eq_some.1 h
    exact hne

namespace Tidy

variable {db db' : Store} {slice : Slice} {agentId : Option String} {x : String} {c : Call}

lemma unmixed (h : Tidy db) : Unmixed db := by
  intro f hf c hc hfc y hy
  obtain ⟨d, hd, hfd, hbelongs⟩ := h.fragments f hf
  obtain rfl : d = c := Store.eq_of_id_eq hd hc (Option.some.inj (hfd.symm.trans hfc))
  rcases hbelongs with hown | ⟨hnone, -⟩
  · exact Option.some.inj (hown.symm.trans hy)
  · rw [hnone] at hy
    cases hy

lemma callByTrace (h : Tidy db) (hc : c ∈ db.calls) {t : String} (ht : c.traceId = some t) :
    db.callByTrace t = some c := by
  cases hfind : db.callByTrace t with
  | none => exact absurd ht (Store.callByTrace_eq_none.1 hfind c hc)
  | some d =>
    obtain ⟨hd, htd⟩ := Store.callByTrace_some hfind
    rw [h.traces c hc d hd (by simp [ht]) (ht.trans htd.symm)]

/-- A slice resolves to the call that it belongs to. -/
lemma identify_callId (h : Tidy db) (hc : c ∈ db.calls) (hbelongs : Belongs slice c) :
    (identify db slice agentId).callId = some c.externalCallId := by
  rcases hbelongs with hown | ⟨hnone, hne, ht⟩
  · exact identify_callId_explicit hown
  · rw [identify_callId_trace hnone rfl hne, h.callByTrace hc ht]
    simp [nonEmpty_of_ne (h.named c hc)]

/-- The row that an implicit record reaches by its id is of its trace, or has none. -/
lemma trace_of_implicit (h : Tidy db) (hslice : Unambiguous db slice) (hnone : slice.callId = none)
    (ht : slice.traceId ≠ "") (hid : (identify db slice agentId).callId = some x)
    (hc : db.callByExternal x = some c) :
    c.traceId = some slice.traceId ∨ c.traceId = none ∧ ∀ d ∈ db.calls, d.traceId ≠ some slice.traceId := by
  rw [identify_callId_trace hnone rfl ht] at hid
  cases hfind : db.callByTrace slice.traceId with
  | some d =>
    obtain ⟨hd, htd⟩ := Store.callByTrace_some hfind
    have hx : d.externalCallId = x := by
      simpa [hfind, nonEmpty_of_ne (h.named d hd)] using hid
    have hdx := Store.callByExternal_of_mem hd
    rw [hx, hc] at hdx
    exact .inl (Option.some.inj hdx ▸ htd)
  | none =>
    obtain rfl : slice.traceId = x := by simpa [hfind] using hid
    exact .inr ⟨hslice.own c hnone hfind hc, Store.callByTrace_eq_none.1 hfind⟩

end Tidy

section

variable {db db' : Store} {r : Record} {slice : Slice} {now : Time} {x : String}

/-- A trace that an upsert gives to a row is no other row's. -/
lemma Tidy.upserted_trace (h : Tidy db) (hslice : Unambiguous db slice)
    (hid : (identify db slice (r.agentId.bind nonEmpty)).callId = some x)
    (hup : Upserted db (identify db slice (r.agentId.bind nonEmpty)) x now db'.calls)
    {c d : Call} (hc : c ∈ db'.calls) (hd : d ∈ db.calls) (hd' : d ∈ db'.calls)
    (ht : c.traceId ≠ none) (hsame : c.traceId = d.traceId) : c = d := by
  have hbt : (identify db slice (r.agentId.bind nonEmpty)).traceId = slice.traceId := rfl
  rcases hup.row hc with hold | ⟨-, ⟨e, he, hpk, htrace, hreach⟩ | ⟨-, htrace, -, hfresh⟩⟩
  · exact h.traces c hold d hd ht hsame
  · rw [hbt] at htrace hreach
    cases het : e.traceId with
    | some t =>
      have hed : e = d := h.traces e he d hd (by simp [het]) (by rw [← hsame, htrace, het]; rfl)
      exact Store.eq_of_id_eq hc hd' (by rw [← hpk, hed])
    | none =>
      rw [het, Option.none_or] at htrace
      have hne : slice.traceId ≠ "" := by
        intro hempty
        rw [htrace, hempty] at ht
        exact ht rfl
      rw [nonEmpty_of_ne hne] at htrace
      have hdt : d.traceId = some slice.traceId := hsame.symm.trans htrace
      exfalso
      rcases hreach with hfound | ⟨-, -, hby⟩
      · cases hexplicit : slice.callId with
        | some y =>
          rw [identify_callId_explicit hexplicit] at hid
          obtain rfl := Option.some.inj hid
          exact hslice.traces y e hexplicit hfound het hne d hd hdt
        | none =>
          rcases h.trace_of_implicit hslice hexplicit hne hid hfound with hown | ⟨-, hnobody⟩
          · rw [het] at hown
            cases hown
          · exact hnobody d hd hdt
      · rw [(Store.callByTrace_some hby).2] at het
        cases het
  · rw [hbt] at htrace hfresh
    have hne : slice.traceId ≠ "" := by
      intro hempty
      rw [htrace, hempty] at ht
      exact ht rfl
    rw [nonEmpty_of_ne hne] at htrace
    exact absurd (hsame.symm.trans htrace)
      (Store.callByTrace_eq_none.1 (hfresh.resolve_left hne) d hd)

/-- The call that a record is stored under is the one it belongs to. -/
lemma Tidy.belongs (h : Tidy db) (hslice : Unambiguous db slice)
    (hid : (identify db slice (r.agentId.bind nonEmpty)).callId = some x)
    (hup : Upserted db (identify db slice (r.agentId.bind nonEmpty)) x now db'.calls)
    {c : Call} (hfind : db'.callByExternal x = some c) : Belongs slice c := by
  obtain ⟨hc, hx⟩ := Store.callByExternal_some hfind
  cases hexplicit : slice.callId with
  | some y =>
    rw [identify_callId_explicit hexplicit] at hid
    exact .inl (by rw [hexplicit, hid, hx])
  | none =>
    have hne : slice.traceId ≠ "" := hslice.identified.resolve_left (by simp [hexplicit])
    have hbt : (identify db slice (r.agentId.bind nonEmpty)).traceId = slice.traceId := rfl
    obtain ⟨c₀, hc₀⟩ := hup.filled hc hx
    have hsome : c.traceId ≠ none := by
      rw [hc₀, fillIn_traceId, hbt, nonEmpty_of_ne hne]
      cases c₀.traceId <;> simp
    refine .inr ⟨hexplicit, hne, ?_⟩
    rcases hup.row hc with hold | ⟨-, ⟨e, he, hpk, htrace, hreach⟩ | ⟨-, htrace, -⟩⟩
    · have hcx := Store.callByExternal_of_mem hold
      rw [hx] at hcx
      rcases h.trace_of_implicit hslice hexplicit hne hid hcx with hown | ⟨hnone, -⟩
      · exact hown
      · exact absurd hnone hsome
    · rw [hbt] at htrace hreach
      rw [htrace, nonEmpty_of_ne hne]
      rcases hreach with hfound | ⟨-, -, hby⟩
      · rcases h.trace_of_implicit hslice hexplicit hne hid hfound with hown | ⟨hnone, -⟩
        · rw [hown]
          rfl
        · rw [hnone]
          rfl
      · rw [(Store.callByTrace_some hby).2]
        rfl
    · rw [htrace, hbt, nonEmpty_of_ne hne]

/-- A fragment is stored where its slice resolves to, so a redelivery finds it there. -/
lemma Tidy.hasFragment_stored (h : Tidy db)
    (hid : (identify db slice (r.agentId.bind nonEmpty)).callId = some x)
    (hup : Upserted db (identify db slice (r.agentId.bind nonEmpty)) x now db'.calls)
    {c : Call} (hfind : db'.callByExternal x = some c) {f : RawFragment} (hf : f ∈ db.rawFragments)
    (hkey : (f.batchId, f.seq) = (r.batchId, r.seq)) (hpayload : f.payload = slice) :
    hasFragment db c.id r.batchId r.seq = true := by
  obtain ⟨e, he, hfe, hbelongs⟩ := h.fragments f hf
  rw [hpayload] at hbelongs
  have hx : x = e.externalCallId := by
    rw [h.identify_callId he hbelongs] at hid
    exact (Option.some.inj hid).symm
  obtain ⟨e', he', hpk, -⟩ := hup.keeps he
  have hex : e'.externalCallId = x := by
    rcases hup.row he' with hold | ⟨hx', -⟩
    · rw [Store.eq_of_id_eq hold he hpk, hx]
    · exact hx'
  have hce := Store.callByExternal_of_mem he'
  rw [hex, hfind] at hce
  simp only [Prod.mk.injEq] at hkey
  simp only [hasFragment, List.any_eq_true, decide_eq_true_eq]
  exact ⟨f, hf, by rw [hfe, ← hpk, Option.some.inj hce], hkey⟩

lemma Tidy.assembled (h : Tidy db) (hslice : Unambiguous db slice)
    (hpayloads : ∀ f ∈ db.rawFragments, (f.batchId, f.seq) = (r.batchId, r.seq) → f.payload = slice)
    (has : Assembled db r slice now db') : Tidy db' := by
  cases has with
  | dropped _ _ _ heq => exact heq ▸ h
  | unattributed hnone =>
    exfalso
    rcases hslice.identified with hcall | ht
    · obtain ⟨y, hy⟩ := Option.ne_none_iff_exists'.1 hcall
      rw [identify_callId_explicit hy] at hnone
      cases hnone
    · rw [identify_joinedId ht] at hnone
      cases hnone
  | stored x c hid _ hup hfind _ _ hfrags =>
    have hold : ∀ f ∈ db.rawFragments, ∃ c' ∈ db'.calls, f.callId = some c'.id ∧
        Belongs f.payload c' := by
      intro f hf
      obtain ⟨e, he, hfe, hbelongs⟩ := h.fragments f hf
      obtain ⟨e', he', hpk, htrace⟩ := hup.keeps he
      refine ⟨e', he', hpk ▸ hfe, ?_⟩
      rcases hbelongs with hown | ⟨hnone, hne, ht⟩
      · exact .inl (by rw [hown, h.unmixed.upserted hslice.names hid hup hf hown he' (hpk ▸ hfe)])
      · exact .inr ⟨hnone, hne, htrace _ ht⟩
    constructor
    · intro c' hc'
      rcases hup.row hc' with hc' | ⟨hx, -⟩
      · exact h.named c' hc'
      · rw [hx]
        exact identify_callId_ne hid
    · intro c' hc' d' hd' ht hsame
      rcases hup.row hd' with hd | ⟨hdx, -⟩
      · exact h.upserted_trace hslice hid hup hc' hd hd' ht hsame
      · rcases hup.row hc' with hc | ⟨hcx, -⟩
        · exact (h.upserted_trace hslice hid hup hd' hc hc' (hsame ▸ ht) hsame.symm).symm
        · have hfc := Store.callByExternal_of_mem hc'
          have hfd := Store.callByExternal_of_mem hd'
          rw [hcx] at hfc
          rw [hdx, hfc] at hfd
          exact Option.some.inj hfd
    · intro f hf
      rw [hfrags] at hf
      split at hf
      · exact hold f hf
      · rcases List.mem_append.1 hf with hf | hf
        · exact hold f hf
        · rw [List.mem_singleton.1 hf]
          exact ⟨c, (Store.callByExternal_some hfind).1, rfl, h.belongs hslice hid hup hfind⟩
    · rw [hfrags]
      split
      · exact h.keys
      · rename_i hnew
        rw [List.map_append, List.map_singleton, List.nodup_append_comm]
        refine List.nodup_cons.2 ⟨fun hm => hnew ?_, h.keys⟩
        obtain ⟨f, hf, hkey⟩ := List.mem_map.1 hm
        exact h.hasFragment_stored hid hup hfind hf hkey (hpayloads f hf hkey)

end

lemma Tidy.sameIdentity {db db' : Store} (h : Tidy db) (hsame : SameIdentity db db') : Tidy db' := by
  have hback : ∀ c ∈ db.calls, ∃ c' ∈ db'.calls, c'.id = c.id ∧
      c'.externalCallId = c.externalCallId ∧ c'.traceId = c.traceId :=
    fun c hc => SameIdentity.exists_call ⟨hsame.calls.symm, hsame.rawFragments.symm,
      hsame.tombstones.symm⟩ hc
  refine ⟨fun c' hc' => ?_, fun c' hc' d' hd' ht hs => ?_, ?_, ?_⟩
  · obtain ⟨c, hc, -, hx, -⟩ := hsame.exists_call hc'
    exact hx ▸ h.named c hc
  · obtain ⟨c, hc, hpk, -, hct⟩ := hsame.exists_call hc'
    obtain ⟨d, hd, hpk', -, hdt⟩ := hsame.exists_call hd'
    have hcd := h.traces c hc d hd (hct ▸ ht) (by rw [hct, hdt, hs])
    exact Store.eq_of_id_eq hc' hd' (by rw [← hpk, ← hpk', hcd])
  · intro f hf
    rw [hsame.rawFragments] at hf
    obtain ⟨c, hc, hfc, hbelongs⟩ := h.fragments f hf
    obtain ⟨c', hc', hpk, hx, ht⟩ := hback c hc
    exact ⟨c', hc', hpk ▸ hfc, by simpa only [Belongs, hx, ht] using hbelongs⟩
  · rw [hsame.rawFragments]
    exact h.keys

/-- What a (batch_id, seq) pair names. `produce` makes a new batch id for each request and counts
the slices of a request. -/
abbrev Archive := String → Int → Option Slice

/-- The delivered record is the one that its (batch_id, seq) pair names, and points to one call. -/
def Coherent (archive : Archive) (db : Store) (d : Delivery) : Prop :=
  d.record.value = archive d.record.batchId d.record.seq ∧
    ∀ slice, d.record.value = some slice → Unambiguous db slice

/-- A tidy store in which every fragment is the one that its (batch_id, seq) pair names. -/
structure Filed (archive : Archive) (db : Store) : Prop where
  tidy : Tidy db
  payloads : ∀ f ∈ db.rawFragments, archive f.batchId f.seq = some f.payload

lemma Filed.deliver {process : Process} (hprocess : KeepsColumns process) {archive : Archive}
    {db : Store} {d : Delivery} (h : Filed archive db) (hd : Coherent archive db d) :
    Filed archive (deliver process db d) := by
  rcases deliver_cases process db d with hsame | ⟨judge, hok⟩
  · rw [hsame]
    exact h
  · obtain ⟨slice, db₁, hv, -, has, hrest⟩ := handleRecord_ok hok
    have hsame := (handled_sameColumns hprocess hrest).sameIdentity
    have hkey : archive d.record.batchId d.record.seq = some slice := hd.1.symm.trans hv
    refine ⟨(h.tidy.assembled (hd.2 slice hv) (fun f hf he => ?_) has).sameIdentity hsame,
      fun f hf => ?_⟩
    · simp only [Prod.mk.injEq] at he
      have hpayload := h.payloads f hf
      rw [he.1, he.2, hkey] at hpayload
      exact (Option.some.inj hpayload).symm
    · rw [hsame.rawFragments] at hf
      have hnew : f ∈ db.rawFragments ∨ ∃ pk, f = fragmentOf pk d.record slice d.now := by
        cases has with
        | dropped _ _ _ heq => exact .inl (heq ▸ hf)
        | unattributed _ _ _ _ hfrags =>
          rw [hfrags] at hf
          exact (List.mem_append.1 hf).imp_right fun hf => ⟨none, List.mem_singleton.1 hf⟩
        | stored _ c _ _ _ _ _ _ hfrags =>
          rw [hfrags] at hf
          split at hf
          · exact .inl hf
          · exact (List.mem_append.1 hf).imp_right fun hf => ⟨some c.id, List.mem_singleton.1 hf⟩
      rcases hnew with hold | ⟨pk, rfl⟩
      · exact h.payloads f hold
      · exact hkey

/-- Redelivery right after a delivery changes nothing exactly when the record carries an id; and in
a run of deliveries, repeated at any later time, of records that each point to one call, no
(batch_id, seq) pair is stored twice. -/
theorem redelivery_idempotent {process : Process} (hprocess : KeepsColumns process) :
    (∀ {db db₁ : Store} {r : Record} {now now' : Time} {judge : Option String} {slice : Slice},
      r.value = some slice → handleRecord process db r now = .ok (db₁, judge) →
        (SameColumns db₁ (deliver process db₁ ⟨r, now'⟩) ↔ slice.Identified)) ∧
    ∀ {archive : Archive} {db db' : Store} {ds : List Delivery}, Filed archive db →
      Lib.Run (Lib.guarded (Consumes process) (Coherent archive)) db ds db' →
        (db'.rawFragments.map fun f => (f.batchId, f.seq)).Nodup := by
  constructor
  · intro db db₁ r now now' judge slice hv hok
    exact redelivered_iff hprocess hv hok
  · intro archive db db' ds h hrun
    have hfiled : Filed archive db' := by
      refine hrun.invariant_guarded (fun db d db' h hd hstep => ?_) h
      rw [hstep]
      exact h.deliver hprocess hd
    exact hfiled.tidy.keys

/-! ### Records that are stored twice -/

lemma noAnalysis_keepsColumns : KeepsColumns noAnalysis := by
  intro db pk now db' h
  cases h
  exact .refl db

/-- The slices of the children's batch and of the root's. -/
def twoBatches : Archive := fun batchId seq =>
  if seq ≠ 0 then none
  else if batchId = "b1" then childrenRecord.value
  else if batchId = "b2" then rootRecord.value
  else none

/-- A record of a trace alone points to one call when no call has that trace for a name only. -/
lemma Unambiguous.of_implicit {db : Store} {slice : Slice} (hnone : slice.callId = none)
    (ht : slice.traceId ≠ "") (hown : db.callByTrace slice.traceId = none →
      db.callByExternal slice.traceId = none) : Unambiguous db slice where
  identified := .inr ht
  names x e hx := by rw [hnone] at hx; cases hx
  traces x c hx := by rw [hnone] at hx; cases hx
  own c _ hfind hc := by rw [hown hfind] at hc; cases hc

/-- The children of a call, its root, and the children once more. -/
theorem redelivery_idempotent_children :
    SameColumns rootStore (deliver noAnalysis rootStore ⟨rootRecord, 2⟩) ∧
      (([⟨childrenRecord, 1⟩, ⟨rootRecord, 2⟩, ⟨childrenRecord, 3⟩].foldl (deliver noAnalysis)
        Store.empty).rawFragments.map fun f => (f.batchId, f.seq)).Nodup := by
  obtain ⟨hagain, hrun⟩ := redelivery_idempotent noAnalysis_keepsColumns
  have hok : handleRecord noAnalysis Store.empty rootRecord 1 = .ok (rootStore, none) := rfl
  refine ⟨(hagain rfl hok).2 (.inl (by decide)), ?_⟩
  have hfiled : Filed twoBatches Store.empty := ⟨.empty, by simp [Store.empty]⟩
  have hchildren : ∀ db : Store, (db.callByTrace "t1" = none → db.callByExternal "t1" = none) →
      Coherent twoBatches db ⟨childrenRecord, 1⟩ := by
    rintro db hown
    refine ⟨rfl, ?_⟩
    rintro slice ⟨⟩
    exact .of_implicit (by decide) (by decide) hown
  have hroot : Coherent twoBatches (deliver noAnalysis Store.empty ⟨childrenRecord, 1⟩)
      ⟨rootRecord, 2⟩ := by
    refine ⟨rfl, ?_⟩
    rintro slice ⟨⟩
    refine ⟨.inr (by decide), ?_, ?_, fun c hnone => absurd hnone (by decide)⟩
    · rintro x e - - - - f hf - y hy
      have himplicit : ∀ f ∈ (deliver noAnalysis Store.empty ⟨childrenRecord, 1⟩).rawFragments,
          f.payload.callId = none := by decide
      rw [himplicit f hf] at hy
      cases hy
    · rintro x c hx hc
      obtain rfl : x = "c1" := Option.some.inj (hx.symm.trans (by decide))
      exact absurd hc (by
        rw [show (deliver noAnalysis Store.empty ⟨childrenRecord, 1⟩).callByExternal "c1" = none by
          decide]
        simp)
  have hsteps : Lib.Run (Lib.guarded (Consumes noAnalysis) (Coherent twoBatches)) Store.empty
      [⟨childrenRecord, 1⟩, ⟨rootRecord, 2⟩, ⟨childrenRecord, 3⟩] _ :=
    .cons ⟨rfl, hchildren _ (by decide)⟩ (.cons ⟨rfl, hroot⟩
      (.cons ⟨rfl, hchildren _ (by decide)⟩ (.nil _)))
  exact hrun hfiled hsteps

/-- A batch without any id. -/
def strayRecord : Record where
  agentId := none
  batchId := "b0"
  seq := 0
  value := some ⟨[("service.name", .str "pipecat")], [⟨"", "s9", "", [], ""⟩]⟩

/-- A root span of a trace, with a call id. -/
def namedRecord (batchId callId traceId : String) : Record where
  agentId := none
  batchId := batchId
  seq := 0
  value := some ⟨[], [⟨traceId, "s1", "", [("voice.call_id", .str callId)], ""⟩]⟩

/-- A batch without ids is stored again; and so is the batch of a call whose name was taken by
another call of the trace and then given to a new one. -/
theorem redelivery_duplicates :
    ¬SameColumns (deliver noAnalysis Store.empty ⟨strayRecord, 1⟩)
      (deliver noAnalysis (deliver noAnalysis Store.empty ⟨strayRecord, 1⟩) ⟨strayRecord, 2⟩) ∧
    ¬(([⟨namedRecord "b1" "c1" "t1", 1⟩, ⟨namedRecord "b2" "c2" "t1", 2⟩,
      ⟨namedRecord "b3" "c1" "t3", 3⟩, ⟨namedRecord "b1" "c1" "t1", 4⟩].foldl
        (deliver noAnalysis) Store.empty).rawFragments.map fun f => (f.batchId, f.seq)).Nodup := by
  constructor
  · intro h
    exact absurd h.rawFragments (by decide)
  · decide

end Pulse.Ingest
