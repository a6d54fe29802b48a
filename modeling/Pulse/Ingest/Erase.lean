import Pulse.Ingest.OneCall
import Pulse.Lib.Except

/-!
# Erasing a call

`erase_call` of `api/ingest.py` on the ingest tables, and what the span stream does to an
erased call afterwards. The tombstone is keyed by the external id alone, while a batch of the
call's trace need not carry that id.
-/

namespace Pulse.Ingest

inductive EraseError
  | forbidden
  | notFound
  | database (e : DbError)
  deriving DecidableEq, Repr

/-- A `DELETE /calls/{call_id}` request; `tokenAgent` is the agent of the ingest token. -/
structure EraseRequest where
  callId : String
  confirm : String
  tokenAgent : Option String := none
  deriving DecidableEq, Repr

/-- `_owned_call` -/
def ownedCall (db : Store) (callId : String) (tokenAgent : Option String) :
    Except EraseError Call :=
  match db.callByExternal callId with
  | none => .error .notFound
  | some call =>
    if tokenAgent.isSome ∧ call.agentId ≠ tokenAgent then .error .notFound else .ok call

/-- `erase_call`, on the tables of this model. -/
def eraseCall (allowDelete : Bool) (db : Store) (q : EraseRequest) : Except EraseError Store := do
  if allowDelete = false ∨ q.confirm ≠ q.callId then throw .forbidden
  let call ← ownedCall db q.callId q.tokenAgent
  let db ← (db.insertTombstone ⟨q.callId, some "api"⟩).mapError .database
  let db := (db.deleteMedia call.id).deleteFragments call.id
  (db.deleteCall call.id).mapError .database

lemma ownedCall_ok {db : Store} {x : String} {agent : Option String} {c : Call}
    (h : ownedCall db x agent = .ok c) : db.callByExternal x = some c := by
  unfold ownedCall at h
  cases hc : db.callByExternal x with
  | none => simp [hc] at h
  | some d =>
    simp only [hc] at h
    split at h
    · cases h
    · cases h
      rfl

/-- What an erasure that goes through has done. -/
theorem eraseCall_ok {allowDelete : Bool} {db db' : Store} {q : EraseRequest}
    (h : eraseCall allowDelete db q = .ok db') : ∃ k, db.callByExternal q.callId = some k ∧
      db'.calls = db.calls.filter (·.id ≠ k.id) ∧
      db'.tombstones = db.tombstones ++ [⟨q.callId, some "api"⟩] := by
  unfold eraseCall at h
  by_cases hallow : allowDelete = false ∨ q.confirm ≠ q.callId
  · rw [if_pos hallow] at h
    exact absurd h Lib.throw_bind_ne_ok
  · rw [if_neg hallow] at h
    obtain ⟨-, -, h⟩ := Lib.bind_eq_ok.1 h
    obtain ⟨k, hown, h⟩ := Lib.bind_eq_ok.1 h
    obtain ⟨db₁, htomb, h⟩ := Lib.bind_eq_ok.1 h
    obtain ⟨hcalls₁, -, htombs₁⟩ := Store.insertTombstone_rows (Lib.mapError_eq_ok.1 htomb)
    obtain ⟨hcalls, -, htombs⟩ := Store.deleteCall_rows (Lib.mapError_eq_ok.1 h)
    refine ⟨k, ownedCall_ok hown, ?_, ?_⟩
    · rw [hcalls, ← hcalls₁]
      rfl
    · rw [htombs, ← htombs₁]
      rfl

/-! ### The erased call under later records -/

/-- The trace of a call, if it has one. -/
def Call.trace (c : Call) : Option String :=
  c.traceId.bind nonEmpty

/-- The call `c` has the external id of `k`, or its trace. -/
def StandsFor (k c : Call) : Prop :=
  c.externalCallId = k.externalCallId ∨ k.trace.isSome ∧ c.traceId = k.trace

/-- Nothing of the call `k` is in `db` that was not in `base`: neither a call that stands for
it nor a fragment of its trace. -/
structure Buried (k : Call) (base db : Store) : Prop where
  calls : ∀ c ∈ db.calls, StandsFor k c → ∃ d ∈ base.calls, d.id = c.id ∧ StandsFor k d
  fragments : ∀ f ∈ db.rawFragments, k.trace = some f.payload.traceId → f ∈ base.rawFragments

lemma Buried.refl (k : Call) (db : Store) : Buried k db db :=
  ⟨fun c hc hk => ⟨c, hc, rfl, hk⟩, fun _ hf _ => hf⟩

/-- The call id that a slice of some trace joins: the one it names, else that of the live call
of its trace, else the trace id. -/
def joinedId (db : Store) (slice : Slice) : String :=
  slice.callId.getD
    ((((db.callByTrace slice.traceId).map Call.externalCallId).bind nonEmpty).getD slice.traceId)

/-- A record of the trace of `k` joins an id that has a tombstone. -/
def JoinsTombstone (k : Call) (db : Store) (d : Delivery) : Prop :=
  ∀ slice, d.record.value = some slice → k.trace = some slice.traceId →
    db.hasTombstone (joinedId db slice) = true

/-- A step of the consumer. -/
def Consumes (process : Process) (db : Store) (d : Delivery) (db' : Store) : Prop :=
  db' = deliver process db d

lemma identify_joinedId {db : Store} {slice : Slice} {agentId : Option String}
    (ht : slice.traceId ≠ "") :
    (identify db slice agentId).callId = some (joinedId db slice) := by
  cases hc : slice.callId with
  | some x => simp [identify_callId_explicit hc, joinedId, hc]
  | none =>
    rw [identify_callId_trace hc rfl ht]
    cases hb : ((db.callByTrace slice.traceId).map Call.externalCallId).bind nonEmpty <;>
      simp [joinedId, hc, hb]

lemma Call.trace_ne_empty {k : Call} {t : String} (h : k.trace = some t) : t ≠ "" := by
  obtain ⟨s, -, hs⟩ := Option.bind_eq_some_iff.1 h
  obtain ⟨hne, rfl⟩ := nonEmpty_eq_some.1 hs
  exact hne

lemma Buried.fragment {k : Call} {base db db' : Store} {g : RawFragment} (h : Buried k base db)
    (hg : k.trace ≠ some g.payload.traceId)
    (hfrag : db'.rawFragments = db.rawFragments ∨ db'.rawFragments = db.rawFragments ++ [g]) :
    ∀ f ∈ db'.rawFragments, k.trace = some f.payload.traceId → f ∈ base.rawFragments := by
  intro f hf hk
  rcases hfrag with hfrag | hfrag
  · exact h.fragments f (hfrag ▸ hf) hk
  · rw [hfrag] at hf
    rcases List.mem_append.1 hf with hf | hf
    · exact h.fragments f hf hk
    · rw [List.mem_singleton.1 hf] at hk
      exact absurd hk hg

/-- The write path keeps an erased call buried: a record of its trace is dropped, and any
other record neither names it nor brings its trace. -/
lemma Buried.assembled {k : Call} {base db db' : Store} {d : Delivery} {slice : Slice}
    (hburied : Buried k base db) (htomb : db.hasTombstone k.externalCallId = true)
    (hjoins : JoinsTombstone k db d) (hv : d.record.value = some slice)
    (h : Assembled db d.record slice d.now db') : Buried k base db' := by
  cases h with
  | dropped _ _ _ heq => exact heq ▸ hburied
  | unattributed hid hcalls _ _ hfrag =>
    have ht : k.trace ≠ some slice.traceId := by
      intro hk
      rw [identify_joinedId (Call.trace_ne_empty hk)] at hid
      cases hid
    refine ⟨?_, hburied.fragment (g := fragmentOf none d.record slice d.now) ht
      (.inr hfrag)⟩
    rw [hcalls]
    exact hburied.calls
  | stored x c hid hlive hup _ _ _ hfrag =>
    have ht : k.trace ≠ some slice.traceId := by
      intro hk
      rw [identify_joinedId (Call.trace_ne_empty hk)] at hid
      rw [← Option.some.inj hid, hjoins slice hv hk] at hlive
      cases hlive
    have hx : x ≠ k.externalCallId := by
      intro hx
      rw [hx, htomb] at hlive
      cases hlive
    refine ⟨fun c' hc' hstands => ?_,
      hburied.fragment (g := fragmentOf (some c.id) d.record slice d.now) ht ?_⟩
    · obtain ⟨hext, htrace⟩ := hup.origin hc'
      rcases hstands with hname | ⟨hsome, hk⟩
      · rcases hext with he | ⟨e, he, hid', heq⟩
        · exact absurd (he.symm.trans hname) hx
        · rw [← hid']
          exact hburied.calls e he (.inl (heq.trans hname))
      · rcases htrace with he | ⟨e, he, hid', heq⟩
        · obtain ⟨t, hkt⟩ := Option.isSome_iff_exists.1 hsome
          rw [he, hkt] at hk
          obtain ⟨-, hslice⟩ := nonEmpty_eq_some.1 hk
          exact absurd (hkt.trans (congrArg some hslice.symm)) ht
        · rw [← hid']
          exact hburied.calls e he (.inr ⟨hsome, heq.trans hk⟩)
    · split at hfrag
      · exact .inl hfrag
      · exact .inr hfrag

lemma Assembled.hasTombstone {db db' : Store} {r : Record} {slice : Slice} {now : Time}
    (h : Assembled db r slice now db') (x : String) : db'.hasTombstone x = db.hasTombstone x := by
  cases h with
  | dropped _ _ _ heq => rw [heq]
  | unattributed _ _ htombs => simp only [Store.hasTombstone, htombs]
  | stored _ _ _ _ _ _ htombs => simp only [Store.hasTombstone, htombs]

lemma Buried.sameIdentity {k : Call} {base db db' : Store} (h : Buried k base db)
    (hsame : SameIdentity db db') : Buried k base db' := by
  refine ⟨fun c' hc' hstands => ?_, ?_⟩
  · obtain ⟨c, hc, hid, hext, htrace⟩ := hsame.exists_call hc'
    rw [← hid]
    apply h.calls c hc
    rcases hstands with hname | ⟨hsome, hk⟩
    · exact .inl (hext.trans hname)
    · exact .inr ⟨hsome, htrace.trans hk⟩
  · rw [hsame.rawFragments]
    exact h.fragments

lemma Buried.deliver {process : Process} (hprocess : KeepsIdentity process) {k : Call}
    {base db : Store} {d : Delivery} (hburied : Buried k base db)
    (htomb : db.hasTombstone k.externalCallId = true) (hjoins : JoinsTombstone k db d) :
    Buried k base (deliver process db d) ∧
      (Ingest.deliver process db d).hasTombstone k.externalCallId = true := by
  rcases deliver_spec hprocess db d with hsame | ⟨slice, db₁, hv, has, hsame⟩
  · rw [hsame]
    exact ⟨hburied, htomb⟩
  · refine ⟨(hburied.assembled htomb hjoins hv has).sameIdentity hsame, ?_⟩
    rw [hsame.hasTombstone, has.hasTombstone]
    exact htomb

/-- An erased call stays erased in every run of the consumer whose records of its trace all
join a tombstoned id. -/
theorem erased_call_stays_buried {process : Process} (hprocess : KeepsIdentity process)
    (allowDelete : Bool) {db base db' : Store} (q : EraseRequest) {k : Call} {ds : List Delivery}
    (hk : db.callByExternal q.callId = some k) (herase : eraseCall allowDelete db q = .ok base)
    (hrun : Lib.Run (Lib.guarded (Consumes process) (JoinsTombstone k)) base ds db') :
    Buried k base db' := by
  have hname : k.externalCallId = q.callId := (Store.callByExternal_some hk).2
  obtain ⟨-, -, -, htombs⟩ := eraseCall_ok herase
  have htomb : base.hasTombstone k.externalCallId = true := by
    simp [Store.hasTombstone_append htombs, hname]
  have hinv : Buried k base db' ∧ db'.hasTombstone k.externalCallId = true := by
    refine hrun.invariant_guarded (I := fun db => Buried k base db ∧
      db.hasTombstone k.externalCallId = true) ?_ ⟨.refl k base, htomb⟩
    rintro db d db' ⟨hburied, htomb⟩ hjoins rfl
    exact hburied.deliver hprocess htomb hjoins
  exact hinv.1

/-! ### A trace that outlives its call -/

/-- The call `c1` of trace `t1`, opened by its root span. -/
def rootStore : Store :=
  deliver noAnalysis Store.empty ⟨rootRecord, 1⟩

/-- What is left when `c1` is erased. -/
def erasedStore : Store :=
  match eraseCall true rootStore ⟨"c1", "c1", none⟩ with
  | .ok db => db
  | .error _ => rootStore

lemma noAnalysis_keepsIdentity : KeepsIdentity noAnalysis := by
  intro db pk now db' h
  cases h
  exact .refl db

/-- Redeliveries of the root span are dropped. -/
theorem erased_call_stays_buried_root : ∃ k db', rootStore.callByExternal "c1" = some k ∧
    Lib.Run (Consumes noAnalysis) erasedStore [⟨rootRecord, 2⟩, ⟨rootRecord, 3⟩] db' ∧
    Buried k erasedStore db' := by
  obtain ⟨k, hk⟩ : ∃ k, rootStore.callByExternal "c1" = some k := ⟨_, rfl⟩
  have hjoins : ∀ db k d, db.hasTombstone "c1" = true → d.record = rootRecord →
      JoinsTombstone k db d := by
    rintro db k d hdb hd slice hv -
    rw [hd] at hv
    cases hv
    exact hdb
  have hrun : Lib.Run (Lib.guarded (Consumes noAnalysis) (JoinsTombstone k)) erasedStore
      [⟨rootRecord, 2⟩, ⟨rootRecord, 3⟩] _ :=
    .cons ⟨rfl, hjoins _ k _ (by decide) rfl⟩ (.cons ⟨rfl, hjoins _ k _ (by decide) rfl⟩ (.nil _))
  have herase : eraseCall true rootStore ⟨"c1", "c1", none⟩ = .ok erasedStore := rfl
  exact ⟨k, _, hk, hrun.of_guarded,
    erased_call_stays_buried noAnalysis_keepsIdentity true ⟨"c1", "c1", none⟩ hk herase hrun⟩

/-- The children of the erased call arrive without its id and open a call of their own. -/
theorem erased_call_reopened : ∃ k, rootStore.callByExternal "c1" = some k ∧
    eraseCall true rootStore ⟨"c1", "c1", none⟩ = .ok erasedStore ∧
    ¬Buried k erasedStore (deliver noAnalysis erasedStore ⟨childrenRecord, 2⟩) := by
  refine ⟨_, rfl, rfl, fun h => ?_⟩
  have hcall : ∃ c ∈ (deliver noAnalysis erasedStore ⟨childrenRecord, 2⟩).calls,
      c.traceId = some "t1" := by decide
  obtain ⟨c, hc, ht⟩ := hcall
  obtain ⟨d, hd, -⟩ := h.calls c hc (.inr ⟨rfl, ht⟩)
  exact absurd hd (by simp [show erasedStore.calls = [] from rfl])

end Pulse.Ingest
