import Pulse.Ingest.Consumer
import Pulse.Lib.Run

/-!
# One trace, one call

The records of one trace may carry an explicit call id or not, and may arrive in any order
and any number of times. This file shows that they end in one call: the invariant `OneCall`
says what an arbitrary prefix of the deliveries has built, and every delivery keeps it.
-/

namespace Pulse.Ingest

/-- The record carries the explicit call id `x`. -/
def Record.carries (r : Record) (x : String) : Bool :=
  r.value.any fun slice => slice.callId = some x

/-- The record contains a root span. -/
def Record.hasRoot (r : Record) : Bool :=
  r.value.any fun slice => (rootOf slice.spans).isSome

/-- The record is of trace `t` and carries no call id other than `x`. -/
def Record.ofTrace (r : Record) (t x : String) : Bool :=
  r.value.any fun slice => slice.traceId = t ∧ (slice.callId = none ∨ slice.callId = some x)

/-- The call has trace id `t` or goes by the name `t` or `x`. -/
def standsFor (t x : String) (c : Call) : Bool :=
  c.traceId = some t ∨ c.externalCallId = t ∨ c.externalCallId = x

/-- The fragments stored under a call for one batch and sequence number. -/
def fragmentsAt (db : Store) (pk : Pk) (batchId : String) (seq : Int) : List RawFragment :=
  db.rawFragments.filter fun f => f.callId = some pk ∧ f.batchId = batchId ∧ f.seq = seq

lemma Record.ofTrace_iff {r : Record} {t x : String} :
    r.ofTrace t x = true ↔ ∃ slice, r.value = some slice ∧ slice.traceId = t ∧
      (slice.callId = none ∨ slice.callId = some x) := by
  cases hv : r.value <;> simp [Record.ofTrace, hv]

lemma Record.carries_ne_empty {r : Record} {x : String} (h : r.carries x = true) : x ≠ "" := by
  unfold Record.carries at h
  cases hv : r.value with
  | none => simp [hv] at h
  | some slice =>
    rw [hv] at h
    exact hint_ne_empty (of_decide_eq_true h)

lemma hasFragment_eq_false {db : Store} {pk : Pk} {batchId : String} {seq : Int} :
    hasFragment db pk batchId seq = false ↔ fragmentsAt db pk batchId seq = [] := by
  simp [hasFragment, fragmentsAt]

lemma fragmentsAt_fresh {db : Store} {batchId : String} {seq : Int} :
    fragmentsAt db db.nextPk batchId seq = [] := by
  unfold fragmentsAt
  rw [List.filter_eq_nil_iff]
  intro f hf h
  have hp : f.callId = some db.nextPk := (of_decide_eq_true h).1
  obtain ⟨c, hc, he⟩ := List.mem_map.1 (db.fragment_call f hf _ hp)
  exact absurd (db.call_lt c hc) (by simp [he])

lemma fragmentsAt_congr {db db' : Store} (h : db'.rawFragments = db.rawFragments) (pk : Pk)
    (batchId : String) (seq : Int) :
    fragmentsAt db' pk batchId seq = fragmentsAt db pk batchId seq := by
  simp only [fragmentsAt, h]

lemma fragmentsAt_append {db db' : Store} {pk : Pk} {r : Record} {slice : Slice} {now : Time}
    (h : db'.rawFragments = db.rawFragments ++ [fragmentOf (some pk) r slice now])
    (batchId : String) (seq : Int) :
    fragmentsAt db' pk batchId seq = fragmentsAt db pk batchId seq ++
      if r.batchId = batchId ∧ r.seq = seq then [fragmentOf (some pk) r slice now] else [] := by
  simp only [fragmentsAt, h, List.filter_append]
  congr 1
  by_cases hk : r.batchId = batchId ∧ r.seq = seq <;> simp [fragmentOf, hk]

/-- Rewriting the only row that meets a condition, so that it still meets it. -/
lemma filter_onRow {db : Store} {p : Call → Bool} {c : Call} {f : Call → Call}
    (h : db.calls.filter p = [c]) (hp : p { f c with id := c.id } = true) :
    (db.calls.map (Store.onRow c.id f)).filter p = [{ f c with id := c.id }] := by
  have hc : c ∈ db.calls := List.mem_of_mem_filter (h ▸ List.mem_singleton_self c)
  have hpc : p c = true := (List.mem_filter.1 (h ▸ List.mem_singleton_self c : c ∈ db.calls.filter p)).2
  have hsame : db.calls.filter (p ∘ Store.onRow c.id f) = db.calls.filter p := by
    apply List.filter_congr
    intro d hd
    by_cases hid : d.id = c.id
    · rw [Store.eq_of_id_eq hd hc hid]
      simp [Store.onRow, hp, hpc]
    · simp [Store.onRow_of_ne hid]
  rw [List.filter_map, hsame, h]
  simp [Store.onRow]

lemma deliver_of_not_ready {process : Process} {db db' : Store} {d : Delivery} {slice : Slice}
    (hv : d.record.value = some slice) (hok : assembleRecord db d.record slice d.now = .ok db')
    (hready : ∀ x c, (identify db slice (d.record.agentId.bind nonEmpty)).callId = some x →
      db'.callByExternal x = some c → readyNow c = false) :
    deliver process db d = db' := by
  unfold deliver handleRecord
  simp only [hv]
  by_cases ht : tombstoned db (identify db slice (d.record.agentId.bind nonEmpty)).callId = true
  · have hdb : db = db' := by simpa [assembleRecord, ht] using hok
    subst hdb
    simp [ht, pure, Except.pure]
  · simp only [ht, hok, Lib.mapError_ok, bind, Except.bind, pure, Except.pure, Bool.false_eq_true,
      ite_false]
    cases hc : (identify db slice (d.record.agentId.bind nonEmpty)).callId.bind db'.callByExternal with
    | none => rfl
    | some c =>
      obtain ⟨x, hx, hxc⟩ := Option.bind_eq_some_iff.1 hc
      simp [hready x c hx hxc]

lemma deliver_of_stored {process : Process} {db db' : Store} {d : Delivery} {slice : Slice}
    {x : String} {c : Call} (hv : d.record.value = some slice)
    (hok : assembleRecord db d.record slice d.now = .ok db')
    (hx : (identify db slice (d.record.agentId.bind nonEmpty)).callId = some x)
    (hfind : db'.callByExternal x = some c) (hready : readyNow c = false) :
    deliver process db d = db' := by
  apply deliver_of_not_ready hv hok
  intro x' c' hx' hc'
  obtain rfl := Option.some.inj (hx'.symm.trans hx)
  rw [hfind] at hc'
  rwa [← Option.some.inj hc']

lemma eq_of_filter {calls : List Call} {p : Call → Bool} {c d : Call} (h : calls.filter p = [c])
    (hd : d ∈ calls) (hp : p d = true) : d = c := by
  have hm : d ∈ calls.filter p := List.mem_filter.2 ⟨hd, hp⟩
  rw [h] at hm
  exact List.mem_singleton.1 hm

/-- A record of the trace goes by its own id, else by that of the trace's call, else by the trace. -/
lemma identify_ofTrace {db : Store} {r : Record} {slice : Slice} {agentId : Option String}
    {t x : String} (ht : t ≠ "") (hv : r.value = some slice) (htrace : slice.traceId = t)
    (hhint : slice.callId = none ∨ slice.callId = some x) :
    (identify db slice agentId).callId = some (if r.carries x then x else
      (((db.callByTrace t).map Call.externalCallId).bind nonEmpty).getD t) := by
  rcases hhint with hnone | hsome
  · have hcar : r.carries x = false := by simp [Record.carries, hv, hnone]
    rw [identify_callId_trace hnone htrace ht, hcar]
    cases ((db.callByTrace t).map Call.externalCallId).bind nonEmpty <;> rfl
  · have hcar : r.carries x = true := by simp [Record.carries, hv, hsome]
    rw [identify_callId_explicit hsome, hcar]
    rfl

section OneCall

variable (process : Process) (t x : String)

/-- What the deliveries so far have built: one call, named by the explicit id once a record
carried it, with each fragment once. -/
structure OneCall (past : List Delivery) (db : Store) (c : Call) : Prop where
  only : db.calls.filter (standsFor t x) = [c]
  trace : c.traceId = some t
  external : c.externalCallId = if past.any (·.record.carries x) then x else t
  complete : c.spansComplete = past.any (·.record.hasRoot)
  media : c.mediaReady = false
  stored : ∀ d ∈ past, ∃ f, fragmentsAt db c.id d.record.batchId d.record.seq = [f] ∧
    d.record.value = some f.payload
  absent : ∀ batchId seq, (∀ d ∈ past, ¬(d.record.batchId = batchId ∧ d.record.seq = seq)) →
    fragmentsAt db c.id batchId seq = []
  alive : db.hasTombstone t = false ∧ db.hasTombstone x = false

variable {t x}

lemma OneCall.eq_of_standsFor {past : List Delivery} {db : Store} {c d : Call}
    (h : OneCall t x past db c) (hd : d ∈ db.calls) (hs : standsFor t x d = true) : d = c :=
  eq_of_filter h.only hd hs

lemma OneCall.mem {past : List Delivery} {db : Store} {c : Call} (h : OneCall t x past db c) :
    c ∈ db.calls :=
  List.mem_of_mem_filter (h.only ▸ List.mem_singleton_self c)

lemma OneCall.callByTrace {past : List Delivery} {db : Store} {c : Call}
    (h : OneCall t x past db c) : db.callByTrace t = some c := by
  cases hf : db.callByTrace t with
  | none => exact absurd h.trace (Store.callByTrace_eq_none.1 hf c h.mem)
  | some d =>
    obtain ⟨hd, ht⟩ := Store.callByTrace_some hf
    rw [h.eq_of_standsFor hd (by simp [standsFor, ht])]

/-- The fragments of the call after a delivery: the record's own key holds its slice, other
keys are as they were. -/
lemma stored_snoc (past : List Delivery) {db db' : Store} (pk : Pk) {d : Delivery} {slice : Slice}
    (hv : d.record.value = some slice)
    (hdistinct : ∀ e ∈ past, e.record.batchId = d.record.batchId → e.record.seq = d.record.seq →
      e.record = d.record)
    (hstored : ∀ e ∈ past, ∃ f, fragmentsAt db pk e.record.batchId e.record.seq = [f] ∧
      e.record.value = some f.payload)
    (habsent : ∀ batchId seq, (∀ e ∈ past, ¬(e.record.batchId = batchId ∧ e.record.seq = seq)) →
      fragmentsAt db pk batchId seq = [])
    (hfrag : db'.rawFragments = if hasFragment db pk d.record.batchId d.record.seq then
      db.rawFragments else db.rawFragments ++ [fragmentOf (some pk) d.record slice d.now]) :
    (∀ e ∈ past ++ [d], ∃ f, fragmentsAt db' pk e.record.batchId e.record.seq = [f] ∧
      e.record.value = some f.payload) ∧
    ∀ batchId seq, (∀ e ∈ past ++ [d], ¬(e.record.batchId = batchId ∧ e.record.seq = seq)) →
      fragmentsAt db' pk batchId seq = [] := by
  by_cases hseen : ∃ e ∈ past, e.record.batchId = d.record.batchId ∧ e.record.seq = d.record.seq
  · -- a redelivery: the pre-check finds the fragment, nothing is added
    obtain ⟨e, he, hb, hs⟩ := hseen
    have hrec := hdistinct e he hb hs
    obtain ⟨f, hf, hpay⟩ := hstored e he
    rw [hrec] at hf
    have hhas : hasFragment db pk d.record.batchId d.record.seq = true := by
      by_contra hn
      rw [Bool.not_eq_true, hasFragment_eq_false, hf] at hn
      cases hn
    rw [if_pos hhas] at hfrag
    simp only [fragmentsAt_congr hfrag]
    refine ⟨fun e' he' => ?_, fun batchId seq hk => ?_⟩
    · rcases List.mem_append.1 he' with he' | he'
      · exact hstored e' he'
      · rw [List.mem_singleton.1 he']
        exact ⟨f, hf, hrec ▸ hpay⟩
    · exact habsent batchId seq fun e' he' => hk e' (List.mem_append_left _ he')
  · have hnew := habsent d.record.batchId d.record.seq fun e he hk => hseen ⟨e, he, hk⟩
    rw [hasFragment_eq_false.2 hnew] at hfrag
    simp only [Bool.false_eq_true, ite_false] at hfrag
    refine ⟨fun e' he' => ?_, fun batchId seq hk => ?_⟩
    · rcases List.mem_append.1 he' with he' | he'
      · obtain ⟨f, hf, hpay⟩ := hstored e' he'
        refine ⟨f, ?_, hpay⟩
        rw [fragmentsAt_append hfrag, hf, if_neg, List.append_nil]
        exact fun hk => hseen ⟨e', he', hk.1.symm, hk.2.symm⟩
      · rw [List.mem_singleton.1 he']
        refine ⟨fragmentOf (some pk) d.record slice d.now, ?_, hv⟩
        rw [fragmentsAt_append hfrag, hnew, if_pos ⟨rfl, rfl⟩]
        rfl
    · have hd := hk d (List.mem_append_right _ (List.mem_singleton_self d))
      rw [fragmentsAt_append hfrag, if_neg hd, List.append_nil]
      exact habsent batchId seq fun e' he' => hk e' (List.mem_append_left _ he')

/-- The first delivery of the trace opens its call. -/
lemma oneCall_first {db : Store} {d : Delivery} (ht : t ≠ "")
    (hcalls : ∀ c ∈ db.calls, standsFor t x c = false)
    (halive : db.hasTombstone t = false ∧ db.hasTombstone x = false)
    (hd : d.record.ofTrace t x = true) : ∃ c, OneCall t x [d] (deliver process db d) c := by
  obtain ⟨slice, hv, htrace, hhint⟩ := Record.ofTrace_iff.1 hd
  set b := identify db slice (d.record.agentId.bind nonEmpty) with hb
  have hnotrace : db.callByTrace t = none :=
    Store.callByTrace_eq_none.2 fun c hc h => by simpa [standsFor, h] using hcalls c hc
  -- without a call of the trace the batch goes by its own hint, or by the trace id
  have hid : b.callId = some (if d.record.carries x then x else t) := by
    rw [hb, identify_ofTrace ht hv htrace hhint, hnotrace]
    rfl
  obtain ⟨db', hok, has⟩ := assembleRecord_spec db d.record slice d.now
  set y := if d.record.carries x then x else t with hy
  have hstands : ∀ c : Call, c.externalCallId = y → standsFor t x c = true := by
    intro c hc
    simp only [standsFor, hc, hy]
    split <;> simp
  have hynone : db.callByExternal y = none :=
    Store.callByExternal_eq_none.2 fun c hc h => by simpa [hstands c h] using hcalls c hc
  cases has with
  | dropped z hz htomb _ =>
    have hzy : z = y := Option.some.inj (hz.symm.trans hid)
    rw [hzy, hy] at htomb
    split at htomb <;> simp [halive] at htomb
  | unattributed hz => exact absurd (hz.symm.trans hid) (by simp)
  | stored z c hz htomb hup hfind htombs hscripts hfrag =>
    obtain rfl : z = y := Option.some.inj (hz.symm.trans hid)
    have hnew : db'.calls = db.calls ++
        [fillIn db b d.now { newCall b y d.now with id := db.nextPk }] := by
      cases hup with
      | found e he => exact absurd (he.symm.trans hynone) (by simp)
      | promoted e _ _ he =>
        have hbt : b.traceId = t := htrace
        rw [← hb, hbt, hnotrace] at he
        cases he
      | created _ _ hcalls' => exact hcalls'
    have hfilter : db'.calls.filter (standsFor t x) =
        [fillIn db b d.now { newCall b y d.now with id := db.nextPk }] := by
      rw [hnew, List.filter_append, List.filter_eq_nil_iff.2 (by simpa using hcalls), List.nil_append,
        List.filter_singleton, hstands _ rfl]
      rfl
    obtain ⟨hc, hcy⟩ := Store.callByExternal_some hfind
    have hcnew : c = fillIn db b d.now { newCall b y d.now with id := db.nextPk } :=
      eq_of_filter hfilter hc (hstands c hcy)
    have hpk : c.id = db.nextPk := by rw [hcnew]; rfl
    have hdeliver : deliver process db d = db' := by
      apply deliver_of_stored hv hok hz hfind
      rw [hcnew]
      simp [readyNow, newCall]
    obtain ⟨hstored, habsent⟩ := stored_snoc [] c.id hv (by simp) (by simp)
      (fun batchId seq _ => by rw [hpk]; exact fragmentsAt_fresh) hfrag
    rw [hdeliver]
    refine ⟨c, ⟨hcnew ▸ hfilter, ?_, ?_, ?_, ?_, hstored, habsent, ?_⟩⟩
    · have hbt : b.traceId = t := htrace
      simp [hcnew, newCall, hbt, nonEmpty_of_ne ht]
    · simp [hcy, hy]
    · have hroot : b.root = rootOf slice.spans := rfl
      simp [hcnew, newCall, hroot, Record.hasRoot, hv]
    · simp [hcnew, newCall]
    · simpa only [Store.hasTombstone, htombs] using halive

/-- Every later delivery lands on the call that is there, renaming it when it brings the
explicit id. -/
lemma oneCall_next {past : List Delivery} {db : Store} {c₀ : Call} {d : Delivery} (ht : t ≠ "")
    (hinv : OneCall t x past db c₀) (hd : d.record.ofTrace t x = true)
    (hdistinct : ∀ e ∈ past, e.record.batchId = d.record.batchId → e.record.seq = d.record.seq →
      e.record = d.record) :
    ∃ c, OneCall t x (past ++ [d]) (deliver process db d) c := by
  obtain ⟨slice, hv, htrace, hhint⟩ := Record.ofTrace_iff.1 hd
  set b := identify db slice (d.record.agentId.bind nonEmpty) with hb
  have hbt : b.traceId = t := htrace
  have hname : c₀.externalCallId ≠ "" := by
    rw [hinv.external]
    split
    · rename_i hany
      obtain ⟨e, he, hcar⟩ := List.any_eq_true.1 hany
      exact e.record.carries_ne_empty hcar
    · exact ht
  set y := if d.record.carries x then x else c₀.externalCallId with hy
  have hid : b.callId = some y := by
    rw [hb, identify_ofTrace ht hv htrace hhint, hinv.callByTrace, Option.map_some, Option.bind_some,
      nonEmpty_of_ne hname]
    rfl
  have hstands : ∀ c : Call, c.externalCallId = y → standsFor t x c = true := by
    intro c hc
    have hext := hinv.external
    by_cases hcar : d.record.carries x
    · simp [standsFor, hc, hy, hcar]
    · rw [hy, if_neg hcar, hext] at hc
      simp only [standsFor, hc]
      split <;> simp
  have halive : db.hasTombstone y = false := by
    have hext := hinv.external
    by_cases hcar : d.record.carries x
    · rw [hy, if_pos hcar]
      exact hinv.alive.2
    · rw [hy, if_neg hcar, hext]
      split
      · exact hinv.alive.2
      · exact hinv.alive.1
  obtain ⟨db', hok, has⟩ := assembleRecord_spec db d.record slice d.now
  cases has with
  | dropped z hz htomb _ =>
    have hzy : z = y := Option.some.inj (hz.symm.trans hid)
    rw [hzy, halive] at htomb
    cases htomb
  | unattributed hz => exact absurd (hz.symm.trans hid) (by simp)
  | stored z c hz htomb hup hfind htombs hscripts hfrag =>
    obtain rfl : z = y := Option.some.inj (hz.symm.trans hid)
    have hcalls := hup.onCall (hbt ▸ ht) (hbt ▸ hinv.callByTrace) fun c' hc' => by
      obtain ⟨hm, hx'⟩ := Store.callByExternal_some hc'
      exact hinv.eq_of_standsFor hm (hstands c' hx')
    set row := fillIn db b d.now { c₀ with externalCallId := y } with hrow
    have hfilter : db'.calls.filter (standsFor t x) = [row] := by
      rw [hcalls]
      exact filter_onRow hinv.only (hstands _ rfl)
    obtain ⟨hc, hcy⟩ := Store.callByExternal_some hfind
    have hcrow : c = row := eq_of_filter hfilter hc (hstands c hcy)
    subst hcrow
    have hdeliver : deliver process db d = db' := by
      apply deliver_of_stored hv hok hz hfind
      simp [readyNow, hrow, hinv.media]
    obtain ⟨hstored, habsent⟩ := stored_snoc past c₀.id hv hdistinct hinv.stored hinv.absent hfrag
    rw [hdeliver]
    refine ⟨row, ⟨hfilter, ?_, ?_, ?_, ?_, hstored, habsent, ?_⟩⟩
    · simp [hrow, hinv.trace]
    · rw [hcy, hy, hinv.external]
      by_cases hcar : d.record.carries x <;> simp [hcar]
    · have hroot : b.root = rootOf slice.spans := rfl
      simp [hrow, hroot, hinv.complete, Record.hasRoot, hv]
    · simp [hrow, hinv.media]
    · simpa only [Store.hasTombstone, htombs] using hinv.alive

end OneCall

/-! ### A call opened by its children -/

/-- The batch a producer sends before the call ends: no root, so no call id. -/
def childrenRecord : Record where
  agentId := none
  batchId := "b1"
  seq := 0
  value := some ⟨[("service.name", .str "pipecat")], [⟨"t1", "s2", "s1", [], ""⟩]⟩

/-- The batch with the root span, which carries the call id. -/
def rootRecord : Record where
  agentId := none
  batchId := "b2"
  seq := 0
  value := some ⟨[("service.name", .str "pipecat")],
    [⟨"t1", "s1", "", [("voice.call_id", .str "c1")], ""⟩]⟩

/-- An analysis that changes nothing. -/
def noAnalysis : Process := fun db _ _ => .analysed db

end Pulse.Ingest
