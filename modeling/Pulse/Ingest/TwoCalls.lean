import Pulse.Ingest.Redelivery

/-!
# Two explicit calls

Records that carry different explicit call ids belong to different calls, also when they share a
trace. They are kept apart as long as no record renames a call that another explicit id names;
`_promote` does rename such a call, since it looks at the trace only.
-/

namespace Pulse.Ingest

/-- The call has every fragment of the deliveries that carry the id `x`. -/
def HoldsAll (ds : List Delivery) (x : String) (db : Store) (c : Call) : Prop :=
  ∀ d ∈ ds, d.record.carries x = true → ∃ f ∈ db.rawFragments, f.callId = some c.id ∧
    f.batchId = d.record.batchId ∧ f.seq = d.record.seq ∧ d.record.value = some f.payload

/-- The call has no fragment of the deliveries that carry the id `x`. -/
def HoldsNone (ds : List Delivery) (x : String) (db : Store) (c : Call) : Prop :=
  ∀ d ∈ ds, d.record.carries x = true → ∀ f ∈ db.rawFragments, f.callId = some c.id →
    ¬(f.batchId = d.record.batchId ∧ f.seq = d.record.seq)

/-- Any two different ids that the deliveries carry have each its own call, with its own
fragments. -/
def KeptApart (ds : List Delivery) (db : Store) : Prop :=
  ∀ x y, x ≠ y → (∃ d ∈ ds, d.record.carries x = true) → (∃ d ∈ ds, d.record.carries y = true) →
    ∃ c d, db.callByExternal x = some c ∧ db.callByExternal y = some d ∧
      HoldsAll ds x db c ∧ HoldsAll ds y db d ∧ HoldsNone ds y db c ∧ HoldsNone ds x db d

/-- A store that has nothing of the deliveries yet, and no call that an analysis could fail for. -/
structure Untouched (ds : List Delivery) (db : Store) : Prop where
  unmixed : Unmixed db
  keys : ∀ f ∈ db.rawFragments, ∀ d ∈ ds, ¬(f.batchId = d.record.batchId ∧ f.seq = d.record.seq)
  alive : ∀ d ∈ ds, ∀ x, d.record.carries x = true → db.hasTombstone x = false
  media : ∀ c ∈ db.calls, c.mediaReady = false

/-- The record renames no call that a stored fragment names. -/
def Respects (db : Store) (d : Delivery) : Prop :=
  ∀ slice, d.record.value = some slice → KeepsNames db slice

/-- What the deliveries `past` out of `ds` have built. -/
structure Sorted (ds past : List Delivery) (db : Store) : Prop where
  sub : ∀ d ∈ past, d ∈ ds
  unmixed : Unmixed db
  known : ∀ f ∈ db.rawFragments, ∀ d ∈ ds, f.batchId = d.record.batchId → f.seq = d.record.seq →
    d.record.value = some f.payload
  held : ∀ x, (∃ d ∈ past, d.record.carries x = true) →
    ∃ c, db.callByExternal x = some c ∧ HoldsAll past x db c
  alive : ∀ d ∈ ds, ∀ x, d.record.carries x = true → db.hasTombstone x = false
  media : ∀ c ∈ db.calls, c.mediaReady = false

lemma Untouched.sorted {ds : List Delivery} {db : Store} (h : Untouched ds db) :
    Sorted ds [] db :=
  ⟨by simp, h.unmixed, fun f hf d hd hb hs => absurd ⟨hb, hs⟩ (h.keys f hf d hd), by simp, h.alive,
    h.media⟩

lemma Upserted.mediaReady {db : Store} {b : Batch} {x : String} {now : Time} {calls : List Call}
    (h : Upserted db b x now calls) (hmedia : ∀ c ∈ db.calls, c.mediaReady = false) :
    ∀ c ∈ calls, c.mediaReady = false := by
  intro c' hc'
  rcases h.writes with ⟨e, he, -, hcalls⟩ | ⟨-, -, hcalls⟩
  · rw [hcalls] at hc'
    obtain ⟨c, hc, rfl⟩ := List.mem_map.1 hc'
    by_cases hid : c.id = e.id <;> simp [Store.onRow, hid, hmedia c hc]
  · rw [hcalls] at hc'
    rcases List.mem_append.1 hc' with hc' | hc'
    · exact hmedia c' hc'
    · rw [List.mem_singleton.1 hc']
      rfl

lemma Record.carries_iff {r : Record} {x : String} :
    r.carries x = true ↔ ∃ slice, r.value = some slice ∧ slice.callId = some x := by
  cases hv : r.value <;> simp [Record.carries, hv]

section

variable {process : Process} {ds past : List Delivery} {db db' : Store} {d : Delivery} {slice : Slice}

/-- The record that is stored last has its fragment under its call. -/
lemma Sorted.stored_last (h : Sorted ds past db) (hd : d ∈ ds) (hv : d.record.value = some slice)
    {pk : Pk} (hfrags : db'.rawFragments = if hasFragment db pk d.record.batchId d.record.seq then
      db.rawFragments else db.rawFragments ++ [fragmentOf (some pk) d.record slice d.now]) :
    ∃ f ∈ db'.rawFragments, f.callId = some pk ∧ f.batchId = d.record.batchId ∧
      f.seq = d.record.seq ∧ d.record.value = some f.payload := by
  rw [hfrags]
  split
  · rename_i hhas
    simp only [hasFragment, List.any_eq_true, decide_eq_true_eq] at hhas
    obtain ⟨f, hf, hpk, hb, hs⟩ := hhas
    exact ⟨f, hf, hpk, hb, hs, h.known f hf d hd hb hs⟩
  · exact ⟨_, List.mem_append_right _ (List.mem_singleton_self _), rfl, rfl, rfl, hv⟩

lemma HoldsAll.mono {x : String} {c c' : Call} (h : HoldsAll past x db c) (hid : c'.id = c.id)
    (hsub : ∀ f ∈ db.rawFragments, f ∈ db'.rawFragments) : HoldsAll past x db' c' := by
  intro e he hcar
  obtain ⟨f, hf, hpk, hrest⟩ := h e he hcar
  exact ⟨f, hsub f hf, hid ▸ hpk, hrest⟩

lemma HoldsAll.snoc {x : String} {c : Call} (h : HoldsAll past x db c)
    (hlast : d.record.carries x = true → ∃ f ∈ db.rawFragments, f.callId = some c.id ∧
      f.batchId = d.record.batchId ∧ f.seq = d.record.seq ∧ d.record.value = some f.payload) :
    HoldsAll (past ++ [d]) x db c := by
  intro e he hcar
  rcases List.mem_append.1 he with he | he
  · exact h e he hcar
  · rw [List.mem_singleton.1 he] at hcar ⊢
    exact hlast hcar

/-- A call that was held stays held when its row and its name do. -/
lemma Sorted.held_snoc (h : Sorted ds past db) {x : String}
    (hx : ∃ e ∈ past, e.record.carries x = true)
    (hsub : ∀ f ∈ db.rawFragments, f ∈ db'.rawFragments)
    (hrow : ∀ c ∈ db.calls, ∀ f ∈ db.rawFragments, f.callId = some c.id →
      f.payload.callId = some x → ∃ c' ∈ db'.calls, c'.id = c.id ∧ c'.externalCallId = x) :
    ∃ c', db'.callByExternal x = some c' ∧ HoldsAll past x db' c' := by
  obtain ⟨c, hc, hholds⟩ := h.held x hx
  obtain ⟨e, he, hcar⟩ := hx
  obtain ⟨f, hf, hfc, -, -, hpayload⟩ := hholds e he hcar
  obtain ⟨slice, hv, hslice⟩ := Record.carries_iff.1 hcar
  have hpx : f.payload.callId = some x := by
    rw [← Option.some.inj (hv.symm.trans hpayload)]
    exact hslice
  obtain ⟨c', hc', hid, hcx⟩ := hrow c (Store.callByExternal_some hc).1 f hf hfc hpx
  exact ⟨c', hcx ▸ Store.callByExternal_of_mem hc', hholds.mono hid hsub⟩

lemma Sorted.sub_snoc (h : Sorted ds past db) (hd : d ∈ ds) : ∀ e ∈ past ++ [d], e ∈ ds := by
  intro e he
  rcases List.mem_append.1 he with he | he
  · exact h.sub e he
  · exact List.mem_singleton.1 he ▸ hd

lemma Sorted.known_snoc (h : Sorted ds past db)
    (hdistinct : ∀ e ∈ ds, e.record.batchId = d.record.batchId → e.record.seq = d.record.seq →
      e.record = d.record)
    (hv : d.record.value = some slice) (pk : Option Pk) :
    ∀ f ∈ db.rawFragments ++ [fragmentOf pk d.record slice d.now], ∀ e ∈ ds,
      f.batchId = e.record.batchId → f.seq = e.record.seq → e.record.value = some f.payload := by
  intro f hf e he hb hs
  rcases List.mem_append.1 hf with hf | hf
  · exact h.known f hf e he hb hs
  · rw [List.mem_singleton.1 hf] at hb hs ⊢
    rw [hdistinct e he hb.symm hs.symm, hv]
    rfl

lemma identify_carried (hv : d.record.value = some slice) {y : String}
    (hcar : d.record.carries y = true) :
    (identify db slice (d.record.agentId.bind nonEmpty)).callId = some y := by
  obtain ⟨slice', hv', hy⟩ := Record.carries_iff.1 hcar
  obtain rfl : slice' = slice := Option.some.inj (hv'.symm.trans hv)
  exact identify_callId_explicit hy

lemma carried_snoc {y : String} (h : ∃ e ∈ past ++ [d], e.record.carries y = true) :
    (∃ e ∈ past, e.record.carries y = true) ∨ d.record.carries y = true := by
  obtain ⟨e, he, hcar⟩ := h
  rcases List.mem_append.1 he with he | he
  · exact .inl ⟨e, he, hcar⟩
  · exact .inr (List.mem_singleton.1 he ▸ hcar)

/-- A record that carries no id, and is stored under no call if it is stored. -/
lemma Sorted.skipped (h : Sorted ds past db) (hd : d ∈ ds) (hcarries : ∀ y, d.record.carries y = false)
    (hcalls : db'.calls = db.calls) (htombs : db'.tombstones = db.tombstones)
    (hold : ∀ f ∈ db.rawFragments, f ∈ db'.rawFragments)
    (hnew : ∀ f ∈ db'.rawFragments, f ∈ db.rawFragments ∨ f.callId = none)
    (hknown : ∀ f ∈ db'.rawFragments, ∀ e ∈ ds, f.batchId = e.record.batchId →
      f.seq = e.record.seq → e.record.value = some f.payload) : Sorted ds (past ++ [d]) db' := by
  refine ⟨h.sub_snoc hd, ?_, hknown, fun y hy => ?_, ?_, hcalls ▸ h.media⟩
  · intro f hf c hc hfc y hy
    rw [hcalls] at hc
    rcases hnew f hf with hf | hnone
    · exact h.unmixed f hf c hc hfc y hy
    · rw [hnone] at hfc
      cases hfc
  · have hpast := (carried_snoc hy).resolve_right (by simp [hcarries])
    obtain ⟨c, hc, hholds⟩ := h.held_snoc hpast hold
      fun c hc f hf hfc hfy => ⟨c, hcalls ▸ hc, rfl, h.unmixed f hf c hc hfc y hfy⟩
    exact ⟨c, hc, hholds.snoc fun hcar => by simp [hcarries] at hcar⟩
  · simpa only [Store.hasTombstone, htombs] using h.alive

lemma Sorted.stored (h : Sorted ds past db) (hd : d ∈ ds)
    (hdistinct : ∀ e ∈ ds, e.record.batchId = d.record.batchId → e.record.seq = d.record.seq →
      e.record = d.record)
    (hv : d.record.value = some slice) (hnames : KeepsNames db slice) {x : String} {c : Call}
    (hx : (identify db slice (d.record.agentId.bind nonEmpty)).callId = some x)
    (hup : Upserted db (identify db slice (d.record.agentId.bind nonEmpty)) x d.now db'.calls)
    (hfind : db'.callByExternal x = some c) (htombs : db'.tombstones = db.tombstones)
    (hfrags : db'.rawFragments = if hasFragment db c.id d.record.batchId d.record.seq then
      db.rawFragments else db.rawFragments ++ [fragmentOf (some c.id) d.record slice d.now]) :
    Sorted ds (past ++ [d]) db' := by
  obtain ⟨hc, hcx⟩ := Store.callByExternal_some hfind
  have hold : ∀ f ∈ db.rawFragments, f ∈ db'.rawFragments := by
    intro f hf
    rw [hfrags]
    split
    · exact hf
    · exact List.mem_append_left _ hf
  have hnew : ∀ f ∈ db'.rawFragments, f ∈ db.rawFragments ∨
      f = fragmentOf (some c.id) d.record slice d.now := by
    intro f hf
    rw [hfrags] at hf
    split at hf
    · exact .inl hf
    · exact (List.mem_append.1 hf).imp_right List.mem_singleton.1
  refine ⟨h.sub_snoc hd, ?_, fun f hf => ?_, fun y hy => ?_, ?_, hup.mediaReady h.media⟩
  · intro f hf c' hc' hfc y hy
    rcases hnew f hf with hf | rfl
    · exact h.unmixed.upserted hnames hx hup hf hy hc' hfc
    · have hcc : c = c' := Store.eq_of_id_eq hc hc' (Option.some.inj hfc)
      rw [identify_callId_explicit (show slice.callId = some y from hy)] at hx
      rw [← hcc, hcx, Option.some.inj hx]
  · apply h.known_snoc hdistinct hv (some c.id)
    exact List.mem_append.2 ((hnew f hf).imp_right List.mem_singleton.2)
  · have hlast := h.stored_last hd hv hfrags
    have hsame : d.record.carries y = true → x = y := fun hcar =>
      Option.some.inj (hx.symm.trans (identify_carried hv hcar))
    by_cases hpast : ∃ e ∈ past, e.record.carries y = true
    · obtain ⟨c', hc', hholds⟩ := h.held_snoc hpast hold
        fun e he f hf hfe hfy => by
          obtain ⟨e', he', hid, -⟩ := hup.keeps he
          exact ⟨e', he', hid, h.unmixed.upserted hnames hx hup hf hfy he' (hid ▸ hfe)⟩
      refine ⟨c', hc', hholds.snoc fun hcar => ?_⟩
      rw [← hsame hcar, hfind] at hc'
      rw [← Option.some.inj hc']
      exact hlast
    · have hcar := (carried_snoc hy).resolve_left hpast
      refine ⟨c, hsame hcar ▸ hfind, fun e he hce => ?_⟩
      rcases List.mem_append.1 he with he | he
      · exact absurd ⟨e, he, hce⟩ hpast
      · rw [List.mem_singleton.1 he]
        exact hlast
  · simpa only [Store.hasTombstone, htombs] using h.alive

lemma Sorted.assembled (h : Sorted ds past db) (hd : d ∈ ds)
    (hdistinct : ∀ e ∈ ds, e.record.batchId = d.record.batchId → e.record.seq = d.record.seq →
      e.record = d.record)
    (hv : d.record.value = some slice) (hnames : KeepsNames db slice)
    (has : Assembled db d.record slice d.now db') : Sorted ds (past ++ [d]) db' := by
  cases has with
  | dropped x hx htomb heq =>
    subst heq
    refine h.skipped hd (fun y => ?_) rfl rfl (fun _ => id) (fun _ => .inl) h.known
    -- an id that the record carries has no tombstone
    by_contra hcar
    rw [Bool.not_eq_false] at hcar
    obtain rfl := Option.some.inj (hx.symm.trans (identify_carried hv hcar))
    rw [h.alive d hd x hcar] at htomb
    cases htomb
  | unattributed hnone hcalls htombs _ hfrags =>
    refine h.skipped hd (fun y => ?_) hcalls htombs (fun f hf => ?_) (fun f hf => ?_) ?_
    · by_contra hcar
      rw [Bool.not_eq_false] at hcar
      rw [identify_carried hv hcar] at hnone
      cases hnone
    · exact hfrags ▸ List.mem_append_left _ hf
    · rw [hfrags] at hf
      exact (List.mem_append.1 hf).imp_right fun hf => by rw [List.mem_singleton.1 hf]; rfl
    · exact hfrags ▸ h.known_snoc hdistinct hv none
  | stored x c hx _ hup hfind htombs _ hfrags =>
    exact h.stored hd hdistinct hv hnames hx hup hfind htombs hfrags

/-- One delivery. No call is ready for analysis, so every record that decodes is stored. -/
lemma Sorted.deliver (h : Sorted ds past db) (hd : d ∈ ds)
    (hdistinct : ∀ e ∈ ds, e.record.batchId = d.record.batchId → e.record.seq = d.record.seq →
      e.record = d.record)
    (hnames : Respects db d) : Sorted ds (past ++ [d]) (Ingest.deliver process db d) := by
  cases hv : d.record.value with
  | none =>
    have hsame : Ingest.deliver process db d = db := by
      simp [Ingest.deliver, handleRecord, hv, throw, throwThe, MonadExceptOf.throw]
    rw [hsame]
    apply h.skipped hd _ rfl rfl (fun _ => id) (fun _ => .inl) h.known
    simp [Record.carries, hv]
  | some slice =>
    obtain ⟨db', hok, has⟩ := assembleRecord_spec db d.record slice d.now
    have hsorted := h.assembled hd hdistinct hv (hnames slice hv) has
    rw [deliver_of_not_ready hv hok fun x c _ hc => by
      simp [readyNow, hsorted.media c (Store.callByExternal_some hc).1]]
    exact hsorted

/-- The call of an id has no fragment of a delivery that carries another id. -/
lemma Sorted.holdsNone (h : Sorted ds past db) {x y : String} (hne : x ≠ y) {c : Call}
    (hc : db.callByExternal x = some c) : HoldsNone ds y db c := by
  rintro e he hcar f hf hfc ⟨hb, hs⟩
  obtain ⟨hmem, hcx⟩ := Store.callByExternal_some hc
  obtain ⟨slice, hv, hslice⟩ := Record.carries_iff.1 hcar
  have hpayload : slice = f.payload := Option.some.inj (hv.symm.trans (h.known f hf e he hb hs))
  have hcy : c.externalCallId = y := h.unmixed f hf c hmem hfc y (hpayload ▸ hslice)
  exact hne (hcx.symm.trans hcy)

lemma Sorted.keptApart (h : Sorted ds ds db) : KeptApart ds db := by
  intro x y hne hx hy
  obtain ⟨c, hc, hholds⟩ := h.held x hx
  obtain ⟨d, hd, hholds'⟩ := h.held y hy
  exact ⟨c, d, hc, hd, hholds, hholds', h.holdsNone hne hc, h.holdsNone (Ne.symm hne) hd⟩

end

/-- A record renames no call when a call has its id already, or none has its trace yet. -/
lemma Respects.of_known {db : Store} {d : Delivery} {x : String}
    (hx : ∀ slice, d.record.value = some slice → slice.callId = some x)
    (hknown : db.callByExternal x ≠ none ∨ ∀ slice, d.record.value = some slice →
      db.callByTrace slice.traceId = none) : Respects db d := by
  intro slice hv y e hy hnone ht htrace
  obtain rfl : x = y := Option.some.inj ((hx slice hv).symm.trans hy)
  rcases hknown with hknown | hnew
  · exact absurd hnone hknown
  · rw [hnew slice hv] at htrace
    cases htrace

/-- A call, another call, and a record of the other call in the trace of the first. -/
def sharedTrace : List Delivery :=
  [⟨namedRecord "b1" "c1" "t1", 1⟩, ⟨namedRecord "b2" "c2" "t2", 2⟩,
    ⟨namedRecord "b3" "c2" "t1", 3⟩]

/-- A call, and another call in its trace. -/
def takenTrace : List Delivery :=
  [⟨namedRecord "b1" "c1" "t1", 1⟩, ⟨namedRecord "b2" "c2" "t1", 2⟩]

end Pulse.Ingest
