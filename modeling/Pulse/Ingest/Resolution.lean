import Pulse.Ingest.Erase

/-!
# What a record resolves to

The row that an upsert writes is one that was there, under the batch's id from then on, or a new
one. These are the facts about it that outlive the delivery: which call a trace finds afterwards,
and under which names the calls go.
-/

namespace Pulse.Ingest

section

variable {db : Store} {b : Batch} {x : String} {now : Time} {calls : List Call}

/-- The call that `upsert_call` finds or promotes. -/
def joined (db : Store) (b : Batch) : Option Call :=
  b.callId.bind fun x =>
    (db.callByExternal x).or (if b.traceId = "" then none else db.callByTrace b.traceId)

/-- The row that an upsert writes is the joined one, if there is one. -/
lemma Upserted.joined (hx : b.callId = some x) (h : Upserted db b x now calls) :
    (∃ c ∈ db.calls, joined db b = some c ∧ calls = db.calls.map (Store.onRow c.id fun c =>
      fillIn db b now { c with externalCallId := x })) ∨
    (joined db b = none ∧
      calls = db.calls ++ [fillIn db b now { newCall b x now with id := db.nextPk }]) := by
  rcases h.writes with ⟨c, hc, hreach, hcalls⟩ | ⟨hnone, ht, hcalls⟩
  · refine .inl ⟨c, hc, ?_, hcalls⟩
    rcases hreach with hfound | ⟨hnone, ht, htrace⟩
    · simp [Ingest.joined, hx, hfound]
    · simp [Ingest.joined, hx, hnone, ht, htrace]
  · refine .inr ⟨?_, hcalls⟩
    rcases ht with ht | ht
    · simp [Ingest.joined, hx, hnone, ht]
    · simp [Ingest.joined, hx, hnone, ht]

/-- The key of the call that goes by the batch's id afterwards. -/
lemma Upserted.joined_id {db' : Store} (hx : b.callId = some x) (h : Upserted db b x now db'.calls)
    {d : Call} (hd : db'.callByExternal x = some d) :
    d.id = ((Ingest.joined db b).map Call.id).getD db.nextPk := by
  rcases h.joined hx with ⟨c, hc, hjoined, hcalls⟩ | ⟨hjoined, hcalls⟩
  · have hrow : Store.onRow c.id (fun c => fillIn db b now { c with externalCallId := x }) c ∈
        db'.calls := hcalls ▸ List.mem_map_of_mem hc
    have hrowx := Store.callByExternal_of_mem hrow
    have hx' : (Store.onRow c.id (fun c => fillIn db b now { c with externalCallId := x })
        c).externalCallId = x := by simp [Store.onRow]
    rw [hx', hd] at hrowx
    rw [hjoined, Option.some.inj hrowx]
    exact Store.onRow_id _ _ c
  · have hrow : fillIn db b now { newCall b x now with id := db.nextPk } ∈ db'.calls :=
      hcalls ▸ List.mem_append_right _ (List.mem_singleton_self _)
    have hrowx := Store.callByExternal_of_mem hrow
    have hx' : (fillIn db b now { newCall b x now with id := db.nextPk }).externalCallId = x := rfl
    rw [hx', hd] at hrowx
    rw [hjoined, Option.some.inj hrowx]
    rfl

lemma Upserted.filled (h : Upserted db b x now calls) {c : Call} (hc : c ∈ calls)
    (hx : c.externalCallId = x) : ∃ c₀, c = fillIn db b now c₀ := by
  rcases h.writes with ⟨e, he, hreach, hcalls⟩ | ⟨hnone, -, hcalls⟩
  · rw [hcalls] at hc
    obtain ⟨d, hd, rfl⟩ := List.mem_map.1 hc
    by_cases hid : d.id = e.id
    · exact ⟨{ d with externalCallId := x }, by simp only [Store.onRow, hid, if_true]; rfl⟩
    · rw [Store.onRow_of_ne hid] at hx
      rcases hreach with he' | ⟨hnone, -, -⟩
      · have hdx := Store.callByExternal_of_mem hd
        rw [hx, he'] at hdx
        exact absurd (congrArg Call.id (Option.some.inj hdx)) (Ne.symm hid)
      · exact absurd hx (Store.callByExternal_eq_none.1 hnone d hd)
  · rw [hcalls] at hc
    rcases List.mem_append.1 hc with hc | hc
    · exact absurd hx (Store.callByExternal_eq_none.1 hnone c hc)
    · exact ⟨_, List.mem_singleton.1 hc⟩

/-- Every row is still there, and has its trace if it had one. -/
lemma Upserted.keeps (h : Upserted db b x now calls) {c : Call} (hc : c ∈ db.calls) :
    ∃ c' ∈ calls, c'.id = c.id ∧ ∀ t, c.traceId = some t → c'.traceId = some t := by
  rcases h.writes with ⟨e, he, -, hcalls⟩ | ⟨-, -, hcalls⟩
  · refine ⟨_, hcalls ▸ List.mem_map_of_mem hc, Store.onRow_id _ _ c, fun t ht => ?_⟩
    by_cases hid : c.id = e.id <;> simp [Store.onRow, hid, ht]
  · exact ⟨c, hcalls ▸ List.mem_append_left _ hc, rfl, fun t ht => ht⟩

/-- The call that a trace finds after an upsert is the one it found before, or goes by the
batch's id. -/
lemma Upserted.callByTrace {db' : Store} (h : Upserted db b x now db'.calls) {t : String}
    {c' : Call} (hc' : db'.callByTrace t = some c') :
    c'.externalCallId = x ∨ db.callByTrace t = some c' := by
  rcases h.writes with ⟨e, he, -, hcalls⟩ | ⟨-, -, hcalls⟩
  · obtain ⟨ht, as, bs, hsplit, hbefore⟩ := List.find?_eq_some_iff_append.1 hc'
    rw [hcalls] at hsplit
    obtain ⟨as₀, rest, hdb, has, hrest⟩ := List.map_eq_append_iff.1 hsplit
    obtain ⟨c, bs₀, hrest', hc, -⟩ := List.map_eq_cons_iff.1 hrest
    by_cases hid : c.id = e.id
    · rw [← hc, Store.onRow, if_pos hid]
      exact .inl rfl
    · rw [Store.onRow_of_ne hid] at hc
      refine .inr (List.find?_eq_some_iff_append.2 ⟨ht, as₀, bs₀, ?_, fun a ha => ?_⟩)
      · rw [hdb, hrest', hc]
      · -- a row that had the trace before still has it
        have hnot := hbefore _ (has ▸ List.mem_map_of_mem ha)
        by_cases hid' : a.id = e.id
        · by_contra hat
          have hat' : a.traceId = some t := by simpa using hat
          simp [Store.onRow, hid', hat'] at hnot
        · rwa [Store.onRow_of_ne hid'] at hnot
  · rw [Store.callByTrace, hcalls, List.find?_append] at hc'
    cases hfind : db.calls.find? (·.traceId = some t) with
    | some d =>
      rw [hfind] at hc'
      exact .inr (by rw [Store.callByTrace, hfind]; exact hc')
    | none =>
      rw [hfind, Option.none_or] at hc'
      rw [List.mem_singleton.1 (List.mem_of_find?_eq_some hc')]
      exact .inl rfl

/-- A row after an upsert is as it was, or is the one that goes by the batch's id now. -/
lemma Upserted.row (h : Upserted db b x now calls) {c' : Call} (hc' : c' ∈ calls) :
    c' ∈ db.calls ∨ c'.externalCallId = x ∧
      ((∃ e ∈ db.calls, e.id = c'.id ∧ c'.traceId = e.traceId.or (nonEmpty b.traceId) ∧
        (db.callByExternal x = some e ∨ db.callByExternal x = none ∧ b.traceId ≠ "" ∧
          db.callByTrace b.traceId = some e)) ∨
      c'.id = db.nextPk ∧ c'.traceId = nonEmpty b.traceId ∧ db.callByExternal x = none ∧
        (b.traceId = "" ∨ db.callByTrace b.traceId = none)) := by
  rcases h.writes with ⟨e, he, hreach, hcalls⟩ | ⟨hnone, ht, hcalls⟩
  · rw [hcalls] at hc'
    obtain ⟨c, hc, rfl⟩ := List.mem_map.1 hc'
    by_cases hid : c.id = e.id
    · rw [Store.eq_of_id_eq hc he hid, Store.onRow, if_pos rfl]
      exact .inr ⟨rfl, .inl ⟨e, he, rfl, rfl, hreach⟩⟩
    · rw [Store.onRow_of_ne hid]
      exact .inl hc
  · rw [hcalls] at hc'
    rcases List.mem_append.1 hc' with hc' | hc'
    · exact .inl hc'
    · rw [List.mem_singleton.1 hc']
      refine .inr ⟨rfl, .inr ⟨rfl, ?_, hnone, ht⟩⟩
      cases ht' : nonEmpty b.traceId <;> simp [newCall, ht']

lemma storeFragment_media {db' : Store} {batchId : String} {seq : Int}
    (h : storeFragment db b batchId seq now = .ok db') : db'.media = db.media := by
  simp only [storeFragment, Store.insertFragment] at h
  split at h
  · cases h
    rfl
  · split at h
    · cases h
      rfl
    · cases h

lemma assembleRecord_media {db' : Store} {r : Record} {slice : Slice}
    (h : assembleRecord db r slice now = .ok db') : db'.media = db.media := by
  unfold assembleRecord at h
  dsimp only at h
  split at h
  · cases h
    rfl
  · split at h
    · rename_i hid
      obtain ⟨x, hx⟩ := Option.isSome_iff_exists.1 hid
      obtain ⟨db₁, hup, h⟩ := Lib.bind_eq_ok.1 h
      obtain ⟨db₂, hok, hframe, -⟩ := upsertCall_spec db _ now hx
      rw [hup] at hok
      cases hok
      rw [storeFragment_media h, hframe.media]
    · exact storeFragment_media h

end

/-! ### Names -/

/-- A record with an explicit id that no call has yet does not rename a call under which a fragment
with another explicit id is stored. -/
def KeepsNames (db : Store) (slice : Slice) : Prop :=
  ∀ x e, slice.callId = some x → db.callByExternal x = none → slice.traceId ≠ "" →
    db.callByTrace slice.traceId = some e → ∀ f ∈ db.rawFragments, f.callId = some e.id →
      ∀ y, f.payload.callId = some y → y = x

/-- Each fragment with an explicit id is stored under the call of that id. -/
def Unmixed (db : Store) : Prop :=
  ∀ f ∈ db.rawFragments, ∀ c ∈ db.calls, f.callId = some c.id →
    ∀ y, f.payload.callId = some y → c.externalCallId = y

/-- The call that holds a fragment with an explicit id keeps its name when a record that renames no
such call is upserted. -/
lemma Unmixed.upserted {db : Store} {slice : Slice} {agentId : Option String} {x y : String}
    {now : Time} {calls : List Call} (h : Unmixed db) (hnames : KeepsNames db slice)
    (hid : (identify db slice agentId).callId = some x)
    (hup : Upserted db (identify db slice agentId) x now calls) {f : RawFragment}
    (hf : f ∈ db.rawFragments) (hy : f.payload.callId = some y) {c' : Call} (hc' : c' ∈ calls)
    (hfc : f.callId = some c'.id) : c'.externalCallId = y := by
  rcases hup.row hc' with hold | ⟨hx, ⟨e, he, hpk, -, hreach⟩ | ⟨hpk, -⟩⟩
  · exact h f hf c' hold hfc y hy
  · have hey := h f hf e he (hpk ▸ hfc) y hy
    rcases hreach with hfound | ⟨hnone, ht, htrace⟩
    · rw [hx, ← (Store.callByExternal_some hfound).2]
      exact hey
    · cases hexplicit : slice.callId with
      | some z =>
        rw [identify_callId_explicit hexplicit] at hid
        obtain rfl := Option.some.inj hid
        rw [hx]
        exact (hnames z e hexplicit hnone ht htrace f hf (hpk ▸ hfc) y hy).symm
      | none =>
        -- an implicit record renames no call that has a name
        have hbt : (identify db slice agentId).traceId = slice.traceId := rfl
        rw [hbt] at ht htrace
        rw [identify_callId_trace hexplicit rfl ht, htrace] at hid
        have hyne : y ≠ "" := hint_ne_empty hy
        have hxe : x = e.externalCallId := by
          have hname : e.externalCallId ≠ "" := hey ▸ hyne
          simpa [nonEmpty_of_ne hname] using hid.symm
        exact absurd hxe.symm (Store.callByExternal_eq_none.1 hnone e he)
  · obtain ⟨e, he, hpk'⟩ := List.mem_map.1 (db.fragment_call f hf c'.id hfc)
    exact absurd (db.call_lt e he) (by simp [hpk', hpk])

end Pulse.Ingest
