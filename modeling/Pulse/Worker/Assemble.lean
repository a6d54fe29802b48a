import Pulse.Ingest.ConsumeOne
import Pulse.Lib.Lists
import Pulse.Worker.Analysis

/-!
# Retried spans

`produce` numbers the records of one request, the consumer stores a fragment for each record, and
`process` reads the fragments of a call back in the order of these numbers; `assemble` keeps the
last version of a span that it comes across. The numbers start again with every request.
-/

namespace Pulse.Worker

open Ingest

variable {F T M E : Type}

/-! ### Producing -/

/-- An OTLP request at `produce`, with the id that the batch is given. The spans of a resource's
scopes are in one list. -/
structure Request where
  batchId : String
  agentId : Option String := none
  payload : List Slice

/-- The partition key of a span: its call id, else its trace id. -/
def shardKey (span : Span) : String :=
  ((attrOf span callIdHints).bind nonEmpty).getD span.traceId

/-- `shard`: the spans by their keys, each group under the resource of its first span. -/
def shard (payload : List Slice) : List (String × Slice) :=
  let spans := payload.flatMap fun rs => rs.spans.map fun span => (rs.resource, span)
  spans.foldl (fun out (resource, span) => Lib.upsert out (shardKey span) fun
    | none => ⟨resource, [span]⟩
    | some slice => { slice with spans := slice.spans ++ [span] }) []

/-- `produce`: one record for each group, numbered within the request. -/
def produce (r : Request) : List Record :=
  (shard r.payload).zipIdx.map fun ((_, slice), seq) =>
    { agentId := r.agentId, batchId := r.batchId, seq := seq, value := some slice }

/-- Deliveries of the records of some requests, in any order and any number of times. -/
structure Deliveries (requests : List Request) where
  list : List Delivery
  sent : ∀ d ∈ list, ∃ r ∈ requests, d.record ∈ produce r

/-! ### Storing -/

def deliverAll (process : Process) (db : Store) (ds : List Delivery) : Store :=
  ds.foldl (deliver process) db

/-- The fragments that the deliveries store, in the order they are received. -/
def arrivals (process : Process) : Store → List Delivery → List RawFragment
  | _, [] => []
  | db, d :: ds => (deliver process db d).rawFragments.drop db.rawFragments.length ++
      arrivals process (deliver process db d) ds

def fragmentsOf (fragments : List RawFragment) (pk : Pk) : List RawFragment :=
  fragments.filter (·.callId = some pk)

/-! ### Assembling -/

/-- The results that `order_by(RawFragment.seq)` may have: fragments of one number come in any
order. -/
def ReadInOrder (fragments rows : List RawFragment) : Prop :=
  rows.Perm fragments ∧ rows.Pairwise fun f g => f.seq ≤ g.seq

/-- The spans of `assemble`. -/
def assembledSpans (payloads : List Slice) : List Span :=
  (Lib.lastWins Span.spanId (payloads.flatMap Slice.spans)).map Prod.snd

/-- The last occurrence of a span id. -/
def lastVersion (spans : List Span) (spanId : String) : Option Span :=
  spans.reverse.find? (·.spanId = spanId)

def hasSpan (f : RawFragment) (spanId : String) : Prop :=
  spanId ∈ f.payload.spans.map Span.spanId

/-- Every span id of the fragments occurs once, as in the most recently received fragment that has
it. -/
structure LastReceived (received : List RawFragment) (spans : List Span) : Prop where
  nodup : (spans.map Span.spanId).Nodup
  mem_iff : ∀ x, x ∈ spans.map Span.spanId ↔ ∃ f ∈ received, hasSpan f x
  version : ∀ span ∈ spans, lastVersion (received.flatMap (·.payload.spans)) span.spanId = some span

/-- A fragment that has a span id under its highest number has the version received last. -/
def NumberedAsReceived (received : List RawFragment) : Prop :=
  ∀ x, ∀ f ∈ received, hasSpan f x → (∀ g ∈ received, hasSpan g x → g.seq ≤ f.seq) →
    lastVersion f.payload.spans x = lastVersion (received.flatMap (·.payload.spans)) x

/-! ### What the deliveries store -/

lemma process_keepsFragments (e : Engine F T M E) (audio : Pk → AudioColumns F) :
    KeepsFragments (e.process audio) := by
  intro db pk now db' h
  unfold Engine.process at h
  cases hanalysis : e.analysis (evidence db audio pk) with
  | ok rows =>
    rw [hanalysis] at h
    cases hstamp : db.updateCall pk fun c => { c with metricVersion := some metricVersion } with
    | ok db₁ =>
      simp only [hstamp] at h
      cases h
      exact (Store.updateCall_calls hstamp).2.rawFragments
    | error error =>
      simp only [hstamp] at h
      cases h
  | error refusal =>
    rw [hanalysis] at h
    cases refusal with
    | unsupportedSchema =>
      cases h
      rfl
    | raises =>
      cases h
      rfl

lemma deliver_appends {process : Process} (hprocess : KeepsFragments process) (db : Store)
    (d : Delivery) : db.rawFragments <+: (deliver process db d).rawFragments := by
  rcases deliver_cases process db d with h | ⟨judge, h⟩
  · exact h.symm ▸ List.prefix_rfl
  · obtain ⟨slice, db₁, -, -, has, hrest⟩ := handleRecord_ok h
    rw [handled_fragments hprocess hrest]
    cases has with
    | dropped x hx htomb hdb =>
      exact hdb.symm ▸ List.prefix_rfl
    | unattributed hx hcalls htomb hscripts hfragments =>
      rw [hfragments]
      exact List.prefix_append _ _
    | stored x c hx htomb hup hfind htombs hscripts hfragments =>
      rw [hfragments]
      split
      · exact List.prefix_rfl
      · exact List.prefix_append _ _

/-- The table of fragments is in the order of their arrival. -/
theorem deliverAll_rawFragments {process : Process} (hprocess : KeepsFragments process) (db : Store)
    (ds : List Delivery) : (deliverAll process db ds).rawFragments =
      db.rawFragments ++ arrivals process db ds := by
  induction ds generalizing db with
  | nil => simp [deliverAll, arrivals]
  | cons d ds ih =>
    have hd := List.prefix_iff_eq_append.1 (deliver_appends hprocess db d)
    rw [deliverAll, List.foldl_cons, ← deliverAll, ih, arrivals, ← List.append_assoc, hd]

/-! ### What is read back -/

lemma lastVersion_some {spans : List Span} {x : String} {span : Span}
    (h : lastVersion spans x = some span) : span ∈ spans ∧ span.spanId = x :=
  ⟨List.mem_reverse.1 (List.mem_of_find?_eq_some h), by simpa using List.find?_some h⟩

lemma lastVersion_eq_none {spans : List Span} {x : String} :
    lastVersion spans x = none ↔ x ∉ spans.map Span.spanId := by
  simp [lastVersion]

lemma lastVersion_append (spans spans' : List Span) (x : String) :
    lastVersion (spans ++ spans') x = (lastVersion spans' x).or (lastVersion spans x) := by
  simp [lastVersion]

lemma mem_assembledSpans {payloads : List Slice} {span : Span} :
    span ∈ assembledSpans payloads ↔
      lastVersion (payloads.flatMap Slice.spans) span.spanId = some span := by
  unfold assembledSpans
  constructor
  · intro h
    obtain ⟨⟨x, span⟩, he, rfl⟩ := List.mem_map.1 h
    have hx : lastVersion (payloads.flatMap Slice.spans) x = some span := Lib.mem_lastWins.1 he
    obtain rfl := (lastVersion_some hx).2
    exact hx
  · intro h
    exact List.mem_map.2 ⟨(span.spanId, span), Lib.mem_lastWins.2 h, rfl⟩

lemma assembledSpans_ids (payloads : List Slice) :
    (assembledSpans payloads).map Span.spanId =
      (Lib.lastWins Span.spanId (payloads.flatMap Slice.spans)).map Prod.fst := by
  unfold assembledSpans
  rw [List.map_map]
  apply List.map_congr_left
  intro e he
  exact (lastVersion_some (Lib.mem_lastWins.1 he)).2

lemma mem_assembledSpans_ids {payloads : List Slice} {x : String} :
    x ∈ (assembledSpans payloads).map Span.spanId ↔
      x ∈ (payloads.flatMap Slice.spans).map Span.spanId := by
  constructor
  · intro h
    obtain ⟨span, hspan, rfl⟩ := List.mem_map.1 h
    exact List.mem_map_of_mem (lastVersion_some (mem_assembledSpans.1 hspan)).1
  · intro h
    cases hlast : lastVersion (payloads.flatMap Slice.spans) x with
    | none => exact absurd h (lastVersion_eq_none.1 hlast)
    | some span =>
      obtain ⟨-, rfl⟩ := lastVersion_some hlast
      exact List.mem_map_of_mem (mem_assembledSpans.2 hlast)

/-- Of rows in the order of their numbers, one of the highest number has the last version. -/
lemma exists_last_row {rows : List RawFragment} (hrows : rows.Pairwise fun f g => f.seq ≤ g.seq)
    {x : String} (hx : ∃ f ∈ rows, hasSpan f x) :
    ∃ f ∈ rows, hasSpan f x ∧ (∀ g ∈ rows, hasSpan g x → g.seq ≤ f.seq) ∧
      lastVersion (rows.flatMap (·.payload.spans)) x = lastVersion f.payload.spans x := by
  induction rows with
  | nil => simp at hx
  | cons f rows ih =>
    rw [List.pairwise_cons] at hrows
    rw [List.flatMap_cons, lastVersion_append]
    by_cases hlater : ∃ g ∈ rows, hasSpan g x
    · obtain ⟨g, hg, hgx, hmax, hlast⟩ := ih hrows.2 hlater
      refine ⟨g, List.mem_cons_of_mem f hg, hgx, ?_, ?_⟩
      · intro g' hg' hgx'
        rcases List.mem_cons.1 hg' with rfl | hg'
        · exact hrows.1 g hg
        · exact hmax g' hg' hgx'
      · cases hfound : lastVersion g.payload.spans x with
        | none => exact absurd hgx (lastVersion_eq_none.1 hfound)
        | some span => rw [hlast, hfound, Option.some_or]
    · have hnone : lastVersion (rows.flatMap (·.payload.spans)) x = none := by
        rw [lastVersion_eq_none]
        intro hm
        obtain ⟨span, hspan, rfl⟩ := List.mem_map.1 hm
        obtain ⟨g, hg, hspan⟩ := List.mem_flatMap.1 hspan
        exact hlater ⟨g, hg, List.mem_map_of_mem hspan⟩
      have hfx : hasSpan f x := by
        obtain ⟨g, hg, hgx⟩ := hx
        rcases List.mem_cons.1 hg with rfl | hg
        · exact hgx
        · exact absurd ⟨g, hg, hgx⟩ hlater
      refine ⟨f, List.mem_cons_self, hfx, ?_, ?_⟩
      · intro g hg hgx
        rcases List.mem_cons.1 hg with rfl | hg
        · exact le_refl _
        · exact absurd ⟨g, hg, hgx⟩ hlater
      · rw [hnone, Option.none_or]

/-- Any fragment of a number may be the last one of that number. -/
lemma exists_read_last {fragments : List RawFragment} {f : RawFragment} (hf : f ∈ fragments) :
    ∃ before after, ReadInOrder fragments (before ++ f :: after) ∧ ∀ g ∈ after, f.seq < g.seq := by
  have htotal : Std.Total fun g h : RawFragment => g.seq ≤ h.seq := ⟨fun g h => le_total _ _⟩
  have htrans : IsTrans RawFragment fun g h => g.seq ≤ h.seq := ⟨fun _ _ _ => le_trans⟩
  have hsorted (gs : List RawFragment) := List.pairwise_insertionSort
    (fun g h : RawFragment => g.seq ≤ h.seq) gs
  have hperm (gs : List RawFragment) := List.perm_insertionSort
    (fun g h : RawFragment => g.seq ≤ h.seq) gs
  set others := fragments.erase f
  set low := others.filter fun g => g.seq ≤ f.seq
  set high := others.filter fun g => !decide (g.seq ≤ f.seq)
  have hlow : ∀ g ∈ low.insertionSort fun g h => g.seq ≤ h.seq, g.seq ≤ f.seq := by
    intro g hg
    simpa using List.of_mem_filter ((hperm low).mem_iff.1 hg)
  have hhigh : ∀ g ∈ high.insertionSort fun g h => g.seq ≤ h.seq, f.seq < g.seq := by
    intro g hg
    simpa using List.of_mem_filter ((hperm high).mem_iff.1 hg)
  refine ⟨low.insertionSort fun g h => g.seq ≤ h.seq, high.insertionSort fun g h => g.seq ≤ h.seq,
    ⟨?_, ?_⟩, hhigh⟩
  · calc (low.insertionSort fun g h => g.seq ≤ h.seq) ++
          f :: high.insertionSort fun g h => g.seq ≤ h.seq
      _ |>.Perm (low ++ f :: high) := (hperm low).append ((hperm high).cons f)
      _ |>.Perm (f :: (low ++ high)) := List.perm_middle
      _ |>.Perm (f :: others) := (List.filter_append_perm _ others).cons f
      _ |>.Perm fragments := (List.perm_cons_erase hf).symm
  · rw [List.pairwise_append]
    refine ⟨hsorted low, List.pairwise_cons.2 ⟨fun g hg => (hhigh g hg).le, hsorted high⟩, ?_⟩
    intro g hg h hh
    rcases List.mem_cons.1 hh with rfl | hh
    · exact hlow g hg
    · exact (hlow g hg).trans (hhigh h hh).le

/-! ### The version that is kept -/

lemma assembledSpans_map (rows : List RawFragment) :
    (rows.map RawFragment.payload).flatMap Slice.spans = rows.flatMap (·.payload.spans) :=
  List.flatMap_map ..

lemma hasSpan_iff {rows : List RawFragment} {x : String} :
    x ∈ (rows.flatMap (·.payload.spans)).map Span.spanId ↔ ∃ f ∈ rows, hasSpan f x := by
  rw [List.map_flatMap]
  exact List.mem_flatMap

/-- What the rows read back resolve to. -/
theorem lastReceived_iff (received : List RawFragment) :
    (∀ rows, ReadInOrder received rows →
      LastReceived received (assembledSpans (rows.map RawFragment.payload))) ↔
      NumberedAsReceived received := by
  constructor
  · intro h x f hf hfx hmax
    obtain ⟨before, after, hread, hafter⟩ := exists_read_last hf
    have hlast : lastVersion ((before ++ f :: after).flatMap (·.payload.spans)) x =
        lastVersion f.payload.spans x := by
      have hnone : lastVersion (after.flatMap (·.payload.spans)) x = none := by
        rw [lastVersion_eq_none, hasSpan_iff]
        rintro ⟨g, hg, hgx⟩
        have hmem : g ∈ received := hread.1.mem_iff.1 (by simp [hg])
        have := hmax g hmem hgx
        have := hafter g hg
        omega
      cases hfound : lastVersion f.payload.spans x with
      | none => exact absurd hfx (lastVersion_eq_none.1 hfound)
      | some span =>
        rw [List.flatMap_append, List.flatMap_cons, lastVersion_append, lastVersion_append, hnone,
          Option.none_or, hfound, Option.some_or]
    cases hfound : lastVersion f.payload.spans x with
    | none => exact absurd hfx (lastVersion_eq_none.1 hfound)
    | some span =>
      rw [hfound] at hlast
      obtain ⟨-, rfl⟩ := lastVersion_some hfound
      have hin : span ∈ assembledSpans ((before ++ f :: after).map RawFragment.payload) := by
        rw [mem_assembledSpans, assembledSpans_map]
        exact hlast
      exact ((h _ hread).version span hin).symm
  · intro h rows hread
    have hmem : ∀ x, (∃ f ∈ rows, hasSpan f x) ↔ ∃ f ∈ received, hasSpan f x := by
      intro x
      simp only [hread.1.mem_iff]
    constructor
    · rw [assembledSpans_ids]
      exact Lib.lastWins_keys_nodup _ _
    · intro x
      rw [mem_assembledSpans_ids, assembledSpans_map, hasSpan_iff, hmem]
    · intro span hspan
      have hx : ∃ f ∈ rows, hasSpan f span.spanId := by
        rw [← hasSpan_iff, ← assembledSpans_map, ← mem_assembledSpans_ids]
        exact List.mem_map_of_mem hspan
      obtain ⟨f, hf, hfx, hmax, hlast⟩ := exists_last_row hread.2 hx
      rw [mem_assembledSpans, assembledSpans_map, hlast] at hspan
      rw [← hspan]
      refine (h span.spanId f (hread.1.mem_iff.1 hf) hfx fun g hg hgx => ?_).symm
      exact hmax g (hread.1.mem_iff.2 hg) hgx

/-- The analysis reads the fragments in one of these orders. -/
lemma evidence_readInOrder (db : Store) (audio : Pk → AudioColumns F) (pk : Pk) :
    ∃ rows, ReadInOrder (fragmentsOf db.rawFragments pk) rows ∧
      (evidence db audio pk).payloads = rows.map RawFragment.payload := by
  refine ⟨_, ⟨Lib.sorted_perm _ _, ?_⟩, rfl⟩
  have htotal : Std.Total fun f g : RawFragment => decide (g.seq < f.seq) = false :=
    ⟨fun f g => by simpa using le_total f.seq g.seq⟩
  have htrans : IsTrans RawFragment fun f g => decide (g.seq < f.seq) = false :=
    ⟨fun f g h => by simpa using fun hfg hgh => le_trans hfg hgh⟩
  refine (List.pairwise_insertionSort (fun f g : RawFragment => decide (g.seq < f.seq) = false)
    (fragmentsOf db.rawFragments pk)).imp ?_
  intro f g hfg
  simpa using hfg

/-- After any deliveries of the records of any requests, the spans of a call resolve to the last
received versions exactly when the numbers agree with the order of arrival. -/
theorem retried_spans_iff (e : Engine F T M E) (audio : Pk → AudioColumns F) (db : Store)
    {requests : List Request} (ds : Deliveries requests) (pk : Pk) :
    let received := fragmentsOf (db.rawFragments ++ arrivals (e.process audio) db ds.list) pk
    let stored := fragmentsOf (deliverAll (e.process audio) db ds.list).rawFragments pk
    (∀ rows, ReadInOrder stored rows →
      LastReceived received (assembledSpans (rows.map RawFragment.payload))) ↔
      NumberedAsReceived received := by
  intro received stored
  have hstored : stored = received := by
    simp only [stored, received, deliverAll_rawFragments (process_keepsFragments e audio)]
  rw [hstored]
  exact lastReceived_iff received

/-! ### A retry numbered below its first version -/

/-- A request with a span of another call before one of the call `x`. -/
def firstRequest : Request where
  batchId := "b1"
  payload := [⟨[], [⟨"y", "s1", "r1", [], ""⟩, ⟨"x", "s2", "r2", [], "open"⟩]⟩]

/-- The span of `x` again, closed. -/
def retryRequest : Request where
  batchId := "b2"
  payload := [⟨[], [⟨"x", "s2", "r2", [], "closed"⟩]⟩]

def retryDeliveries : Deliveries [firstRequest, retryRequest] where
  list := [⟨⟨none, "b1", 0, some ⟨[], [⟨"y", "s1", "r1", [], ""⟩]⟩⟩, 1⟩,
    ⟨⟨none, "b1", 1, some ⟨[], [⟨"x", "s2", "r2", [], "open"⟩]⟩⟩, 2⟩,
    ⟨⟨none, "b2", 0, some ⟨[], [⟨"x", "s2", "r2", [], "closed"⟩]⟩⟩, 3⟩]
  sent := by decide

/-- The version received last has the lower number, so the one before it is kept. -/
theorem retried_span_keeps_earlier_version :
    ¬∀ (requests : List Request) (ds : Deliveries requests) (pk : Pk) (rows : List RawFragment),
      ReadInOrder (fragmentsOf (deliverAll (spanEngine.process fun _ => ⟨[], none, fun _ => none⟩)
        Store.empty ds.list).rawFragments pk) rows →
      LastReceived (fragmentsOf (Store.empty.rawFragments ++
          arrivals (spanEngine.process fun _ => ⟨[], none, fun _ => none⟩) Store.empty ds.list) pk)
        (assembledSpans (rows.map RawFragment.payload)) := by
  intro h
  have hread := h _ retryDeliveries 1
    [⟨some 1, "b2", 0, 3, ⟨[], [⟨"x", "s2", "r2", [], "closed"⟩]⟩⟩,
      ⟨some 1, "b1", 1, 2, ⟨[], [⟨"x", "s2", "r2", [], "open"⟩]⟩⟩] ⟨by decide, by decide⟩
  have hversion := hread.version ⟨"x", "s2", "r2", [], "open"⟩ (by decide)
  exact absurd hversion (by decide)

end Pulse.Worker
