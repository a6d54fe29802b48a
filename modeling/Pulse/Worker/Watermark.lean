import Pulse.Worker.Poller

/-!
# The watermark

The watermark is one number for all calls of an agent. It loses a call when a sweep moves it to or
past the newest object of a call that the sweep did not process, and when an object turns up with
exactly the watermark's time. Otherwise every call either has been ingested from all of its objects
or is discovered by the next sweep that sees its newest object settled.
-/

namespace Pulse.Worker

/-- The calls that a sweep processes and commits. -/
def processed (outcome : String → Outcome) : List Found → List Found
  | [] => []
  | f :: rest =>
    match outcome f.1 with
    | .success => f :: processed outcome rest
    | .failure => processed outcome rest
    | .crash => []

/-- The version is the newest of its call. -/
def Newest (src : Source) (versions : List Listed) (callId : String) (v : Listed) : Prop :=
  v ∈ versions ∧ Of src callId v ∧ ∀ w ∈ versions, Of src callId w → w.2 ≤ v.2

/-- The call was processed from all its objects, each in its latest version or a later one. -/
def IngestedAll (src : Source) (s : State) (callId : String) : Prop :=
  ∃ e ∈ s.ingested, e.callId = callId ∧ ∀ v ∈ s.versions, Of src callId v →
    v.1 ∈ e.items.map Prod.snd ∧ ∃ w ∈ e.listing, w.1 = v.1 ∧ v.2 ≤ w.2

/-- Every call whose newest object is settled was processed from all its objects, or the next sweep
discovers it. -/
def NoCallLost (src : Source) (grace : Int) (s : State) : Prop :=
  ∀ now listing, (∀ T ∈ s.lastSweep, T ≤ now) → Lists s.versions grace now listing →
    ∀ c v, Newest src s.versions c v → v.2 + grace < now → IngestedAll src s c ∨
      ∃ items, (c, items, v.2) ∈ discoverManifestWindowed src listing s.watermark (now - grace)

/-- No object comes in as the newest of its call with exactly the watermark's time. In a sweep, the
discovered calls that are not processed are newer than all those that are; and when a processed
call is as new as the cutoff, no call's newest object of that time is missing from the listing. -/
def Clean (src : Source) (grace : Int) (s : State) : Event → Prop
  | .put o => ∀ c, Newest src (s.versions ++ [o]) c o → s.watermark ≠ some o.2
  | .sweep start listing outcome =>
    let found := discoverManifestWindowed src listing s.watermark (start - grace)
    let done := processed outcome (sweepOrder found)
    (∀ p ∈ done, ∀ q ∈ found, q.1 ∉ done.map Prod.fst → p.2.2 < q.2.2) ∧
      ((∃ p ∈ done, p.2.2 = start - grace) → ∀ c v, Newest src s.versions c v →
        v.2 = start - grace → ∃ w ∈ listing, w.1 = v.1 ∧ v.2 ≤ w.2)

/-- A store with objects that no sweep has seen. -/
def unswept (versions : List Listed) : State where
  versions := versions
  lastSweep := none
  watermark := none
  ingested := []

/-! ### The invariant -/

lemma mem_of_processed {outcome : String → Outcome} {order : List Found} {p : Found}
    (h : p ∈ processed outcome order) : p ∈ order := by
  induction order with
  | nil => exact h
  | cons f rest ih =>
    unfold processed at h
    split at h
    · rcases List.mem_cons.1 h with rfl | h
      · exact List.mem_cons_self
      · exact List.mem_cons_of_mem f (ih h)
    · exact List.mem_cons_of_mem f (ih h)
    · cases h

/-- What the loop leaves: the processed calls, and a watermark that was there or is the time of one
of them. -/
lemma pollCalls_spec (listing : List Listed) (outcome : String → Outcome) (order : List Found)
    (s : State) :
    (pollCalls listing outcome order s).versions = s.versions ∧
    (pollCalls listing outcome order s).lastSweep = s.lastSweep ∧
    (pollCalls listing outcome order s).ingested = s.ingested ++
      (processed outcome order).map (fun f => ⟨f.1, f.2.1, listing⟩) ∧
    ∀ wm ∈ (pollCalls listing outcome order s).watermark,
      wm ∈ s.watermark ∨ ∃ p ∈ processed outcome order, p.2.2 = wm := by
  induction order generalizing s with
  | nil => simp [pollCalls, processed]
  | cons f rest ih =>
    obtain ⟨c, items, mx⟩ := f
    cases hout : outcome c with
    | failure => simpa [pollCalls, processed, hout] using ih s
    | crash => simp [pollCalls, processed, hout]
    | success =>
      simp only [pollCalls, processed, hout]
      obtain ⟨hversions, hsweep, hingested, hwm⟩ := ih { s with
        watermark := some (s.watermark.elim mx (max · mx))
        ingested := s.ingested ++ [⟨c, items, listing⟩] }
      refine ⟨hversions, hsweep, ?_, fun wm h => ?_⟩
      · simp [hingested]
      · rcases hwm wm h with hnow | ⟨p, hp, hpm⟩
        · have hmax : s.watermark.elim mx (max · mx) = wm := Option.some.inj hnow
          cases hold : s.watermark with
          | none =>
            rw [hold] at hmax
            exact .inr ⟨_, List.mem_cons_self, hmax⟩
          | some old =>
            rw [hold] at hmax
            rcases le_total old mx with hle | hle
            · exact .inr ⟨_, List.mem_cons_self, (max_eq_right hle).symm.trans hmax⟩
            · exact .inl (by simp [← hmax, max_eq_left hle])
        · exact .inr ⟨p, List.mem_cons_of_mem _ hp, hpm⟩

/-- The watermark stays behind the cutoff of the latest sweep; a call that has not been processed
from all its objects has an object above the watermark. -/
structure Kept (src : Source) (grace : Int) (s : State) : Prop where
  behind : ∀ wm ∈ s.watermark, ∃ T ∈ s.lastSweep, wm + grace ≤ T
  above : ∀ c, ∀ v ∈ s.versions, Of src c v → IngestedAll src s c ∨
    ∃ w ∈ s.versions, Of src c w ∧ ∀ wm ∈ s.watermark, wm < w.2

section

variable {src : Source} {grace : Int} {s : State}

lemma kept_unswept (versions : List Listed) : Kept src grace (unswept versions) :=
  ⟨by simp [unswept], fun c v hv hc => .inr ⟨v, hv, hc, by simp [unswept]⟩⟩

lemma Kept.put (h : Kept src grace s) {o : Listed} (htime : ∀ T ∈ s.lastSweep, T ≤ o.2 + grace)
    (hclean : Clean src grace s (.put o)) :
    Kept src grace { s with versions := s.versions ++ [o] } := by
  refine ⟨h.behind, fun c v hv hc => ?_⟩
  have hbehind : ∀ wm ∈ s.watermark, wm ≤ o.2 := by
    intro wm hwm
    obtain ⟨T, hT, hle⟩ := h.behind wm hwm
    have := htime T hT
    omega
  by_cases hco : Of src c o
  · right
    by_cases hnewer : ∃ w ∈ s.versions, Of src c w ∧ o.2 < w.2
    · obtain ⟨w, hw, hcw, hlt⟩ := hnewer
      exact ⟨w, List.mem_append_left _ hw, hcw, fun wm hwm => lt_of_le_of_lt (hbehind wm hwm) hlt⟩
    · -- the version is the newest of its call
      have hnewest : Newest src (s.versions ++ [o]) c o := by
        refine ⟨by simp, hco, fun w hw hcw => ?_⟩
        rcases List.mem_append.1 hw with hw | hw
        · exact not_lt.1 fun hlt => hnewer ⟨w, hw, hcw, hlt⟩
        · rw [List.mem_singleton.1 hw]
      have hne := hclean c hnewest
      refine ⟨o, by simp, hco, fun wm hwm => lt_of_le_of_ne (hbehind wm hwm) fun heq => hne ?_⟩
      exact heq ▸ hwm
  · have hold : ∀ w ∈ s.versions ++ [o], Of src c w → w ∈ s.versions := by
      intro w hw hcw
      rcases List.mem_append.1 hw with hw | hw
      · exact hw
      · exact absurd (List.mem_singleton.1 hw ▸ hcw) hco
    rcases h.above c v (hold v hv hc) hc with ⟨e, he, hec, hall⟩ | ⟨w, hw, hrest⟩
    · exact .inl ⟨e, he, hec, fun v' hv' hcv' => hall v' (hold v' hv' hcv') hcv'⟩
    · exact .inr ⟨w, List.mem_append_left _ hw, hrest⟩

lemma Of.of_uri {c : String} {v w : Listed} (h : Of src c v) (huri : w.1 = v.1) : Of src c w := by
  obtain ⟨rule, hrule⟩ := h
  exact ⟨rule, huri ▸ hrule⟩

section

variable {start : Int} {listing : List Listed} {outcome : String → Outcome}

/-- A new watermark is the time of a call that the sweep discovered and processed. -/
lemma watermark_source {wm : Int} (hwm : wm ∈ (pollAgent src grace s start listing outcome).watermark) :
    wm ∈ s.watermark ∨ ∃ p ∈ processed outcome
      (sweepOrder (discoverManifestWindowed src listing s.watermark (start - grace))), p.2.2 = wm :=
  (pollCalls_spec listing outcome _ { s with lastSweep := some start }).2.2.2 wm hwm

lemma discovered_of_processed {found : List Found} {p : Found}
    (hp : p ∈ processed outcome (sweepOrder found)) : p ∈ found :=
  Lib.mem_sorted.1 (mem_of_processed hp)

/-- A sweep moves the watermark no further than its cutoff. -/
lemma Kept.cutoff (h : Kept src grace s) (htime : ∀ T ∈ s.lastSweep, T ≤ start) {wm : Int}
    (hwm : wm ∈ (pollAgent src grace s start listing outcome).watermark) : wm ≤ start - grace := by
  rcases watermark_source hwm with hold | ⟨p, hp, hpm⟩
  · obtain ⟨T, hT, hle⟩ := h.behind wm hold
    have := htime T hT
    omega
  · exact hpm ▸ (mem_discover (discovered_of_processed hp)).1

/-- When a sweep moves the watermark past all objects of a call that had one above it, each of them
was in the listing. -/
lemma Kept.listed (h : Kept src grace s) (htime : ∀ T ∈ s.lastSweep, T ≤ start)
    (hlists : Lists s.versions grace start listing)
    (hclean : Clean src grace s (.sweep start listing outcome)) {c : String} {w₀ w : Listed}
    (hcovered : ∀ w ∈ s.versions, Of src c w →
      ∃ wm ∈ (pollAgent src grace s start listing outcome).watermark, w.2 ≤ wm)
    (hw₀ : w₀ ∈ s.versions) (hcw₀ : Of src c w₀) (habove : ∀ wm ∈ s.watermark, wm < w₀.2)
    (hw : w ∈ s.versions) (hcw : Of src c w) : ∃ u ∈ listing, u.1 = w.1 ∧ w.2 ≤ u.2 := by
  obtain ⟨wm, hwm, hle⟩ := hcovered w hw hcw
  have hcut := h.cutoff htime hwm
  by_cases hlt : w.2 + grace < start
  · exact hlists.settled w hw hlt
  · -- the object has exactly the time of the cutoff, and so has a processed call
    obtain ⟨wm₀, hwm₀, hle₀⟩ := hcovered w₀ hw₀ hcw₀
    have hcut₀ := h.cutoff htime hwm₀
    refine hclean.2 ?_ c w ⟨hw, hcw, fun w' hw' hcw' => ?_⟩ (by omega)
    · rcases watermark_source hwm with hold | ⟨p, hp, hpm⟩
      · have := habove wm hold
        omega
      · exact ⟨p, hp, by omega⟩
    · obtain ⟨wm', hwm', hle'⟩ := hcovered w' hw' hcw'
      have := h.cutoff htime hwm'
      omega

lemma Kept.sweep (h : Kept src grace s) (htime : ∀ T ∈ s.lastSweep, T ≤ start)
    (hlists : Lists s.versions grace start listing)
    (hclean : Clean src grace s (.sweep start listing outcome)) :
    Kept src grace (pollAgent src grace s start listing outcome) := by
  set found := discoverManifestWindowed src listing s.watermark (start - grace) with hfound
  set done := processed outcome (sweepOrder found) with hdone
  obtain ⟨hversions, hsweep, hingested, -⟩ := pollCalls_spec listing outcome
    (sweepOrder found) { s with lastSweep := some start }
  set s' := pollAgent src grace s start listing outcome with hs'
  refine ⟨fun wm hwm => ⟨start, hsweep ▸ rfl, by have := h.cutoff htime hwm; omega⟩,
    fun c v hv hc => ?_⟩
  rw [show s'.versions = s.versions from hversions] at hv ⊢
  refine or_iff_not_imp_right.2 fun hnone => ?_
  -- no object of the call is above the new watermark
  have hcovered : ∀ w ∈ s.versions, Of src c w → ∃ wm ∈ s'.watermark, w.2 ≤ wm := by
    intro w hw hcw
    by_contra hnot
    exact hnone ⟨w, hw, hcw, fun wm hwm => not_le.1 fun hle => hnot ⟨wm, hwm, hle⟩⟩
  rcases h.above c v hv hc with ⟨e, he, hec, hall⟩ | ⟨w₀, hw₀, hcw₀, habove⟩
  · refine ⟨e, ?_, hec, fun v' hv' => hall v' (hversions ▸ hv')⟩
    rw [show s'.ingested = _ from hingested]
    exact List.mem_append_left _ he
  obtain ⟨u₀, hu₀, huri₀, hu₀le⟩ := h.listed htime hlists hclean hcovered hw₀ hcw₀ habove hw₀ hcw₀
  obtain ⟨mx, hmx, ⟨o, ho, hco, hom⟩, hwindow⟩ := discover_or s.watermark (start - grace) hu₀
    (hcw₀.of_uri huri₀)
  obtain ⟨wm', hwm', hle'⟩ := hcovered o (hlists.exists_version o ho) hco
  have hcut' := h.cutoff htime hwm'
  rcases hwindow with hlate | ⟨wm, hwm, hle⟩ | ⟨items, hmem⟩
  · omega
  · have := habove wm hwm
    omega
  · by_cases hin : c ∈ done.map Prod.fst
    · obtain ⟨p, hp, rfl⟩ := List.mem_map.1 hin
      refine ⟨⟨p.1, p.2.1, listing⟩, ?_, rfl, fun v' hv' hcv' => ?_⟩
      · rw [show s'.ingested = _ from hingested]
        exact List.mem_append_right _ (List.mem_map_of_mem hp)
      · rw [show s'.versions = s.versions from hversions] at hv'
        obtain ⟨u, hu, huri, hule⟩ := h.listed htime hlists hclean hcovered hw₀ hcw₀ habove hv' hcv'
        have hitem := ((mem_discover (discovered_of_processed hp)).2.2.2 u hu (hcv'.of_uri huri)).1
        exact ⟨huri ▸ hitem, u, hu, huri, hule⟩
    · -- the call failed, and is newer than all that were processed
      exfalso
      rcases watermark_source hwm' with hold | ⟨p, hp, hpm⟩
      · have := habove wm' hold
        omega
      · have hlt : p.2.2 < mx := hclean.1 p hp _ hmem hin
        omega

end

/-- A call with an object above the watermark is discovered when its newest object is settled. -/
lemma Kept.noCallLost (h : Kept src grace s) : NoCallLost src grace s := by
  intro now listing _ hlists c v hv hsettled
  obtain ⟨hmem, hcv, hnewest⟩ := hv
  refine (h.above c v hmem hcv).imp_right fun ⟨w, hw, hcw, habove⟩ => ?_
  have hwv := hnewest w hw hcw
  obtain ⟨u, hu, huri, hle⟩ := hlists.settled v hmem hsettled
  obtain ⟨mx, hmx, ⟨o, ho, hco, hom⟩, hwindow⟩ := discover_or s.watermark (now - grace) hu
    (hcv.of_uri huri)
  have hov := hnewest o (hlists.exists_version o ho) hco
  obtain rfl : mx = v.2 := by omega
  rcases hwindow with hlate | ⟨wm, hwm, hlewm⟩ | hfound
  · omega
  · have := habove wm hwm
    omega
  · exact hfound

/-- In every run of clean steps, no call is lost. -/
theorem watermark_loses_no_call {versions : List Listed} {events : List Event}
    (hrun : Lib.Run (Lib.guarded (Step src grace) (Clean src grace)) (unswept versions) events s) :
    NoCallLost src grace s := by
  have hkept : Kept src grace s := by
    refine hrun.invariant_guarded (fun s e t hs hclean hstep => ?_) (kept_unswept versions)
    cases hstep with
    | put o htime => exact hs.put htime hclean
    | sweep start listing outcome htime hlists => exact hs.sweep htime hlists hclean
  exact hkept.noCallLost

end

/-! ### Two files, one sweep -/

/-- One file for each call, named by it. -/
def files : Source where
  base := ""
  rules := [⟨"trace", fun rel => some (some rel)⟩]

def twoFiles : List Listed :=
  [("a", 1), ("b", 2)]

lemma lists_twoFiles {start : Int} : Lists twoFiles 0 start twoFiles :=
  ⟨fun _ h => h, fun v hv _ => ⟨v, hv, rfl, le_rfl⟩⟩

/-- The two calls after a sweep with these outcomes. -/
def sweptFiles (outcome : String → Outcome) : State :=
  pollAgent files 0 (unswept twoFiles) 10 twoFiles outcome

lemma step_sweptFiles (outcome : String → Outcome) :
    Step files 0 (unswept twoFiles) (.sweep 10 twoFiles outcome) (sweptFiles outcome) :=
  .sweep 10 twoFiles outcome (by simp [unswept]) lists_twoFiles

/-- Both calls are processed, and a third comes in. -/
theorem watermark_loses_no_call_twoFiles :
    ∃ s, Lib.Run (Step files 0) (unswept twoFiles)
      [.sweep 10 twoFiles fun _ => .success, .put ("c", 11)] s ∧ NoCallLost files 0 s := by
  have hclean : Clean files 0 (unswept twoFiles) (.sweep 10 twoFiles fun _ => .success) := by
    constructor
    · intro p _ q hq hnot
      have hall : ∀ c ∈ (discoverManifestWindowed files twoFiles none (10 - 0)).map Prod.fst,
          c ∈ (processed (fun _ => .success) (sweepOrder
            (discoverManifestWindowed files twoFiles none (10 - 0)))).map Prod.fst := by decide
      exact absurd (hall q.1 (List.mem_map_of_mem hq)) hnot
    · rintro ⟨p, hp, htime⟩
      have hearlier : ∀ t ∈ (processed (fun _ => .success) (sweepOrder
          (discoverManifestWindowed files twoFiles none (10 - 0)))).map (·.2.2), t ≠ 10 := by decide
      exact absurd htime (hearlier _ (List.mem_map_of_mem hp))
  have hput : Clean files 0 (sweptFiles fun _ => .success) (.put ("c", 11)) := by
    intro c _
    have hwatermark : (sweptFiles fun _ => .success).watermark = some 2 := by decide
    simp [hwatermark]
  have hlate : ∀ T ∈ (sweptFiles fun _ => .success).lastSweep, T ≤ (11 : Int) + 0 := by decide
  have hrun : Lib.Run (Lib.guarded (Step files 0) (Clean files 0)) (unswept twoFiles)
      [.sweep 10 twoFiles fun _ => .success, .put ("c", 11)] _ :=
    .cons ⟨step_sweptFiles _, hclean⟩ (.cons ⟨.put ("c", 11) hlate, hput⟩ (.nil _))
  exact ⟨_, hrun.of_guarded, watermark_loses_no_call hrun⟩

/-- The outcomes of a sweep in which the call `a` fails. -/
def failsOnA (callId : String) : Outcome :=
  if callId = "a" then .failure else .success

/-- The call `a` fails and the newer `b` succeeds: `a` is older than the watermark then. -/
theorem watermark_loses_call :
    Lib.Run (Step files 0) (unswept twoFiles) [.sweep 10 twoFiles failsOnA] (sweptFiles failsOnA) ∧
      ¬NoCallLost files 0 (sweptFiles failsOnA) := by
  refine ⟨.single (step_sweptFiles failsOnA), fun h => ?_⟩
  have hother : ∀ w ∈ (sweptFiles failsOnA).versions,
      (callOf files w.1).map Prod.snd = some "a" → w.2 ≤ 1 := by decide
  have hnewest : Newest files (sweptFiles failsOnA).versions "a" ("a", 1) := by
    refine ⟨by decide, ⟨_, rfl⟩, fun w hw ⟨rule, hrule⟩ => hother w hw ?_⟩
    rw [hrule]
    rfl
  have hlate : ∀ T ∈ (sweptFiles failsOnA).lastSweep, T ≤ (20 : Int) := by decide
  rcases h 20 twoFiles hlate lists_twoFiles "a" ("a", 1) hnewest (by decide) with
    ⟨e, he, hea, -⟩ | ⟨items, hitems⟩
  · have hingested : ∀ e ∈ (sweptFiles failsOnA).ingested.map Ingested.callId, e ≠ "a" := by decide
    exact hingested _ (List.mem_map_of_mem he) hea
  · have hskipped : (discoverManifestWindowed files twoFiles (sweptFiles failsOnA).watermark
        (20 - 0)).map Prod.fst = [] := by decide
    rw [List.map_eq_nil_iff.1 hskipped] at hitems
    cases hitems

end Pulse.Worker
