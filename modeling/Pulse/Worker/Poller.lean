import Pulse.Lib.Lists
import Pulse.Lib.Run

/-!
# The storage poller

`_poll_agent` of `worker/poller.py` and `discover_manifest_windowed` of `integration/runtime.py`:
a sweep lists one agent's store, groups the objects by call, takes the calls whose newest object
is settled and newer than the watermark in the order of that object, and moves the watermark after
each success. What a manifest call's processing does is an outcome of the sweep. Times are integers.
-/

namespace Pulse.Worker

/-- An artifact rule: its pattern on a path of the bucket, and the group that captures the call
id. -/
structure ArtifactRule where
  id : String
  search : String → Option (Option String)

/-- A manifest's rules on a bucket. -/
structure Source where
  base : String
  rules : List ArtifactRule

/-- An object as the store lists it: its uri and its modification time. -/
abbrev Listed := String × Int

abbrev Items := List (ArtifactRule × String)

/-- A discovered call: its id, its artifacts and the time of its newest object. -/
abbrev Found := String × Items × Int

/-- `uri.removeprefix(base)` -/
def removePrefix (base uri : String) : String :=
  if base.toList.isPrefixOf uri.toList then String.ofList (uri.toList.drop base.length) else uri

/-- The first matching rule, with the call id that it captures. -/
def callOf (src : Source) (uri : String) : Option (ArtifactRule × String) :=
  match src.rules.findSome? fun r => (r.search (removePrefix src.base uri)).map (r, ·) with
  | some (rule, some callId) => if callId = "" then none else some (rule, callId)
  | _ => none

/-- One turn of the loop over the listed objects. -/
def addObject (src : Source) (grouped : List Found) (o : Listed) : List Found :=
  match callOf src o.1 with
  | none => grouped
  | some (rule, callId) => Lib.upsert grouped callId fun
    | none => ([(rule, o.1)], o.2)
    | some (items, prev) => (items ++ [(rule, o.1)], max prev o.2)

/-- `discover_manifest_windowed` -/
def discoverManifestWindowed (src : Source) (objects : List Listed) (since : Option Int)
    (cutoff : Int) : List Found :=
  (objects.foldl (addObject src) []).filter fun f => f.2.2 ≤ cutoff ∧ since.all (· < f.2.2)

/-- How one call ends in a sweep. A crash ends the sweep with it. -/
inductive Outcome
  | success
  | failure
  | crash
  deriving DecidableEq

/-- A call that was processed and committed: its artifacts, and the listing they are from. -/
structure Ingested where
  callId : String
  items : Items
  listing : List Listed

/-- One agent: the object versions ever written to its store, the start of the latest sweep, the
watermark `last_polled_modified` and what was processed. -/
structure State where
  versions : List Listed
  lastSweep : Option Int
  watermark : Option Int
  ingested : List Ingested

/-- The loop of `_poll_agent`. A failed call is rolled back and skipped. -/
def pollCalls (listing : List Listed) (outcome : String → Outcome) : List Found → State → State
  | [], s => s
  | (callId, items, maxMtime) :: rest, s =>
    match outcome callId with
    | .success => pollCalls listing outcome rest { s with
        watermark := some (s.watermark.elim maxMtime (max · maxMtime))
        ingested := s.ingested ++ [⟨callId, items, listing⟩] }
    | .failure => pollCalls listing outcome rest s
    | .crash => s

/-- The calls of a sweep, oldest first. -/
def sweepOrder (found : List Found) : List Found :=
  Lib.sorted (fun a b => a.2.2 < b.2.2) found

/-- `_poll_agent` in a sweep that starts at `start`. -/
def pollAgent (src : Source) (grace : Int) (s : State) (start : Int)
    (listing : List Listed) (outcome : String → Outcome) : State :=
  let found := discoverManifestWindowed src listing s.watermark (start - grace)
  pollCalls listing outcome (sweepOrder found) { s with lastSweep := some start }

/-- A listing holds only versions that exist, and for every version that is settled the version
itself or a later one of the same object. -/
structure Lists (versions : List Listed) (grace start : Int) (listing : List Listed) : Prop where
  exists_version : ∀ w ∈ listing, w ∈ versions
  settled : ∀ v ∈ versions, v.2 + grace < start → ∃ w ∈ listing, w.1 = v.1 ∧ v.2 ≤ w.2

inductive Event
  | put (o : Listed)
  | sweep (start : Int) (listing : List Listed) (outcome : String → Outcome)

/-- An object version is written, no later than the grace after its time as far as the sweeps can
tell; or the agent is swept. -/
inductive Step (src : Source) (grace : Int) : State → Event → State → Prop
  | put {s : State} (o : Listed) : (∀ T ∈ s.lastSweep, T ≤ o.2 + grace) →
      Step src grace s (.put o) { s with versions := s.versions ++ [o] }
  | sweep {s : State} (start : Int) (listing : List Listed) (outcome : String → Outcome) :
      (∀ T ∈ s.lastSweep, T ≤ start) → Lists s.versions grace start listing →
      Step src grace s (.sweep start listing outcome) (pollAgent src grace s start listing outcome)

/-! ### Grouping -/

/-- The object is an artifact of the call. -/
def Of (src : Source) (callId : String) (o : Listed) : Prop :=
  ∃ rule, callOf src o.1 = some (rule, callId)

/-- What the loop over the objects has grouped. -/
structure Grouped (src : Source) (objects : List Listed) (grouped : List Found) : Prop where
  keys : (grouped.map Prod.fst).Nodup
  complete : ∀ o ∈ objects, ∀ c, Of src c o → ∃ items mx, grouped.lookup c = some (items, mx) ∧
    o.1 ∈ items.map Prod.snd ∧ o.2 ≤ mx
  newest : ∀ c items mx, grouped.lookup c = some (items, mx) → ∃ o ∈ objects, Of src c o ∧ o.2 = mx

lemma Grouped.addObject {src : Source} {objects : List Listed} {grouped : List Found}
    (h : Grouped src objects grouped) (o : Listed) :
    Grouped src (objects ++ [o]) (addObject src grouped o) := by
  unfold Worker.addObject
  cases hcall : callOf src o.1 with
  | none =>
    refine ⟨h.keys, fun o' ho' c hc => ?_, fun c items mx hg => ?_⟩
    · rcases List.mem_append.1 ho' with ho' | ho'
      · exact h.complete o' ho' c hc
      · obtain ⟨rule, hrule⟩ := hc
        rw [List.mem_singleton.1 ho', hcall] at hrule
        cases hrule
    · obtain ⟨o', ho', hrest⟩ := h.newest c items mx hg
      exact ⟨o', List.mem_append_left _ ho', hrest⟩
  | some found =>
    obtain ⟨rule, c₀⟩ := found
    have hown : ∀ c, Of src c o → c = c₀ := by
      rintro c ⟨rule', hrule⟩
      rw [hcall] at hrule
      exact (Prod.mk.inj (Option.some.inj hrule)).2.symm
    dsimp only
    refine ⟨Lib.upsert_keys_nodup h.keys _ _, fun o' ho' c hc => ?_, fun c items mx hg => ?_⟩
    · rw [Lib.lookup_upsert]
      by_cases hcc : c = c₀
      · rw [if_pos hcc]
        rcases List.mem_append.1 ho' with ho' | ho'
        · obtain ⟨items, mx, hlook, hitem, hmx⟩ := h.complete o' ho' c hc
          rw [← hcc, hlook]
          exact ⟨_, _, rfl, by simp [List.mem_map.1 hitem], le_trans hmx (le_max_left mx o.2)⟩
        · rw [List.mem_singleton.1 ho']
          cases hlook : grouped.lookup c₀ with
          | none => exact ⟨_, _, rfl, by simp, le_refl _⟩
          | some g => exact ⟨_, _, rfl, by simp, le_max_right _ _⟩
      · rw [if_neg hcc]
        rcases List.mem_append.1 ho' with ho' | ho'
        · exact h.complete o' ho' c hc
        · exact absurd (hown c (List.mem_singleton.1 ho' ▸ hc)) hcc
    · rw [Lib.lookup_upsert] at hg
      by_cases hcc : c = c₀
      · rw [if_pos hcc] at hg
        have hlast : Of src c o := hcc ▸ ⟨rule, hcall⟩
        cases hlook : grouped.lookup c₀ with
        | none =>
          rw [hlook] at hg
          cases hg
          exact ⟨o, by simp, hlast, rfl⟩
        | some g =>
          obtain ⟨items₀, prev⟩ := g
          rw [hlook] at hg
          cases hg
          rcases le_total prev o.2 with hle | hle
          · exact ⟨o, by simp, hlast, (max_eq_right hle).symm⟩
          · obtain ⟨o', ho', hc, hmx⟩ := h.newest c₀ items₀ prev hlook
            exact ⟨o', List.mem_append_left _ ho', hcc ▸ hc, hmx.trans (max_eq_left hle).symm⟩
      · rw [if_neg hcc] at hg
        obtain ⟨o', ho', hrest⟩ := h.newest c items mx hg
        exact ⟨o', List.mem_append_left _ ho', hrest⟩

lemma grouped_foldl (src : Source) (objects : List Listed) :
    Grouped src objects (objects.foldl (addObject src) []) := by
  have hstart : Grouped src [] [] := ⟨by simp, by simp, by simp⟩
  exact Lib.foldl_history (addObject src) objects (Grouped src)
    (fun past s o _ h => h.addObject o) [] [] hstart

/-- What a sweep discovers: the calls whose newest listed object lies in the window, with all of
their listed objects. -/
lemma mem_discover {src : Source} {listing : List Listed} {since : Option Int}
    {cutoff : Int} {c : String} {items : Items} {mx : Int}
    (h : (c, items, mx) ∈ discoverManifestWindowed src listing since cutoff) :
    mx ≤ cutoff ∧ (∀ wm ∈ since, wm < mx) ∧ (∃ o ∈ listing, Of src c o ∧ o.2 = mx) ∧
      ∀ o ∈ listing, Of src c o → o.1 ∈ items.map Prod.snd ∧ o.2 ≤ mx := by
  obtain ⟨hmem, hwindow⟩ := List.mem_filter.1 h
  simp only [decide_eq_true_eq, Option.all_eq_true] at hwindow
  have hgrouped := grouped_foldl src listing
  have hlook := Lib.lookup_of_mem hgrouped.keys hmem
  refine ⟨hwindow.1, hwindow.2, hgrouped.newest c items mx hlook, fun o ho hc => ?_⟩
  obtain ⟨items', mx', hlook', hrest⟩ := hgrouped.complete o ho c hc
  cases hlook.symm.trans hlook'
  exact hrest

/-- A call with a listed object is discovered unless its newest listed object lies outside the
window. -/
lemma discover_or {src : Source} {listing : List Listed} (since : Option Int)
    (cutoff : Int) {c : String} {o : Listed} (ho : o ∈ listing) (hc : Of src c o) :
    ∃ mx, o.2 ≤ mx ∧ (∃ o' ∈ listing, Of src c o' ∧ o'.2 = mx) ∧
      (cutoff < mx ∨ (∃ wm ∈ since, mx ≤ wm) ∨
        ∃ items, (c, items, mx) ∈ discoverManifestWindowed src listing since cutoff) := by
  have hgrouped := grouped_foldl src listing
  obtain ⟨items, mx, hlook, -, hmx⟩ := hgrouped.complete o ho c hc
  refine ⟨mx, hmx, hgrouped.newest c items mx hlook, ?_⟩
  by_cases hcut : mx ≤ cutoff
  · by_cases hsince : ∀ wm ∈ since, wm < mx
    · refine .inr (.inr ⟨items, List.mem_filter.2 ⟨Lib.mem_of_lookup hlook, ?_⟩⟩)
      simpa [Option.all_eq_true] using ⟨hcut, hsince⟩
    · push Not at hsince
      exact .inr (.inl hsince)
  · exact .inl (not_le.1 hcut)

end Pulse.Worker
