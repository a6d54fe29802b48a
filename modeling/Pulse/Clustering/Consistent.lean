import Pulse.Clustering.Service
import Pulse.Lib.Run

/-!
# The clusters fit the calls

Whatever the services answer, no statement of `recluster` breaks a constraint: it ends well, or an
error of the numerical code rolls it back. In every state that runs and other writers lead to, a
cluster counts its calls, and each labelled call has its cluster.
-/

namespace Pulse.Clustering

open Lib (Keyed group)

variable {V C : Type} {cfg : Config} {w : Analytics V C}

/-! ### Embedding -/

lemma batches_flatten {α : Type} {size : Nat} (hsize : 0 < size) (as : List α) :
    (batches size as).flatten = as := by
  have htake : ∀ k, ((List.range k).map fun i => (as.drop (i * size)).take size).flatten =
      as.take (k * size) := by
    intro k
    induction k with
    | zero => simp
    | succ k ih =>
      rw [List.range_succ, List.map_append, List.flatten_append, ih, Nat.succ_mul, List.take_add]
      simp
  rw [batches, htake, List.take_of_length_le]
  have hdiv := Nat.div_add_mod (as.length + size - 1) size
  have hmod := Nat.mod_lt (as.length + size - 1) hsize
  rw [Nat.mul_comm]
  omega

lemma zip_fst_sublist {α β : Type} (as : List α) (bs : List β) :
    ((as.zip bs).map Prod.fst).Sublist as := by
  induction as generalizing bs with
  | nil => simp
  | cons a as ih =>
    cases bs with
    | nil => simp
    | cons b bs => simpa using ih bs

lemma embedBatch_callIds (lever : Lever) (i : Nat) (batch : List (String × String)) :
    ((embedBatch w lever i batch).map (·.callId)).Sublist (batch.map Prod.fst) := by
  unfold embedBatch
  cases w.embed lever i (batch.map Prod.snd) with
  | error e => exact List.nil_sublist _
  | ok vecs =>
    have hids := (zip_fst_sublist batch vecs).map Prod.fst
    rw [List.map_map] at hids ⊢
    exact hids

lemma embedded_callIds (s : Store V C) (lever : Lever) :
    ((embedded cfg w s lever).map (·.callId)).Sublist ((pending s lever).map Prod.fst) := by
  have hsublist : ∀ (bs : List (List (String × String))) (n : Nat),
      (((bs.zipIdx n).flatMap fun p => embedBatch w lever p.2 p.1).map (·.callId)).Sublist
        (bs.flatten.map Prod.fst) := by
    intro bs
    induction bs with
    | nil => exact fun n => List.nil_sublist _
    | cons b bs ih =>
      intro n
      rw [List.zipIdx_cons, List.flatMap_cons, List.map_append, List.flatten_cons, List.map_append]
      exact (embedBatch_callIds lever n b).append (ih (n + 1))
  have h := hsublist (batches cfg.embedBatchSize (pending s lever)) 0
  rwa [batches_flatten cfg.embedBatchSize_pos] at h

lemma embedded_field {s : Store V C} {lever : Lever} :
    ∀ e ∈ embedded cfg w s lever, e.field = lever := by
  intro e he
  obtain ⟨p, -, he⟩ := List.mem_flatMap.1 he
  unfold embedBatch at he
  cases hembed : w.embed lever p.2 (p.1.map Prod.snd) with
  | error m => simp [hembed] at he
  | ok vecs =>
    rw [hembed] at he
    obtain ⟨q, -, rfl⟩ := List.mem_map.1 he
    rfl

lemma mem_pending {s : Store V C} {lever : Lever} {id text : String} :
    (id, text) ∈ pending s lever ↔ ∃ j ∈ s.judgments.rows, j.callId = id ∧
      (∀ e ∈ s.embeddings.rows, e.field = lever → e.callId ≠ id) ∧ text ≠ "" ∧
        (lever.extract j).map Chat.strip = some text := by
  simp only [pending, List.mem_filterMap]
  apply exists_congr
  intro j
  apply and_congr_right
  intro _
  have hhave : j.callId ∈ (s.embeddings.rows.filter fun e => e.field = lever).map (·.callId) ↔
      ∃ e ∈ s.embeddings.rows, e.field = lever ∧ e.callId = j.callId := by
    simp [and_assoc]
  split
  · next h =>
    obtain ⟨e, he, hfield, hid⟩ := hhave.1 h
    constructor
    · nofun
    · rintro ⟨rfl, hnone, -⟩
      exact absurd hid (hnone e he hfield)
  · next h =>
    have hnone : ∀ e ∈ s.embeddings.rows, e.field = lever → e.callId ≠ j.callId :=
      fun e he hfield hid => h (hhave.2 ⟨e, he, hfield, hid⟩)
    simp only [Option.map_eq_some_iff, Option.filter_eq_some_iff, Prod.mk.injEq]
    constructor
    · rintro ⟨text', ⟨htext, hne⟩, rfl, rfl⟩
      exact ⟨rfl, hnone, by simpa using hne, htext⟩
    · rintro ⟨rfl, -, hne, htext⟩
      exact ⟨text, ⟨htext, by simpa using hne⟩, rfl, rfl⟩

lemma filterMap_sublist {α β : Type} {f : α → Option β} {g : α → β}
    (h : ∀ a b, f a = some b → b = g a) (as : List α) : (as.filterMap f).Sublist (as.map g) := by
  induction as with
  | nil => exact .slnil
  | cons a as ih =>
    rw [List.filterMap_cons, List.map_cons]
    cases hf : f a with
    | none => exact ih.cons _
    | some b => exact h a b hf ▸ ih.cons_cons _

lemma pending_callIds (s : Store V C) (lever : Lever) :
    ((pending s lever).map Prod.fst).Sublist (s.judgments.rows.map (·.callId)) := by
  rw [pending, List.map_filterMap]
  refine filterMap_sublist (fun j id hid => ?_) _
  split at hid
  · cases hid
  · simp only [Option.map_map, Option.map_eq_some_iff] at hid
    obtain ⟨text, -, rfl⟩ := hid
    rfl

/-- Each judgment is of a call. -/
def Referring (s : Store V C) : Prop :=
  ∀ j ∈ s.judgments.rows, j.callId ∈ s.calls.rows.map Call.id

variable (cfg w) in
lemma embedded_fits (s : Store V C) (lever : Lever) :
    s.embeddings.Fits (embedded cfg w s lever) := by
  have hids := @embedded_callIds _ _ cfg w s lever
  refine ⟨?_, fun e he hold => ?_⟩
  · have hnodup : ((embedded cfg w s lever).map (·.callId)).Nodup :=
      s.judgments.nodup.sublist (hids.trans (pending_callIds s lever))
    refine List.Nodup.of_map Prod.fst ?_
    rwa [List.map_map]
  · obtain ⟨e', he', hkey⟩ := List.mem_map.1 hold
    obtain ⟨p, hp, hid⟩ := List.mem_map.1 (hids.subset (List.mem_map_of_mem he))
    obtain ⟨j, -, -, hnone, -⟩ := mem_pending.1 hp
    obtain ⟨hcall, hfield⟩ := Prod.mk.inj hkey
    exact hnone e' he' (hfield.trans (embedded_field e he)) (hcall.trans hid.symm)

lemma backfillLever_eq {s : Store V C} (href : Referring s) (lever : Lever) :
    backfillLever cfg w s lever =
      .ok { s with embeddings := s.embeddings.add _ (embedded_fits cfg w s lever) } := by
  have hcalls : ∀ id ∈ (embedded cfg w s lever).map (·.callId), id ∈ s.calls.rows.map Call.id := by
    intro id hid
    obtain ⟨j, hj, rfl⟩ := List.mem_map.1
      (((embedded_callIds s lever).trans (pending_callIds s lever)).subset hid)
    exact href j hj
  rw [backfillLever]
  simp only [Store.referring, if_pos hcalls, Keyed.insert, dif_pos (embedded_fits cfg w s lever)]
  rfl

/-- What a computation of a run keeps of a store. -/
structure Keeps (s t : Store V C) : Prop where
  calls : t.calls = s.calls
  judgments : t.judgments = s.judgments

lemma Keeps.refl (s : Store V C) : Keeps s s := ⟨rfl, rfl⟩

lemma Keeps.trans {s t u : Store V C} (h : Keeps s t) (h' : Keeps t u) : Keeps s u :=
  ⟨h'.calls.trans h.calls, h'.judgments.trans h.judgments⟩

lemma Keeps.referring {s t : Store V C} (h : Keeps s t) (hs : Referring s) : Referring t := by
  intro j hj
  rw [h.judgments] at hj
  rw [h.calls]
  exact hs j hj

/-- The embedding model answers each batch of the lever, with a vector for each text. -/
def Serves (w : Analytics V C) (lever : Lever) : Prop :=
  ∀ i texts, ∃ vecs, w.embed lever i texts = .ok vecs ∧ vecs.length = texts.length

lemma embedded_of_serves {s : Store V C} {lever : Lever} (h : Serves w lever) :
    (embedded cfg w s lever).map (·.callId) = (pending s lever).map Prod.fst := by
  have hbatch : ∀ i batch, (embedBatch w lever i batch).map (·.callId) = batch.map Prod.fst := by
    intro i batch
    obtain ⟨vecs, hembed, hlength⟩ := h i (batch.map Prod.snd)
    have hzip : (batch.zip vecs).map Prod.fst = batch :=
      List.map_fst_zip (by rw [hlength, List.length_map])
    rw [embedBatch, hembed, List.map_map]
    conv_rhs => rw [← hzip, List.map_map]
    rfl
  have hall : ∀ (bs : List (List (String × String))) (n : Nat),
      ((bs.zipIdx n).flatMap fun p => embedBatch w lever p.2 p.1).map (·.callId) =
        bs.flatten.map Prod.fst := by
    intro bs
    induction bs with
    | nil => exact fun n => rfl
    | cons b bs ih =>
      intro n
      rw [List.zipIdx_cons, List.flatMap_cons, List.map_append, List.flatten_cons, List.map_append,
        hbatch, ih]
  rw [embedded, hall, batches_flatten cfg.embedBatchSize_pos]

/-- The call's prose for the lever has a vector. -/
def Store.Has (s : Store V C) (lever : Lever) (callId : String) : Prop :=
  ∃ e ∈ s.embeddings.rows, e.field = lever ∧ e.callId = callId

/-- There is prose for the lever in the judgment. -/
def Judgment.Tells (j : Judgment) (lever : Lever) : Prop :=
  ∃ text, text ≠ "" ∧ (lever.extract j).map Chat.strip = some text

lemma Store.Has.of_isPrefix {s t : Store V C} {lever : Lever} {callId : String}
    (h : s.Has lever callId) (hpre : s.embeddings.rows <+: t.embeddings.rows) :
    t.Has lever callId := by
  obtain ⟨e, he, hfield, hid⟩ := h
  exact ⟨e, hpre.subset he, hfield, hid⟩

lemma has_of_serves {s : Store V C} {lever : Lever} (h : Serves w lever) {j : Judgment}
    (hj : j ∈ s.judgments.rows) (htells : j.Tells lever) :
    ({ s with embeddings := s.embeddings.add _ (embedded_fits cfg w s lever) } : Store V C).Has
      lever j.callId := by
  by_cases hhas : s.Has lever j.callId
  · exact hhas.of_isPrefix (List.prefix_append _ _)
  · obtain ⟨text, hne, htext⟩ := htells
    have hpending : (j.callId, text) ∈ pending s lever :=
      mem_pending.2 ⟨j, hj, rfl, fun e he hfield hid => hhas ⟨e, he, hfield, hid⟩, hne, htext⟩
    have hid := List.mem_map_of_mem (f := Prod.fst) hpending
    rw [← @embedded_of_serves _ _ cfg _ _ _ h] at hid
    obtain ⟨e, he, hid⟩ := List.mem_map.1 hid
    exact ⟨e, List.mem_append_right _ he, embedded_field e he, hid⟩

/-- What a backfill leaves: the embeddings that there were and more, of all prose that the model
serves. -/
structure Backfilled (w : Analytics V C) (s : Store V C) (past : List Lever) (t : Store V C) :
    Prop where
  keeps : Keeps s t
  clusters : t.clusters = s.clusters
  assignments : t.assignments = s.assignments
  embeddings : s.embeddings.rows <+: t.embeddings.rows
  complete : ∀ lever ∈ past, Serves w lever → ∀ j ∈ s.judgments.rows, j.Tells lever →
    t.Has lever j.callId

variable (cfg w) in
/-- A backfill fails at nothing. -/
lemma backfillEmbeddings_ends {s : Store V C} (href : Referring s) :
    Lib.Ends (Backfilled w s levers) (fun _ => False) (backfillEmbeddings cfg w s) := by
  refine Lib.Ends.foldlM (I := fun past t => Backfilled w s past t)
    (fun past lever rest t _ h => ?_) ⟨.refl s, rfl, rfl, List.prefix_rfl, nofun⟩
  rw [backfillLever_eq (h.keeps.referring href)]
  refine ⟨⟨h.keeps.calls, h.keeps.judgments⟩, h.clusters, h.assignments,
    h.embeddings.trans (List.prefix_append _ _), fun lever' hmem hserves j hj htells => ?_⟩
  obtain hmem | hmem := List.mem_append.1 hmem
  · exact (h.complete lever' hmem hserves j hj htells).of_isPrefix (List.prefix_append _ _)
  · obtain rfl := List.mem_singleton.1 hmem
    exact has_of_serves hserves (h.keeps.judgments ▸ hj) htells

/-! ### A group -/

/-- A cluster counts its calls, and each labelled call has its cluster. -/
structure Consistent (s : Store V C) : Prop where
  size : ∀ c ∈ s.clusters.rows, c.size = (s.assignments.rows.filter fun a =>
    a.agentId = c.agentId ∧ a.lever = c.lever ∧ a.clusterKey = some c.clusterKey).length
  size_pos : ∀ c ∈ s.clusters.rows, 0 < c.size
  named : ∀ a ∈ s.assignments.rows, ∀ k, a.clusterKey = some k →
    ∃ c ∈ s.clusters.rows, c.key = (a.agentId, a.lever, k)

lemma mem_members {as : List (CallCluster C)} {k : Int} {ids : List String}
    (h : (k, ids) ∈ members as) :
    ids.length = (as.filter fun a => a.clusterKey = some k).length ∧ ids ≠ [] := by
  obtain ⟨rfl, hne⟩ := Lib.mem_group h
  refine ⟨?_, hne⟩
  rw [List.length_map]
  clear h hne
  induction as with
  | nil => rfl
  | cons a as ih =>
    rw [List.filterMap_cons, List.filter_cons]
    cases hkey : a.clusterKey with
    | none => simpa using ih
    | some k' => by_cases hk : k' = k <;> simpa [List.filter_cons, hk] using ih

lemma exists_mem_members {as : List (CallCluster C)} {a : CallCluster C} {k : Int} (ha : a ∈ as)
    (hk : a.clusterKey = some k) : ∃ ids, (k, ids) ∈ members as := by
  have hmem : (k, a.callId) ∈ as.filterMap fun a => a.clusterKey.map (·, a.callId) :=
    List.mem_filterMap.2 ⟨a, ha, by rw [hk]; rfl⟩
  exact Lib.exists_mem_group hmem

/-- The calls that an agent's embeddings are of, if they are enough. -/
def placements (g : String × List (String × V)) : List (String × String) :=
  if g.2.length < minToCluster then [] else g.2.map fun p => (p.1, g.1)

/-- The calls of a lever that are assigned, with their agents. -/
def Store.placed (s : Store V C) (lever : Lever) : List (String × String) :=
  (s.assignments.rows.filter fun a => a.lever = lever).map fun a => (a.callId, a.agentId)

/-- Some groups of a lever have been written to a store that had nothing of it. -/
structure Rewritten (s : Store V C) (lever : Lever) (past : List (String × List (String × V)))
    (t : Store V C) : Prop where
  keeps : Keeps s t
  embeddings : t.embeddings = s.embeddings
  others : (t.assignments.rows.filter fun a => a.lever ≠ lever) =
    s.assignments.rows.filter fun a => a.lever ≠ lever
  placed : t.placed lever = past.flatMap placements
  agents : ∀ c ∈ t.clusters.rows, c.lever = lever → c.agentId ∈ past.map Prod.fst
  consistent : Consistent t

lemma assigned_lever {lever : Lever} {agentId : String} {ids : List String} {labels : List Int}
    {coords : List (C × C)} : ∀ a ∈ assigned lever agentId ids labels coords,
      a.lever = lever ∧ a.agentId = agentId := by
  intro a ha
  obtain ⟨p, -, rfl⟩ := List.mem_map.1 ha
  exact ⟨rfl, rfl⟩

lemma assigned_callIds {lever : Lever} {agentId : String} {ids : List String} {labels : List Int}
    {coords : List (C × C)} (hlabels : labels.length = ids.length)
    (hcoords : coords.length = ids.length) :
    (assigned lever agentId ids labels coords).map (·.callId) = ids := by
  rw [assigned, List.map_map]
  exact List.map_fst_zip (by simp [hlabels, hcoords])

/-- The labels and the coordinates are those of the vectors, one each. -/
lemma cluster_ends (vectors : List V) :
    Lib.Ends (fun p => p.1.length = vectors.length ∧ p.2.length = vectors.length)
      (fun e => ∃ m, e = Raised.analytics m) (cluster cfg w vectors) := by
  rw [cluster]
  split
  · next h => simp [h, Lib.Ends]
  · cases hproject : w.project vectors with
    | error m => exact ⟨m, rfl⟩
    | ok coords =>
      have hcoords := w.project_length vectors coords hproject
      split
      · cases hlabels : w.hdbscan vectors with
        | error m => exact ⟨m, rfl⟩
        | ok labels => exact ⟨w.hdbscan_length vectors labels hlabels, hcoords⟩
      · exact ⟨List.length_replicate, hcoords⟩

/-- A cluster row of a group, and the calls that it counts. -/
lemma mem_themed {s : Store V C} {lever : Lever} {agentId : String} {as : List (CallCluster C)}
    {c : Cluster} (hc : c ∈ themed w s lever agentId (members as)) :
    c.agentId = agentId ∧ c.lever = lever ∧ 0 < c.size ∧
      c.size = (as.filter fun a => a.clusterKey = some c.clusterKey).length := by
  obtain ⟨⟨k, ids⟩, hm, rfl⟩ := List.mem_map.1 hc
  obtain ⟨hlength, hne⟩ := mem_members hm
  exact ⟨rfl, rfl, List.length_pos_iff.2 hne, hlength⟩

/-- An agent of a lever that has no rows yet is written. -/
lemma Consistent.write {s t : Store V C} {s' : Store V C} (h : Consistent s) {lever : Lever}
    {agentId : String} {as : List (CallCluster C)}
    (has : ∀ a ∈ as, a.lever = lever ∧ a.agentId = agentId)
    (hassignments : ∀ a ∈ s.assignments.rows, a.lever = lever → a.agentId ≠ agentId)
    (hclusters : ∀ c ∈ s.clusters.rows, c.lever = lever → c.agentId ≠ agentId)
    (hnew : t.assignments.rows = s.assignments.rows ++ as)
    (hthemed : t.clusters.rows = s.clusters.rows ++ themed w s' lever agentId (members as)) :
    Consistent t where
  size c hc := by
    rw [hnew, List.filter_append, List.length_append]
    rw [hthemed] at hc
    obtain hc | hc := List.mem_append.1 hc
    · have hnone : (as.filter fun a => a.agentId = c.agentId ∧ a.lever = c.lever ∧
          a.clusterKey = some c.clusterKey) = [] := by
        rw [List.filter_eq_nil_iff]
        intro a ha hmatch
        obtain ⟨hagent, hlever, -⟩ := decide_eq_true_iff.1 hmatch
        exact hclusters c hc (hlever ▸ (has a ha).1) (hagent ▸ (has a ha).2)
      rw [hnone, h.size c hc]
      rfl
    · obtain ⟨hagent, hlever, -, hsize⟩ := mem_themed hc
      have hnone : (s.assignments.rows.filter fun a => a.agentId = c.agentId ∧ a.lever = c.lever ∧
          a.clusterKey = some c.clusterKey) = [] := by
        rw [List.filter_eq_nil_iff]
        intro a ha hmatch
        obtain ⟨hagent', hlever', -⟩ := decide_eq_true_iff.1 hmatch
        exact hassignments a ha (hlever'.trans hlever) (hagent'.trans hagent)
      have hall : (as.filter fun a => a.agentId = c.agentId ∧ a.lever = c.lever ∧
          a.clusterKey = some c.clusterKey) = as.filter fun a => a.clusterKey = some c.clusterKey := by
        refine List.filter_congr fun a ha => ?_
        simp [(has a ha).1, (has a ha).2, hagent, hlever]
      rw [hnone, hall, hsize]
      simp
  size_pos c hc := by
    rw [hthemed] at hc
    obtain hc | hc := List.mem_append.1 hc
    · exact h.size_pos c hc
    · exact (mem_themed hc).2.2.1
  named a ha k hk := by
    rw [hnew] at ha
    rw [hthemed]
    obtain ha | ha := List.mem_append.1 ha
    · obtain ⟨c, hc, hkey⟩ := h.named a ha k hk
      exact ⟨c, List.mem_append_left _ hc, hkey⟩
    · obtain ⟨ids, hm⟩ := exists_mem_members ha hk
      refine ⟨_, List.mem_append_right _ (List.mem_map_of_mem hm), ?_⟩
      rw [(has a ha).1, (has a ha).2]
      rfl

/-- The calls of the groups that are written are calls of the groups. -/
lemma placed_callIds (gs : List (String × List (String × V))) :
    ((gs.flatMap placements).map Prod.fst).Sublist (gs.flatMap fun g => g.2.map Prod.fst) := by
  induction gs with
  | nil => exact .slnil
  | cons g gs ih =>
    rw [List.flatMap_cons, List.flatMap_cons, List.map_append]
    refine List.Sublist.append ?_ ih
    unfold placements
    split
    · exact List.nil_sublist _
    · rw [List.map_map]
      exact List.Sublist.refl _

/-- The groups of a lever: each agent once, each call once, and each call in the store. -/
structure Groups (s : Store V C) (gs : List (String × List (String × V))) : Prop where
  agents : (gs.map Prod.fst).Nodup
  callIds : (gs.flatMap fun g => g.2.map Prod.fst).Nodup
  calls : ∀ g ∈ gs, ∀ p ∈ g.2, p.1 ∈ s.calls.rows.map Call.id

section

variable {s t : Store V C} {lever : Lever} {past rest : List (String × List (String × V))}
  {agentId : String} {rows : List (String × V)}

lemma Rewritten.assigned_fits (h : Rewritten s lever past t)
    (hgroups : Groups s (past ++ (agentId, rows) :: rest)) {labels : List Int}
    {coords : List (C × C)} (hlabels : labels.length = (rows.map Prod.fst).length)
    (hcoords : coords.length = (rows.map Prod.fst).length) :
    t.assignments.Fits (assigned lever agentId (rows.map Prod.fst) labels coords) := by
  have hids : (assigned lever agentId (rows.map Prod.fst) labels coords).map (·.callId) =
    rows.map Prod.fst := assigned_callIds hlabels hcoords
  have hnodup := hgroups.callIds
  rw [List.flatMap_append, List.flatMap_cons, List.nodup_append] at hnodup
  refine ⟨?_, fun a ha hold => ?_⟩
  · refine List.Nodup.of_map Prod.fst ?_
    rw [List.map_map]
    have hrows : (rows.map Prod.fst).Nodup := (List.nodup_append.1 hnodup.2.1).1
    rw [← hids] at hrows
    exact hrows
  · obtain ⟨a', ha', hkey⟩ := List.mem_map.1 hold
    obtain ⟨hcall, hlever⟩ := Prod.mk.inj hkey
    have hplaced : (a'.callId, a'.agentId) ∈ past.flatMap placements := by
      rw [← h.placed]
      exact List.mem_map_of_mem (List.mem_filter.2
        ⟨ha', decide_eq_true (hlever.trans (assigned_lever a ha).1)⟩)
    have hpast := (placed_callIds past).subset (List.mem_map_of_mem hplaced)
    have hown : a.callId ∈ rows.map Prod.fst := hids ▸ List.mem_map_of_mem ha
    exact hnodup.2.2 _ hpast _ (List.mem_append_left _ hown) hcall

lemma Rewritten.themed_fits (h : Rewritten s lever past t) (hagent : agentId ∉ past.map Prod.fst)
    (s' : Store V C) (as : List (CallCluster C)) :
    t.clusters.Fits (themed w s' lever agentId (members as)) := by
  refine ⟨?_, fun c hc hold => ?_⟩
  · refine List.Nodup.of_map (fun k => k.2.2) ?_
    rw [themed, List.map_map, List.map_map]
    exact Lib.group_keys_nodup
  · obtain ⟨c', hc', hkey⟩ := List.mem_map.1 hold
    obtain ⟨hagent', hkey⟩ := Prod.mk.inj hkey
    obtain ⟨rfl, hlever, -⟩ := mem_themed hc
    exact hagent (hagent' ▸ h.agents c' hc' ((Prod.mk.inj hkey).1.trans hlever))

/-- A group that is too small is passed over. -/
lemma Rewritten.skip (h : Rewritten s lever past t) (hsmall : rows.length < minToCluster) :
    Rewritten s lever (past ++ [(agentId, rows)]) t where
  keeps := h.keeps
  embeddings := h.embeddings
  others := h.others
  placed := by
    rw [List.flatMap_append, h.placed]
    simp [placements, hsmall]
  agents c hc hlever := by
    rw [List.map_append]
    exact List.mem_append_left _ (h.agents c hc hlever)
  consistent := h.consistent

/-- A group is written. -/
lemma Rewritten.write {u s' : Store V C} {as : List (CallCluster C)} (h : Rewritten s lever past t)
    (hlarge : ¬rows.length < minToCluster) (has : ∀ a ∈ as, a.lever = lever ∧ a.agentId = agentId)
    (hids : as.map (·.callId) = rows.map Prod.fst) (hagent : agentId ∉ past.map Prod.fst)
    (hkeeps : Keeps t u) (hembeddings : u.embeddings = t.embeddings)
    (hassignments : u.assignments.rows = t.assignments.rows ++ as)
    (hclusters : u.clusters.rows =
      t.clusters.rows ++ themed w s' lever agentId (members as)) :
    Rewritten s lever (past ++ [(agentId, rows)]) u where
  keeps := h.keeps.trans hkeeps
  embeddings := hembeddings.trans h.embeddings
  others := by
    have hnone : (as.filter fun a => a.lever ≠ lever) = [] := by
      rw [List.filter_eq_nil_iff]
      exact fun a ha hne => decide_eq_true_iff.1 hne (has a ha).1
    rw [hassignments, List.filter_append, hnone, List.append_nil, h.others]
  placed := by
    have hall : (as.filter fun a => a.lever = lever) = as :=
      List.filter_eq_self.2 fun a ha => decide_eq_true (has a ha).1
    have hagents : as.map (fun a => (a.callId, a.agentId)) = rows.map fun p => (p.1, agentId) := by
      have hpairs : as.map (fun a => (a.callId, a.agentId)) =
          (as.map (·.callId)).map (·, agentId) := by
        rw [List.map_map]
        exact List.map_congr_left fun a ha => by rw [Function.comp_apply, (has a ha).2]
      rw [hpairs, hids, List.map_map]
      rfl
    rw [Store.placed, hassignments, List.filter_append, List.map_append, hall, hagents,
      List.flatMap_append, ← h.placed, List.flatMap_singleton, placements, if_neg hlarge]
    rfl
  agents c hc hlever := by
    rw [hclusters] at hc
    rw [List.map_append]
    obtain hc | hc := List.mem_append.1 hc
    · exact List.mem_append_left _ (h.agents c hc hlever)
    · rw [(mem_themed hc).1]
      exact List.mem_append_right _ List.mem_cons_self
  consistent := by
    refine h.consistent.write has (fun a ha hlever hagent' => hagent ?_)
      (fun c hc hlever hagent' => hagent (hagent' ▸ h.agents c hc hlever)) hassignments hclusters
    have hplaced : (a.callId, a.agentId) ∈ past.flatMap placements := by
      rw [← h.placed]
      exact List.mem_map_of_mem (List.mem_filter.2 ⟨ha, decide_eq_true hlever⟩)
    obtain ⟨g, hg, hmem⟩ := List.mem_flatMap.1 hplaced
    unfold placements at hmem
    split at hmem
    · cases hmem
    · obtain ⟨p, -, hp⟩ := List.mem_map.1 hmem
      rw [← hagent', ← (Prod.mk.inj hp).2]
      exact List.mem_map_of_mem hg

variable (cfg w) in
lemma Rewritten.clusterAgent_ends (h : Rewritten s lever past t)
    (hgroups : Groups s (past ++ (agentId, rows) :: rest)) (hlarge : ¬rows.length < minToCluster) :
    Lib.Ends (fun p => Rewritten s lever (past ++ [(agentId, rows)]) p.1)
      (fun e => ∃ m, e = Raised.analytics m) (clusterAgent cfg w lever t agentId rows) := by
  rw [clusterAgent]
  refine (cluster_ends (rows.map Prod.snd)).bind ?_
  rintro ⟨labels, coords⟩ ⟨hlabels, hcoords⟩
  rw [List.length_map, ← @List.length_map _ _ rows Prod.fst] at hlabels hcoords
  dsimp only at hlabels hcoords ⊢
  have hids : (assigned lever agentId (rows.map Prod.fst) labels coords).map (·.callId) =
    rows.map Prod.fst := assigned_callIds hlabels hcoords
  set as := assigned lever agentId (rows.map Prod.fst) labels coords
  have hcalls : ∀ id ∈ as.map (·.callId), id ∈ t.calls.rows.map Call.id := by
    rw [hids, h.keeps.calls]
    intro id hid
    obtain ⟨p, hp, rfl⟩ := List.mem_map.1 hid
    exact hgroups.calls (agentId, rows) (by simp) p hp
  have hfits : t.assignments.Fits as := h.assigned_fits hgroups hlabels hcoords
  have hagent : agentId ∉ past.map Prod.fst := by
    have hnodup := hgroups.agents
    rw [List.map_append, List.nodup_append] at hnodup
    exact fun hmem => hnodup.2.2 _ hmem _ (by simp) rfl
  have hthemed := h.themed_fits (w := w) hagent t as
  simp only [Store.referring, if_pos hcalls, Keyed.insert, dif_pos hfits, dif_pos hthemed]
  exact h.write hlarge assigned_lever hids hagent ⟨rfl, rfl⟩ rfl rfl rfl

end

/-! ### A lever -/

lemma mem_windowed {s : Store V C} {lever : Lever} {since : Int} {r : String × Option String × V} :
    r ∈ windowed s lever since ↔ ∃ e ∈ s.embeddings.rows, e.field = lever ∧
      ∃ c ∈ s.calls.rows, c.id = e.callId ∧ since ≤ c.time ∧
        r = (e.callId, c.agentId, e.embedding) := by
  simp only [windowed, List.mem_filterMap]
  refine exists_congr fun e => and_congr_right fun _ => ?_
  by_cases hfield : e.field = lever
  · rw [if_pos hfield, Option.map_eq_some_iff, and_iff_right hfield]
    constructor
    · rintro ⟨c, hc, rfl⟩
      have hfound := List.find?_some hc
      obtain ⟨hid, htime⟩ := decide_eq_true_iff.1 hfound
      exact ⟨c, List.mem_of_find?_eq_some hc, hid, htime, rfl⟩
    · rintro ⟨c, hc, hid, htime, rfl⟩
      refine ⟨c, Keyed.find?_eq hc (decide_eq_true ⟨hid, htime⟩) fun b hb => ?_, rfl⟩
      exact (decide_eq_true_iff.1 hb).1.trans hid.symm
  · rw [if_neg hfield]
    simp [hfield]

lemma windowed_callIds (s : Store V C) (lever : Lever) (since : Int) :
    ((windowed s lever since).map Prod.fst).Nodup := by
  have hfield : ((s.embeddings.rows.filter fun e => e.field = lever).map (·.callId)).Nodup := by
    have hkeys := s.embeddings.nodup.sublist
      ((List.filter_sublist (p := fun e => decide (e.field = lever))).map CallEmbedding.key)
    have hpairs : (s.embeddings.rows.filter fun e => e.field = lever).map CallEmbedding.key =
        ((s.embeddings.rows.filter fun e => e.field = lever).map (·.callId)).map (·, lever) := by
      rw [List.map_map]
      refine List.map_congr_left fun e he => ?_
      rw [CallEmbedding.key, decide_eq_true_iff.1 (List.mem_filter.1 he).2]
      rfl
    exact List.Nodup.of_map _ (hpairs ▸ hkeys)
  have hwindowed : windowed s lever since = (s.embeddings.rows.filter fun e => e.field = lever).filterMap
      fun e => (s.calls.rows.find? fun c => c.id = e.callId ∧ since ≤ c.time).map
        fun c => (e.callId, c.agentId, e.embedding) := by
    rw [windowed, List.filterMap_filter]
    simp
  refine hfield.sublist ?_
  rw [hwindowed, List.map_filterMap]
  refine filterMap_sublist (fun e id hid => ?_) _
  simp only [Option.map_map, Option.map_eq_some_iff] at hid
  obtain ⟨c, -, rfl⟩ := hid
  rfl

lemma groups_byAgent (s : Store V C) (lever : Lever) (since : Int) :
    Groups s (byAgent (windowed s lever since)) where
  agents := Lib.group_keys_nodup
  callIds := by
    have hperm := (Lib.group_perm (fun r => r.2.1.getD "") (fun r => (r.1, r.2.2))
      (windowed s lever since)).map fun p => p.2.1
    rw [List.map_flatMap, List.map_map] at hperm
    simp only [List.map_map] at hperm
    exact (hperm.nodup_iff.2 (windowed_callIds s lever since) :)
  calls g hg p hp := by
    obtain ⟨r, hr, -, rfl⟩ := Lib.mem_of_mem_group hg hp
    obtain ⟨e, -, -, c, hc, hid, -, rfl⟩ := mem_windowed.1 hr
    exact List.mem_map.2 ⟨c, hc, hid⟩

/-- The rows of a lever, deleted. -/
def Store.cleared (s : Store V C) (lever : Lever) : Store V C :=
  { s with
    assignments := s.assignments.delete fun a => a.lever = lever
    clusters := s.clusters.delete fun c => c.lever = lever }

lemma cleared_rows (s : Store V C) (lever : Lever) :
    (s.cleared lever).assignments.rows = s.assignments.rows.filter fun a => !decide (a.lever = lever) :=
  rfl

lemma Consistent.cleared {s : Store V C} (h : Consistent s) (lever : Lever) :
    Consistent (s.cleared lever) where
  size c hc := by
    obtain ⟨hc, hne⟩ := List.mem_filter.1 hc
    rw [h.size c hc, cleared_rows, List.filter_filter]
    congr 1
    refine List.filter_congr fun a _ => ?_
    rw [Bool.eq_iff_iff]
    simp only [Bool.not_eq_true', decide_eq_false_iff_not] at hne
    simp only [Bool.and_eq_true, Bool.not_eq_true', decide_eq_false_iff_not, decide_eq_true_eq]
    exact ⟨fun hm => ⟨hm, hm.2.1 ▸ hne⟩, fun hm => hm.1⟩
  size_pos c hc := h.size_pos c (List.mem_filter.1 hc).1
  named a ha k hk := by
    obtain ⟨ha, hne⟩ := List.mem_filter.1 ha
    obtain ⟨c, hc, hkey⟩ := h.named a ha k hk
    have hlever : c.lever = a.lever := (Prod.mk.inj (Prod.mk.inj hkey).2).1
    exact ⟨c, List.mem_filter.2 ⟨hc, by simpa [hlever] using hne⟩, hkey⟩

lemma Consistent.rewritten {s : Store V C} (h : Consistent s) (lever : Lever) :
    Rewritten (s.cleared lever) lever [] (s.cleared lever) where
  keeps := .refl _
  embeddings := rfl
  others := rfl
  placed := by
    rw [Store.placed, cleared_rows, List.filter_filter]
    simp
  agents c hc hlever := by
    have hne := (List.mem_filter.1 hc).2
    simp [hlever] at hne
  consistent := h.cleared lever

lemma reclusterLever_ends {s : Store V C} (h : Consistent s) (since : Int) (lever : Lever) :
    Lib.Ends (fun p => Rewritten (s.cleared lever) lever (byAgent (windowed s lever since)) p.1)
      (fun e => ∃ m, e = Raised.analytics m) (reclusterLever cfg w since s lever) := by
  obtain ⟨hagents, hcallIds, hcalls⟩ := groups_byAgent s lever since
  refine Lib.Ends.foldlM (I := fun past (p : Store V C × Nat) =>
    Rewritten (s.cleared lever) lever past p.1) (fun past g rest p hsplit hpast => ?_)
      (h.rewritten lever)
  obtain ⟨agentId, rows⟩ := g
  have hgroups : Groups (s.cleared lever) (past ++ (agentId, rows) :: rest) :=
    hsplit ▸ ⟨hagents, hcallIds, hcalls⟩
  dsimp only
  split
  · next hsmall => exact hpast.skip hsmall
  · next hlarge =>
    have hends := hpast.clusterAgent_ends cfg w hgroups hlarge
    cases hagent : clusterAgent cfg w lever p.1 agentId rows with
    | error e => exact (hagent ▸ hends :)
    | ok q => exact (hagent ▸ hends :)

/-! ### A run -/

lemma windowed_congr {s t : Store V C} (hcalls : t.calls = s.calls)
    (hembeddings : t.embeddings = s.embeddings) (lever : Lever) (since : Int) :
    windowed t lever since = windowed s lever since := by
  rw [windowed, windowed, hcalls, hembeddings]

/-- Some levers have been written. -/
structure Through (s : Store V C) (since : Int) (past : List Lever) (t : Store V C) : Prop where
  keeps : Keeps s t
  embeddings : t.embeddings = s.embeddings
  consistent : Consistent t
  placed : ∀ lever ∈ past, t.placed lever = (byAgent (windowed t lever since)).flatMap placements

lemma placed_of_others {s t : Store V C} {lever lever' : Lever} (hne : lever' ≠ lever)
    (h : (t.assignments.rows.filter fun a => a.lever ≠ lever) =
      s.assignments.rows.filter fun a => a.lever ≠ lever) : t.placed lever' = s.placed lever' := by
  have hfilter : ∀ u : Store V C, (u.assignments.rows.filter fun a => a.lever = lever') =
      (u.assignments.rows.filter fun a => a.lever ≠ lever).filter fun a => a.lever = lever' := by
    intro u
    rw [List.filter_filter]
    refine List.filter_congr fun a _ => ?_
    by_cases ha : a.lever = lever' <;> simp [ha, hne]
  rw [Store.placed, Store.placed, hfilter, hfilter s, h]

variable (cfg w) in
lemma Through.lever_ends {s t : Store V C} {since : Int} {past : List Lever}
    (h : Through s since past t) (lever : Lever) :
    Lib.Ends (fun p => Through s since (past ++ [lever]) p.1)
      (fun e => ∃ m, e = Raised.analytics m) (reclusterLever cfg w since t lever) := by
  refine (reclusterLever_ends h.consistent since lever).mono (fun p hp => ?_) fun e he => he
  have hcalls : p.1.calls = t.calls := hp.keeps.calls
  refine ⟨h.keeps.trans ⟨hp.keeps.calls, hp.keeps.judgments⟩, hp.embeddings.trans h.embeddings,
    hp.consistent, fun lever' hmem => ?_⟩
  rw [windowed_congr hcalls hp.embeddings]
  by_cases hne : lever' = lever
  · rw [hne]
    exact hp.placed
  · obtain hmem | hmem := List.mem_append.1 hmem
    · rw [← h.placed lever' hmem, placed_of_others hne hp.others]
      refine placed_of_others hne ?_
      rw [cleared_rows, List.filter_filter]
      refine List.filter_congr fun a _ => ?_
      simp
    · exact absurd (List.mem_singleton.1 hmem) hne

/-- What a run leaves, of a store in which each judgment is of a call. -/
structure Reclustered (w : Analytics V C) (since : Int) (s t : Store V C) : Prop where
  keeps : Keeps s t
  consistent : Consistent t
  embeddings : s.embeddings.rows <+: t.embeddings.rows
  complete : ∀ lever, Serves w lever → ∀ j ∈ s.judgments.rows, j.Tells lever → t.Has lever j.callId
  placed : ∀ lever, t.placed lever = (byAgent (windowed t lever since)).flatMap placements

lemma mem_levers (lever : Lever) : lever ∈ levers := by
  cases lever <;> decide

variable (cfg w) in
/-- A run that is not skipped ends well or in an error of the numerical code. -/
lemma recluster_ends {s : Store V C} (href : Referring s) (h : Consistent s) (now : Int) :
    Lib.Ends (fun p => Reclustered w (now - cfg.clusterWindow) s p.1)
      (fun e => ∃ m, e = Raised.analytics m) (recluster cfg w true true now s) := by
  rw [recluster, if_neg (by decide), if_neg (by decide)]
  refine ((backfillEmbeddings_ends cfg w href).mono (fun _ hb => hb)
    fun _ hfalse => hfalse.elim).bind fun t hb => ?_
  have hconsistent : Consistent t := by
    refine ⟨?_, ?_, ?_⟩
    · rw [hb.clusters, hb.assignments]
      exact h.size
    · rw [hb.clusters]
      exact h.size_pos
    · rw [hb.clusters, hb.assignments]
      exact h.named
  refine Lib.Ends.bind (Q := fun p => Through t (now - cfg.clusterWindow) levers p.1) ?_ ?_
  · refine Lib.Ends.foldlM (I := fun past (p : Store V C × List (Lever × Nat)) =>
      Through t (now - cfg.clusterWindow) past p.1) (fun past lever rest p _ hp => ?_)
        ⟨.refl t, rfl, hconsistent, nofun⟩
    have hends := hp.lever_ends cfg w lever
    dsimp only
    cases hlever : reclusterLever cfg w (now - cfg.clusterWindow) p.1 lever with
    | error e => exact (hlever ▸ hends :)
    | ok q => exact (hlever ▸ hends :)
  · rintro ⟨u, out⟩ hu
    refine ⟨hb.keeps.trans hu.keeps, hu.consistent, hu.embeddings ▸ hb.embeddings,
      fun lever hserves j hj htells => ?_, fun lever => hu.placed lever (mem_levers lever)⟩
    exact (hb.complete lever (mem_levers lever) hserves j hj htells).of_isPrefix
      (hu.embeddings ▸ List.prefix_rfl)

/-! ### Histories -/

/-- A run of the worker, or a write of anyone else. -/
inductive Act (V C : Type)
  | run (cfg : Config) (w : Analytics V C) (resolved available : Bool) (now : Int)
  | write

/-- What an act does. A run that raises is rolled back. Others write the calls and the judgments,
under the foreign key, and none of the three tables. -/
inductive Acts : Store V C → Act V C → Store V C → Prop
  | committed {cfg : Config} {w : Analytics V C} {resolved available : Bool} {now : Int}
      {s t : Store V C} {out : Summary} (h : recluster cfg w resolved available now s = .ok (t, out)) :
      Acts s (.run cfg w resolved available now) t
  | rolledBack {cfg : Config} {w : Analytics V C} {resolved available : Bool} {now : Int}
      {s : Store V C} {e : Raised} (h : recluster cfg w resolved available now s = .error e) :
      Acts s (.run cfg w resolved available now) s
  | wrote {s t : Store V C} (hembeddings : t.embeddings = s.embeddings)
      (hclusters : t.clusters = s.clusters) (hassignments : t.assignments = s.assignments)
      (href : Referring t) : Acts s .write t

lemma recluster_all {s : Store V C} (href : Referring s) (h : Consistent s)
    (resolved available : Bool) (now : Int) :
    Lib.Ends (fun p => Keeps s p.1 ∧ Consistent p.1 ∧ s.embeddings.rows <+: p.1.embeddings.rows)
      (fun e => ∃ m, e = Raised.analytics m) (recluster cfg w resolved available now s) := by
  cases resolved with
  | false => exact ⟨.refl s, h, List.prefix_rfl⟩
  | true =>
    cases available with
    | false => exact ⟨.refl s, h, List.prefix_rfl⟩
    | true =>
      exact (recluster_ends cfg w href h now).mono
        (fun p hp => ⟨hp.keeps, hp.consistent, hp.embeddings⟩) fun e he => he

/-- What each act keeps. -/
lemma Acts.keeps {s t : Store V C} {a : Act V C} (ha : Acts s a t) (href : Referring s)
    (h : Consistent s) :
    Referring t ∧ Consistent t ∧ s.embeddings.rows <+: t.embeddings.rows := by
  cases ha with
  | committed hrun =>
    obtain ⟨hkeeps, hconsistent, hpre⟩ := (hrun ▸ recluster_all href h _ _ _ :)
    exact ⟨hkeeps.referring href, hconsistent, hpre⟩
  | rolledBack _ => exact ⟨href, h, List.prefix_rfl⟩
  | wrote hembeddings hclusters hassignments hnew =>
    refine ⟨hnew, ⟨?_, ?_, ?_⟩, hembeddings ▸ List.prefix_rfl⟩
    · rw [hclusters, hassignments]
      exact h.size
    · rw [hclusters]
      exact h.size_pos
    · rw [hclusters, hassignments]
      exact h.named

lemma run_keeps {s t : Store V C} {acts : List (Act V C)} (h : Lib.Run Acts s acts t)
    (href : Referring s) (hconsistent : Consistent s) :
    Referring t ∧ Consistent t ∧ s.embeddings.rows <+: t.embeddings.rows :=
  h.invariant (I := fun u => Referring u ∧ Consistent u ∧ s.embeddings.rows <+: u.embeddings.rows)
    (fun u a v hu ha => by
      obtain ⟨hreferring, hcons, hpre⟩ := ha.keeps hu.1 hu.2.1
      exact ⟨hreferring, hcons, hu.2.2.trans hpre⟩) ⟨href, hconsistent, List.prefix_rfl⟩

/-- Runs of the worker and writes of others, in any order and with any answers of the services: the
clusters fit the assignments, no vector is replaced, and no constraint refuses a statement of the
next run. -/
theorem clusters_fit {s t : Store V C} {acts : List (Act V C)} (h : Lib.Run Acts s acts t)
    (href : Referring s) (hconsistent : Consistent s) :
    Consistent t ∧ s.embeddings.rows <+: t.embeddings.rows ∧
      ∀ (cfg : Config) (w : Analytics V C) (resolved available : Bool) (now : Int),
        Lib.Ends (fun _ => True) (fun e => ∃ m, e = Raised.analytics m)
          (recluster cfg w resolved available now t) := by
  obtain ⟨hreferring, hcons, hpre⟩ := run_keeps h href hconsistent
  exact ⟨hcons, hpre, fun cfg w resolved available now =>
    (recluster_all hreferring hcons resolved available now).mono (fun _ _ => trivial)
      fun _ he => he⟩

/-- Six calls of an agent, each with a root cause. -/
def sixCalls : Store Unit Unit where
  calls := ⟨["a", "b", "c", "d", "e", "f"].map fun id => ⟨id, some "agent", 0⟩, by decide⟩
  judgments := ⟨["a", "b", "c", "d", "e", "f"].map fun id =>
    ⟨id, some "slow tool", none, none, none, none⟩, by decide⟩
  embeddings := .empty _
  clusters := .empty _
  assignments := .empty _

/-- Services for which all vectors are alike. -/
def alike : Analytics Unit Unit where
  model := "m"
  embed _ _ texts := .ok (texts.map fun _ => ())
  project vectors := .ok (vectors.map fun _ => ((), ()))
  hdbscan vectors := .ok (vectors.map fun _ => 0)
  complete := none
  project_length vectors coords h := by
    cases h
    simp
  hdbscan_length vectors labels h := by
    cases h
    simp

def smallConfig : Config := ⟨64, 90, 6, by decide⟩

theorem clusters_fit_sixCalls : ∃ t : Store Unit Unit,
    Lib.Run Acts sixCalls [.run smallConfig alike true true 10] t ∧
      t.clusters.rows.map Cluster.size = [6] ∧ Consistent t := by
  obtain ⟨p, hp, hsize⟩ : ∃ p, recluster smallConfig alike true true 10 sixCalls = .ok p ∧
      p.1.clusters.rows.map Cluster.size = [6] := ⟨_, rfl, rfl⟩
  have hrun : Lib.Run Acts sixCalls [.run smallConfig alike true true 10] p.1 :=
    .single (.committed hp)
  exact ⟨p.1, hrun, hsize, (clusters_fit hrun (by simp [Referring, sixCalls])
    ⟨nofun, nofun, nofun⟩).1⟩

/-- A call of the window is assigned for the lever exactly when its agent has enough of them there,
and under that agent. -/
def Placed (s : Store V C) (lever : Lever) (since : Int) (callId agentId : String) : Prop :=
  (∃ r ∈ windowed s lever since, r.1 = callId ∧ r.2.1.getD "" = agentId) ∧
    minToCluster ≤ ((windowed s lever since).filter fun r => r.2.1.getD "" = agentId).length

lemma mem_placements {s : Store V C} {lever : Lever} {since : Int} {callId agentId : String} :
    (callId, agentId) ∈ (byAgent (windowed s lever since)).flatMap placements ↔
      Placed s lever since callId agentId := by
  have hlength : ∀ vs, (agentId, vs) ∈ byAgent (windowed s lever since) → vs.length =
      ((windowed s lever since).filter fun r => r.2.1.getD "" = agentId).length := by
    intro vs hg
    rw [(Lib.mem_group hg).1, List.length_map]
  rw [List.mem_flatMap]
  constructor
  · rintro ⟨⟨agentId', vs⟩, hg, hmem⟩
    unfold placements at hmem
    split at hmem
    · cases hmem
    · next hlarge =>
      obtain ⟨p, hp, hpair⟩ := List.mem_map.1 hmem
      obtain ⟨rfl, rfl⟩ := Prod.mk.inj hpair
      obtain ⟨r, hr, hagent, rfl⟩ := Lib.mem_of_mem_group hg hp
      exact ⟨⟨r, hr, rfl, hagent⟩, hlength vs hg ▸ Nat.le_of_not_lt hlarge⟩
  · rintro ⟨⟨r, hr, rfl, rfl⟩, hlarge⟩
    obtain ⟨vs, hg⟩ : ∃ vs, (r.2.1.getD "", vs) ∈ byAgent (windowed s lever since) :=
      Lib.exists_mem_group hr
    refine ⟨_, hg, ?_⟩
    rw [placements, if_neg (by have := hlength vs hg; dsimp only; omega)]
    refine List.mem_map.2 ⟨(r.1, r.2.2), ?_, rfl⟩
    rw [(Lib.mem_group hg).1]
    exact List.mem_map.2 ⟨r, List.mem_filter.2 ⟨hr, decide_eq_true rfl⟩, rfl⟩

/-- A run that comes to its end, in a state that such a history leads to: which calls it assigns,
and which prose it leaves with a vector. -/
theorem recluster_places {s t u : Store V C} {acts : List (Act V C)} {cfg : Config}
    {w : Analytics V C} {now : Int} {out : Summary} (h : Lib.Run Acts s acts t)
    (href : Referring s) (hconsistent : Consistent s)
    (hrun : recluster cfg w true true now t = .ok (u, out)) :
    (∀ lever callId agentId, (∃ a ∈ u.assignments.rows, a.lever = lever ∧ a.callId = callId ∧
        a.agentId = agentId) ↔ Placed u lever (now - cfg.clusterWindow) callId agentId) ∧
      ∀ lever, Serves w lever → ∀ j ∈ u.judgments.rows, j.Tells lever → u.Has lever j.callId := by
  obtain ⟨hreferring, hcons, -⟩ := run_keeps h href hconsistent
  have hends := recluster_ends cfg w hreferring hcons now
  rw [hrun] at hends
  refine ⟨fun lever callId agentId => ?_, fun lever hserves j hj => ?_⟩
  · rw [← mem_placements, ← hends.placed lever, Store.placed]
    simp [and_assoc]
  · exact hends.complete lever hserves j (hends.keeps.judgments ▸ hj)

theorem recluster_places_sixCalls : ∃ p : Store Unit Unit × Summary,
    recluster smallConfig alike true true 10 sixCalls = .ok p ∧
      ((∃ a ∈ p.1.assignments.rows, a.lever = .rootCause ∧ a.callId = "c" ∧ a.agentId = "agent") ↔
        Placed p.1 .rootCause (10 - smallConfig.clusterWindow) "c" "agent") := by
  obtain ⟨p, hp⟩ : ∃ p, recluster smallConfig alike true true 10 sixCalls = .ok p := ⟨_, rfl⟩
  exact ⟨p, hp, (recluster_places (.nil sixCalls) (by simp [Referring, sixCalls])
    ⟨nofun, nofun, nofun⟩ hp).1 .rootCause "c" "agent"⟩

end Pulse.Clustering
