import Pulse.Worker.BackfillCalls

/-!
# The recordings of a manifest call

`process_manifest_call` gives each recording a kind, `_register_media` adds a row for each kind that
the call did not have, and `_audio_bytes` reads one recording of both sides or one of each side.
-/

namespace Pulse.Integration

open Ingest (Store Pk Media Call Time Process DbError ManifestItem audioKinds ensureAudioCall
  registerMedia processManifestCall)

/-! ### The trace of the call -/

/-- `Media.kind.like("peaks_%") | Media.kind.like("energy_%")`, where `_` is any character. -/
def derived (kind : String) : Bool :=
  ["peaks", "energy"].any fun stem =>
    stem.toList.isPrefixOf kind.toList && decide (stem.length < kind.length)

def deleteDerived (db : Store) (pk : Pk) : Store :=
  { db with
    media := db.media.filter fun m => !(decide (m.callId = pk) && derived m.kind)
    media_call := fun m hm => db.media_call m (List.mem_of_mem_filter hm) }

/-- What `_apply_header` sets from the header and its counters. -/
structure HeaderColumns where
  columns : Call → Call := id
  /-- The gate, where the counters have a `media_ready`. -/
  mediaReady : Option Bool := none

def HeaderColumns.set (h : HeaderColumns) (c : Call) : Call :=
  { h.columns c with mediaReady := h.mediaReady.getD c.mediaReady }

/-- The rows of `_peaks_rows` and `_energy_rows`. -/
def derivedRows (pk : Pk) (peaks energy : List String) : List Media :=
  (peaks.map ("peaks_" ++ ·) ++ energy.map ("energy_" ++ ·)).map fun kind => { callId := pk, kind }

/-- `_persist`, of the media and the call -/
def persist (db : Store) (pk : Pk) (header : HeaderColumns) (peaks energy : List String) :
    Except DbError Store := do
  let db ← (deleteDerived db pk).updateCall pk header.set
  (derivedRows pk peaks energy).foldlM Store.insertMedia db

/-- `process_trace`. The analysis raises, or finds the channels with peaks and those with an energy. -/
def processTrace (header : HeaderColumns)
    (analyze : Store → Pk → Option (List String × List String)) : Process := fun db pk _ =>
  match analyze db pk with
  | none => .raised (some db)
  | some (peaks, energy) =>
    match persist db pk header peaks energy with
    | .ok db => .analysed db
    | .error _ => .raised none

/-! ### The recordings of a call -/

/-- `select(Media).where(Media.call_id == call.id)` -/
def mediaOf (db : Store) (pk : Pk) : List Media := db.media.filter (·.callId = pk)

/-- `call.media_ready` -/
def gateOf (db : Store) (pk : Pk) : Bool := db.calls.any fun c => c.id = pk && c.mediaReady

/-- The call that is there, or the one that will be added. -/
def callPk (db : Store) (callId : String) : Pk :=
  (db.callByExternal callId).elim db.nextPk Call.id

/-- The uri of `kinds.get(kind)`, where it has one; the last row of a kind stays in `kinds`. -/
def uriOf (rows : List Media) (kind : String) : Option String :=
  ((rows.filter (·.kind = kind)).getLast?.bind Media.uri).filter (· ≠ "")

/-- `_audio_bytes`, without the sample rate -/
def audioBytes {B : Type} (fetchBytes : String → B) (combineStereo : B → B → B)
    (rows : List Media) : Option B :=
  match uriOf rows "audio" with
  | some stereo => some (fetchBytes stereo)
  | none => do
    let caller ← uriOf rows "audio_caller"
    let agent ← uriOf rows "audio_agent"
    some (combineStereo (fetchBytes caller) (fetchBytes agent))

/-- The uris of the recordings with one side each. -/
def dualMono (items : List ManifestItem) : List String :=
  items.filterMap fun
    | .audio layout uri => if layout = "dual_mono" then some uri else none
    | .artifact _ => none

def Recorded (rows : List Media) (kind uri : String) : Prop :=
  ∃ m ∈ rows, m.kind = kind ∧ m.uri = some uri

/-- Every recording has a row, two of one side each are the two sides, and the audio is found behind
an open gate. -/
structure AudioRegistered (rows : List Media) (gate : Bool) (items : List ManifestItem) : Prop where
  uris : ∀ layout uri, .audio layout uri ∈ items → ∃ kind, Recorded rows kind uri
  sides : ∀ u v, dualMono items = [u, v] →
    Recorded rows "audio_caller" u ∧ Recorded rows "audio_agent" v ∨
      Recorded rows "audio_caller" v ∧ Recorded rows "audio_agent" u
  found : gate = true → ∀ (B : Type) (fetchBytes : String → B) (combineStereo : B → B → B),
    audioBytes fetchBytes combineStereo rows ≠ none

/-! ### When they are registered -/

def kindOf (layout : String) : String :=
  if layout = "dual_mono" then "audio_caller" else "audio"

/-- The last recording of a kind. -/
def lastOf (items : List ManifestItem) (kind : String) : Option String :=
  (items.filterMap fun
    | .audio layout uri => if kindOf layout = kind then some uri else none
    | .artifact _ => none).getLast?

/-- The call has no row of the kind. -/
def Unregistered (rows : List Media) (kind : String) : Prop := ∀ m ∈ rows, m.kind ≠ kind

/-- The call has a recording of the kind, or gets one. -/
def Playable (rows : List Media) (items : List ManifestItem) (kind : String) : Prop :=
  uriOf rows kind ≠ none ∨
    Unregistered rows kind ∧ ∃ uri, lastOf items kind = some uri ∧ uri ≠ ""

structure Registrable (rows : List Media) (gate : Bool) (counter : Option Bool)
    (items : List ManifestItem) : Prop where
  /-- A recording has a row that stays, or is the last of a kind that the call has no row of. -/
  uris : ∀ layout uri, .audio layout uri ∈ items →
    (∃ m ∈ rows, derived m.kind = false ∧ m.uri = some uri) ∨
      ∃ kind, Unregistered rows kind ∧ lastOf items kind = some uri
  /-- One of two recordings of one side is the agent already, and the other is the caller or is going
  to be. -/
  sides : ∀ u v, dualMono items = [u, v] →
    Recorded rows "audio_agent" v ∧ Recorded rows "audio_caller" u ∨
      Recorded rows "audio_agent" u ∧
        (Recorded rows "audio_caller" v ∨ Unregistered rows "audio_caller")
  /-- An open gate comes with a recording of both sides, or with one of each. -/
  found : counter.getD (gate || items.any fun
      | .audio _ _ => true
      | .artifact _ => false) = true →
    Playable rows items "audio" ∨
      Playable rows items "audio_caller" ∧ uriOf rows "audio_agent" ≠ none

/-! ### What the call has afterwards -/

/-- The media of the call, and its gate. -/
structure Holds (db : Store) (pk : Pk) (rows : List Media) (gate : Bool) : Prop where
  media : mediaOf db pk = rows
  row : ∃ c ∈ db.calls, c.id = pk ∧ c.mediaReady = gate

section

variable {db db' : Store} {pk : Pk} {rows : List Media} {gate : Bool}

lemma Holds.gateOf_eq (h : Holds db pk rows gate) : gateOf db pk = gate := by
  obtain ⟨c, hc, rfl, rfl⟩ := h.row
  rw [Bool.eq_iff_iff, gateOf, List.any_eq_true]
  constructor
  · rintro ⟨d, hd, h⟩
    rw [Bool.and_eq_true, decide_eq_true_eq] at h
    rw [← Store.eq_of_id_eq hd hc h.1]
    exact h.2
  · intro h
    exact ⟨c, hc, by simp [h]⟩

lemma Holds.edits {f : Call → Call} {new : List Media} {g : Bool → Bool} (h : Holds db pk rows gate)
    (hedits : Worker.Edits db db' pk f new) (hnew : ∀ m ∈ new, m.callId = pk)
    (hgate : ∀ c, (f c).mediaReady = g c.mediaReady) : Holds db' pk (rows ++ new) (g gate) := by
  constructor
  · have hall : new.filter (·.callId = pk) = new :=
      List.filter_eq_self.2 fun m hm => by simpa using hnew m hm
    rw [mediaOf, hedits.media, List.filter_append, hall, ← h.media, mediaOf]
  · obtain ⟨c, hc, hid, rfl⟩ := h.row
    refine ⟨Store.onRow pk f c, ?_, ?_, ?_⟩
    · rw [hedits.calls]
      exact List.mem_map_of_mem hc
    · rw [Store.onRow_id, hid]
    · rw [Store.onRow, if_pos hid]
      exact hgate c

lemma Holds.updateCall {f : Call → Call} {g : Bool → Bool} (h : Holds db pk rows gate)
    (hok : db.updateCall pk f = .ok db') (hgate : ∀ c, (f c).mediaReady = g c.mediaReady) :
    Holds db' pk rows (g gate) := by
  have hedits := h.edits (Worker.Edits.of_updateCall hok) (by simp) hgate
  rwa [List.append_nil] at hedits

lemma Holds.deleteDerived (h : Holds db pk rows gate) :
    Holds (deleteDerived db pk) pk (rows.filter fun m => !derived m.kind) gate := by
  refine ⟨?_, h.row⟩
  rw [← h.media, mediaOf, mediaOf, Integration.deleteDerived, List.filter_filter, List.filter_filter]
  refine List.filter_congr fun m _ => ?_
  cases decide (m.callId = pk) <;> simp

lemma foldlM_insertMedia {ms : List Media} (h : ms.foldlM Store.insertMedia db = .ok db') :
    db'.calls = db.calls ∧ db'.media = db.media ++ ms := by
  induction ms generalizing db with
  | nil =>
    cases h
    exact ⟨rfl, (List.append_nil _).symm⟩
  | cons m ms ih =>
    rw [List.foldlM_cons] at h
    obtain ⟨db₁, h₁, h⟩ := Lib.bind_eq_ok.1 h
    obtain ⟨hcalls, hmedia⟩ := ih h
    unfold Store.insertMedia at h₁
    split at h₁
    · cases h₁
      exact ⟨hcalls, by rw [hmedia, List.append_assoc]; rfl⟩
    · cases h₁

lemma Holds.persist {header : HeaderColumns} {peaks energy : List String}
    (h : Holds db pk rows gate) (hok : persist db pk header peaks energy = .ok db') :
    Holds db' pk ((rows.filter fun m => !derived m.kind) ++ derivedRows pk peaks energy)
      (header.mediaReady.getD gate) := by
  obtain ⟨db₁, h₁, h₂⟩ := Lib.bind_eq_ok.1 hok
  have hset := h.deleteDerived.updateCall (g := header.mediaReady.getD) h₁ fun c => rfl
  obtain ⟨hcalls, hmedia⟩ := foldlM_insertMedia h₂
  constructor
  · have hall : (derivedRows pk peaks energy).filter (·.callId = pk) = derivedRows pk peaks energy :=
      List.filter_eq_self.2 fun m hm => by
        obtain ⟨kind, -, rfl⟩ := List.mem_map.1 hm
        simp
    rw [mediaOf, hmedia, List.filter_append, hall, ← hset.media, mediaOf]
  · rw [hcalls]
    exact hset.row

lemma Holds.registerMedia {kinds : List (String × String)} (h : Holds db pk rows gate)
    (hok : registerMedia db pk kinds = .ok db') :
    Holds db' pk (rows ++ Worker.missing rows pk kinds) (gate || !decide (kinds = [])) := by
  obtain ⟨c, hc, hid, -⟩ := h.row
  have hpk : pk ∈ db.calls.map Call.id := hid ▸ List.mem_map_of_mem hc
  obtain ⟨db₁, hok₁, hedits⟩ := Worker.registerMedia_edits kinds hpk
  obtain rfl : db' = db₁ := Except.ok.inj (hok.symm.trans hok₁)
  have hmissing : Worker.missing db.media pk kinds = Worker.missing rows pk kinds := by
    rw [← h.media, Worker.missing, Worker.missing]
    congr 1
    refine List.filter_congr fun k _ => ?_
    rw [mediaOf, List.any_filter]
    congr 2
    funext m
    rw [Bool.decide_and, ← Bool.and_assoc, Bool.and_self]
  rw [hmissing] at hedits
  refine h.edits (g := (· || !decide (kinds = []))) hedits ?_ fun c => ?_
  · intro m hm
    obtain ⟨k, -, rfl⟩ := List.mem_map.1 hm
    rfl
  · rw [Worker.audioReady]
    split
    · next hnil => simp [hnil]
    · next hne => simp [hne]

lemma holds_ensured {agentId : Option String} {callId : String} {now : Time}
    (hok : ensureAudioCall db agentId callId now = .ok (db', pk)) : pk = callPk db callId ∧
      Holds db' pk (mediaOf db (callPk db callId)) (gateOf db (callPk db callId)) := by
  rw [callPk]
  cases hfound : db.callByExternal callId with
  | some c =>
    rw [Worker.ensureAudioCall_found hfound] at hok
    obtain ⟨rfl, rfl⟩ := Prod.mk.inj (Except.ok.inj hok)
    have hrow : Holds db c.id (mediaOf db c.id) c.mediaReady :=
      ⟨rfl, c, (Store.callByExternal_some hfound).1, rfl, rfl⟩
    refine ⟨rfl, ?_⟩
    rw [Option.elim_some, hrow.gateOf_eq]
    exact hrow
  | none =>
    rw [Option.elim_none]
    have hmedia : mediaOf db db.nextPk = [] := by
      refine List.filter_eq_nil_iff.2 fun m hm hpk => ?_
      obtain ⟨c, hc, hid⟩ := List.mem_map.1 (db.media_call m hm)
      have hlt := db.call_lt c hc
      have heq : m.callId = db.nextPk := by simpa using hpk
      exact absurd (hid.trans heq) (Nat.ne_of_lt hlt)
    have hgate : gateOf db db.nextPk = false := by
      refine List.any_eq_false.2 fun c hc hopen => ?_
      have hlt := db.call_lt c hc
      have heq : c.id = db.nextPk ∧ c.mediaReady = true := by simpa using hopen
      exact absurd heq.1 (Nat.ne_of_lt hlt)
    obtain ⟨db₁, hinsert, hcalls, hsame⟩ := Store.insertCall_ok db {
      id := 0, externalCallId := callId, agentId, source := .str "backfill",
      environment := .str "prod", status := .awaitingMedia, analysisMode := .audioOnly,
      lastActivityAt := now } hfound
    rw [ensureAudioCall, hfound] at hok
    dsimp only at hok
    rw [hinsert] at hok
    obtain ⟨rfl, rfl⟩ := Prod.mk.inj (Except.ok.inj hok)
    refine ⟨rfl, ?_, ?_⟩
    · rw [mediaOf, hsame.media]
      rfl
    · rw [hgate, hcalls]
      exact ⟨_, List.mem_append_right _ (List.mem_singleton_self _), rfl, rfl⟩

/-- What the call has when the processing returns. -/
theorem processManifestCall_holds {header : HeaderColumns}
    {analyze : Store → Pk → Option (List String × List String)} {agentId : Option String}
    {callId : String} {items : List ManifestItem} {now : Time}
    (hok : processManifestCall (processTrace header analyze) db agentId callId items now = .ok db') :
    ∃ peaks energy, Holds db' (callPk db callId)
      (((mediaOf db (callPk db callId) ++ Worker.missing (mediaOf db (callPk db callId))
        (callPk db callId) (audioKinds items)).filter fun m => !derived m.kind) ++
          derivedRows (callPk db callId) peaks energy)
      (header.mediaReady.getD (gateOf db (callPk db callId) || !decide (audioKinds items = []))) := by
  unfold processManifestCall at hok
  obtain ⟨⟨db₁, pk⟩, h₁, hok⟩ := Lib.bind_eq_ok.1 hok
  obtain ⟨db₂, h₂, hok⟩ := Lib.bind_eq_ok.1 hok
  have h₁ : ensureAudioCall db agentId callId now = .ok (db₁, pk) := Lib.mapError_eq_ok.1 h₁
  have h₂ := Lib.mapError_eq_ok.1 h₂
  obtain ⟨rfl, hensured⟩ := holds_ensured h₁
  have hsourced := hensured.updateCall (g := id) h₂ fun c => by split <;> rfl
  split at hok
  · exact absurd hok Lib.throw_bind_ne_ok
  · obtain ⟨-, -, hok⟩ := Lib.bind_eq_ok.1 hok
    obtain ⟨db₃, h₃, hok⟩ := Lib.bind_eq_ok.1 hok
    obtain ⟨db₄, h₄, hok⟩ := Lib.bind_eq_ok.1 hok
    have hregistered := hsourced.registerMedia (Lib.mapError_eq_ok.1 h₃)
    have hcomplete := hregistered.updateCall (g := id) (Lib.mapError_eq_ok.1 h₄) fun c => rfl
    unfold processTrace at hok
    split at hok
    · cases hok
    · next peaks energy _ =>
      split at hok
      · next db₅ hpersist =>
        cases hok
        exact ⟨peaks, energy, hcomplete.persist hpersist⟩
      · cases hok

end

/-! ### The kinds of the recordings -/

section

variable {items : List ManifestItem} {kind uri : String}

lemma audioKinds_snoc (layout uri : String) : audioKinds (items ++ [.audio layout uri]) =
    (audioKinds items).filter (·.1 ≠ kindOf layout) ++ [(kindOf layout, uri)] := by
  rw [audioKinds, List.foldl_append]
  rfl

lemma lastOf_snoc (layout uri : String) : lastOf (items ++ [.audio layout uri]) kind =
    if kindOf layout = kind then some uri else lastOf items kind := by
  rw [lastOf, List.filterMap_append]
  by_cases h : kindOf layout = kind
  · simp [h]
  · simp [h, lastOf]

/-- Of each kind the last recording is left. -/
lemma mem_audioKinds : (kind, uri) ∈ audioKinds items ↔ lastOf items kind = some uri := by
  induction items using List.reverseRecOn with
  | nil => simp [audioKinds, lastOf]
  | append_singleton items item ih =>
    cases item with
    | audio layout uri' =>
      rw [audioKinds_snoc, lastOf_snoc, List.mem_append, List.mem_filter, List.mem_singleton,
        Prod.mk.injEq, decide_eq_true_eq]
      by_cases h : kindOf layout = kind
      · rw [if_pos h, Option.some.injEq]
        constructor
        · rintro (⟨-, hne⟩ | ⟨-, heq⟩)
          · exact absurd h.symm hne
          · exact heq.symm
        · rintro rfl
          exact .inr ⟨h.symm, rfl⟩
      · rw [if_neg h, ← ih]
        constructor
        · rintro (⟨hmem, -⟩ | ⟨heq, -⟩)
          · exact hmem
          · exact absurd heq.symm h
        · exact fun hmem => .inl ⟨hmem, Ne.symm h⟩
    | artifact readable =>
      have hkinds : audioKinds (items ++ [.artifact readable]) = audioKinds items := by
        rw [audioKinds, List.foldl_append]
        rfl
      have hlast : lastOf (items ++ [.artifact readable]) kind = lastOf items kind := by
        simp [lastOf]
      rw [hkinds, hlast, ih]

lemma lastOf_kind (h : lastOf items kind = some uri) : kind = "audio" ∨ kind = "audio_caller" := by
  obtain ⟨item, -, hitem⟩ := List.mem_filterMap.1 (List.mem_of_getLast? h)
  cases item with
  | audio layout uri' =>
    dsimp only at hitem
    split at hitem
    · next heq =>
      rw [← heq, kindOf]
      split
      · exact .inr rfl
      · exact .inl rfl
    · cases hitem
  | artifact readable => cases hitem

lemma not_derived_of_lastOf (h : lastOf items kind = some uri) : derived kind = false := by
  obtain rfl | rfl := lastOf_kind h
  · decide
  · decide

/-- There is a kind exactly when there is a recording. -/
lemma audioKinds_eq_nil : audioKinds items = [] ↔ items.any (fun
    | .audio _ _ => true
    | .artifact _ => false) = false := by
  induction items using List.reverseRecOn with
  | nil => exact iff_of_true rfl rfl
  | append_singleton items item ih =>
    cases item with
    | audio layout uri =>
      rw [audioKinds_snoc]
      simp
    | artifact readable =>
      have hkinds : audioKinds (items ++ [.artifact readable]) = audioKinds items := by
        rw [audioKinds, List.foldl_append]
        rfl
      rw [hkinds, ih]
      simp

end

/-! ### The rows -/

/-- The rows of the call when the processing returns. -/
def rowsAfter (rows : List Media) (pk : Pk) (items : List ManifestItem)
    (peaks energy : List String) : List Media :=
  ((rows ++ Worker.missing rows pk (audioKinds items)).filter fun m => !derived m.kind) ++
    derivedRows pk peaks energy

section

variable {rows : List Media} {pk : Pk} {items : List ManifestItem} {peaks energy : List String}
  {kind uri : String} {m : Media}

lemma derived_of_mem_derivedRows (h : m ∈ derivedRows pk peaks energy) :
    derived m.kind = true ∧ m.uri = none := by
  obtain ⟨kind, hkind, rfl⟩ := List.mem_map.1 h
  refine ⟨?_, rfl⟩
  obtain hkind | hkind := List.mem_append.1 hkind
  · obtain ⟨channel, -, rfl⟩ := List.mem_map.1 hkind
    have hlength : "peaks".length < "peaks_".length := by decide
    simp [derived, String.toList_append, String.length_append]
    omega
  · obtain ⟨channel, -, rfl⟩ := List.mem_map.1 hkind
    have hlength : "energy".length < "energy_".length := by decide
    simp [derived, String.toList_append, String.length_append]
    omega

lemma mem_missing (hrows : ∀ r ∈ rows, r.callId = pk) :
    m ∈ Worker.missing rows pk (audioKinds items) ↔ ∃ kind uri, lastOf items kind = some uri ∧
      Unregistered rows kind ∧ m = ⟨pk, kind, some uri, none⟩ := by
  simp only [Worker.missing, List.mem_map, List.mem_filter, Prod.exists, mem_audioKinds]
  refine exists_congr fun kind => exists_congr fun uri => ?_
  have hnone : (!rows.any fun r => r.callId = pk ∧ r.kind = kind) = true ↔
      Unregistered rows kind := by
    rw [Bool.not_eq_true', List.any_eq_false]
    refine forall₂_congr fun r hr => ?_
    simp [hrows r hr]
  rw [hnone, and_assoc]
  exact and_congr_right fun _ => and_congr_right fun _ => eq_comm

/-- A row that stays is one that was there or that is added. -/
lemma mem_rowsAfter (hrows : ∀ r ∈ rows, r.callId = pk) (huri : m.uri = some uri) :
    m ∈ rowsAfter rows pk items peaks energy ↔ m ∈ rows ∧ derived m.kind = false ∨
      lastOf items m.kind = some uri ∧ Unregistered rows m.kind ∧
        m = ⟨pk, m.kind, some uri, none⟩ := by
  rw [rowsAfter, List.mem_append, List.mem_filter, List.mem_append, mem_missing hrows,
    Bool.not_eq_true']
  constructor
  · rintro (⟨hrow | ⟨kind, uri', hlast, hnone, rfl⟩, hkind⟩ | hderived)
    · exact .inl ⟨hrow, hkind⟩
    · obtain rfl := Option.some.inj huri
      exact .inr ⟨hlast, hnone, rfl⟩
    · rw [(derived_of_mem_derivedRows hderived).2] at huri
      cases huri
  · rintro (⟨hrow, hkind⟩ | ⟨hlast, hnone, heq⟩)
    · exact .inl ⟨.inl hrow, hkind⟩
    · exact .inl ⟨.inr ⟨_, _, hlast, hnone, heq⟩, not_derived_of_lastOf hlast⟩

lemma recorded_rowsAfter (hrows : ∀ r ∈ rows, r.callId = pk) (hkind : derived kind = false) :
    Recorded (rowsAfter rows pk items peaks energy) kind uri ↔
      Recorded rows kind uri ∨ lastOf items kind = some uri ∧ Unregistered rows kind := by
  constructor
  · rintro ⟨m, hm, rfl, huri⟩
    obtain ⟨hrow, -⟩ | ⟨hlast, hnone, -⟩ := (mem_rowsAfter hrows huri).1 hm
    · exact .inl ⟨m, hrow, rfl, huri⟩
    · exact .inr ⟨hlast, hnone⟩
  · rintro (⟨m, hm, rfl, huri⟩ | ⟨hlast, hnone⟩)
    · exact ⟨m, (mem_rowsAfter hrows huri).2 (.inl ⟨hm, hkind⟩), rfl, huri⟩
    · exact ⟨⟨pk, kind, some uri, none⟩, (mem_rowsAfter hrows rfl).2 (.inr ⟨hlast, hnone, rfl⟩),
        rfl, rfl⟩

lemma exists_recorded_rowsAfter (hrows : ∀ r ∈ rows, r.callId = pk) :
    (∃ kind, Recorded (rowsAfter rows pk items peaks energy) kind uri) ↔
      (∃ m ∈ rows, derived m.kind = false ∧ m.uri = some uri) ∨
        ∃ kind, Unregistered rows kind ∧ lastOf items kind = some uri := by
  constructor
  · rintro ⟨_, m, hm, rfl, huri⟩
    obtain ⟨hrow, hkind⟩ | ⟨hlast, hnone, -⟩ := (mem_rowsAfter hrows huri).1 hm
    · exact .inl ⟨m, hrow, hkind, huri⟩
    · exact .inr ⟨m.kind, hnone, hlast⟩
  · rintro (⟨m, hrow, hkind, huri⟩ | ⟨kind, hnone, hlast⟩)
    · exact ⟨m.kind, m, (mem_rowsAfter hrows huri).2 (.inl ⟨hrow, hkind⟩), rfl, huri⟩
    · exact ⟨kind, (recorded_rowsAfter hrows (not_derived_of_lastOf hlast)).2 (.inr ⟨hlast, hnone⟩)⟩

/-- Of a kind that the call has a row of nothing is added; of another the last recording is. -/
lemma filter_kind_rowsAfter (hkind : derived kind = false) :
    (rowsAfter rows pk items peaks energy).filter (·.kind = kind) =
      rows.filter (·.kind = kind) ++
        (Worker.missing rows pk (audioKinds items)).filter (·.kind = kind) := by
  have hderived : (derivedRows pk peaks energy).filter (·.kind = kind) = [] := by
    refine List.filter_eq_nil_iff.2 fun m hm heq => ?_
    have hm := (derived_of_mem_derivedRows hm).1
    rw [of_decide_eq_true heq, hkind] at hm
    cases hm
  rw [rowsAfter, List.filter_append, hderived, List.append_nil, List.filter_filter,
    ← List.filter_append]
  refine List.filter_congr fun m _ => ?_
  by_cases heq : m.kind = kind
  · simp [heq, hkind]
  · simp [heq]

lemma uriOf_rowsAfter (hrows : ∀ r ∈ rows, r.callId = pk) (hkind : derived kind = false) :
    uriOf (rowsAfter rows pk items peaks energy) kind ≠ none ↔ Playable rows items kind := by
  rw [uriOf, filter_kind_rowsAfter hkind, Playable]
  by_cases hnone : Unregistered rows kind
  · have hempty : rows.filter (·.kind = kind) = [] :=
      List.filter_eq_nil_iff.2 fun m hm heq => hnone m hm (of_decide_eq_true heq)
    have hmem : ∀ m ∈ (Worker.missing rows pk (audioKinds items)).filter (·.kind = kind),
        m.uri = lastOf items kind := by
      intro m hm
      obtain ⟨hm, heq⟩ := List.mem_filter.1 hm
      obtain ⟨kind', uri, hlast, -, rfl⟩ := (mem_missing hrows).1 hm
      obtain rfl : kind' = kind := of_decide_eq_true heq
      exact hlast.symm
    have huri : ((Worker.missing rows pk (audioKinds items)).filter (·.kind = kind)).getLast?.bind
        Media.uri = lastOf items kind := by
      cases hlist : ((Worker.missing rows pk (audioKinds items)).filter (·.kind = kind)).getLast? with
      | some m => exact hmem m (List.mem_of_getLast? hlist)
      | none =>
        cases hlast : lastOf items kind with
        | none => rfl
        | some uri =>
          rw [List.getLast?_eq_none_iff, List.filter_eq_nil_iff] at hlist
          have hnew := (mem_missing hrows).2 ⟨kind, uri, hlast, hnone, rfl⟩
          exact absurd (decide_eq_true rfl) (hlist _ hnew)
    rw [hempty, List.nil_append, huri, uriOf, hempty]
    cases lastOf items kind with
    | none => simp
    | some uri => simp [hnone, Option.filter_some]
  · have hmissing : (Worker.missing rows pk (audioKinds items)).filter (·.kind = kind) = [] := by
      refine List.filter_eq_nil_iff.2 fun m hm heq => ?_
      obtain ⟨kind', uri, -, hnone', rfl⟩ := (mem_missing hrows).1 hm
      obtain rfl : kind' = kind := of_decide_eq_true heq
      exact hnone hnone'
    rw [hmissing, List.append_nil]
    exact ⟨.inl, fun h => h.resolve_right fun h => hnone h.1⟩

lemma audioBytes_ne_none_iff {B : Type} (fetchBytes : String → B) (combineStereo : B → B → B) :
    audioBytes fetchBytes combineStereo rows ≠ none ↔ uriOf rows "audio" ≠ none ∨
      uriOf rows "audio_caller" ≠ none ∧ uriOf rows "audio_agent" ≠ none := by
  rw [audioBytes]
  cases uriOf rows "audio" with
  | some stereo => simp
  | none =>
    cases uriOf rows "audio_caller" with
    | none => simp
    | some caller => cases uriOf rows "audio_agent" <;> simp

lemma lastOf_audio_agent : lastOf items "audio_agent" = none := by
  cases h : lastOf items "audio_agent" with
  | none => rfl
  | some uri =>
    have hne : "audio_agent" ≠ "audio" ∧ "audio_agent" ≠ "audio_caller" := by decide
    exact absurd (lastOf_kind h) (not_or.2 hne)

lemma lastOf_audio_caller : lastOf items "audio_caller" = (dualMono items).getLast? := by
  rw [lastOf, dualMono]
  congr 2
  funext item
  cases item with
  | audio layout uri =>
    dsimp only
    rw [kindOf]
    split
    · exact if_pos rfl
    · exact if_neg (by decide)
  | artifact readable => rfl

/-- The recordings are registered exactly when they can be. -/
lemma recorded_agent_rowsAfter (hrows : ∀ r ∈ rows, r.callId = pk) (uri : String) :
    Recorded (rowsAfter rows pk items peaks energy) "audio_agent" uri ↔
      Recorded rows "audio_agent" uri := by
  rw [recorded_rowsAfter hrows (by decide), lastOf_audio_agent]
  simp

/-- The player finds a recording among the rows before and the items. -/
lemma audioBytes_rowsAfter_ne_none_iff (hrows : ∀ r ∈ rows, r.callId = pk) {B : Type}
    (fetchBytes : String → B) (combineStereo : B → B → B) :
    audioBytes fetchBytes combineStereo (rowsAfter rows pk items peaks energy) ≠ none ↔
      Playable rows items "audio" ∨
        Playable rows items "audio_caller" ∧ uriOf rows "audio_agent" ≠ none := by
  rw [audioBytes_ne_none_iff, uriOf_rowsAfter hrows (by decide), uriOf_rowsAfter hrows (by decide),
    uriOf_rowsAfter hrows (by decide)]
  simp [Playable, lastOf_audio_agent]

/-- Two of one side each are the two sides: the later one has the caller's row if that was free. -/
lemma sides_rowsAfter_iff (hrows : ∀ r ∈ rows, r.callId = pk) {u v : String}
    (hdual : dualMono items = [u, v]) :
    (Recorded (rowsAfter rows pk items peaks energy) "audio_caller" u ∧
        Recorded (rowsAfter rows pk items peaks energy) "audio_agent" v ∨
      Recorded (rowsAfter rows pk items peaks energy) "audio_caller" v ∧
        Recorded (rowsAfter rows pk items peaks energy) "audio_agent" u) ↔
    (Recorded rows "audio_agent" v ∧ Recorded rows "audio_caller" u ∨
      Recorded rows "audio_agent" u ∧
        (Recorded rows "audio_caller" v ∨ Unregistered rows "audio_caller")) := by
  have hlast : lastOf items "audio_caller" = some v := by
    rw [lastOf_audio_caller, hdual]
    rfl
  rw [recorded_agent_rowsAfter hrows, recorded_agent_rowsAfter hrows,
    recorded_rowsAfter hrows (by decide), recorded_rowsAfter hrows (by decide), hlast,
    Option.some.injEq]
  constructor
  · rintro (⟨hcaller | ⟨rfl, hnone⟩, hagent⟩ | ⟨hcaller | ⟨-, hnone⟩, hagent⟩)
    · exact .inl ⟨hagent, hcaller⟩
    · exact .inr ⟨hagent, .inr hnone⟩
    · exact .inr ⟨hagent, .inl hcaller⟩
    · exact .inr ⟨hagent, .inr hnone⟩
  · rintro (⟨hagent, hcaller⟩ | ⟨hagent, hcaller | hnone⟩)
    · exact .inl ⟨.inl hcaller, hagent⟩
    · exact .inr ⟨.inl hcaller, hagent⟩
    · exact .inr ⟨.inr ⟨rfl, hnone⟩, hagent⟩

lemma audioRegistered_rowsAfter (hrows : ∀ r ∈ rows, r.callId = pk) (gate : Bool)
    (counter : Option Bool) :
    AudioRegistered (rowsAfter rows pk items peaks energy)
        (counter.getD (gate || !decide (audioKinds items = []))) items ↔
      Registrable rows gate counter items := by
  have hgate : (!decide (audioKinds items = [])) = items.any fun
      | .audio _ _ => true
      | .artifact _ => false := by
    rw [Bool.eq_iff_iff, Bool.not_eq_true', decide_eq_false_iff_not, audioKinds_eq_nil,
      Bool.not_eq_false]
  rw [hgate]
  constructor
  · rintro ⟨huris, hpair, hplays⟩
    exact ⟨fun layout uri h => (exists_recorded_rowsAfter hrows).1 (huris layout uri h),
      fun u v h => (sides_rowsAfter_iff hrows h).1 (hpair u v h),
      fun h => (audioBytes_rowsAfter_ne_none_iff hrows (fun _ => ()) fun _ _ => ()).1 (hplays h Unit _ _)⟩
  · rintro ⟨huris, hpair, hplays⟩
    exact ⟨fun layout uri h => (exists_recorded_rowsAfter hrows).2 (huris layout uri h),
      fun u v h => (sides_rowsAfter_iff hrows h).2 (hpair u v h),
      fun h B fetchBytes combineStereo =>
        (audioBytes_rowsAfter_ne_none_iff hrows fetchBytes combineStereo).2 (hplays h)⟩

end

/-- Every recording of a manifest call is registered exactly when each has a row or is the last of a
kind without one, two of one side each are the two sides already but for the later one, and an open
gate comes with audio. -/
theorem manifest_audio_iff {header : HeaderColumns}
    {analyze : Store → Pk → Option (List String × List String)} {db db' : Store}
    {agentId : Option String} {callId : String} {items : List ManifestItem} {now : Time}
    (hok : processManifestCall (processTrace header analyze) db agentId callId items now = .ok db') :
    AudioRegistered (mediaOf db' (callPk db callId)) (gateOf db' (callPk db callId)) items ↔
      Registrable (mediaOf db (callPk db callId)) (gateOf db (callPk db callId)) header.mediaReady
        items := by
  obtain ⟨peaks, energy, hholds⟩ := processManifestCall_holds hok
  rw [hholds.media, hholds.gateOf_eq]
  refine audioRegistered_rowsAfter (fun r hr => ?_) _ _
  simpa using (List.mem_filter.1 hr).2

/-! ### Two recordings -/

/-- A first call, whose audio has two channels. -/
def firstCall (items : List ManifestItem) : Ingest.Session Store :=
  processManifestCall (processTrace {} fun _ _ => some (["caller", "agent"], ["caller", "agent"]))
    Store.empty none "c1" items 0

def stored (items : List ManifestItem) : Store :=
  match firstCall items with
  | .ok db => db
  | .error _ => Store.empty

def oneStereo : List ManifestItem := [.audio "stereo" "s3://b/c1.wav"]

def twoStereo : List ManifestItem := [.audio "stereo" "s3://b/1.wav", .audio "stereo" "s3://b/2.wav"]

def twoSides : List ManifestItem :=
  [.audio "dual_mono" "s3://b/1.wav", .audio "dual_mono" "s3://b/2.wav"]

theorem manifest_audio_stereo :
    AudioRegistered (mediaOf (stored oneStereo) 0) (gateOf (stored oneStereo) 0) oneStereo := by
  have hok : firstCall oneStereo = .ok (stored oneStereo) := rfl
  have hlast : lastOf oneStereo "audio" = some "s3://b/c1.wav" := rfl
  have hnone : Unregistered (mediaOf Store.empty 0) "audio" := by
    simp [Unregistered, mediaOf, Store.empty]
  refine (manifest_audio_iff hok).2 ⟨fun layout uri h => .inr ⟨"audio", hnone, ?_⟩, ?_, fun _ => ?_⟩
  · obtain ⟨-, rfl⟩ : layout = "stereo" ∧ uri = "s3://b/c1.wav" := by simpa [oneStereo] using h
    exact hlast
  · intro u v h
    cases h
  · exact .inl (.inr ⟨hnone, _, hlast, by decide⟩)

/-- Two recordings of one side each are both the caller, of two recordings of both sides the first is
forgotten. -/
theorem manifest_audio_lost :
    (firstCall twoSides = .ok (stored twoSides) ∧
      ¬AudioRegistered (mediaOf (stored twoSides) 0) (gateOf (stored twoSides) 0) twoSides) ∧
    firstCall twoStereo = .ok (stored twoStereo) ∧
      ¬AudioRegistered (mediaOf (stored twoStereo) 0) (gateOf (stored twoStereo) 0) twoStereo := by
  constructor
  · refine ⟨rfl, fun h => ?_⟩
    have hrows : ((mediaOf (stored twoSides) 0).any fun m => m.kind = "audio_agent") = false := rfl
    obtain ⟨-, m, hm, hkind, -⟩ | ⟨-, m, hm, hkind, -⟩ := h.sides _ _ rfl
    · exact List.any_eq_false.1 hrows m hm (decide_eq_true hkind)
    · exact List.any_eq_false.1 hrows m hm (decide_eq_true hkind)
  · refine ⟨rfl, fun h => ?_⟩
    have hrows : ((mediaOf (stored twoStereo) 0).any fun m => m.uri = some "s3://b/1.wav") = false :=
      rfl
    obtain ⟨kind, m, hm, -, huri⟩ := h.uris "stereo" "s3://b/1.wav" List.mem_cons_self
    exact List.any_eq_false.1 hrows m hm (decide_eq_true huri)

end Pulse.Integration
