import Pulse.Api.Prompts
import Pulse.Lib.Run
import Pulse.Lib.Sessions

/-!
# Concurrent writers of versions

`set_agent_script` and `set_agent_guardrails` as transactions under READ COMMITTED, one action a
statement. A statement reads the committed rows. An update takes the lock of its row and an insert
that of its unique key; both wait while another session has it.
-/

namespace Pulse.Api.Versions

open Lib (CountsUp Run Shared)

/-- A text to set for an agent. -/
structure SetRequest where
  kind : Kind
  agentId : String
  text : String
  userId : Option String

/-- A request whose prompt is found, or is inserted by the transaction. -/
structure Setting where
  request : SetRequest
  prompt : Prompt
  isNew : Bool

/-- How far a session is in its transaction. -/
inductive Tx
  /-- No prompt has the hash of the text. -/
  | missing (r : SetRequest)
  | prompted (w : Setting)
  /-- The row that is read as the active one has another prompt, or there is none. -/
  | selected (w : Setting) (active : Option Version)
  /-- The flush has deactivated the row that was read. -/
  | deactivated (w : Setting) (active : Version)
  /-- The highest version is read. -/
  | numbered (w : Setting) (active : Option Version) (last : Nat)
  | inserted (w : Setting) (active : Option Version) (row : Version)
  /-- The row that is read as the active one has the prompt. -/
  | unchanged (w : Setting)

def Tx.request : Tx → SetRequest
  | .missing r => r
  | .prompted w | .selected w _ | .deactivated w _ | .numbered w _ _ | .inserted w _ _
  | .unchanged w => w.request

/-- What a session can hold: the unique keys, of which one is that of a row, too. -/
inductive Key
  /-- `uq_prompt_template` -/
  | prompt (sha256 : String)
  /-- `uq_agent_script_version` and its like -/
  | version (k : Kind) (agentId : String) (version : Nat)
  deriving DecidableEq

abbrev Tables := Lib.Shared Store Tx Key

/-- Nothing is set. -/
def start : Tables := { store := {} }

/-- The rows that can be read as the active one: any, when there are several. -/
def choices (s : Store) (k : Kind) (agentId : String) : List (Option Version) :=
  let actives := (s.ofAgent k agentId).filter (·.active)
  if actives.isEmpty then [none] else actives.map some

/-- The prompts that the transaction leaves. -/
def Setting.written (w : Setting) (s : Store) : Store := if w.isNew then s.addPrompt w.prompt else s

/-- What a transaction writes, once all its statements have run. -/
def Tx.written : Tx → Store → Option Store
  | .unchanged w, s => some (w.written s)
  | .inserted w active row, s =>
    let s := w.written s
    some ((active.elim s (s.deactivate w.request.kind)).addVersion w.request.kind row)
  | _, _ => none

/-- One statement of a session. -/
inductive Action
  | selectPrompt (i : Nat) (r : SetRequest)
  | insertPrompt (i : Nat) (id : String)
  | selectActive (i : Nat) (active : Option Version)
  | deactivate (i : Nat)
  | selectLast (i : Nat)
  | insertVersion (i : Nat)
  | commit (i : Nat)
  | abort (i : Nat)

/-- The tables after an action, if the session can take it now. -/
def act (sha : String → String) (s : Tables) : Action → Option Tables
  | .selectPrompt i r =>
    match s.session i with
    | some _ => none
    | none =>
      match s.store.find (sha r.text) with
      | some prompt => some (s.put i (.prompted { request := r, prompt, isNew := false }))
      | none => some (s.put i (.missing r))
  | .insertPrompt i id =>
    match s.session i with
    | some (.missing r) =>
      -- another session has committed the hash since
      if (s.store.find (sha r.text)).isSome then some (s.release i)
      else if (s.holder (.prompt (sha r.text))).isNone then
        let prompt := { id, templateSha256 := sha r.text, text := r.text }
        some ((s.lock i (.prompt (sha r.text))).put i
          (.prompted { request := r, prompt, isNew := true }))
      else none
    | _ => none
  | .selectActive i active =>
    match s.session i with
    | some (.prompted w) =>
      if (choices s.store w.request.kind w.request.agentId).contains active then
        if active.map Version.promptId = some w.prompt.id then some (s.put i (.unchanged w))
        else some (s.put i (.selected w active))
      else none
    | _ => none
  | .deactivate i =>
    match s.session i with
    | some (.selected w (some active)) =>
      let key : Key := .version w.request.kind active.agentId active.version
      if (s.holder key).isNone then some ((s.lock i key).put i (.deactivated w active)) else none
    | _ => none
  | .selectLast i =>
    match s.session i with
    | some (.selected w none) =>
      some (s.put i (.numbered w none (s.store.last w.request.kind w.request.agentId)))
    | some (.deactivated w active) =>
      some (s.put i (.numbered w (some active) (s.store.last w.request.kind w.request.agentId)))
    | _ => none
  | .insertVersion i =>
    match s.session i with
    | some (.numbered w active last) =>
      let r := w.request
      let row : Version :=
        { agentId := r.agentId, promptId := w.prompt.id, version := last + 1, createdBy := r.userId }
      -- another session has committed the version since
      if ((s.store.ofAgent r.kind r.agentId).map Version.version).contains row.version then
        some (s.release i)
      else if (s.holder (.version r.kind r.agentId row.version)).isNone then
        some ((s.lock i (.version r.kind r.agentId row.version)).put i (.inserted w active row))
      else none
    | _ => none
  | .commit i =>
    match s.session i with
    | some tx => (tx.written s.store).map (s.commit i)
    | none => none
  | .abort i =>
    match s.session i with
    | some _ => some (s.release i)
    | none => none

/-! ### The numbers of versions -/

/-- The versions of an agent. -/
def numbers (s : Store) (k : Kind) (agentId : String) : List Nat :=
  (s.ofAgent k agentId).map Version.version

section

variable {s : Store} {k k' : Kind} {agentId : String} {row : Version}

@[simp]
lemma numbers_deactivate : numbers (s.deactivate k' row) k agentId = numbers s k agentId := by
  rw [numbers, numbers, Store.ofAgent, Store.ofAgent, Store.deactivate_versions]
  split
  · next hk =>
    subst hk
    rw [List.filter_map, List.map_map]
    simp only [Function.comp_def, Version.deactivated_agentId, Version.deactivated_version]
  · rfl

lemma numbers_addVersion : numbers (s.addVersion k' row) k agentId =
    if k = k' ∧ row.agentId = agentId then numbers s k agentId ++ [row.version]
    else numbers s k agentId := by
  rw [numbers, numbers, Store.ofAgent, Store.ofAgent, Store.addVersion_versions]
  by_cases hk : k = k'
  · subst hk
    by_cases hagent : row.agentId = agentId <;> simp [hagent]
  · simp [hk]

@[simp]
lemma numbers_written (w : Setting) : numbers (w.written s) k agentId = numbers s k agentId := by
  rw [Setting.written]
  split <;> rfl

/-- The versions of each agent are counted from one. -/
def Counted (s : Store) : Prop := ∀ k agentId, CountsUp (numbers s k agentId)

lemma Counted.last (h : Counted s) (k : Kind) (agentId : String) :
    s.last k agentId = (numbers s k agentId).length :=
  (h k agentId).max_eq

end

/-! ### What every run keeps -/

/-- A prompt that a session has found or inserted. -/
structure Setting.Good (sha : String → String) (s : Tables) (i : Nat) (w : Setting) : Prop where
  hash : w.prompt.templateSha256 = sha w.request.text
  /-- No other session can insert the hash. -/
  new : w.isNew = true → w.prompt.text = w.request.text ∧
    s.holder (.prompt (sha w.request.text)) = some i ∧ s.store.find (sha w.request.text) = none
  old : w.isNew = false → w.prompt ∈ s.store.prompts

/-- The row that was read as the active one is the agent's. -/
def Setting.Reads (w : Setting) (active : Option Version) : Prop :=
  ∀ old, active = some old → old.agentId = w.request.agentId

/-- What holds of a session's transaction. -/
def TxInv (sha : String → String) (s : Tables) (i : Nat) : Tx → Prop
  | .missing _ => True
  | .prompted w => w.Good sha s i
  | .selected w active => w.Good sha s i ∧ w.Reads active
  | .deactivated w active => w.Good sha s i ∧ w.Reads (some active)
  | .numbered w active last => w.Good sha s i ∧ w.Reads active ∧
      last ≤ (numbers s.store w.request.kind w.request.agentId).length
  | .inserted w active row =>
    w.Good sha s i ∧ w.Reads active ∧ row.agentId = w.request.agentId ∧ row.active = true ∧
      row.version = (numbers s.store w.request.kind w.request.agentId).length + 1 ∧
      s.holder (.version w.request.kind w.request.agentId row.version) = some i
  | .unchanged w => w.Good sha s i ∧ numbers s.store w.request.kind w.request.agentId ≠ []

structure Inv (sha : String → String) (s : Tables) : Prop where
  counted : Counted s.store
  hashed : s.store.HashAddressed sha
  hashes : (s.store.prompts.map Prompt.templateSha256).Nodup
  tx : s.EachTx (TxInv sha)

/-- What the steps of other sessions leave to a session. -/
structure Frame (i : Nat) (s t : Tables) : Prop where
  holder : Shared.Keeps i s t
  prompts : ∀ p ∈ s.store.prompts, p ∈ t.store.prompts
  find : ∀ hash, s.holder (.prompt hash) = some i → s.store.find hash = none →
    t.store.find hash = none
  le : ∀ k agentId, (numbers s.store k agentId).length ≤ (numbers t.store k agentId).length
  eq : ∀ k agentId, s.holder (.version k agentId ((numbers s.store k agentId).length + 1)) = some i →
    (numbers t.store k agentId).length = (numbers s.store k agentId).length

section

variable {sha : String → String} {s t : Tables} {i j : Nat} {tx : Tx} {w : Setting}

lemma Inv.init : Inv sha start := by
  constructor <;>
    simp [start, Counted, CountsUp, numbers, Store.ofAgent, Store.HashAddressed, Shared.EachTx]

lemma Setting.Good.frame (h : w.Good sha s i) (hframe : Frame i s t) : w.Good sha t i where
  hash := h.hash
  new hnew := by
    obtain ⟨htext, hheld, hfind⟩ := h.new hnew
    exact ⟨htext, hframe.holder _ hheld, hframe.find _ hheld hfind⟩
  old hold := hframe.prompts _ (h.old hold)

lemma TxInv.frame (h : TxInv sha s i tx) (hframe : Frame i s t) : TxInv sha t i tx := by
  cases tx with
  | missing => trivial
  | prompted => exact Setting.Good.frame h hframe
  | selected | deactivated => exact ⟨h.1.frame hframe, h.2⟩
  | numbered => exact ⟨h.1.frame hframe, h.2.1, h.2.2.trans (hframe.le _ _)⟩
  | inserted w active row =>
    obtain ⟨hgood, hreads, hagent, hactive, hversion, hheld⟩ := h
    refine ⟨hgood.frame hframe, hreads, hagent, hactive, ?_, hframe.holder _ hheld⟩
    rw [hframe.eq _ _ (hversion ▸ hheld)]
    exact hversion
  | unchanged w =>
    refine ⟨h.1.frame hframe, fun hnil => h.2 ?_⟩
    have hle := hframe.le w.request.kind w.request.agentId
    rw [hnil] at hle
    exact List.length_eq_zero_iff.1 (Nat.le_zero.1 hle)

lemma Frame.of_store (hstore : t.store = s.store) (hholder : Shared.Keeps i s t) : Frame i s t where
  holder := hholder
  prompts _ hp := hstore ▸ hp
  find _ _ hfind := hstore ▸ hfind
  le _ _ := hstore ▸ Nat.le_refl _
  eq _ _ _ := hstore ▸ rfl

lemma frame_put : Frame i s (s.put j tx) := .of_store rfl Shared.keeps_put

lemma frame_lock {key : Key} (hfree : (s.holder key).isNone = true) :
    Frame i s ((s.lock j key).put j tx) :=
  .of_store rfl (Shared.keeps_lock hfree)

/-- A session goes on without a lock. -/
lemma Inv.put (h : Inv sha s) (htx : TxInv sha (s.put i tx) i tx) : Inv sha (s.put i tx) :=
  { h with tx := h.tx.put (fun _ _ _ hj => hj.frame frame_put) htx }

/-- A session takes a free lock. -/
lemma Inv.lock (h : Inv sha s) {key : Key} (hfree : (s.holder key).isNone = true)
    (htx : TxInv sha ((s.lock i key).put i tx) i tx) : Inv sha ((s.lock i key).put i tx) :=
  { h with tx := h.tx.lock (fun _ _ _ hj => hj.frame (frame_lock hfree)) htx }

lemma Inv.release (h : Inv sha s) (i : Nat) : Inv sha (s.release i) :=
  { h with tx := h.tx.release fun _ _ hne _ hj =>
      hj.frame (.of_store rfl (Shared.keeps_release hne)) }

lemma find_prompt {hash : String} {p : Prompt} (h : s.store.find hash = some p) :
    p ∈ s.store.prompts ∧ p.templateSha256 = hash :=
  ⟨List.mem_of_find?_eq_some h, by simpa using List.find?_some h⟩

/-- A row that is read as the active one is one of the agent's. -/
lemma of_mem_choices {store : Store} {k : Kind} {agentId : String} {v : Version}
    (h : (choices store k agentId).contains (some v) = true) :
    v ∈ store.versions k ∧ v.agentId = agentId ∧ v.active = true := by
  rw [List.contains_iff_mem, choices] at h
  split at h
  · simp at h
  · have hv : v ∈ store.versions k ∧ v.active = true ∧ v.agentId = agentId := by
      simpa [Store.ofAgent] using h
    exact ⟨hv.1, hv.2.2, hv.2.1⟩

lemma numbers_ne_nil {store : Store} {k : Kind} {agentId : String} {v : Version}
    (hv : v ∈ store.versions k) (hagent : v.agentId = agentId) : numbers store k agentId ≠ [] := by
  have hmem : v ∈ store.ofAgent k agentId := List.mem_filter.2 ⟨hv, by simpa using hagent⟩
  exact List.ne_nil_of_mem (List.mem_map_of_mem hmem)

/-! ### The statements -/

lemma Inv.selectPrompt {r : SetRequest} (h : Inv sha s)
    (hact : act sha s (.selectPrompt i r) = some t) : Inv sha t := by
  simp only [act] at hact
  split at hact
  · cases hact
  · split at hact
    · next prompt hfind =>
      cases hact
      obtain ⟨hmem, hhash⟩ := find_prompt hfind
      exact h.put ⟨hhash, fun hnew => absurd hnew (by simp), fun _ => hmem⟩
    · cases hact
      exact h.put trivial

lemma Inv.insertPrompt {id : String} (h : Inv sha s)
    (hact : act sha s (.insertPrompt i id) = some t) : Inv sha t := by
  simp only [act] at hact
  split at hact
  · next r hi =>
    split at hact
    · cases hact
      exact h.release i
    · next hfind =>
      have hnone : s.store.find (sha r.text) = none := by simpa using hfind
      split at hact
      · next hfree =>
        cases hact
        refine h.lock hfree ⟨rfl, fun _ => ⟨rfl, Function.update_self _ _ _, hnone⟩, fun hold => ?_⟩
        cases hold
      · cases hact
  · cases hact

lemma Inv.selectActive {active : Option Version} (h : Inv sha s)
    (hact : act sha s (.selectActive i active) = some t) : Inv sha t := by
  simp only [act] at hact
  split at hact
  · next w hi =>
    have hgood : w.Good sha s i := h.tx i _ hi
    split at hact
    · next hread =>
      split at hact
      · next hsame =>
        cases hact
        obtain ⟨v, rfl, -⟩ := Option.map_eq_some_iff.1 hsame
        obtain ⟨hv, hagent, -⟩ := of_mem_choices hread
        exact h.put ⟨hgood.frame frame_put, numbers_ne_nil hv hagent⟩
      · cases hact
        refine h.put ⟨hgood.frame frame_put, ?_⟩
        rintro old rfl
        exact (of_mem_choices hread).2.1
    · cases hact
  · cases hact

lemma Inv.deactivate (h : Inv sha s) (hact : act sha s (.deactivate i) = some t) : Inv sha t := by
  simp only [act] at hact
  split at hact
  · next w active hi =>
    split at hact
    · next hfree =>
      cases hact
      obtain ⟨hgood, hreads⟩ := h.tx i _ hi
      exact h.lock hfree ⟨hgood.frame (frame_lock hfree), hreads⟩
    · cases hact
  · cases hact

lemma Inv.selectLast (h : Inv sha s) (hact : act sha s (.selectLast i) = some t) : Inv sha t := by
  simp only [act] at hact
  split at hact
  · next w hi =>
    cases hact
    obtain ⟨hgood, hreads⟩ := h.tx i _ hi
    exact h.put ⟨hgood.frame frame_put, hreads, (h.counted.last _ _).le⟩
  · next w active hi =>
    cases hact
    obtain ⟨hgood, hreads⟩ := h.tx i _ hi
    exact h.put ⟨hgood.frame frame_put, hreads, (h.counted.last _ _).le⟩
  · cases hact

/-- A version that is inserted is the next one: lower ones are there already. -/
lemma Inv.insertVersion (h : Inv sha s) (hact : act sha s (.insertVersion i) = some t) :
    Inv sha t := by
  simp only [act] at hact
  split at hact
  · next w active last hi =>
    obtain ⟨hgood, hreads, hlast⟩ := h.tx i _ hi
    split at hact
    · cases hact
      exact h.release i
    · next hnew =>
      split at hact
      · next hfree =>
        cases hact
        refine h.lock hfree ⟨hgood.frame (frame_lock hfree), hreads, rfl, rfl, ?_,
          Function.update_self _ _ _⟩
        have hfresh : last + 1 ∉ numbers s.store w.request.kind w.request.agentId := by
          simpa [numbers] using hnew
        exact congrArg (· + 1) ((h.counted _ _).eq_length hlast hfresh)
      · cases hact
  · cases hact

/-! ### The commit -/

lemma written_prompts {store : Store} (hw : tx.written s.store = some store) :
    ∃ w, (tx = .unchanged w ∨ ∃ active row, tx = .inserted w active row) ∧
      store.prompts = (w.written s.store).prompts := by
  cases tx with
  | unchanged w =>
    cases hw
    exact ⟨w, .inl rfl, rfl⟩
  | inserted w active row =>
    cases hw
    refine ⟨w, .inr ⟨active, row, rfl⟩, ?_⟩
    cases active <;> rfl
  | missing | prompted | selected | deactivated | numbered => cases hw

lemma TxInv.good (h : TxInv sha s i tx) (htx : tx = .unchanged w ∨
    ∃ active row, tx = .inserted w active row) : w.Good sha s i := by
  rcases htx with rfl | ⟨active, row, rfl⟩
  · exact h.1
  · exact h.1

/-- The prompts of a commit are stored under their hashes, each hash once. -/
lemma Setting.Good.written (h : w.Good sha s i) (hinv : Inv sha s) :
    (w.written s.store).HashAddressed sha ∧
      ((w.written s.store).prompts.map Prompt.templateSha256).Nodup := by
  rw [Setting.written]
  split
  · next hnew =>
    obtain ⟨htext, -, hfind⟩ := h.new hnew
    constructor
    · intro p hp
      rcases List.mem_append.1 hp with hp | hp
      · exact hinv.hashed p hp
      · rw [List.mem_singleton.1 hp, h.hash, htext]
    · rw [Store.addPrompt, List.map_append, List.nodup_append]
      refine ⟨hinv.hashes, List.nodup_singleton _, fun hash hmem hash' hmem' => ?_⟩
      obtain ⟨p, hp, rfl⟩ := List.mem_map.1 hmem
      obtain rfl := List.mem_singleton.1 hmem'
      rintro he
      have hnone := List.find?_eq_none.1 hfind p hp
      exact hnone (by simpa using he.trans h.hash)
  · exact ⟨hinv.hashed, hinv.hashes⟩

/-- A hash that the session does not hold stays as it is. -/
lemma Setting.Good.find_written (h : w.Good sha s i) {hash : String}
    (hfind : s.store.find hash = none) (hheld : s.holder (.prompt hash) ≠ some i) :
    (w.written s.store).find hash = none := by
  rw [Setting.written]
  split
  · next hnew =>
    have hother : w.prompt.templateSha256 ≠ hash := by
      rintro rfl
      exact hheld (h.hash ▸ (h.new hnew).2.1)
    rw [Store.find] at hfind ⊢
    rw [Store.addPrompt, List.find?_append, hfind, Option.none_or]
    simp [hother]
  · exact hfind

/-- The versions of an agent once a transaction is committed. -/
lemma numbers_of_written {store : Store} (htx : TxInv sha s i tx)
    (hw : tx.written s.store = some store) (k : Kind) (agentId : String) :
    numbers store k agentId = numbers s.store k agentId ∨
      numbers store k agentId =
          numbers s.store k agentId ++ [(numbers s.store k agentId).length + 1] ∧
        s.holder (.version k agentId ((numbers s.store k agentId).length + 1)) = some i ∧
        k = tx.request.kind ∧ agentId = tx.request.agentId := by
  cases tx with
  | unchanged w =>
    cases hw
    exact .inl (numbers_written w)
  | inserted w active row =>
    cases hw
    obtain ⟨-, -, hagent, -, hversion, hheld⟩ := htx
    have hbefore (k : Kind) (agentId : String) : numbers (active.elim (w.written s.store)
        ((w.written s.store).deactivate w.request.kind)) k agentId = numbers s.store k agentId := by
      cases active <;> simp
    rw [numbers_addVersion, hbefore]
    split
    · next hsame =>
      obtain ⟨rfl, rfl⟩ := hsame
      rw [← hagent] at hversion hheld
      exact .inr ⟨by rw [hversion], hversion ▸ hheld, rfl, hagent⟩
    · exact .inl rfl
  | missing | prompted | selected | deactivated | numbered => cases hw

lemma Inv.commit (h : Inv sha s) (hact : act sha s (.commit i) = some t) : Inv sha t := by
  simp only [act] at hact
  split at hact
  · next tx hi =>
    obtain ⟨store, hw, rfl⟩ := Option.map_eq_some_iff.1 hact
    have htx := h.tx i tx hi
    obtain ⟨w, hkind, hprompts⟩ := written_prompts hw
    have hgood := htx.good hkind
    obtain ⟨hhashed, hhashes⟩ := hgood.written h
    have hnumbers := numbers_of_written htx hw
    exact {
      counted := by
        intro k agentId
        rw [Shared.commit_store]
        rcases hnumbers k agentId with heq | ⟨heq, -⟩
        · rw [heq]
          exact h.counted k agentId
        · rw [heq]
          exact (h.counted k agentId).concat
      hashed := by
        simpa only [Store.HashAddressed, Shared.commit_store, hprompts] using hhashed
      hashes := by
        simpa only [Shared.commit_store, hprompts] using hhashes
      tx := by
        refine h.tx.commit fun j tx' hne _ hj => ?_
        refine hj.frame ⟨Shared.keeps_release hne, ?_, ?_, ?_, ?_⟩
        · intro p hp
          change p ∈ store.prompts
          rw [hprompts, Setting.written]
          split
          · exact List.mem_append_left _ hp
          · exact hp
        · intro hash hheld hfind
          refine (congrArg (List.find? _) hprompts).trans (hgood.find_written hfind fun hheld' => ?_)
          exact hne (Option.some.inj (hheld.symm.trans hheld'))
        · intro k agentId
          rcases hnumbers k agentId with heq | ⟨heq, -⟩ <;> simp [heq]
        · intro k agentId hheld
          rcases hnumbers k agentId with heq | ⟨-, hheld', -⟩
          · simp [heq]
          · exact absurd (Option.some.inj (hheld.symm.trans hheld')) hne }
  · cases hact

lemma Inv.act {a : Action} (h : Inv sha s) (hact : act sha s a = some t) : Inv sha t := by
  cases a with
  | selectPrompt => exact h.selectPrompt hact
  | insertPrompt => exact h.insertPrompt hact
  | selectActive => exact h.selectActive hact
  | deactivate => exact h.deactivate hact
  | selectLast => exact h.selectLast hact
  | insertVersion => exact h.insertVersion hact
  | commit => exact h.commit hact
  | abort i =>
    simp only [Versions.act] at hact
    split at hact
    · cases hact
      exact h.release i
    · cases hact

/-! ### The active version -/

/-- Two states of one row. -/
def SameRow (v w : Version) : Prop := v.agentId = w.agentId ∧ v.version = w.version

def OneActive (s : Store) (k : Kind) (agentId : String) : Prop :=
  ∃! v, v ∈ s.versions k ∧ v.agentId = agentId ∧ v.active = true

/-- A new version is committed while the row that was read as the active one, if any, is still the
only one that is. -/
def Undisturbed (s : Tables) : Action → Prop
  | .commit i => ∀ w active row, s.session i = some (.inserted w active row) →
    ∀ v ∈ s.store.versions w.request.kind, v.agentId = w.request.agentId → v.active = true →
      ∃ old, active = some old ∧ SameRow v old
  | _ => True

lemma mem_deactivated {rows : List Version} {old v : Version} :
    v ∈ rows.map old.deactivated ∧ v.active = true ↔ v ∈ rows ∧ v.active = true ∧ ¬SameRow v old := by
  constructor
  · rintro ⟨hv, hactive⟩
    obtain ⟨u, hu, rfl⟩ := List.mem_map.1 hv
    obtain ⟨hself, hother⟩ := Version.of_deactivated hactive
    rw [hself] at hactive ⊢
    exact ⟨hu, hactive, hother⟩
  · rintro ⟨hv, hactive, hother⟩
    exact ⟨List.mem_map.2 ⟨v, hv, if_neg hother⟩, hactive⟩

/-- The active rows once a new version is committed. -/
lemma mem_written {active : Option Version} {row v : Version} {store : Store} {k : Kind}
    (hrow : row.active = true)
    (hw : (Tx.inserted w active row).written s.store = some store) :
    v ∈ store.versions k ∧ v.active = true ↔
      (k = w.request.kind ∧ v = row) ∨ (v ∈ s.store.versions k ∧ v.active = true ∧
        (k = w.request.kind → ∀ old, active = some old → ¬SameRow v old)) := by
  cases hw
  have hversions : (w.written s.store).versions = s.store.versions := by
    rw [Setting.written]
    split <;> rfl
  rw [Store.addVersion_versions]
  split
  · next hk =>
    subst hk
    rw [List.mem_append, List.mem_singleton, or_and_right, or_comm]
    refine or_congr ?_ ?_
    · exact ⟨fun h => ⟨rfl, h.1⟩, fun h => ⟨h.2, h.2 ▸ hrow⟩⟩
    · cases active with
      | none => simp [hversions]
      | some old =>
        rw [Option.elim_some, Store.deactivate_versions, if_pos rfl, hversions, mem_deactivated]
        simp
  · next hk =>
    cases active with
    | none => simp [hk, hversions]
    | some old => simp [hk, Store.deactivate_versions, hversions]

/-- A new version is the only active one of its agent exactly when it is committed undisturbed. -/
lemma oneActive_written_iff {active : Option Version} {row : Version} {store : Store}
    (h : Inv sha s) (hi : s.session i = some (.inserted w active row))
    (hw : (Tx.inserted w active row).written s.store = some store) :
    OneActive store w.request.kind w.request.agentId ↔ Undisturbed s (.commit i) := by
  obtain ⟨-, -, hagent, hactive, hversion, -⟩ := h.tx i _ hi
  have hrow := (mem_written (v := row) hactive hw).2 (.inl ⟨rfl, rfl⟩)
  constructor
  · intro hone w' active' row' hi' v hv hv' hactive'
    cases hi.symm.trans hi'
    by_contra hother
    have hmem := (mem_written (v := v) hactive hw).2
      (.inr ⟨hv, hactive', fun _ old hold hsame => hother ⟨old, hold, hsame⟩⟩)
    obtain rfl : v = row := hone.unique ⟨hmem.1, hv', hmem.2⟩ ⟨hrow.1, hagent, hrow.2⟩
    -- the version of the new row is none of those that were there
    have hnumber : v.version ∈ numbers s.store w.request.kind w.request.agentId :=
      List.mem_map_of_mem (List.mem_filter.2 ⟨hv, by simpa using hv'⟩)
    rw [(h.counted _ _).mem_iff] at hnumber
    omega
  · intro hok
    refine ⟨row, ⟨hrow.1, hagent, hrow.2⟩, fun v ⟨hv, hv', hactive'⟩ => ?_⟩
    rcases (mem_written hactive hw).1 ⟨hv, hactive'⟩ with ⟨-, heq⟩ | ⟨hold, -, hother⟩
    · exact heq
    · obtain ⟨old, rfl, hsame⟩ := hok w active row hi v hold hv' hactive'
      exact absurd hsame (hother rfl old rfl)

/-- The versions of other agents stay as active as they are. -/
lemma oneActive_written_of_ne {active : Option Version} {row : Version} {store : Store} {k : Kind}
    {agentId : String} (h : Inv sha s) (hi : s.session i = some (.inserted w active row))
    (hw : (Tx.inserted w active row).written s.store = some store)
    (hne : ¬(k = w.request.kind ∧ agentId = w.request.agentId)) :
    OneActive store k agentId ↔ OneActive s.store k agentId := by
  obtain ⟨-, hreads, hagent, hactive, -, -⟩ := h.tx i _ hi
  have hsame (v : Version) : v ∈ store.versions k ∧ v.agentId = agentId ∧ v.active = true ↔
      v ∈ s.store.versions k ∧ v.agentId = agentId ∧ v.active = true := by
    constructor
    · rintro ⟨hv, rfl, hv'⟩
      rcases (mem_written hactive hw).1 ⟨hv, hv'⟩ with ⟨hk, rfl⟩ | ⟨hv, hv', -⟩
      · exact absurd ⟨hk, hagent⟩ hne
      · exact ⟨hv, rfl, hv'⟩
    · rintro ⟨hv, rfl, hv'⟩
      have hmem := (mem_written hactive hw).2 (.inr ⟨hv, hv', fun hk old hold hsame => hne
        ⟨hk, hsame.1.trans (hreads old hold)⟩⟩)
      exact ⟨hmem.1, rfl, hmem.2⟩
  rw [OneActive, OneActive]
  exact existsUnique_congr hsame

/-! ### Runs -/

/-- Only a commit writes. -/
lemma store_of_act {a : Action} (hact : act sha s a = some t) :
    t.store = s.store ∨ ∃ i tx, a = .commit i ∧ s.session i = some tx ∧
      tx.written s.store = some t.store := by
  cases a with
  | commit i =>
    simp only [act] at hact
    split at hact
    · next tx hi =>
      obtain ⟨store, hw, rfl⟩ := Option.map_eq_some_iff.1 hact
      exact .inr ⟨i, tx, rfl, hi, hw⟩
    · cases hact
  | selectPrompt | insertPrompt | selectActive | deactivate | selectLast | insertVersion | abort =>
    left
    simp only [act] at hact
    repeat' split at hact
    all_goals
      cases hact
      try rfl

/-- A set for the agent has been committed. -/
def Committed (sha : String → String) (past : List Action) (k : Kind) (agentId : String) : Prop :=
  ∃ before i after t tx, before ++ .commit i :: after = past ∧
    before.foldlM (act sha) start = some t ∧ t.session i = some tx ∧
    tx.request.kind = k ∧ tx.request.agentId = agentId

/-- The text of a version. -/
def textOf (s : Store) (v : Version) : Option String := (s.get v.promptId).map Prompt.text

/-- What the versions of a state should be. -/
structure Versioned (sha : String → String) (past : List Action) (t : Tables) : Prop where
  active : ∀ k agentId, Committed sha past k agentId → OneActive t.store k agentId
  counted : Counted t.store
  /-- A set that reads a version with its own text changes nothing. -/
  same : ∀ i w v u, t.session i = some (.prompted w) →
    act sha t (.selectActive i (some v)) = some u → textOf t.store v = some w.request.text →
    u.session i = some (.unchanged w) ∧ ∀ s' u', s'.session i = some (.unchanged w) →
      act sha s' (.commit i) = some u' → u'.store = s'.store

lemma Inv.same (h : Inv sha s) {v : Version} (hi : s.session i = some (.prompted w))
    (hact : Versions.act sha s (.selectActive i (some v)) = some t)
    (htext : textOf s.store v = some w.request.text) :
    t.session i = some (.unchanged w) ∧ ∀ s' t', s'.session i = some (.unchanged w) →
      Versions.act sha s' (.commit i) = some t' → t'.store = s'.store := by
  have hgood : w.Good sha s i := h.tx i _ hi
  obtain ⟨p, hget, hp⟩ := Option.map_eq_some_iff.1 htext
  have hmem : p ∈ s.store.prompts := List.mem_of_find?_eq_some hget
  have hid : p.id = v.promptId := by simpa using List.find?_some hget
  have hhash : p.templateSha256 = sha w.request.text := (h.hashed p hmem).trans (congrArg sha hp)
  have hold : w.isNew = false := by
    by_contra hnew
    have hnone := List.find?_eq_none.1 (hgood.new (by simpa using hnew)).2.2 p hmem
    exact hnone (by simpa using hhash)
  have hsame : w.prompt = p :=
    List.inj_on_of_nodup_map h.hashes (hgood.old hold) hmem (hgood.hash.trans hhash.symm)
  constructor
  · simp only [Versions.act, hi] at hact
    split at hact
    · rw [if_pos (by rw [Option.map_some, ← hid, hsame])] at hact
      cases hact
      exact Function.update_self _ _ _
    · cases hact
  · intro s' t' hi' hcommit
    simp only [Versions.act, hi'] at hcommit
    obtain ⟨store, hw, rfl⟩ := Option.map_eq_some_iff.1 hcommit
    cases hw
    simp [Shared.commit, Setting.written, hold]

/-- What a run keeps of the versions of each agent. -/
structure Kept (sha : String → String) (past : List Action) (s : Tables) : Prop extends Inv sha s where
  nonempty : ∀ k agentId, Committed sha past k agentId → numbers s.store k agentId ≠ []

lemma committed_append {past : List Action} {a : Action} {k : Kind} {agentId : String}
    (hpast : past.foldlM (act sha) start = some s) (h : Committed sha (past ++ [a]) k agentId) :
    Committed sha past k agentId ∨ ∃ i tx, a = .commit i ∧ s.session i = some tx ∧
      tx.request.kind = k ∧ tx.request.agentId = agentId := by
  obtain ⟨before, i, after, t, tx, he, hbefore, hi, hk, hagent⟩ := h
  rcases List.eq_nil_or_concat after with rfl | ⟨after, b, rfl⟩
  · obtain ⟨rfl, heq⟩ := List.append_inj' he rfl
    cases hpast.symm.trans hbefore
    exact .inr ⟨i, tx, (List.cons.inj heq).1.symm, hi, hk, hagent⟩
  · rw [List.concat_eq_append, ← List.cons_append, ← List.append_assoc] at he
    exact .inl ⟨before, i, after, t, tx, (List.append_inj' he rfl).1, hbefore, hi, hk, hagent⟩

lemma Kept.act {past : List Action} {a : Action} (h : Kept sha past s)
    (hpast : past.foldlM (Versions.act sha) start = some s) (hact : Versions.act sha s a = some t) :
    Kept sha (past ++ [a]) t := by
  refine ⟨h.toInv.act hact, fun k agentId hset => ?_⟩
  rcases committed_append hpast hset with hset | ⟨i, tx, rfl, hi, rfl, rfl⟩
  · have hsome := h.nonempty k agentId hset
    rcases store_of_act hact with hstore | ⟨i, tx, -, hi, hw⟩
    · rw [hstore]
      exact hsome
    · rcases numbers_of_written (h.tx i tx hi) hw k agentId with heq | ⟨heq, -⟩
      · rw [heq]
        exact hsome
      · simp [heq]
  · simp only [Versions.act, hi] at hact
    obtain ⟨store, hw, rfl⟩ := Option.map_eq_some_iff.1 hact
    have htx := h.tx i tx hi
    change numbers store _ _ ≠ []
    cases tx with
    | unchanged w =>
      cases hw
      rw [numbers_written]
      exact htx.2
    | inserted w active row =>
      obtain ⟨-, -, hagent, hactive, -⟩ := htx
      have hrow := (mem_written (v := row) hactive hw).2 (.inl ⟨rfl, rfl⟩)
      exact numbers_ne_nil hrow.1 hagent
    | missing | prompted | selected | deactivated | numbered => cases hw

/-- An undisturbed step leaves every agent that has versions with one active version. -/
lemma oneActive_act {a : Action} (h : Inv sha s)
    (hone : ∀ k agentId, numbers s.store k agentId ≠ [] → OneActive s.store k agentId)
    (hok : Undisturbed s a) (hact : act sha s a = some t) (k : Kind) (agentId : String)
    (hsome : numbers t.store k agentId ≠ []) : OneActive t.store k agentId := by
  rcases store_of_act hact with hstore | ⟨i, tx, rfl, hi, hw⟩
  · rw [hstore] at hsome ⊢
    exact hone k agentId hsome
  · cases tx with
    | unchanged w =>
      have hversions : t.store.versions = s.store.versions := by
        rw [← Option.some.inj hw, Setting.written]
        split <;> rfl
      rw [numbers, Store.ofAgent, hversions] at hsome
      rw [OneActive, hversions]
      exact hone k agentId hsome
    | inserted w active row =>
      by_cases hsame : k = w.request.kind ∧ agentId = w.request.agentId
      · rw [hsame.1, hsame.2]
        exact (oneActive_written_iff h hi hw).2 hok
      · rw [oneActive_written_of_ne h hi hw hsame]
        refine hone k agentId fun hnil => ?_
        rcases numbers_of_written (h.tx i _ hi) hw k agentId with heq | ⟨-, -, howner⟩
        · exact hsome (heq.trans hnil)
        · exact hsame howner
    | missing | prompted | selected | deactivated | numbered => cases hw

/-- In every state that a run reaches, each agent of which a set is committed has one active version,
the versions are counted from one and setting the active text again changes nothing, exactly when
every new version is committed undisturbed. -/
theorem versioned_iff (as : List Action) :
    (∀ past rest t, past ++ rest = as → past.foldlM (act sha) start = some t →
      Versioned sha past t) ↔
    ∀ past a rest t, past ++ a :: rest = as → past.foldlM (act sha) start = some t →
      Undisturbed t a := by
  have hkept (past : List Action) (t : Tables) (hpast : past.foldlM (act sha) start = some t) :
      Kept sha past t := by
    refine Lib.foldlM_history (I := Kept sha) (fun past a _ u v _ hu h hact => h.act hu hact)
      ⟨.init, ?_⟩ hpast
    rintro k agentId ⟨before, i, after, -, -, he, -⟩
    simp at he
  constructor
  · intro h past a rest t he hpast
    cases a with
    | commit i =>
      intro w active row hi
      obtain ⟨store, hw⟩ : ∃ store, (Tx.inserted w active row).written t.store = some store :=
        ⟨_, rfl⟩
      have hcommit : act sha t (.commit i) = some (t.commit i store) := by
        simp only [act, hi, hw, Option.map_some]
      have hset : (past ++ [Action.commit i]).foldlM (act sha) start = some (t.commit i store) := by
        rw [List.foldlM_append, hpast]
        simpa using hcommit
      have hone := (h (past ++ [.commit i]) rest _ (by simp [← he]) hset).active w.request.kind
        w.request.agentId ⟨past, i, [], t, _, rfl, hpast, hi, rfl, rfl⟩
      exact (oneActive_written_iff (hkept past t hpast).toInv hi hw).1 hone w active row hi
    | selectPrompt | insertPrompt | selectActive | deactivate | selectLast | insertVersion
    | abort => trivial
  · intro hok past rest t he hpast
    have hone : ∀ k agentId, numbers t.store k agentId ≠ [] → OneActive t.store k agentId := by
      refine Lib.foldlM_history (I := fun _ t => ∀ k agentId, numbers t.store k agentId ≠ [] →
        OneActive t.store k agentId) (fun past' a rest' u v he' hu h hact => ?_) ?_ hpast
      · exact oneActive_act (hkept past' u hu).toInv h
          (hok past' a (rest' ++ rest) u (by simp [← he, ← he']) hu) hact
      · intro k agentId hsome
        exact absurd rfl hsome
    have h := hkept past t hpast
    exact ⟨fun k agentId hset => hone k agentId (h.nonempty k agentId hset), h.counted,
      fun i w v u hi hact htext => h.same hi hact htext⟩

end

/-! ### A transaction that runs alone -/

section

variable {sha : String → String} {s : Tables} {w : Setting} {i : Nat}

def Acts (sha : String → String) (s : Tables) (a : Action) (t : Tables) : Prop :=
  act sha s a = some t

lemma written_active (store : Store) (k : Kind) (agentId : String) :
    (w.written store).active k agentId = store.active k agentId := by
  rw [Setting.written]
  split <;> rfl

lemma active_mem_choices (store : Store) (k : Kind) (agentId : String) :
    (choices store k agentId).contains (store.active k agentId) = true := by
  have hactive : store.active k agentId =
      ((store.ofAgent k agentId).filter (·.active)).head? := by
    rw [Store.active, Store.ofAgent, List.filter_filter, List.head?_filter]
    refine congrFun (congrArg List.find? (funext fun v => ?_)) _
    simp [and_comm]
  rw [hactive, List.contains_iff_mem, choices]
  cases (store.ofAgent k agentId).filter (·.active) <;> simp

/-- The prompt of a text is found or inserted. -/
lemma run_prompted (sha : String → String) (i : Nat) (hidle : ∀ i, s.session i = none)
    (hfree : ∀ key, s.holder key = none) (r : SetRequest) (id : String) :
    ∃ as t w, Run (Acts sha) s as t ∧
      t.session i = some (.prompted w) ∧ t.store = s.store ∧ w.request = r ∧
      (w.written s.store, w.prompt) = s.store.ensure sha id r.text ∧
      ∀ k agentId n, t.holder (.version k agentId n) = none := by
  cases hfind : s.store.find (sha r.text) with
  | some p =>
    let w : Setting := { request := r, prompt := p, isNew := false }
    refine ⟨[.selectPrompt i r], s.put i (.prompted w), w, .single ?_, Function.update_self _ _ _,
      rfl, rfl, ?_, fun _ _ _ => hfree _⟩
    · simp only [Acts, act, hidle, hfind, w]
    · simp [Store.ensure, hfind, Setting.written, w]
  | none =>
    let p : Prompt := { id, templateSha256 := sha r.text, text := r.text }
    let w : Setting := { request := r, prompt := p, isNew := true }
    refine ⟨[.selectPrompt i r, .insertPrompt i id],
      ((s.put i (.missing r)).lock i (.prompt (sha r.text))).put i (.prompted w), w,
      .cons (t := s.put i (.missing r)) ?_ (.single ?_), Function.update_self _ _ _,
      rfl, rfl, ?_, fun k agentId n => ?_⟩
    · simp only [Acts, act, hidle, hfind]
    · have hfind' : (s.put i (.missing r)).store.find (sha r.text) = none := hfind
      have hfree' : (s.put i (.missing r)).holder (.prompt (sha r.text)) = none := hfree _
      have hmine : (s.put i (.missing r)).session i = some (.missing r) := Function.update_self _ _ _
      simp only [Acts, act, hmine, hfind', hfree', Option.isSome_none, Option.isNone_none,
        Bool.false_eq_true, if_false, if_true, w, p]
    · simp [Store.ensure, hfind, Setting.written, w, p]
    · simpa [Shared.lock, Shared.put] using hfree (.version k agentId n)

/-- A version that is numbered is inserted and committed. -/
lemma run_numbered (hcounted : Counted s.store) {active : Option Version}
    (hi : s.session i = some (.numbered w active (s.store.last w.request.kind w.request.agentId)))
    (hfree : ∀ n, active.map Version.version ≠ some n →
      s.holder (.version w.request.kind w.request.agentId n) = none)
    (hactive : ∀ old, active = some old → old ∈ s.store.versions w.request.kind ∧
      old.agentId = w.request.agentId) :
    ∃ as t, Run (Acts sha) s as t ∧ t.store =
      (mintVersion (w.written s.store) w.request.kind w.request.agentId w.prompt w.request.userId
        active).1 := by
  let k := w.request.kind
  let agentId := w.request.agentId
  let last := s.store.last k agentId
  have hnew : last + 1 ∉ numbers s.store k agentId := by
    rw [(hcounted k agentId).mem_iff, ← hcounted.last]
    omega
  have hkey : s.holder (.version k agentId (last + 1)) = none := by
    refine hfree _ fun hold => ?_
    obtain ⟨old, rfl, hversion⟩ := Option.map_eq_some_iff.1 hold
    obtain ⟨hmem, hagent⟩ := hactive old rfl
    exact hnew (hversion ▸ List.mem_map_of_mem (List.mem_filter.2 ⟨hmem, by simpa using hagent⟩))
  let row : Version :=
    { agentId, promptId := w.prompt.id, version := last + 1, createdBy := w.request.userId }
  let t := (s.lock i (.version k agentId row.version)).put i (.inserted w active row)
  have ht : t.session i = some (.inserted w active row) := Function.update_self _ _ _
  have hinsert : Acts sha s (.insertVersion i) t := by
    simp only [Acts, act, hi]
    rw [if_neg (by simpa [numbers] using hnew), if_pos (by simpa using hkey)]
  have hlast : (active.elim (w.written s.store) ((w.written s.store).deactivate k)).last k agentId =
      last := by
    change (numbers _ k agentId).max?.getD 0 = (numbers s.store k agentId).max?.getD 0
    cases active <;> simp
  let u : Tables := { t.release i with
    store := (mintVersion (w.written s.store) k agentId w.prompt w.request.userId active).1 }
  refine ⟨[.insertVersion i, .commit i], u, .cons hinsert (.single ?_), rfl⟩
  simp only [Acts, act, ht, Tx.written, Option.map_some, u, mintVersion]
  rw [hlast]
  rfl

lemma selectActive_reads {active : Option Version} (hi : s.session i = some (.prompted w))
    (hactive : s.store.active w.request.kind w.request.agentId = active)
    (hother : active.map Version.promptId ≠ some w.prompt.id) :
    Acts sha s (.selectActive i active) (s.put i (.selected w active)) := by
  simp only [Acts, act, hi]
  rw [if_pos (hactive ▸ active_mem_choices ..), if_neg hother]

/-- No version is the active one yet. -/
lemma run_first (hcounted : Counted s.store) (hi : s.session i = some (.prompted w))
    (hheld : ∀ k agentId n, s.holder (.version k agentId n) = none)
    (hactive : s.store.active w.request.kind w.request.agentId = none) :
    ∃ as t, Run (Acts sha) s as t ∧ t.store =
      (mintVersion (w.written s.store) w.request.kind w.request.agentId w.prompt w.request.userId
        none).1 := by
  let t₁ := s.put i (.selected w none)
  let t₂ := t₁.put i (.numbered w none (s.store.last w.request.kind w.request.agentId))
  have hselect : Acts sha s (.selectActive i none) t₁ :=
    selectActive_reads hi hactive (Option.some_ne_none _).symm
  have hlast : Acts sha t₁ (.selectLast i) t₂ := by
    have hmine : t₁.session i = some (.selected w none) := Shared.put_self
    simp only [Acts, act, hmine]
    rfl
  obtain ⟨as, u, hrest, hu⟩ := run_numbered (s := t₂) hcounted Shared.put_self
    (fun n _ => hheld _ _ n) (fun _ h => nomatch h)
  exact ⟨.selectActive i none :: .selectLast i :: as, u, .cons hselect (.cons hlast hrest), hu⟩

/-- The active version has the text. -/
lemma run_unchanged {v : Version} (hi : s.session i = some (.prompted w))
    (hactive : s.store.active w.request.kind w.request.agentId = some v)
    (hsame : v.promptId = w.prompt.id) :
    ∃ as t, Run (Acts sha) s as t ∧ t.store = w.written s.store := by
  let t₁ := s.put i (.unchanged w)
  have hselect : Acts sha s (.selectActive i (some v)) t₁ := by
    simp only [Acts, act, hi]
    rw [if_pos (hactive ▸ active_mem_choices ..), if_pos (by rw [Option.map_some, hsame])]
  have hmine : t₁.session i = some (.unchanged w) := Shared.put_self
  refine ⟨[.selectActive i (some v), .commit i], { t₁.release i with store := w.written s.store },
    .cons hselect (.single ?_), rfl⟩
  simp only [Acts, act, hmine]
  rfl

/-- The active version has another text and makes room. -/
lemma run_other {v : Version} (hcounted : Counted s.store)
    (hi : s.session i = some (.prompted w))
    (hheld : ∀ k agentId n, s.holder (.version k agentId n) = none)
    (hactive : s.store.active w.request.kind w.request.agentId = some v)
    (hother : v.promptId ≠ w.prompt.id) :
    ∃ as t, Run (Acts sha) s as t ∧ t.store =
      (mintVersion (w.written s.store) w.request.kind w.request.agentId w.prompt w.request.userId
        (some v)).1 := by
  let t₁ := s.put i (.selected w (some v))
  let key : Key := .version w.request.kind v.agentId v.version
  let t₂ := (t₁.lock i key).put i (.deactivated w v)
  let t₃ := t₂.put i (.numbered w (some v) (s.store.last w.request.kind w.request.agentId))
  have hselect : Acts sha s (.selectActive i (some v)) t₁ :=
    selectActive_reads hi hactive (by simpa using hother)
  have hdeactivate : Acts sha t₁ (.deactivate i) t₂ := by
    have hmine : t₁.session i = some (.selected w (some v)) := Shared.put_self
    simp only [Acts, act, hmine]
    exact if_pos (Option.isNone_iff_eq_none.2 (hheld _ _ _))
  have hlast : Acts sha t₂ (.selectLast i) t₃ := by
    have hmine : t₂.session i = some (.deactivated w v) := Shared.put_self
    simp only [Acts, act, hmine]
    rfl
  obtain ⟨hmem, hagent, -⟩ := active_mem hactive
  have hkeys (n : Nat) (hn : (some v).map Version.version ≠ some n) :
      t₃.holder (.version w.request.kind w.request.agentId n) = none := by
    refine (Function.update_of_ne (fun he => hn ?_) _ _).trans (hheld _ _ n)
    rw [Option.map_some, (Key.version.inj he).2.2]
  obtain ⟨as, u, hrest, hu⟩ := run_numbered (s := t₃) hcounted Shared.put_self hkeys
    fun old hold => by cases hold; exact ⟨hmem, hagent⟩
  exact ⟨.selectActive i (some v) :: .deactivate i :: .selectLast i :: as, u,
    .cons hselect (.cons hdeactivate (.cons hlast hrest)), hu⟩

/-- Alone, the statements of a set do what `set_agent_script` and `set_agent_guardrails` do. -/
theorem run_setVersion (hcounted : Counted s.store) (hidle : ∀ i, s.session i = none)
    (hfree : ∀ key, s.holder key = none) (k : Kind) (id agentId text : String)
    (userId : Option String) :
    ∃ as t, Run (Acts sha) s as t ∧
      t.store = (setVersion sha k s.store id agentId text userId).1 := by
  obtain ⟨as, t, w, hrun, hi, hstore, hr, hensure, hheld⟩ :=
    run_prompted sha 0 hidle hfree { kind := k, agentId, text, userId } id
  have hk : w.request.kind = k := by rw [hr]
  have hagent : w.request.agentId = agentId := by rw [hr]
  have huser : w.request.userId = userId := by rw [hr]
  have hcounted' : Counted t.store := hstore ▸ hcounted
  rw [setVersion, ← hensure, ← hstore]
  subst hk hagent huser
  simp only [written_active]
  cases hactive : t.store.active w.request.kind w.request.agentId with
  | none =>
    obtain ⟨as', u, hrest, hu⟩ := run_first hcounted' hi hheld hactive
    exact ⟨as ++ as', u, hrun.append hrest, hu⟩
  | some v =>
    dsimp only
    split
    · next hsame =>
      obtain ⟨as', u, hrest, hu⟩ := run_unchanged hi hactive hsame
      exact ⟨as ++ as', u, hrun.append hrest, hu⟩
    · next hother =>
      obtain ⟨as', u, hrest, hu⟩ := run_other hcounted' hi hheld hactive hother
      exact ⟨as ++ as', u, hrun.append hrest, hu⟩

end

/-! ### Two first sets -/

def setScript (text : String) : SetRequest :=
  { kind := .script, agentId := "a", text, userId := none }

/-- Two sets find no active script; one is numbered once the other is committed. -/
def bothFirst : List Action :=
  [.selectPrompt 0 (setScript "hello"), .insertPrompt 0 "p", .selectPrompt 1 (setScript "goodbye"),
    .insertPrompt 1 "q", .selectActive 0 none, .selectActive 1 none, .selectLast 0,
    .insertVersion 0, .commit 0, .selectLast 1, .insertVersion 1, .commit 1]

/-- Both scripts are active. -/
theorem bothFirst_active :
    ¬∀ as : List Action, ∀ past rest t, past ++ rest = as →
      past.foldlM (act id) start = some t → Versioned id past t := by
  intro h
  have hrun : bothFirst.foldlM (act id) start = some ((bothFirst.foldlM (act id) start).getD start) := rfl
  have hset : Committed id bothFirst .script "a" :=
    ⟨bothFirst.take 8, 0, bothFirst.drop 9, (((bothFirst.take 8).foldlM (act id) start).getD start), _, rfl,
      rfl, rfl, rfl, rfl⟩
  have hone := (h bothFirst bothFirst [] _ (List.append_nil _) hrun).active .script "a" hset
  have hfirst : ({ agentId := "a", promptId := "p", version := 1, createdBy := none } : Version) ∈
      ((bothFirst.foldlM (act id) start).getD start).store.versions .script := by decide
  have hsecond : ({ agentId := "a", promptId := "q", version := 2, createdBy := none } : Version) ∈
      ((bothFirst.foldlM (act id) start).getD start).store.versions .script := by decide
  exact absurd (hone.unique ⟨hfirst, rfl, rfl⟩ ⟨hsecond, rfl, rfl⟩) (by decide)

end Pulse.Api.Versions
