import Mathlib.Logic.Function.Basic
import Pulse.Lib.Lists

/-!
# The prompt store and its writers

`register_prompt` of `api/ingest.py` with `set_agent_script` and `set_agent_guardrails` of
`api/agents.py`. A prompt is found by the hash of its text, and its row is trusted to have that
text; `register_prompt` takes both from the request.
-/

namespace Pulse.Api

/-- A row of `Prompt`. -/
structure Prompt where
  id : String
  templateSha256 : String
  text : String
  deriving DecidableEq

/-- The tables that point to prompts by version. -/
inductive Kind
  | script
  | guardrail
  deriving DecidableEq

/-- A row of `AgentScript` or of `AgentGuardrail`. -/
structure Version where
  agentId : String
  promptId : String
  version : Nat
  createdBy : Option String
  active : Bool := true
  deriving DecidableEq

/-- `active.active = False`, in the row that has the agent and the version. -/
def Version.deactivated (row v : Version) : Version :=
  if v.agentId = row.agentId ∧ v.version = row.version then { v with active := false } else v

section

variable {row v : Version}

@[simp]
lemma Version.deactivated_agentId : (row.deactivated v).agentId = v.agentId := by
  rw [Version.deactivated]
  split <;> rfl

@[simp]
lemma Version.deactivated_version : (row.deactivated v).version = v.version := by
  rw [Version.deactivated]
  split <;> rfl

@[simp]
lemma Version.deactivated_promptId : (row.deactivated v).promptId = v.promptId := by
  rw [Version.deactivated]
  split <;> rfl

/-- A version that is still active is another one. -/
lemma Version.of_deactivated (h : (row.deactivated v).active = true) :
    row.deactivated v = v ∧ ¬(v.agentId = row.agentId ∧ v.version = row.version) := by
  rw [Version.deactivated] at h ⊢
  split at h
  · cases h
  · next hother => exact ⟨if_neg hother, hother⟩

end

structure Store where
  prompts : List Prompt := []
  versions : Kind → List Version := fun _ => []

structure PromptIn where
  templateSha256 : String
  text : String

/-- What `_script_dict` and `_guardrails_dict` return with the text. -/
structure VersionOut where
  version : Option Nat := none
  sha256 : Option String := none
  createdBy : Option String := none
  text : Option String := none
  deriving DecidableEq

namespace Store

variable (s : Store)

/-- `select(Prompt).where(Prompt.template_sha256 == sha)` -/
def find (sha256 : String) : Option Prompt := s.prompts.find? (·.templateSha256 = sha256)

/-- `db.get(Prompt, id)` -/
def get (id : String) : Option Prompt := s.prompts.find? (·.id = id)

def addPrompt (p : Prompt) : Store := { s with prompts := s.prompts ++ [p] }

/-- The rows of an agent, in the order in which they were committed. -/
def ofAgent (k : Kind) (agentId : String) : List Version :=
  (s.versions k).filter (·.agentId = agentId)

/-- The row that is read as the active one. -/
def active (k : Kind) (agentId : String) : Option Version :=
  (s.versions k).find? fun v => v.agentId = agentId ∧ v.active

/-- `last or 0`, of the highest version. -/
def last (k : Kind) (agentId : String) : Nat :=
  ((s.ofAgent k agentId).map Version.version).max?.getD 0

def deactivate (k : Kind) (row : Version) : Store :=
  { s with versions := Function.update s.versions k ((s.versions k).map row.deactivated) }

def addVersion (k : Kind) (row : Version) : Store :=
  { s with versions := Function.update s.versions k (s.versions k ++ [row]) }

variable {s} in
lemma deactivate_versions {k k' : Kind} {row : Version} :
    (s.deactivate k row).versions k' =
      if k' = k then (s.versions k).map row.deactivated else s.versions k' :=
  Function.update_apply ..

variable {s} in
lemma addVersion_versions {k k' : Kind} {row : Version} :
    (s.addVersion k row).versions k' =
      if k' = k then s.versions k ++ [row] else s.versions k' :=
  Function.update_apply ..

/-- The prompt of a text, whose row is inserted when none has its hash. -/
def ensure (sha : String → String) (id text : String) : Store × Prompt :=
  match s.find (sha text) with
  | some p => (s, p)
  | none =>
    let p := { id, templateSha256 := sha text, text }
    (s.addPrompt p, p)

/-- `_script_dict` and `_guardrails_dict`, with the text. -/
def versionDict (v : Version) : VersionOut :=
  let p := s.get v.promptId
  { version := some v.version, sha256 := p.map Prompt.templateSha256, createdBy := v.createdBy,
    text := p.map Prompt.text }

def getVersion (k : Kind) (agentId : String) : VersionOut :=
  ((s.active k agentId).map s.versionDict).getD {}

/-- `get_script` -/
def getScript (agentId : String) : VersionOut := s.getVersion .script agentId

/-- `get_guardrails` -/
def getGuardrails (agentId : String) : VersionOut := s.getVersion .guardrail agentId

end Store

/-- `register_prompt` -/
def registerPrompt (s : Store) (id : String) (body : PromptIn) : Store × String :=
  match s.find body.templateSha256 with
  | some _ => (s, "exists")
  | none =>
    (s.addPrompt { id, templateSha256 := body.templateSha256, text := body.text }, "created")

/-- A new version of an agent that points to a prompt, over the active one. -/
def mintVersion (s : Store) (k : Kind) (agentId : String) (prompt : Prompt)
    (userId : Option String) (active : Option Version) : Store × Version :=
  let s := active.elim s (s.deactivate k)
  let row : Version :=
    { agentId, promptId := prompt.id, version := s.last k agentId + 1, createdBy := userId }
  (s.addVersion k row, row)

/-- `set_agent_script` and `set_agent_guardrails`, by the table. -/
def setVersion (sha : String → String) (k : Kind) (s : Store) (id agentId text : String)
    (userId : Option String) : Store × Version :=
  let (s, prompt) := s.ensure sha id text
  match s.active k agentId with
  | some active =>
    -- the same text: no new version
    if active.promptId = prompt.id then (s, active)
    else mintVersion s k agentId prompt userId (some active)
  | none => mintVersion s k agentId prompt userId none

/-- `set_agent_script` -/
def setAgentScript (sha : String → String) := setVersion sha .script

/-- `set_agent_guardrails` -/
def setAgentGuardrails (sha : String → String) := setVersion sha .guardrail

/-! ### Sequences of writes -/

/-- A request that writes prompts or versions, with the key it draws. -/
inductive PromptWrite
  | register (id : String) (body : PromptIn)
  | setScript (id agentId text : String) (userId : Option String)
  | setGuardrails (id agentId text : String) (userId : Option String)

namespace PromptWrite

def act (sha : String → String) (s : Store) : PromptWrite → Store
  | .register id body => (registerPrompt s id body).1
  | .setScript id agentId text userId => (setAgentScript sha s id agentId text userId).1
  | .setGuardrails id agentId text userId => (setAgentGuardrails sha s id agentId text userId).1

def id : PromptWrite → String
  | .register id _ | .setScript id _ _ _ | .setGuardrails id _ _ _ => id

end PromptWrite

/-- The store after the writes. -/
def written (sha : String → String) (ws : List PromptWrite) : Store :=
  ws.foldl (PromptWrite.act sha) {}

/-- A text that is set for an agent. -/
def setText (k : Kind) (agentId text : String) (k' : Kind) (agentId' : String) : Option String :=
  if k' = k ∧ agentId' = agentId then some text else none

/-- The text that a write sets. -/
def PromptWrite.sets : PromptWrite → Kind → String → Option String
  | .register _ _ => fun _ _ => none
  | .setScript _ agentId text _ => setText .script agentId text
  | .setGuardrails _ agentId text _ => setText .guardrail agentId text

/-- The text that was last set for an agent. -/
def lastText (ws : List PromptWrite) (k : Kind) (agentId : String) : Option String :=
  ws.foldl (fun last w => (w.sets k agentId).or last) none

/-- Every prompt is stored under the hash of its text. -/
def Store.HashAddressed (sha : String → String) (s : Store) : Prop :=
  ∀ p ∈ s.prompts, p.templateSha256 = sha p.text

/-- A prompt that is registered under a new hash has that hash. -/
def Honest (sha : String → String) (s : Store) : PromptWrite → Prop
  | .register _ body => s.find body.templateSha256 = none → body.templateSha256 = sha body.text
  | _ => True

/-- The text of an agent's active version. -/
def Store.text (s : Store) (k : Kind) (agentId : String) : Option String :=
  (s.active k agentId).bind fun v => (s.get v.promptId).map Prompt.text

lemma getVersion_text (s : Store) (k : Kind) (agentId : String) :
    (s.getVersion k agentId).text = s.text k agentId := by
  rw [Store.getVersion, Store.text]
  cases s.active k agentId <;> rfl

/-- What a store keeps whose writes drew the keys and set the texts. -/
structure Kept (sha : String → String) (ids : List String)
    (texts : Kind → String → Option String) (s : Store) : Prop where
  nodup : (s.prompts.map Prompt.id).Nodup
  drawn : ∀ p ∈ s.prompts, p.id ∈ ids
  hashed : s.HashAddressed sha
  known : ∀ k, ∀ v ∈ s.versions k, (s.get v.promptId).isSome
  single : ∀ k, ∀ v ∈ s.versions k, ∀ w ∈ s.versions k, v.active = true → w.active = true →
    v.agentId = w.agentId → v = w
  text : ∀ k agentId, s.text k agentId = texts k agentId

section

variable {sha : String → String} {ids : List String} {texts : Kind → String → Option String}
  {s : Store} {k : Kind} {agentId : String}

lemma Kept.draw (h : Kept sha ids texts s) (id : String) : Kept sha (id :: ids) texts s :=
  { h with drawn := fun p hp => List.mem_cons_of_mem _ (h.drawn p hp) }

lemma get_addPrompt {id : String} {p : Prompt} (h : (s.get id).isSome) :
    (s.addPrompt p).get id = s.get id := by
  obtain ⟨q, hq⟩ := Option.isSome_iff_exists.1 h
  rw [hq]
  simp only [Store.get, Store.addPrompt, List.find?_append] at hq ⊢
  rw [hq, Option.some_or]

lemma active_mem {v : Version} (h : s.active k agentId = some v) :
    v ∈ s.versions k ∧ v.agentId = agentId ∧ v.active = true :=
  ⟨List.mem_of_find?_eq_some h, by simpa using List.find?_some h⟩

lemma Kept.addPrompt (h : Kept sha ids texts s) {p : Prompt}
    (hhash : p.templateSha256 = sha p.text) (hid : p.id ∉ ids) :
    Kept sha (p.id :: ids) texts (s.addPrompt p) where
  nodup := by
    rw [Store.addPrompt, List.map_append, List.nodup_append]
    refine ⟨h.nodup, List.nodup_singleton _, fun id hid' id' hp => ?_⟩
    obtain ⟨q, hq, rfl⟩ := List.mem_map.1 hid'
    obtain rfl := List.mem_singleton.1 hp
    exact fun he => hid (he ▸ h.drawn q hq)
  drawn q hq := by
    rcases List.mem_append.1 hq with hq | hq
    · exact List.mem_cons_of_mem _ (h.drawn q hq)
    · exact List.mem_singleton.1 hq ▸ List.mem_cons_self
  hashed q hq := by
    rcases List.mem_append.1 hq with hq | hq
    · exact h.hashed q hq
    · exact List.mem_singleton.1 hq ▸ hhash
  known k v hv := by
    rw [get_addPrompt (h.known k v hv)]
    exact h.known k v hv
  single := h.single
  text k agentId := by
    rw [← h.text k agentId]
    refine Option.bind_congr fun v hv => ?_
    rw [get_addPrompt (h.known k v (active_mem hv).1)]

/-- In a store that is hash-addressed, the prompt of a text has that text. -/
lemma Kept.ensure (hsha : Function.Injective sha) (h : Kept sha ids texts s) {id : String}
    (hid : id ∉ ids) (text : String) :
    Kept sha (id :: ids) texts (s.ensure sha id text).1 ∧
      ((s.ensure sha id text).1.get (s.ensure sha id text).2.id).map Prompt.text = some text := by
  unfold Store.ensure
  cases hfind : s.find (sha text) with
  | some p =>
    have hp : p ∈ s.prompts := List.mem_of_find?_eq_some hfind
    have hhash : p.templateSha256 = sha text := by simpa using List.find?_some hfind
    refine ⟨h.draw id, ?_⟩
    simp only [Store.get]
    rw [Lib.find?_key h.nodup hp, Option.map_some, hsha ((h.hashed p hp).symm.trans hhash)]
  | none =>
    have hkept := h.addPrompt (p := { id, templateSha256 := sha text, text }) rfl hid
    refine ⟨hkept, ?_⟩
    simp only [Store.get]
    rw [Lib.find?_key hkept.nodup (List.mem_append_right _ List.mem_cons_self), Option.map_some]

/-- Once the active row of an agent is deactivated, the active rows are those of other agents. -/
lemma Kept.deactivated (h : Kept sha ids texts s) {k' : Kind} {v : Version}
    (hv : v ∈ ((s.active k agentId).elim s (s.deactivate k)).versions k')
    (hactive : v.active = true) :
    v ∈ s.versions k' ∧ (k' = k → v.agentId ≠ agentId) := by
  cases hold : s.active k agentId with
  | none =>
    rw [hold] at hv
    refine ⟨hv, ?_⟩
    rintro rfl hagent
    have hnone := List.find?_eq_none.1 hold v hv
    simp [hagent, hactive] at hnone
  | some old =>
    obtain ⟨hmem, hagent, hactive'⟩ := active_mem hold
    rw [hold, Option.elim_some, Store.deactivate_versions] at hv
    split at hv
    · next hk =>
      subst hk
      obtain ⟨w, hw, rfl⟩ := List.mem_map.1 hv
      obtain ⟨hself, hother⟩ := Version.of_deactivated hactive
      rw [hself] at hactive ⊢
      refine ⟨hw, fun _ hsame => hother ?_⟩
      rw [h.single k' w hw old hmem hactive hactive' (hsame.trans hagent.symm)]
      exact ⟨rfl, rfl⟩
    · next hk => exact ⟨hv, fun he => absurd he hk⟩

/-- Every version points to a prompt, also once one is deactivated. -/
lemma Kept.known_of_deactivated (h : Kept sha ids texts s) {k' : Kind} {v : Version}
    {old : Option Version} (hv : v ∈ (old.elim s (s.deactivate k)).versions k') :
    (s.get v.promptId).isSome := by
  cases old with
  | none => exact h.known k' v hv
  | some old =>
    rw [Option.elim_some, Store.deactivate_versions] at hv
    split at hv
    · obtain ⟨w, hw, rfl⟩ := List.mem_map.1 hv
      rw [Version.deactivated_promptId]
      exact h.known k w hw
    · exact h.known k' v hv

lemma active_deactivate {k' : Kind} {old : Version} (h : k' = k → agentId ≠ old.agentId) :
    (s.deactivate k old).active k' agentId = s.active k' agentId := by
  rw [Store.active, Store.active, Store.deactivate_versions]
  split
  · next hk =>
    subst hk
    generalize s.versions k' = rows
    induction rows with
    | nil => rfl
    | cons v rows ih =>
      by_cases hv : v.agentId = agentId
      · have hne : v.agentId ≠ old.agentId := hv ▸ h rfl
        rw [List.map_cons, List.find?_cons, List.find?_cons, ih, Version.deactivated,
          if_neg fun hc => hne hc.1]
      · rw [List.map_cons, List.find?_cons_of_neg (by simp [hv]),
          List.find?_cons_of_neg (by simp [hv]), ih]
  · rfl

lemma active_addVersion {k' : Kind} {row : Version} (h : k' = k → agentId ≠ row.agentId) :
    (s.addVersion k row).active k' agentId = s.active k' agentId := by
  rw [Store.active, Store.active, Store.addVersion_versions]
  split
  · next hk => simp [List.find?_append, hk, (h hk).symm]
  · rfl

/-- The first version that is active is the new one, if no other one of the agent is. -/
lemma active_addVersion_self {row : Version} (hrow : row.active = true)
    (h : ∀ v ∈ s.versions k, v.active = true → v.agentId ≠ row.agentId) :
    (s.addVersion k row).active k row.agentId = some row := by
  have hnone : (s.versions k).find? (fun v => v.agentId = row.agentId ∧ v.active) = none :=
    List.find?_eq_none.2 fun v hv => by simpa using fun hagent hactive => h v hv hactive hagent
  rw [Store.active, Store.addVersion_versions, if_pos rfl, List.find?_append, hnone]
  simp [hrow]

/-- A new version is the active one of its agent and leaves the others. -/
lemma Kept.mint (h : Kept sha ids texts s) (k : Kind) (agentId : String) (userId : Option String)
    {prompt : Prompt} {text : String} (hprompt : (s.get prompt.id).map Prompt.text = some text) :
    Kept sha ids (fun k' agentId' => (setText k agentId text k' agentId').or (texts k' agentId'))
      (mintVersion s k agentId prompt userId (s.active k agentId)).1 := by
  unfold mintVersion
  generalize hbefore : (s.active k agentId).elim s (s.deactivate k) = before
  have hprompts : before.prompts = s.prompts := by
    rw [← hbefore]
    cases s.active k agentId <;> rfl
  have hget (id : String) : before.get id = s.get id := by rw [Store.get, hprompts, Store.get]
  have hactive {k' : Kind} {agentId' : String} (hne : k' = k → agentId' ≠ agentId) :
      before.active k' agentId' = s.active k' agentId' := by
    rw [← hbefore]
    cases hold : s.active k agentId with
    | none => rfl
    | some old => exact active_deactivate fun he => (active_mem hold).2.1 ▸ hne he
  have hothers {k' : Kind} {v : Version} (hv : v ∈ before.versions k') (hv' : v.active = true) :
      v ∈ s.versions k' ∧ (k' = k → v.agentId ≠ agentId) := h.deactivated (hbefore ▸ hv) hv'
  have hnew {k' : Kind} {row v : Version} (hv : v ∈ (before.addVersion k row).versions k') :
      v ∈ before.versions k' ∨ (k' = k ∧ v = row) := by
    rw [Store.addVersion_versions] at hv
    split at hv
    · next hk =>
      subst hk
      exact (List.mem_append.1 hv).imp_right fun hv => ⟨rfl, List.mem_singleton.1 hv⟩
    · exact .inl hv
  exact {
    nodup := by
      simpa only [Store.addVersion, hprompts] using h.nodup
    drawn := by
      simpa only [Store.addVersion, hprompts] using h.drawn
    hashed := by
      simpa only [Store.HashAddressed, Store.addVersion, hprompts] using h.hashed
    known := by
      intro k' v hv
      change (before.get v.promptId).isSome
      rw [hget]
      rcases hnew hv with hv | ⟨-, rfl⟩
      · rw [← hbefore] at hv
        exact h.known_of_deactivated hv
      · simpa only [Option.isSome_map, Option.isSome_some] using congrArg Option.isSome hprompt
    single := by
      intro k' v hv w hw hv' hw' he
      rcases hnew hv with hold | ⟨hk, rfl⟩
      · rcases hnew hw with hold' | ⟨hk, rfl⟩
        · exact h.single k' v (hothers hold hv').1 w (hothers hold' hw').1 hv' hw' he
        · exact absurd he ((hothers hold hv').2 hk)
      · rcases hnew hw with hold' | ⟨-, rfl⟩
        · exact absurd he.symm ((hothers hold' hw').2 hk)
        · rfl
    text := by
      intro k' agentId'
      by_cases hsame : k' = k ∧ agentId' = agentId
      · obtain ⟨rfl, rfl⟩ := hsame
        rw [setText, if_pos ⟨rfl, rfl⟩, Option.some_or, Store.text,
          active_addVersion_self rfl fun v hv hv' => (hothers hv hv').2 rfl, Option.bind_some]
        exact (congrArg _ (hget prompt.id)).trans hprompt
      · have hne : k' = k → agentId' ≠ agentId := fun hk ha => hsame ⟨hk, ha⟩
        rw [setText, if_neg hsame, Option.none_or, ← h.text, Store.text, Store.text,
          active_addVersion hne, hactive hne]
        exact Option.bind_congr fun v _ => congrArg _ (hget v.promptId) }

/-- A text that is set is the one that is read, if the store is hash-addressed. -/
lemma Kept.setVersion (hsha : Function.Injective sha) (h : Kept sha ids texts s)
    {id text : String} {userId : Option String} (hid : id ∉ ids) :
    Kept sha (id :: ids)
      (fun k' agentId' => (setText k agentId text k' agentId').or (texts k' agentId'))
      (setVersion sha k s id agentId text userId).1 := by
  obtain ⟨hkept, hprompt⟩ := h.ensure hsha hid text
  unfold Api.setVersion
  generalize s.ensure sha id text = ensured at hkept hprompt
  have hmint := hkept.mint k agentId userId hprompt
  obtain ⟨s', prompt⟩ := ensured
  dsimp only at hkept hprompt hmint ⊢
  cases hactive : s'.active k agentId with
  | none =>
    rw [hactive] at hmint
    exact hmint
  | some active =>
    dsimp only
    split
    · next hsame =>
      -- the active version has the text already
      refine { hkept with text := fun k' agentId' => ?_ }
      rw [hkept.text]
      by_cases hthis : k' = k ∧ agentId' = agentId
      · rw [setText, if_pos hthis, Option.some_or, ← hkept.text, hthis.1, hthis.2, Store.text,
          hactive, Option.bind_some, hsame, hprompt]
      · rw [setText, if_neg hthis, Option.none_or]
    · rw [hactive] at hmint
      exact hmint

lemma Kept.registerPrompt (h : Kept sha ids texts s) {id : String} {body : PromptIn}
    (hid : id ∉ ids) (hhonest : Honest sha s (.register id body)) :
    Kept sha (id :: ids) texts (registerPrompt s id body).1 := by
  unfold Api.registerPrompt
  cases hfind : s.find body.templateSha256 with
  | some _ => exact h.draw id
  | none =>
    exact h.addPrompt (p := { id, templateSha256 := body.templateSha256, text := body.text })
      (hhonest hfind) hid

lemma Kept.act (hsha : Function.Injective sha) {w : PromptWrite} (h : Kept sha ids texts s)
    (hid : w.id ∉ ids) (hhonest : Honest sha s w) :
    Kept sha (w.id :: ids) (fun k agentId => (w.sets k agentId).or (texts k agentId))
      (w.act sha s) := by
  cases w with
  | register id body => exact h.registerPrompt hid hhonest
  | setScript => exact h.setVersion hsha hid
  | setGuardrails => exact h.setVersion hsha hid

/-- A prompt that is not honest breaks the store. -/
lemma honest_of_hashAddressed {w : PromptWrite} (h : (w.act sha s).HashAddressed sha) :
    Honest sha s w := by
  cases w with
  | register id body =>
    intro hfind
    simp only [PromptWrite.act, registerPrompt, hfind] at h
    exact h _ (List.mem_append_right _ List.mem_cons_self)
  | setScript => trivial
  | setGuardrails => trivial

lemma lastText_append (ws : List PromptWrite) (w : PromptWrite) :
    lastText (ws ++ [w]) = fun k agentId => (w.sets k agentId).or (lastText ws k agentId) := by
  funext k agentId
  rw [lastText, List.foldl_append]
  rfl

lemma kept_written (hsha : Function.Injective sha) {ws : List PromptWrite}
    (hdrawn : (ws.map PromptWrite.id).Nodup)
    (hhonest : ∀ past w rest, past ++ w :: rest = ws → Honest sha (written sha past) w) :
    Kept sha (ws.map PromptWrite.id).reverse (lastText ws) (written sha ws) := by
  induction ws using List.reverseRecOn with
  | nil => exact ⟨by simp [written], by simp [written], by simp [written, Store.HashAddressed],
      by simp [written], by simp [written], by simp [written, Store.text, Store.active, lastText]⟩
  | append_singleton ws w ih =>
    rw [List.map_append, List.nodup_append] at hdrawn
    have hkept := ih hdrawn.1 fun past w' rest he => hhonest past w' (rest ++ [w]) (by simp [← he])
    have hid : w.id ∉ (ws.map PromptWrite.id).reverse := fun hmem =>
      hdrawn.2.2 _ (List.mem_reverse.1 hmem) _ (by simp) rfl
    have hstep := hkept.act hsha hid (hhonest ws w [] rfl)
    rw [← lastText_append] at hstep
    simpa [written, List.foldl_append] using hstep

/-- The store is hash-addressed and the text read back is the one that was last set, in every state
that writes reach, exactly when every prompt that is registered under a new hash has it. -/
theorem prompts_hashed_iff (hsha : Function.Injective sha) {ws : List PromptWrite}
    (hdrawn : (ws.map PromptWrite.id).Nodup) :
    (∀ past rest, past ++ rest = ws → (written sha past).HashAddressed sha ∧
      ∀ k agentId, ((written sha past).getVersion k agentId).text = lastText past k agentId) ↔
    ∀ past w rest, past ++ w :: rest = ws → Honest sha (written sha past) w := by
  constructor
  · intro h past w rest he
    have hstep := (h (past ++ [w]) rest (by simp [← he])).1
    rw [written, List.foldl_append] at hstep
    exact honest_of_hashAddressed hstep
  · intro hhonest past rest he
    subst he
    rw [List.map_append, List.nodup_append] at hdrawn
    have hkept := kept_written hsha hdrawn.1 fun past' w rest' he =>
      hhonest past' w (rest' ++ rest) (by simp [← he])
    exact ⟨hkept.hashed, fun k agentId => (getVersion_text _ k agentId).trans (hkept.text k agentId)⟩

/-- A prompt is registered with its hash and an agent gets it. -/
theorem prompts_hashed_iff_registered :
    let ws := [.register "p" { templateSha256 := "hello", text := "hello" },
      .setScript "q" "a" "hello" none]
    (∀ past rest, past ++ rest = ws → (written id past).HashAddressed id ∧
      ∀ k agentId, ((written id past).getVersion k agentId).text = lastText past k agentId) ↔
    ∀ past w rest, past ++ w :: rest = ws → Honest id (written id past) w :=
  prompts_hashed_iff Function.injective_id (by decide)

/-- A client registers another text under the hash of a script, which is set after it. -/
theorem getVersion_registered :
    ¬∀ sha : String → String, Function.Injective sha → ∀ ws : List PromptWrite,
      (ws.map PromptWrite.id).Nodup → (written sha ws).HashAddressed sha ∧
        ∀ k agentId, ((written sha ws).getVersion k agentId).text = lastText ws k agentId := by
  intro h
  have htext := (h id Function.injective_id
    [.register "p" { templateSha256 := "hello", text := "goodbye" },
      .setScript "q" "a" "hello" none] (by decide)).2 .script "a"
  exact absurd htext (by decide)

end

end Pulse.Api
