import Pulse.Core.Waterfall
import Pulse.Lib.Lists

/-!
# The audio config of an agent

`_apply_audio_config` and `_audio_config_dict` of `api/agents.py`. The credentials of an update go
to a public and to an encrypted store, by the specification that is in force then; a later update may
change the specification and send no credentials.
-/

namespace Pulse.Api.AudioConfig

open Pulse.Core
open Lib (PyFloat upsert)

/-- A dictionary of texts. -/
abbrev Dict := List (String × String)

/-- An entry of `cred_spec`. -/
abbrev SpecField := List (String × Value PyFloat)

/-- `encrypt(json.dumps(d))` and what gives the dictionary back, under one key. -/
structure Vault (C : Type) where
  encrypt : Dict → C
  decrypt : C → Dict
  decrypt_encrypt : ∀ d, decrypt (encrypt d) = d
  /-- `encrypt` of an API key. -/
  encryptText : String → C

/-- A row of `AgentAudioConfig`. -/
structure Config (C : Type) where
  enabled : Bool := false
  provider : Option String := none
  descriptor : Option SpecField := none
  credSpec : Option (List SpecField) := none
  credPublic : Option Dict := none
  credSecretCiphertext : Option C := none
  sttBaseUrl : Option String := none
  sttModel : Option String := none
  sttKeyCiphertext : Option C := none
  diarizeBaseUrl : Option String := none
  diarizeModel : Option String := none
  diarizeKeyCiphertext : Option C := none

structure AudioConfigIn where
  enabled : Bool := false
  provider : Option String := none
  descriptor : Option SpecField := none
  credSpec : Option (List SpecField) := none
  credentials : Option Dict := none
  sttBaseUrl : Option String := none
  sttModel : Option String := none
  sttApiKey : Option String := none
  diarizeBaseUrl : Option String := none
  diarizeModel : Option String := none
  diarizeApiKey : Option String := none

/-- Why an update is refused; then nothing is written. -/
inductive Refusal
  /-- 422: the pattern of the descriptor. -/
  | pattern
  /-- 500: a name that cannot be hashed. -/
  | unhashable
  deriving DecidableEq

/-- Can the value be the element of a set? -/
def hashable : Value PyFloat → Bool
  | .arr _ | .obj _ => false
  | _ => true

/-- The names of the entries that are marked secret. -/
def markedNames (spec : Option (List SpecField)) : List (Value PyFloat) :=
  (spec.getD []).filterMap fun f =>
    let name := (f.lookup "name").getD .null
    if ((f.lookup "secret").getD .null).truthy ∧ name.truthy then some name else none

/-- `_secret_names` -/
def secretNames (spec : Option (List SpecField)) : Except Refusal (List (Value PyFloat)) :=
  if (markedNames spec).all hashable then .ok (markedNames spec) else .error .unhashable

/-- `k in secret_names` -/
def isName (names : List (Value PyFloat)) (k : String) : Bool :=
  names.any fun
    | .str s => s = k
    | _ => false

/-- `{**existing, **provided}` -/
def merge (existing provided : Dict) : Dict :=
  provided.foldl (fun d e => upsert d e.1 fun _ => e.2) existing

variable {C : Type} (vault : Vault C) (validPattern : Value PyFloat → Bool)

/-- `json.loads(decrypt(cfg.cred_secret_ciphertext) or "{}")` -/
def Config.secrets (cfg : Config C) : Dict :=
  (cfg.credSecretCiphertext.map vault.decrypt).getD []

/-- What the credentials of an update write. -/
def Config.store (cfg : Config C) (credentials : Dict) (names : List (Value PyFloat)) : Config C :=
  let provided := credentials.filter fun e => isName names e.1 ∧ e.2 ≠ ""
  let merged := merge (cfg.secrets vault) provided
  { cfg with
    credPublic := some (credentials.filter fun e => !isName names e.1)
    credSecretCiphertext := if merged.isEmpty then none else some (vault.encrypt merged) }

/-- The credentials of an update, if it has any. -/
def Config.storeSent (cfg : Config C) : Option Dict → Except Refusal (Config C)
  | none => .ok cfg
  | some credentials => do return cfg.store vault credentials (← secretNames cfg.credSpec)

/-- The pattern of a descriptor, if there is one, is one that may be stored. -/
def patternOk (descriptor : Option SpecField) : Bool :=
  match (descriptor.getD []).lookup "key_regex" with
  | none | some .null => true
  | some v => validPattern v

/-- The fields of an update before its credentials. -/
def Config.describe (cfg : Config C) (body : AudioConfigIn) : Config C :=
  { cfg with
    enabled := body.enabled
    provider := body.provider.or cfg.provider
    descriptor := body.descriptor.or cfg.descriptor
    credSpec := body.credSpec.or cfg.credSpec }

/-- The fields of an update after its credentials. -/
def Config.serve (cfg : Config C) (body : AudioConfigIn) : Config C :=
  { cfg with
    sttBaseUrl := body.sttBaseUrl
    sttModel := body.sttModel
    sttKeyCiphertext := (body.sttApiKey.map vault.encryptText).or cfg.sttKeyCiphertext
    diarizeBaseUrl := body.diarizeBaseUrl
    diarizeModel := body.diarizeModel
    diarizeKeyCiphertext := (body.diarizeApiKey.map vault.encryptText).or cfg.diarizeKeyCiphertext }

/-- `_apply_audio_config`, on the row that is there. -/
def applyAudioConfig (row : Option (Config C)) (body : AudioConfigIn) :
    Except Refusal (Config C) :=
  if patternOk validPattern body.descriptor then do
    let cfg ← ((row.getD {}).describe body).storeSent vault body.credentials
    return cfg.serve vault body
  else .error .pattern

/-- The keys of a response that only a stored row gives. -/
structure Services where
  sttBaseUrl : Option String
  sttModel : Option String
  hasSttKey : Bool
  diarizeBaseUrl : Option String
  diarizeModel : Option String
  hasDiarizeKey : Bool

structure Response where
  enabled : Bool := false
  provider : Option String := none
  descriptor : Option SpecField := none
  credSpec : Option (List SpecField) := none
  credPublic : Dict := []
  hasSecret : List (Value PyFloat × Bool) := []
  services : Option Services := none

/-- `n in stored_secrets` -/
def isStored (secrets : Dict) : Value PyFloat → Bool
  | .str s => secrets.any (·.1 = s)
  | _ => false

/-- `_audio_config_dict` -/
def audioConfigDict : Option (Config C) → Except Refusal Response
  | none => .ok {}
  | some cfg => do
    let names ← secretNames cfg.credSpec
    return {
      enabled := cfg.enabled
      provider := cfg.provider
      descriptor := cfg.descriptor
      credSpec := cfg.credSpec
      credPublic := cfg.credPublic.getD []
      hasSecret := names.map fun n => (n, isStored (cfg.secrets vault) n)
      services := some {
        sttBaseUrl := cfg.sttBaseUrl
        sttModel := cfg.sttModel
        hasSttKey := cfg.sttKeyCiphertext.isSome
        diarizeBaseUrl := cfg.diarizeBaseUrl
        diarizeModel := cfg.diarizeModel
        hasDiarizeKey := cfg.diarizeKeyCiphertext.isSome } }

/-- A request that updates the config of an agent. -/
inductive Update
  /-- `set_audio_config`, which answers with the config. -/
  | audioConfig (body : AudioConfigIn)
  /-- `create_agent` and `put_storage_config`, which do not. -/
  | storageConfig (body : AudioConfigIn)

def Update.body : Update → AudioConfigIn
  | .audioConfig body | .storageConfig body => body

/-- The row after a request, or why there is no answer. -/
def Update.run (cfg : Option (Config C)) (u : Update) : Except Refusal (Config C) :=
  match u with
  | .storageConfig body => applyAudioConfig vault validPattern cfg body
  | .audioConfig body => do
    let cfg ← applyAudioConfig vault validPattern cfg body
    let _ ← audioConfigDict vault (some cfg)
    return cfg

/-- The row after some requests. A request without an answer is rolled back. -/
def after (us : List Update) : Option (Config C) :=
  us.foldl (fun cfg u => (u.run vault validPattern cfg).toOption.or cfg) none

/-! ### What is promised of the secrets -/

variable {vault validPattern}

/-- A specification marks the field secret. -/
def Marks (spec : Option (List SpecField)) (n : String) : Prop :=
  ∃ names, secretNames spec = .ok names ∧ isName names n = true

/-- The echoed values. -/
def Config.echoed (cfg : Config C) : Dict := cfg.credPublic.getD []

/-- The value of a field that a driver is given: `_creds_dict` lets a secret override. -/
def stored (vault : Vault C) (cfg : Config C) (n : String) : Option String :=
  ((cfg.secrets vault).lookup n).or (cfg.echoed.lookup n)

/-- One of the requests has sent the value for the field. -/
def Supplied (us : List Update) (n v : String) : Prop :=
  ∃ u ∈ us, ∃ credentials, u.body.credentials = some credentials ∧ (n, v) ∈ credentials

/-- The request leaves the field out. -/
def Update.Omits (u : Update) (n : String) : Prop :=
  ∀ credentials, u.body.credentials = some credentials → n ∉ credentials.map Prod.fst

/-- What holds of the answers after some requests. -/
structure SafeAnswer (vault : Vault C) (us : List Update) (row : Option (Config C)) : Prop where
  /-- No value that was supplied for a field that is secret now is echoed for it. -/
  noEcho : ∀ r, audioConfigDict vault row = .ok r → ∀ n v, Marks (row.getD {}).credSpec n →
    Supplied us n v → (n, v) ∉ r.credPublic
  /-- The fields with a secret are the secret fields that have a value. -/
  hasSecret : ∀ r, audioConfigDict vault row = .ok r → ∀ n : String,
    (.str n, true) ∈ r.hasSecret ↔
      Marks (row.getD {}).credSpec n ∧ (stored vault (row.getD {}) n).isSome

/-- A secret field that the request leaves out keeps its value. -/
def Keeps (vault : Vault C) (row : Config C) (u : Update) (row' : Config C) : Prop :=
  ∀ n, Marks row'.credSpec n → u.Omits n → stored vault row' n = stored vault row n

/-- A field that a request marks secret while its value is echoed is sent again, or is among the
secrets already. -/
def Covers (vault : Vault C) (row : Config C) (u : Update) : Prop :=
  ∀ n, Marks (u.body.credSpec.or row.credSpec) n → n ∈ row.echoed.map Prod.fst →
    ∃ credentials, u.body.credentials = some credentials ∧
      (n ∈ credentials.map Prod.fst ∨ n ∈ (row.secrets vault).map Prod.fst)

/-! ### One request -/

/-- What a request that is answered writes to the credentials. -/
structure Wrote (vault : Vault C) (row : Config C) (body : AudioConfigIn) (row' : Config C) :
    Prop where
  credSpec : row'.credSpec = body.credSpec.or row.credSpec
  without : body.credentials = none →
    row'.echoed = row.echoed ∧ row'.secrets vault = row.secrets vault
  sent : ∀ credentials, body.credentials = some credentials →
    ∃ names, secretNames row'.credSpec = .ok names ∧
      row'.echoed = credentials.filter (fun e => !isName names e.1) ∧
      row'.secrets vault = merge (row.secrets vault)
        (credentials.filter fun e => isName names e.1 ∧ e.2 ≠ "")

lemma secrets_store (cfg : Config C) (credentials : Dict) (names : List (Value PyFloat)) :
    (cfg.store vault credentials names).secrets vault = merge (cfg.secrets vault)
      (credentials.filter fun e => isName names e.1 ∧ e.2 ≠ "") := by
  unfold Config.store Config.secrets
  dsimp only
  split
  · rename_i hempty
    rw [List.isEmpty_iff] at hempty
    rw [hempty]
    rfl
  · rw [Option.map_some, Option.getD_some, vault.decrypt_encrypt]

lemma wrote_of_apply {row : Option (Config C)} {body : AudioConfigIn} {row' : Config C}
    (h : applyAudioConfig vault validPattern row body = .ok row') :
    Wrote vault (row.getD {}) body row' := by
  unfold applyAudioConfig at h
  split at h
  · obtain ⟨cfg, hcfg, h⟩ := Lib.bind_eq_ok.1 h
    cases h
    cases hcredentials : body.credentials with
    | none =>
      rw [hcredentials] at hcfg
      cases hcfg
      exact ⟨rfl, fun _ => ⟨rfl, rfl⟩, fun _ hsome => by rw [hcredentials] at hsome; cases hsome⟩
    | some credentials =>
      rw [hcredentials] at hcfg
      obtain ⟨names, hnames, hcfg⟩ := Lib.bind_eq_ok.1 hcfg
      cases hcfg
      constructor
      · rfl
      · intro hnone
        rw [hcredentials] at hnone
        cases hnone
      · intro credentials' hsome
        rw [hcredentials] at hsome
        cases hsome
        exact ⟨names, hnames, rfl, secrets_store _ _ _⟩
  · cases h

lemma Update.wrote {u : Update} {row : Option (Config C)} {row' : Config C}
    (h : u.run vault validPattern row = .ok row') : Wrote vault (row.getD {}) u.body row' := by
  cases u with
  | storageConfig body => exact wrote_of_apply h
  | audioConfig body =>
    obtain ⟨cfg, hcfg, h⟩ := Lib.bind_eq_ok.1 h
    obtain ⟨-, -, h⟩ := Lib.bind_eq_ok.1 h
    cases h
    exact wrote_of_apply hcfg

lemma lookup_merge {existing provided : Dict} {n : String} (h : n ∉ provided.map Prod.fst) :
    (merge existing provided).lookup n = existing.lookup n := by
  induction provided generalizing existing with
  | nil => rfl
  | cons e provided ih =>
    simp only [List.map_cons, List.mem_cons, not_or] at h
    rw [merge, List.foldl_cons]
    exact (ih h.2).trans (by rw [Lib.lookup_upsert, if_neg h.1])

lemma lookup_isSome_iff {d : Dict} {n : String} : (d.lookup n).isSome ↔ n ∈ d.map Prod.fst := by
  rw [← not_iff_not, Bool.not_eq_true, Option.isSome_eq_false_iff, Option.isNone_iff_eq_none,
    List.lookup_eq_none_iff]
  constructor
  · intro h hmem
    obtain ⟨e, he, rfl⟩ := List.mem_map.1 hmem
    simpa using h e he
  · intro h e he
    have hne : n ≠ e.1 := fun heq => h (heq ▸ List.mem_map_of_mem he)
    simpa using hne

lemma lookup_eq_none {d : Dict} {n : String} (h : n ∉ d.map Prod.fst) : d.lookup n = none := by
  rw [← lookup_isSome_iff, Option.not_isSome_iff_eq_none] at h
  exact h

/-- No field is secret and echoed. -/
def Apart (row : Config C) : Prop := ∀ n, Marks row.credSpec n → n ∉ row.echoed.map Prod.fst

lemma Marks.isName {spec : Option (List SpecField)} {n : String} (h : Marks spec n)
    {names : List (Value PyFloat)} (hnames : secretNames spec = .ok names) :
    isName names n = true := by
  obtain ⟨names', hnames', hname⟩ := h
  rw [hnames] at hnames'
  cases hnames'
  exact hname

namespace Wrote

variable {row row' : Config C} {u : Update}

/-- What is sent does not echo a secret field. -/
lemma not_mem_echoed (h : Wrote vault row u.body row') {n : String} (hn : Marks row'.credSpec n)
    {credentials : Dict} (hcredentials : u.body.credentials = some credentials) :
    n ∉ row'.echoed.map Prod.fst := by
  obtain ⟨names, hnames, hechoed, -⟩ := h.sent credentials hcredentials
  rw [hechoed, List.mem_map]
  rintro ⟨e, he, rfl⟩
  have hnot := (List.mem_filter.1 he).2
  rw [hn.isName hnames] at hnot
  cases hnot

/-- What is left out stays in the encrypted store. -/
lemma lookup_secrets (h : Wrote vault row u.body row') {n : String} (hn : u.Omits n) :
    (row'.secrets vault).lookup n = (row.secrets vault).lookup n := by
  cases hcredentials : u.body.credentials with
  | none => rw [(h.without hcredentials).2]
  | some credentials =>
    obtain ⟨names, -, -, hsecrets⟩ := h.sent credentials hcredentials
    rw [hsecrets]
    apply lookup_merge
    intro hmem
    obtain ⟨e, he, rfl⟩ := List.mem_map.1 hmem
    exact hn credentials hcredentials (List.mem_map_of_mem (List.mem_of_mem_filter he))

/-- A request that covers what it marks leaves the stores apart. -/
lemma apart (h : Wrote vault row u.body row') (hcovers : Covers vault row u) : Apart row' := by
  intro n hn
  cases hcredentials : u.body.credentials with
  | none =>
    rw [(h.without hcredentials).1]
    intro hmem
    rw [h.credSpec] at hn
    obtain ⟨credentials, hsome, -⟩ := hcovers n hn hmem
    rw [hcredentials] at hsome
    cases hsome
  | some credentials => exact h.not_mem_echoed hn hcredentials

lemma keeps (h : Wrote vault row u.body row') (hcovers : Covers vault row u) :
    Keeps vault row u row' := by
  intro n hn homits
  have happart := h.apart hcovers n hn
  rw [stored, stored, h.lookup_secrets homits, lookup_eq_none happart, Option.or_none]
  by_cases hmem : n ∈ row.echoed.map Prod.fst
  · rw [h.credSpec] at hn
    obtain ⟨credentials, hsome, hkey⟩ := hcovers n hn hmem
    have hsecret := hkey.resolve_left (homits credentials hsome)
    rw [← lookup_isSome_iff] at hsecret
    exact (Option.or_of_isSome hsecret).symm
  · rw [lookup_eq_none hmem, Option.or_none]

end Wrote

lemma isName_iff {names : List (Value PyFloat)} {n : String} :
    isName names n = true ↔ .str n ∈ names := by
  rw [isName, List.any_eq_true]
  constructor
  · rintro ⟨v, hv, hname⟩
    split at hname
    · rw [← of_decide_eq_true hname]
      exact hv
    · cases hname
  · intro h
    exact ⟨.str n, h, decide_eq_true rfl⟩

lemma isStored_iff {secrets : Dict} {n : String} :
    isStored secrets (.str n) = true ↔ n ∈ secrets.map Prod.fst := by
  rw [isStored, List.any_eq_true, List.mem_map]
  simp only [decide_eq_true_eq]

/-- What an answer says of the credentials. -/
lemma audioConfigDict_ok {row : Option (Config C)} {r : Response}
    (h : audioConfigDict vault row = .ok r) :
    ∃ names, secretNames (row.getD {}).credSpec = .ok names ∧
      r.credPublic = (row.getD {}).echoed ∧
      r.hasSecret = names.map fun n => (n, isStored ((row.getD {}).secrets vault) n) := by
  cases row with
  | none =>
    cases h
    exact ⟨[], rfl, rfl, rfl⟩
  | some cfg =>
    obtain ⟨names, hnames, h⟩ := Lib.bind_eq_ok.1 h
    cases h
    exact ⟨names, hnames, rfl, rfl⟩

lemma exists_audioConfigDict (vault : Vault C) {row : Config C} {names : List (Value PyFloat)}
    (h : secretNames row.credSpec = .ok names) : ∃ r, audioConfigDict vault (some row) = .ok r := by
  unfold audioConfigDict
  dsimp only
  rw [h]
  exact ⟨_, rfl⟩

/-- If no secret field is echoed, the answers are safe. -/
lemma safeAnswer_of_apart {row : Option (Config C)} (h : Apart (row.getD {})) (us : List Update) :
    SafeAnswer vault us row := by
  constructor
  · intro r hr n v hn _ hmem
    obtain ⟨names, -, hpublic, -⟩ := audioConfigDict_ok hr
    rw [hpublic] at hmem
    exact h n hn (List.mem_map_of_mem hmem)
  · intro r hr n
    obtain ⟨names, hnames, -, hsecret⟩ := audioConfigDict_ok hr
    have hmarks : Marks (row.getD {}).credSpec n ↔ .str n ∈ names := by
      rw [← isName_iff]
      exact ⟨fun hn => hn.isName hnames, fun hn => ⟨names, hnames, hn⟩⟩
    have hmem : (.str n, true) ∈ r.hasSecret ↔
        .str n ∈ names ∧ n ∈ ((row.getD {}).secrets vault).map Prod.fst := by
      rw [hsecret, List.mem_map, ← isStored_iff]
      constructor
      · rintro ⟨m, hm, heq⟩
        obtain ⟨rfl, htrue⟩ := Prod.mk.inj heq
        exact ⟨hm, htrue⟩
      · rintro ⟨hm, htrue⟩
        exact ⟨.str n, hm, by rw [htrue]⟩
    rw [hmem, hmarks]
    refine and_congr_right fun hn => ?_
    rw [stored, lookup_eq_none (h n (hmarks.2 hn)), Option.or_none, lookup_isSome_iff]

/-- A request that keeps the secret fields and echoes none of them covers what it marks. -/
lemma Wrote.covers {row row' : Config C} {u : Update} {us : List Update}
    (h : Wrote vault row u.body row') (hkeeps : Keeps vault row u row')
    (hsafe : SafeAnswer vault us (some row'))
    (hsupplied : ∀ n v, (n, v) ∈ row.echoed → Supplied us n v) : Covers vault row u := by
  intro n hn hmem
  rw [← h.credSpec] at hn
  obtain ⟨e, hv, rfl⟩ := List.mem_map.1 hmem
  cases hcredentials : u.body.credentials with
  | none =>
    -- The value is echoed still.
    obtain ⟨names, hnames, -⟩ := id hn
    obtain ⟨r, hr⟩ := exists_audioConfigDict vault hnames
    obtain ⟨-, -, hpublic, -⟩ := audioConfigDict_ok hr
    have hnot := hsafe.noEcho r hr e.1 e.2 hn (hsupplied e.1 e.2 hv)
    rw [hpublic] at hnot
    change e ∉ row'.echoed at hnot
    rw [(h.without hcredentials).1] at hnot
    exact absurd hv hnot
  | some credentials =>
    refine ⟨credentials, rfl, ?_⟩
    by_contra hkey
    rw [not_or] at hkey
    -- The value is gone from both stores.
    have homits : u.Omits e.1 := by
      intro credentials' hsome
      rw [hcredentials] at hsome
      cases hsome
      exact hkey.1
    have hkept := hkeeps _ hn homits
    rw [stored, stored, h.lookup_secrets homits, lookup_eq_none hkey.2, Option.none_or,
      Option.none_or, lookup_eq_none (h.not_mem_echoed hn hcredentials)] at hkept
    have hsome := lookup_isSome_iff.2 hmem
    rw [← hkept] at hsome
    cases hsome

/-! ### Every run -/

lemma after_snoc (us : List Update) (u : Update) :
    after vault validPattern (us ++ [u]) =
      (u.run vault validPattern (after vault validPattern us)).toOption.or
        (after vault validPattern us) := by
  rw [after, List.foldl_append]
  rfl

/-- What is echoed was sent. -/
lemma supplied_of_echoed (us : List Update) (n v : String)
    (h : (n, v) ∈ ((after vault validPattern us).getD {}).echoed) : Supplied us n v := by
  induction us using List.reverseRecOn with
  | nil => cases h
  | append_singleton us u ih =>
    have hearlier (h : Supplied us n v) : Supplied (us ++ [u]) n v := by
      obtain ⟨u', hu', hsent⟩ := h
      exact ⟨u', List.mem_append_left _ hu', hsent⟩
    rw [after_snoc] at h
    cases hrun : u.run vault validPattern (after vault validPattern us) with
    | error e =>
      rw [hrun] at h
      exact hearlier (ih h)
    | ok row' =>
      rw [hrun] at h
      have hwrote := Update.wrote hrun
      change (n, v) ∈ row'.echoed at h
      cases hcredentials : u.body.credentials with
      | none =>
        rw [(hwrote.without hcredentials).1] at h
        exact hearlier (ih h)
      | some credentials =>
        obtain ⟨names, -, hechoed, -⟩ := hwrote.sent credentials hcredentials
        rw [hechoed] at h
        exact ⟨u, List.mem_append_right _ (List.mem_singleton_self u), credentials, hcredentials,
          List.mem_of_mem_filter h⟩

/-- In a run whose requests cover what they mark, no secret field is echoed. -/
lemma apart_after {us : List Update} (h : ∀ pre u post row, us = pre ++ u :: post →
      u.run vault validPattern (after vault validPattern pre) = .ok row →
      Covers vault ((after vault validPattern pre).getD {}) u) :
    Apart ((after vault validPattern us).getD {}) := by
  induction us using List.reverseRecOn with
  | nil =>
    intro n _ hmem
    cases hmem
  | append_singleton us u ih =>
    have hearlier : Apart ((after vault validPattern us).getD {}) := by
      refine ih fun pre u' post row heq hrun => ?_
      exact h pre u' (post ++ [u]) row (by rw [heq, List.append_assoc, List.cons_append]) hrun
    rw [after_snoc]
    cases hrun : u.run vault validPattern (after vault validPattern us) with
    | error e => exact hearlier
    | ok row' => exact (Update.wrote hrun).apart (h us u [] row' rfl hrun)

/-- The secrets are safe in a run, exactly if each request that is answered covers what it
marks. -/
theorem secrets_safe_iff (vault : Vault C) (validPattern : Value PyFloat → Bool)
    (us : List Update) :
    (∀ pre post, us = pre ++ post → SafeAnswer vault pre (after vault validPattern pre)) ∧
        (∀ pre u post row, us = pre ++ u :: post →
          u.run vault validPattern (after vault validPattern pre) = .ok row →
          Keeps vault ((after vault validPattern pre).getD {}) u row) ↔
      ∀ pre u post row, us = pre ++ u :: post →
        u.run vault validPattern (after vault validPattern pre) = .ok row →
        Covers vault ((after vault validPattern pre).getD {}) u := by
  constructor
  · rintro ⟨hsafe, hkeeps⟩ pre u post row heq hrun
    have hanswer := hsafe (pre ++ [u]) post (by rw [heq, List.append_assoc]; rfl)
    rw [after_snoc, hrun] at hanswer
    refine (Update.wrote hrun).covers (hkeeps pre u post row heq hrun) hanswer fun n v hv => ?_
    obtain ⟨u', hu', hsent⟩ := supplied_of_echoed pre n v hv
    exact ⟨u', List.mem_append_left _ hu', hsent⟩
  · intro h
    constructor
    · intro pre post heq
      refine safeAnswer_of_apart (apart_after fun pre' u post' row heq' hrun => ?_) pre
      exact h pre' u (post' ++ post) row (by rw [heq, heq', List.append_assoc]; rfl) hrun
    · intro pre u post row heq hrun
      exact (Update.wrote hrun).keeps (h pre u post row heq hrun)

/-- Texts for ciphertexts. -/
def openVault : Vault Dict where
  encrypt d := d
  decrypt d := d
  decrypt_encrypt _ := rfl
  encryptText s := [("", s)]

/-- A token is sent as a public field, and the field is marked secret afterwards. -/
def markedLater : List Update :=
  [.audioConfig { credSpec := some [[("name", .str "token"), ("secret", .bool false)]],
                  credentials := some [("token", "s3cr3t")] },
    .audioConfig { credSpec := some [[("name", .str "token"), ("secret", .bool true)]] }]

/-- The token is still in the answer. -/
theorem token_echoed :
    ¬SafeAnswer openVault markedLater (after openVault (fun _ => true) markedLater) := by
  intro h
  obtain ⟨r, hr⟩ : ∃ r, audioConfigDict openVault (after openVault (fun _ => true) markedLater) =
      .ok r := ⟨_, rfl⟩
  have hpublic := (audioConfigDict_ok hr).choose_spec.2.1
  refine h.noEcho r hr "token" "s3cr3t" ⟨_, rfl, rfl⟩ ?_ ?_
  · exact ⟨_, List.mem_cons_self, _, rfl, List.mem_cons_self⟩
  · rw [hpublic]
    exact List.mem_cons_self

end Pulse.Api.AudioConfig
