import Pulse.Lib.Except
import Pulse.Worker.Poller

/-!
# Discovery by a manifest

`discover_manifest` and `discover_manifest_windowed` of `integration/runtime.py`, loop by loop. Times
are instants, as integers; a compiled pattern, its matches and their groups are those of `regex`.
-/

namespace Pulse.Integration

open Worker (removePrefix)

variable {ε P M : Type}

/-- `regex.compile`, `safe_search` and `m.group` -/
structure Regex (ε P M : Type) where
  compile : String → Except ε P
  safeSearch : P → String → Option M
  group : M → Int → Except ε (Option String)

/-- An artifact of a manifest: its selector, and the source and the group of its correlation. -/
structure Artifact (ε : Type) where
  id : String
  objectPathRegex : Option String
  callIdFrom : Option String
  /-- `int(corr.get("group", 1))` -/
  group : Except ε Int := .ok 1

structure Rule (ε P : Type) where
  artifact : Artifact ε
  pattern : P
  group : Int

abbrev Items (ε : Type) := List (Artifact ε × String)

/-- The driver's listing, and what stands before a path of the bucket. -/
structure ResolvedStorage (ε : Type) where
  list : Except ε (List (String × Int))
  scheme : String
  /-- `st.descriptor['bucket']` -/
  bucket : Except ε String

section

variable (re : Regex ε P M)

/-- `_manifest_rules` -/
def manifestRules : List (Artifact ε) → Except ε (List (Rule ε P))
  | [] => .ok []
  | artifact :: artifacts =>
    let pattern := artifact.objectPathRegex.getD ""
    if pattern = "" ∨ artifact.callIdFrom ≠ some "path_capture" then manifestRules artifacts
    else do
      let compiled ← re.compile pattern
      let group ← artifact.group
      let rules ← manifestRules artifacts
      return ⟨artifact, compiled, group⟩ :: rules

/-- The loop of `discover_manifest` over the rules, for one object. -/
def addObject (uri rel : String) (out : List (String × Items ε)) :
    List (Rule ε P) → Except ε (List (String × Items ε))
  | [] => .ok out
  | rule :: rules =>
    match re.safeSearch rule.pattern rel with
    | none => addObject uri rel out rules
    | some m => do
      let callId ← re.group m rule.group
      match callId.filter (· ≠ "") with
      | none => .ok out
      | some callId =>
        .ok (Lib.upsert out callId fun items => items.getD [] ++ [(rule.artifact, uri)])

def discoverManifest (st : ResolvedStorage ε) (artifacts : List (Artifact ε)) :
    Except ε (List (String × Items ε)) := do
  let objects ← st.list
  let bucket ← st.bucket
  let rules ← manifestRules re artifacts
  objects.foldlM (fun out o =>
    addObject re o.1 (removePrefix (st.scheme ++ "://" ++ bucket ++ "/") o.1) out rules) []

/-- `max(prev, mt)` -/
def later (prev mt : Int) : Int := if prev < mt then mt else prev

/-- The loop of `discover_manifest_windowed` over the rules, for one object. -/
def addTimedObject (uri rel : String) (mt : Int) (grouped : List (String × Items ε × Int)) :
    List (Rule ε P) → Except ε (List (String × Items ε × Int))
  | [] => .ok grouped
  | rule :: rules =>
    match re.safeSearch rule.pattern rel with
    | none => addTimedObject uri rel mt grouped rules
    | some m => do
      let callId ← re.group m rule.group
      match callId.filter (· ≠ "") with
      | none => .ok grouped
      | some callId =>
        .ok (Lib.upsert grouped callId fun found =>
          ((found.getD ([], mt)).1 ++ [(rule.artifact, uri)], later (found.getD ([], mt)).2 mt))

def discoverManifestWindowed (st : ResolvedStorage ε) (artifacts : List (Artifact ε))
    (since : Option Int) (cutoff : Int) : Except ε (List (String × Items ε × Int)) := do
  let objects ← st.list
  let bucket ← st.bucket
  let rules ← manifestRules re artifacts
  let grouped ← objects.foldlM (fun grouped o => addTimedObject re o.1
    (removePrefix (st.scheme ++ "://" ++ bucket ++ "/") o.1) o.2 grouped rules) []
  return grouped.filter fun found => found.2.2 ≤ cutoff ∧ since.all (· < found.2.2)

/-! ### What an object belongs to -/

/-- The first rule that matches, and the call id that it captures. -/
def firstMatch (rel : String) : List (Rule ε P) → Except ε (Option (Artifact ε × String))
  | [] => .ok none
  | rule :: rules =>
    match re.safeSearch rule.pattern rel with
    | none => firstMatch rel rules
    | some m => (re.group m rule.group).map fun callId =>
        (callId.filter (· ≠ "")).map (rule.artifact, ·)

/-- The object is listed, and its first match has the call id. -/
def ObjectOf (st : ResolvedStorage ε) (artifacts : List (Artifact ε)) (callId : String)
    (o : String × Int) : Prop :=
  ∃ objects bucket rules artifact, st.list = .ok objects ∧ st.bucket = .ok bucket ∧
    manifestRules re artifacts = .ok rules ∧ o ∈ objects ∧
    firstMatch re (removePrefix (st.scheme ++ "://" ++ bucket ++ "/") o.1) rules =
      .ok (some (artifact, callId))

/-- The time of the newest object of a call. -/
structure Newest (st : ResolvedStorage ε) (artifacts : List (Artifact ε)) (callId : String)
    (mx : Int) : Prop where
  attained : ∃ o, ObjectOf re st artifacts callId o ∧ o.2 = mx
  le : ∀ o, ObjectOf re st artifacts callId o → o.2 ≤ mx

end

section

variable {re : Regex ε P M} {rel uri : String} {mt : Int}

lemma addObject_eq (out : List (String × Items ε)) (rules : List (Rule ε P)) :
    addObject re uri rel out rules = (firstMatch re rel rules).map fun found =>
      found.elim out fun f => Lib.upsert out f.2 fun items => items.getD [] ++ [(f.1, uri)] := by
  induction rules with
  | nil => rfl
  | cons rule rules ih =>
    rw [addObject, firstMatch]
    split
    · exact ih
    · next m _ =>
      cases re.group m rule.group with
      | error e => rfl
      | ok callId =>
        dsimp only [Lib.ok_bind, Except.map]
        cases callId.filter (· ≠ "") <;> rfl

lemma addTimedObject_eq (grouped : List (String × Items ε × Int)) (rules : List (Rule ε P)) :
    addTimedObject re uri rel mt grouped rules = (firstMatch re rel rules).map fun found =>
      found.elim grouped fun f => Lib.upsert grouped f.2 fun o =>
        ((o.getD ([], mt)).1 ++ [(f.1, uri)], later (o.getD ([], mt)).2 mt) := by
  induction rules with
  | nil => rfl
  | cons rule rules ih =>
    rw [addTimedObject, firstMatch]
    split
    · exact ih
    · next m _ =>
      cases re.group m rule.group with
      | error e => rfl
      | ok callId =>
        dsimp only [Lib.ok_bind, Except.map]
        cases callId.filter (· ≠ "") <;> rfl

/-- The windowed loop has grouped what the other one has, with the newest time of each call. -/
structure Grouped (re : Regex ε P M) (rules : List (Rule ε P)) (base : String)
    (objects : List (String × Int)) (out : List (String × Items ε))
    (grouped : List (String × Items ε × Int)) : Prop where
  out_eq : out = grouped.map fun e => (e.1, e.2.1)
  keys : (grouped.map Prod.fst).Nodup
  attained : ∀ callId items mx, grouped.lookup callId = some (items, mx) → ∃ o ∈ objects,
    (∃ artifact, firstMatch re (removePrefix base o.1) rules = .ok (some (artifact, callId))) ∧
      o.2 = mx
  le : ∀ callId, ∀ o ∈ objects,
    (∃ artifact, firstMatch re (removePrefix base o.1) rules = .ok (some (artifact, callId))) →
      ∃ items mx, grouped.lookup callId = some (items, mx) ∧ o.2 ≤ mx

variable {rules : List (Rule ε P)} {base : String} {objects : List (String × Int)}
  {out : List (String × Items ε)} {grouped : List (String × Items ε × Int)}

lemma le_later (prev mt : Int) : prev ≤ later prev mt ∧ mt ≤ later prev mt := by
  rw [later]
  split <;> omega

lemma later_eq (prev mt : Int) : later prev mt = prev ∨ later prev mt = mt := by
  rw [later]
  split
  · exact .inr rfl
  · exact .inl rfl

lemma later_self (mt : Int) : later mt mt = mt := if_neg (lt_irrefl mt)

/-- An object that matches no rule, or captures no call id, changes nothing. -/
lemma Grouped.skip (h : Grouped re rules base objects out grouped) {o : String × Int}
    (hnone : firstMatch re (removePrefix base o.1) rules = .ok none) :
    Grouped re rules base (objects ++ [o]) out grouped := by
  refine ⟨h.out_eq, h.keys, fun callId items mx hlook => ?_, fun callId o' ho' hmatch => ?_⟩
  · obtain ⟨o', ho', hrest⟩ := h.attained callId items mx hlook
    exact ⟨o', List.mem_append_left _ ho', hrest⟩
  · obtain ho' | ho' := List.mem_append.1 ho'
    · exact h.le callId o' ho' hmatch
    · obtain ⟨artifact, hmatch⟩ := hmatch
      rw [List.mem_singleton.1 ho', hnone] at hmatch
      cases hmatch

/-- An object joins its call in both groupings. -/
lemma Grouped.add (h : Grouped re rules base objects out grouped) {o : String × Int}
    {artifact : Artifact ε} {callId : String}
    (hmatch : firstMatch re (removePrefix base o.1) rules = .ok (some (artifact, callId))) :
    Grouped re rules base (objects ++ [o])
      (Lib.upsert out callId fun items => items.getD [] ++ [(artifact, o.1)])
      (Lib.upsert grouped callId fun f =>
        ((f.getD ([], o.2)).1 ++ [(artifact, o.1)], later (f.getD ([], o.2)).2 o.2)) := by
  have hown : ∀ callId', (∃ artifact, firstMatch re (removePrefix base o.1) rules =
      .ok (some (artifact, callId'))) → callId' = callId := by
    rintro callId' ⟨artifact', hmatch'⟩
    rw [hmatch] at hmatch'
    exact (Prod.mk.inj (Option.some.inj (Except.ok.inj hmatch'))).2.symm
  refine ⟨?_, Lib.upsert_keys_nodup h.keys _ _, fun callId' items mx hlook => ?_,
    fun callId' o' ho' hmatch' => ?_⟩
  · rw [h.out_eq]
    refine (Lib.upsert_map_values (fun found => ?_) grouped callId).symm
    cases found <;> rfl
  · rw [Lib.lookup_upsert] at hlook
    split at hlook
    · next heq =>
      subst heq
      obtain ⟨-, rfl⟩ := Prod.mk.inj (Option.some.inj hlook)
      cases hfound : grouped.lookup callId' with
      | none => exact ⟨o, by simp, ⟨artifact, hmatch⟩, (later_self o.2).symm⟩
      | some found =>
        obtain hprev | hnew := later_eq found.2 o.2
        · obtain ⟨o', ho', hrest, htime⟩ := h.attained callId' found.1 found.2 hfound
          exact ⟨o', List.mem_append_left _ ho', hrest, htime.trans hprev.symm⟩
        · exact ⟨o, by simp, ⟨artifact, hmatch⟩, hnew.symm⟩
    · obtain ⟨o', ho', hrest⟩ := h.attained callId' items mx hlook
      exact ⟨o', List.mem_append_left _ ho', hrest⟩
  · rw [Lib.lookup_upsert]
    split
    · next heq =>
      subst heq
      refine ⟨_, _, rfl, ?_⟩
      obtain ho' | ho' := List.mem_append.1 ho'
      · obtain ⟨items, mx, hlook, hle⟩ := h.le callId' o' ho' hmatch'
        rw [hlook]
        exact hle.trans (le_later mx o.2).1
      · rw [List.mem_singleton.1 ho']
        exact (le_later _ o.2).2
    · next hne =>
      obtain ho' | ho' := List.mem_append.1 ho'
      · exact h.le callId' o' ho' hmatch'
      · exact absurd (hown callId' (List.mem_singleton.1 ho' ▸ hmatch')) hne

/-- Both loops raise alike, or group alike. -/
lemma Grouped.run (h : Grouped re rules base objects out grouped) (rest : List (String × Int)) :
    (∃ e, rest.foldlM (fun out o => addObject re o.1 (removePrefix base o.1) out rules) out =
        .error e ∧ rest.foldlM (fun grouped o =>
          addTimedObject re o.1 (removePrefix base o.1) o.2 grouped rules) grouped = .error e) ∨
    ∃ out' grouped', rest.foldlM (fun out o => addObject re o.1 (removePrefix base o.1) out rules)
        out = .ok out' ∧ rest.foldlM (fun grouped o =>
          addTimedObject re o.1 (removePrefix base o.1) o.2 grouped rules) grouped = .ok grouped' ∧
      Grouped re rules base (objects ++ rest) out' grouped' := by
  induction rest generalizing objects out grouped with
  | nil =>
    rw [List.append_nil]
    exact .inr ⟨out, grouped, rfl, rfl, h⟩
  | cons o rest ih =>
    rw [List.foldlM_cons, List.foldlM_cons, addObject_eq, addTimedObject_eq, List.append_cons]
    cases hmatch : firstMatch re (removePrefix base o.1) rules with
    | error e => exact .inl ⟨e, rfl, rfl⟩
    | ok found =>
      cases found with
      | none => exact ih (h.skip hmatch)
      | some f => exact ih (h.add hmatch)

/-- Both discoveries raise alike, or group the listed objects alike. -/
lemma discover_cases (re : Regex ε P M) (st : ResolvedStorage ε) (artifacts : List (Artifact ε))
    (since : Option Int) (cutoff : Int) :
    (∃ e, discoverManifest re st artifacts = .error e ∧
      discoverManifestWindowed re st artifacts since cutoff = .error e) ∨
    ∃ objects bucket rules out grouped, st.list = .ok objects ∧ st.bucket = .ok bucket ∧
      manifestRules re artifacts = .ok rules ∧ discoverManifest re st artifacts = .ok out ∧
      discoverManifestWindowed re st artifacts since cutoff =
        .ok (grouped.filter fun found => found.2.2 ≤ cutoff ∧ since.all (· < found.2.2)) ∧
      Grouped re rules (st.scheme ++ "://" ++ bucket ++ "/") objects out grouped := by
  unfold discoverManifest discoverManifestWindowed
  cases hlist : st.list with
  | error e => exact .inl ⟨e, rfl, rfl⟩
  | ok objects =>
    cases hbucket : st.bucket with
    | error e => exact .inl ⟨e, rfl, rfl⟩
    | ok bucket =>
      cases hrules : manifestRules re artifacts with
      | error e => exact .inl ⟨e, rfl, rfl⟩
      | ok rules =>
        simp only [Lib.ok_bind]
        have hempty : Grouped re rules (st.scheme ++ "://" ++ bucket ++ "/") [] [] [] :=
          ⟨rfl, List.nodup_nil, by simp, by simp⟩
        obtain ⟨e, hout, hgrouped⟩ | ⟨out, grouped, hout, hgrouped, h⟩ := hempty.run objects
        · rw [hout, hgrouped]
          exact .inl ⟨e, rfl, rfl⟩
        · rw [hout, hgrouped]
          exact .inr ⟨objects, bucket, rules, out, grouped, rfl, rfl, rfl, rfl, rfl, h⟩

end

/-- Windowed discovery raises when discovery does. Otherwise it has the calls whose newest object is
in the window, in the same order, with the same items and the time of that object. -/
theorem discoverManifestWindowed_eq (re : Regex ε P M) (st : ResolvedStorage ε)
    (artifacts : List (Artifact ε)) (since : Option Int) (cutoff : Int) :
    (∀ e, discoverManifest re st artifacts = .error e →
      discoverManifestWindowed re st artifacts since cutoff = .error e) ∧
    ∀ out, discoverManifest re st artifacts = .ok out → ∃ mx : String → Int,
      (∀ found ∈ out, Newest re st artifacts found.1 (mx found.1)) ∧
      discoverManifestWindowed re st artifacts since cutoff =
        .ok ((out.filter fun found => mx found.1 ≤ cutoff ∧ since.all (· < mx found.1)).map
          fun found => (found.1, found.2, mx found.1)) := by
  obtain ⟨e, hout, hwindowed⟩ | ⟨objects, bucket, rules, out, grouped, hlist, hbucket, hrules, hout,
    hwindowed, h⟩ := discover_cases re st artifacts since cutoff
  · rw [hout, hwindowed]
    refine ⟨fun _ he => congrArg _ (Except.error.inj he), fun _ hok => ?_⟩
    cases hok
  rw [hout, hwindowed]
  refine ⟨fun _ he => (nomatch he), fun out' hok => ?_⟩
  obtain rfl := Except.ok.inj hok
  have hobject (callId : String) (o : String × Int) : ObjectOf re st artifacts callId o ↔
      o ∈ objects ∧ ∃ artifact, firstMatch re
        (removePrefix (st.scheme ++ "://" ++ bucket ++ "/") o.1) rules =
          .ok (some (artifact, callId)) := by
    simp [ObjectOf, hlist, hbucket, hrules]
  let mx (callId : String) : Int := ((grouped.lookup callId).map fun e => e.2).getD 0
  have hmx : ∀ e ∈ grouped, mx e.1 = e.2.2 := by
    intro e he
    have hlook : grouped.lookup e.1 = some e.2 := Lib.lookup_of_mem h.keys he
    simp [mx, hlook]
  refine ⟨mx, fun found hfound => ?_, ?_⟩
  · rw [h.out_eq] at hfound
    obtain ⟨e, he, rfl⟩ := List.mem_map.1 hfound
    have hlook : grouped.lookup e.1 = some (e.2.1, e.2.2) := Lib.lookup_of_mem h.keys he
    rw [hmx e he]
    refine ⟨?_, fun o ho => ?_⟩
    · obtain ⟨o, ho, hmatch, htime⟩ := h.attained e.1 e.2.1 e.2.2 hlook
      exact ⟨o, (hobject e.1 o).2 ⟨ho, hmatch⟩, htime⟩
    · obtain ⟨ho, hmatch⟩ := (hobject e.1 o).1 ho
      obtain ⟨items, newest, hlook', hle⟩ := h.le e.1 o ho hmatch
      obtain ⟨-, rfl⟩ := Prod.mk.inj (Option.some.inj (hlook.symm.trans hlook'))
      exact hle
  · rw [h.out_eq, List.filter_map, List.map_map]
    refine congrArg _ ?_
    have hwindow : grouped.filter (fun found => found.2.2 ≤ cutoff ∧ since.all (· < found.2.2)) =
        grouped.filter ((fun found => mx found.1 ≤ cutoff ∧ since.all (· < mx found.1)) ∘
          fun e => (e.1, e.2.1)) := by
      refine List.filter_congr fun e he => ?_
      rw [Function.comp_apply, hmx e he]
    rw [← hwindow]
    symm
    calc (grouped.filter fun found => found.2.2 ≤ cutoff ∧ since.all (· < found.2.2)).map _
      _ = (grouped.filter fun found => found.2.2 ≤ cutoff ∧ since.all (· < found.2.2)).map id :=
        List.map_congr_left fun e he => by
          simp [hmx e (List.mem_of_mem_filter he)]
      _ = _ := List.map_id _

end Pulse.Integration
