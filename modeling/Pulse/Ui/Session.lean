import Pulse.Auth.Theft

/-!
# A tab and its session

`rawFetch`, `tryRefresh` and `req` of `api.ts`, with the cookie jar of the browser and the session
endpoints of `api/auth.py`. The fetches of a tab are in flight together: each is served at some
time, and its answer arrives at some later time, or is lost.
-/

namespace Pulse.Ui

open Auth

/-! ### The API layer -/

/-- What a component asks for: a session endpoint, or any other. A login is for the user that the
password provider finds. -/
inductive Call
  | login (user userAgent : Option String)
  | logout
  | logoutAll (userId : String)
  | other
  deriving DecidableEq

inductive Answer
  | auth (result : Except HTTPException Response)
  | other (status : Nat)

def Answer.status : Answer → Nat
  | .auth (.ok _) => 200
  | .auth (.error e) => e.status
  | .other status => status

/-- `r.ok` -/
def Answer.ok (a : Answer) : Bool := 200 ≤ a.status ∧ a.status < 300

/-- Who awaits a fetch: `tryRefresh`, or the call of `req` with this number. -/
inductive Target
  | refresh
  | api (req : Nat) (call : Call)
  deriving DecidableEq

/-- A fetch in flight, with the refresh cookie that it was sent with. -/
structure Fetch where
  id : Nat
  target : Target
  presented : Option String
  answer : Option Answer := none

/-- Where a call of `req` is: its first or its second fetch is in flight, it awaits a refresh or has
its outcome, or it is settled with a status, or with none if the network failed. -/
inductive Phase
  | fetching (retry : Bool)
  | awaiting (refresh : Nat)
  | resuming (refreshed : Bool)
  | settled (status : Option Nat)
  deriving DecidableEq

structure Req where
  call : Call
  phase : Phase

/-- The tab: the refresh cookie of the browser, the variable `refreshing`, what is in flight and the
calls of `req`. -/
structure Tab where
  jar : Option String := none
  refreshing : Option Nat := none
  fetches : List Fetch := []
  reqs : List Req := []
  next : Nat := 0

namespace Tab

def rawFetch (t : Tab) (target : Target) : Tab :=
  { t with fetches := t.fetches ++ [⟨t.next, target, t.jar, none⟩], next := t.next + 1 }

def tryRefresh (t : Tab) : Tab × Nat :=
  match t.refreshing with
  | some k => (t, k)
  | none => ({ t.rawFetch .refresh with refreshing := some t.next }, t.next)

def setPhase (t : Tab) (n : Nat) (phase : Phase) : Tab :=
  { t with reqs := t.reqs.modify n fun r => { r with phase } }

/-- `req`, up to its first `await`. -/
def req (t : Tab) (call : Call) : Tab :=
  { t.rawFetch (.api t.reqs.length call) with reqs := t.reqs ++ [⟨call, .fetching false⟩] }

/-- `req`, with the status of its fetch. -/
def received (t : Tab) (n status : Nat) : Tab :=
  match t.reqs[n]? with
  | some ⟨_, .fetching false⟩ =>
    if status = 401 then t.tryRefresh.1.setPhase n (.awaiting t.tryRefresh.2)
    else t.setPhase n (.settled status)
  | _ => t.setPhase n (.settled status)

/-- The `finally` of `tryRefresh`; its promise is settled for those who await it. -/
def refreshed (t : Tab) (k : Nat) (ok : Bool) : Tab :=
  { t with
    refreshing := none
    reqs := t.reqs.map fun r =>
      if r.phase = .awaiting k then { r with phase := .resuming ok } else r }

/-- `req`, when it has awaited `tryRefresh`. -/
def resume (t : Tab) (n : Nat) : Tab :=
  match t.reqs[n]? with
  | some ⟨call, .resuming true⟩ => (t.rawFetch (.api n call)).setPhase n (.fetching true)
  | some ⟨_, .resuming false⟩ => t.setPhase n (.settled (some 401))
  | _ => t

/-- The browser stores the cookies of an answer. An exception's answer has none. -/
def store (t : Tab) : Answer → Tab
  | .auth (.ok (.session _ refreshCookie)) => { t with jar := some refreshCookie }
  | .auth (.ok _) => { t with jar := none }
  | _ => t

def drop (t : Tab) (id : Nat) : Tab :=
  { t with fetches := t.fetches.filter fun f => f.id ≠ id }

def serve (t : Tab) (id : Nat) (a : Answer) : Tab :=
  { t with fetches := t.fetches.map fun f => if f.id = id then { f with answer := some a } else f }

/-- A fetch is over, and its continuation runs. -/
def arrive (t : Tab) (f : Fetch) (a : Answer) : Tab :=
  let t := (t.drop f.id).store a
  match f.target with
  | .refresh => t.refreshed f.id a.ok
  | .api n _ => t.received n a.status

/-- A fetch that rejects. -/
def lose (t : Tab) (f : Fetch) : Tab :=
  let t := t.drop f.id
  match f.target with
  | .refresh => t.refreshed f.id false
  | .api n _ => t.setPhase n (.settled none)

end Tab

/-! ### The tab and the server -/

/-- The refresh cookie that the answer of a fetch carries. -/
def Fetch.cookie (f : Fetch) : Option String :=
  match f.answer with
  | some (.auth (.ok (.session _ refreshCookie))) => some refreshCookie
  | _ => none

/-- The request that a fetch is served as. -/
def Fetch.Asks (f : Fetch) (r : Request) : Prop :=
  match f.target with
  | .refresh => ∃ userAgent, r = .refresh f.presented userAgent
  | .api _ (.login user userAgent) => r = .login user userAgent
  | .api _ .logout => r = .logout f.presented
  | .api _ (.logoutAll userId) => r = .logoutAll userId
  | .api _ .other => False

lemma Fetch.Asks.of_refresh {f : Fetch} {r : Request} (h : f.Asks r) {presented userAgent}
    (hr : r = .refresh presented userAgent) : f.target = .refresh ∧ f.presented = presented := by
  subst hr
  unfold Fetch.Asks at h
  split at h
  · next htarget =>
    obtain ⟨_, heq⟩ := h
    cases heq
    exact ⟨htarget, rfl⟩
  · cases h
  · cases h
  · cases h
  · exact h.elim

/-- The tab has the token: in the jar, in a fetch, or in an answer on its way. -/
def Tab.Holds (t : Tab) (p : String) : Prop :=
  t.jar = some p ∨ ∃ f ∈ t.fetches, f.presented = some p ∨ f.cookie = some p

structure World where
  tab : Tab
  server : AuthState

inductive Act
  | req (call : Call)
  | served (f : Fetch)
  | arrived (f : Fetch)
  | lost (f : Fetch)
  | resumed (n : Nat)
  | others

/-- One step. The clients of other cookie jars do not have the tokens of this one. -/
inductive Acts (H : Hasher) (ttl : Time) : World → Act → World → Prop
  | req (t : Tab) (server : AuthState) (call : Call) :
      Acts H ttl ⟨t, server⟩ (.req call) ⟨t.req call, server⟩
  | served {t : Tab} {server server' : AuthState} {f : Fetch} {e : Event} (hf : f ∈ t.fetches)
      (hopen : f.answer = none) (hasks : f.Asks e.request) (hstep : Step H ttl server e server') :
      Acts H ttl ⟨t, server⟩ (.served f)
        ⟨t.serve f.id (.auth (Auth.serve H ttl e server.tokens).result), server'⟩
  | answered {t : Tab} {server : AuthState} {f : Fetch} {n status : Nat} (hf : f ∈ t.fetches)
      (hopen : f.answer = none) (htarget : f.target = .api n .other) :
      Acts H ttl ⟨t, server⟩ (.served f) ⟨t.serve f.id (.other status), server⟩
  | arrived {t : Tab} {server : AuthState} {f : Fetch} {a : Answer} (hf : f ∈ t.fetches)
      (hanswer : f.answer = some a) : Acts H ttl ⟨t, server⟩ (.arrived f) ⟨t.arrive f a, server⟩
  | lost {t : Tab} {server : AuthState} {f : Fetch} (hf : f ∈ t.fetches) :
      Acts H ttl ⟨t, server⟩ (.lost f) ⟨t.lose f, server⟩
  | resumed (t : Tab) (server : AuthState) (n : Nat) :
      Acts H ttl ⟨t, server⟩ (.resumed n) ⟨t.resume n, server⟩
  | others {t : Tab} {server server' : AuthState} {e : Event}
      (hothers : ∀ p userAgent, e.request = .refresh (some p) userAgent → ¬t.Holds p)
      (hstep : Step H ttl server e server') : Acts H ttl ⟨t, server⟩ .others ⟨t, server'⟩

/-! ### One refresh at a time -/

/-- The numbers of the fetches are drawn in turn. -/
structure Numbered (t : Tab) : Prop where
  lt : ∀ f ∈ t.fetches, f.id < t.next
  distinct : ∀ f ∈ t.fetches, ∀ g ∈ t.fetches, f.id = g.id → f = g

lemma Numbered.rawFetch {t : Tab} (h : Numbered t) (target : Target) :
    Numbered (t.rawFetch target) where
  lt f hf := by
    obtain hf | hf := List.mem_append.1 hf
    · exact Nat.lt_succ_of_lt (h.lt f hf)
    · obtain rfl := List.mem_singleton.1 hf
      exact Nat.lt_succ_self _
  distinct f hf g hg hid := by
    obtain hf | hf := List.mem_append.1 hf
    · obtain hg | hg := List.mem_append.1 hg
      · exact h.distinct f hf g hg hid
      · obtain rfl := List.mem_singleton.1 hg
        exact absurd hid (Nat.ne_of_lt (h.lt f hf))
    · obtain rfl := List.mem_singleton.1 hf
      obtain hg | hg := List.mem_append.1 hg
      · exact absurd hid (Nat.ne_of_gt (h.lt g hg))
      · exact (List.mem_singleton.1 hg).symm

lemma Numbered.drop {t : Tab} (h : Numbered t) (id : Nat) : Numbered (t.drop id) where
  lt f hf := h.lt f (List.mem_filter.1 hf).1
  distinct f hf g hg := h.distinct f (List.mem_filter.1 hf).1 g (List.mem_filter.1 hg).1

/-- What the tab keeps of its fetches: a refresh in flight is the one of `refreshing`, and whoever
awaits a refresh awaits that one. -/
structure Flight (t : Tab) : Prop where
  numbered : Numbered t
  single : ∀ f ∈ t.fetches, f.target = .refresh ↔ t.refreshing = some f.id
  inFlight : ∀ k, t.refreshing = some k → ∃ f ∈ t.fetches, f.id = k
  waiting : ∀ r ∈ t.reqs, ∀ k, r.phase = .awaiting k → t.refreshing = some k

namespace Flight

variable {t : Tab}

lemma of_reqs (h : Flight t) {reqs : List Req}
    (hreqs : ∀ r ∈ reqs, ∀ k, r.phase = .awaiting k → t.refreshing = some k) :
    Flight { t with reqs } :=
  ⟨⟨h.numbered.lt, h.numbered.distinct⟩, h.single, h.inFlight, hreqs⟩

lemma setPhase (h : Flight t) (n : Nat) {phase : Phase}
    (hphase : ∀ k, phase = .awaiting k → t.refreshing = some k) : Flight (t.setPhase n phase) := by
  refine h.of_reqs fun r hr k hk => ?_
  obtain ⟨i, hi, rfl⟩ := List.mem_iff_getElem.1 hr
  rw [List.getElem_modify] at hk
  split at hk
  · exact hphase k hk
  · exact h.waiting _ (List.getElem_mem _) k hk

lemma store (h : Flight t) (a : Answer) : Flight (t.store a) := by
  have hjar : ∀ jar, Flight { t with jar } := fun _ =>
    ⟨⟨h.numbered.lt, h.numbered.distinct⟩, h.single, h.inFlight, h.waiting⟩
  unfold Tab.store
  split
  · exact hjar _
  · exact hjar _
  · exact h

lemma rawFetch (h : Flight t) (target : Target) (htarget : target ≠ .refresh) :
    Flight (t.rawFetch target) where
  numbered := h.numbered.rawFetch target
  single f hf := by
    obtain hf | hf := List.mem_append.1 hf
    · exact h.single f hf
    · obtain rfl := List.mem_singleton.1 hf
      refine iff_of_false htarget fun hk => ?_
      obtain ⟨g, hg, hid⟩ := h.inFlight _ hk
      exact absurd hid (Nat.ne_of_lt (h.numbered.lt g hg))
  inFlight k hk := by
    obtain ⟨f, hf, hid⟩ := h.inFlight k hk
    exact ⟨f, List.mem_append_left _ hf, hid⟩
  waiting := h.waiting

lemma tryRefresh (h : Flight t) :
    Flight t.tryRefresh.1 ∧ t.tryRefresh.1.refreshing = some t.tryRefresh.2 := by
  unfold Tab.tryRefresh
  cases hrefreshing : t.refreshing with
  | some k => exact ⟨h, hrefreshing⟩
  | none =>
    obtain ⟨hlt, hdistinct⟩ := h.numbered.rawFetch .refresh
    refine ⟨⟨⟨hlt, hdistinct⟩, fun f hf => ?_, fun k hk => ?_, fun r hr k hk => ?_⟩, rfl⟩
    · obtain hf | hf := List.mem_append.1 hf
      · have hnone : f.target ≠ .refresh := fun hf' => by
          simpa [hrefreshing] using (h.single f hf).1 hf'
        refine iff_of_false hnone fun hk => ?_
        exact absurd (Option.some.inj hk).symm (Nat.ne_of_lt (h.numbered.lt f hf))
      · obtain rfl := List.mem_singleton.1 hf
        exact iff_of_true rfl rfl
    · cases hk
      exact ⟨_, List.mem_append_right _ List.mem_cons_self, rfl⟩
    · have hwaiting := h.waiting r hr k hk
      simp [hrefreshing] at hwaiting

lemma received (h : Flight t) (n status : Nat) : Flight (t.received n status) := by
  unfold Tab.received
  split
  · split
    · obtain ⟨htab, hrefreshing⟩ := h.tryRefresh
      exact htab.setPhase n fun k hk => by
        cases hk
        exact hrefreshing
    · exact h.setPhase n nofun
  · exact h.setPhase n nofun

lemma serve (h : Flight t) (id : Nat) (a : Answer) : Flight (t.serve id a) where
  numbered := by
    refine ⟨fun f hf => ?_, fun f hf g hg hid => ?_⟩
    · obtain ⟨f', hf', rfl⟩ := List.mem_map.1 hf
      have hlt := h.numbered.lt f' hf'
      split <;> exact hlt
    · obtain ⟨f', hf', rfl⟩ := List.mem_map.1 hf
      obtain ⟨g', hg', rfl⟩ := List.mem_map.1 hg
      have hsame : f' = g' := by
        refine h.numbered.distinct f' hf' g' hg' ?_
        split at hid <;> split at hid <;> exact hid
      rw [hsame]
  single f hf := by
    obtain ⟨f', hf', rfl⟩ := List.mem_map.1 hf
    have hsingle := h.single f' hf'
    split <;> exact hsingle
  inFlight k hk := by
    obtain ⟨f, hf, rfl⟩ := h.inFlight k hk
    refine ⟨_, List.mem_map_of_mem hf, ?_⟩
    split <;> rfl
  waiting := h.waiting

/-- The fetch of a call of `req` is over. -/
lemma drop (h : Flight t) {f : Fetch} (hf : f ∈ t.fetches) (htarget : f.target ≠ .refresh) :
    Flight (t.drop f.id) where
  numbered := h.numbered.drop f.id
  single g hg := h.single g (List.mem_filter.1 hg).1
  inFlight k hk := by
    obtain ⟨g, hg, rfl⟩ := h.inFlight k hk
    refine ⟨g, List.mem_filter.2 ⟨hg, decide_eq_true fun hid => htarget ?_⟩, rfl⟩
    exact (h.single f hf).2 (hid ▸ hk)
  waiting := h.waiting

/-- The refresh is over. -/
lemma refreshed (h : Flight t) {f : Fetch} (hf : f ∈ t.fetches) (htarget : f.target = .refresh)
    (ok : Bool) : Flight ((t.drop f.id).refreshed f.id ok) where
  numbered := ⟨(h.numbered.drop f.id).lt, (h.numbered.drop f.id).distinct⟩
  single g hg := by
    obtain ⟨hg, hne⟩ := List.mem_filter.1 hg
    refine iff_of_false (fun hrefresh => ?_) nofun
    have hsame := ((h.single g hg).1 hrefresh).symm.trans ((h.single f hf).1 htarget)
    exact of_decide_eq_true hne (Option.some.inj hsame)
  inFlight := nofun
  waiting r hr k hk := by
    obtain ⟨r', hr', rfl⟩ := List.mem_map.1 hr
    split at hk
    · cases hk
    · next hne =>
      have hwaiting := (h.waiting r' hr' k hk).symm.trans ((h.single f hf).1 htarget)
      exact absurd (Option.some.inj hwaiting ▸ hk) hne

lemma arrive (h : Flight t) {f : Fetch} (hf : f ∈ t.fetches) (a : Answer) :
    Flight (t.arrive f a) := by
  unfold Tab.arrive
  cases htarget : f.target with
  | refresh =>
    have hstore : ((t.drop f.id).store a).refreshed f.id a.ok =
        ((t.drop f.id).refreshed f.id a.ok).store a := by
      unfold Tab.store
      split <;> rfl
    dsimp only
    rw [hstore]
    exact (h.refreshed hf htarget a.ok).store a
  | api n call => exact ((h.drop hf (by simp [htarget])).store a).received n a.status

lemma lose (h : Flight t) {f : Fetch} (hf : f ∈ t.fetches) : Flight (t.lose f) := by
  unfold Tab.lose
  cases htarget : f.target with
  | refresh => exact h.refreshed hf htarget false
  | api n call => exact (h.drop hf (by simp [htarget])).setPhase n nofun

lemma resume (h : Flight t) (n : Nat) : Flight (t.resume n) := by
  unfold Tab.resume
  split
  · next call _ => exact (h.rawFetch (.api n call) nofun).setPhase n nofun
  · exact h.setPhase n nofun
  · exact h

lemma req (h : Flight t) (call : Call) : Flight (t.req call) := by
  refine (h.rawFetch (.api t.reqs.length call) nofun).of_reqs fun r hr k hk => ?_
  obtain hr | hr := List.mem_append.1 hr
  · exact h.waiting r hr k hk
  · obtain rfl := List.mem_singleton.1 hr
    cases hk

lemma acts {H : Hasher} {ttl : Time} {w w' : World} {a : Act} (h : Flight w.tab)
    (ha : Acts H ttl w a w') : Flight w'.tab := by
  cases ha with
  | req t server call => exact h.req call
  | served hf hopen hasks hstep => exact h.serve _ _
  | answered hf hopen htarget => exact h.serve _ _
  | arrived hf hanswer => exact h.arrive hf _
  | lost hf => exact h.lose hf
  | resumed t server n => exact h.resume n
  | others hothers hstep => exact h

end Flight

/-! ### What a request does to a token -/

section

variable {H : Hasher} {ttl : Time} {s t : AuthState} {e : Event}

/-- The row of the plaintext has been rotated. -/
def Used (H : Hasher) (tokens : List RefreshToken) (p : String) : Prop :=
  ∃ r ∈ tokens, H.verify r.tokenHash p = true ∧ r.lastUsedAt ≠ none

def Known (H : Hasher) (tokens : List RefreshToken) (p : String) : Prop :=
  ∃ r ∈ tokens, H.verify r.tokenHash p = true

/-- The rows are sound and have keys. -/
structure Table (H : Hasher) (tokens : List RefreshToken) : Prop where
  sound : Sound H tokens
  keys : ∀ r ∈ tokens, ∀ r' ∈ tokens, r.id = r'.id → r = r'

lemma Table.step (h : Table H s.tokens) (hstep : Step H ttl s e t) : Table H t.tokens := by
  have hfresh := hstep.fresh.id
  refine ⟨sound_step h.sound hstep, ?_⟩
  have hmap : ∀ f : RefreshToken → RefreshToken, (∀ r, Kept r (f r)) →
      ∀ r ∈ s.tokens.map f, ∀ r' ∈ s.tokens.map f, r.id = r'.id → r = r' := by
    intro f hf r hr r' hr' hid
    obtain ⟨r₀, hr₀, rfl⟩ := List.mem_map.1 hr
    obtain ⟨r₁, hr₁, rfl⟩ := List.mem_map.1 hr'
    rw [(hf r₀).id, (hf r₁).id] at hid
    rw [h.keys r₀ hr₀ r₁ hr₁ hid]
  have hmint : ∀ (f : RefreshToken → RefreshToken) (m : RefreshToken), (∀ r, Kept r (f r)) →
      m.id = e.minted.id → ∀ r ∈ s.tokens.map f ++ [m], ∀ r' ∈ s.tokens.map f ++ [m],
        r.id = r'.id → r = r' := by
    intro f m hf hm r hr r' hr' hid
    have hnew : ∀ r ∈ s.tokens.map f, r.id ≠ m.id := by
      intro r hr
      obtain ⟨r₀, hr₀, rfl⟩ := List.mem_map.1 hr
      rw [(hf r₀).id, hm]
      exact hfresh r₀ hr₀
    obtain hold | hm := List.mem_append.1 hr
    · obtain hold' | hm' := List.mem_append.1 hr'
      · exact hmap f hf r hold r' hold' hid
      · exact absurd (List.mem_singleton.1 hm' ▸ hid) (hnew r hold)
    · obtain hold' | hm' := List.mem_append.1 hr'
      · exact absurd (List.mem_singleton.1 hm ▸ hid).symm (hnew r' hold')
      · rw [List.mem_singleton.1 hm, List.mem_singleton.1 hm']
  obtain ⟨after, clock⟩ := t
  cases hstep.effect with
  | update f hf => exact hmap f hf
  | login user userAgent =>
    have h := hmint id (mintRefresh H ttl e.now e.minted user none userAgent).2 Kept.refl rfl
    rwa [List.map_id] at h
  | rotate f hf row userAgent => exact hmint f _ hf rfl

lemma Known.step {p : String} (h : Known H s.tokens p) (hstep : Step H ttl s e t) :
    Known H t.tokens p := by
  obtain ⟨r, hr, hopen⟩ := h
  obtain ⟨after, clock⟩ := t
  have hmap : ∀ f : RefreshToken → RefreshToken, (∀ r, Kept r (f r)) →
      H.verify (f r).tokenHash p = true := fun f hf => (hf r).tokenHash ▸ hopen
  cases hstep.effect with
  | update f hf => exact ⟨f r, List.mem_map_of_mem hr, hmap f hf⟩
  | login user userAgent => exact ⟨r, List.mem_append_left _ hr, hopen⟩
  | rotate f hf row userAgent =>
    exact ⟨f r, List.mem_append_left _ (List.mem_map_of_mem hr), hmap f hf⟩

lemma used_revoked {tokens : List RefreshToken} {q : RefreshToken → Bool} {now : Time} {p : String}
    (h : Used H (updateWhere q (revoke now) tokens) p) : Used H tokens p := by
  obtain ⟨r, hr, hopen, hused⟩ := h
  obtain ⟨r₀, hr₀, rfl⟩ := mem_updateWhere.1 hr
  refine ⟨r₀, hr₀, ?_⟩
  split at hopen <;> exact ⟨hopen, by simpa [*, revoke] using hused⟩

lemma used_minted {tokens : List RefreshToken} {now : Time} {m : Minted} {userId p : String}
    {familyId userAgent : Option String}
    (h : Used H (tokens ++ [(mintRefresh H ttl now m userId familyId userAgent).2]) p) :
    Used H tokens p := by
  obtain ⟨r, hr, hopen, hused⟩ := h
  obtain hr | hr := List.mem_append.1 hr
  · exact ⟨r, hr, hopen, hused⟩
  · rw [List.mem_singleton.1 hr] at hused
    exact absurd rfl hused

/-- A refresh that is answered well. -/
lemma endpoint_refresh {now : Time} {m : Minted} {tokens : List RefreshToken}
    {presented userAgent : Option String} {answer : Response}
    (h : (endpoint H ttl now m (.refresh presented userAgent) tokens).result = .ok answer) :
    ∃ row, find H tokens presented = some row ∧ answer = .session row.userId m.plaintext ∧
      (endpoint H ttl now m (.refresh presented userAgent) tokens).tokens =
        updateWhere (·.id = row.id)
            (fun r => { r with revokedAt := some now, lastUsedAt := some now }) tokens ++
          [(mintRefresh H ttl now m row.userId (some row.familyId) userAgent).2] := by
  unfold endpoint at h ⊢
  dsimp only at h ⊢
  cases hrotate : rotateRefresh H ttl now m tokens presented userAgent with
  | mk pending outcome =>
    rw [hrotate] at h
    cases outcome with
    | none => cases h
    | some fresh =>
      unfold rotateRefresh at hrotate
      cases hfind : find H tokens presented with
      | none => simp [hfind] at hrotate
      | some row =>
        simp only [hfind] at hrotate
        split at hrotate
        · cases hrotate
        · split at hrotate
          · cases hrotate
          · cases hrotate
            cases h
            exact ⟨row, rfl, rfl, rfl⟩

/-- Only a refresh that is answered well and presents the token uses it. -/
lemma used_step (h : Table H s.tokens) (hstep : Step H ttl s e t) {p : String}
    (hused : Used H t.tokens p) (hunused : ¬Used H s.tokens p) :
    (∃ userAgent, e.request = .refresh (some p) userAgent) ∧
      ∃ answer, (serve H ttl e s.tokens).result = .ok answer := by
  rw [hstep.next] at hused
  dsimp only at hused
  cases hresult : (serve H ttl e s.tokens).result with
  | error x =>
    rw [serve_error hresult] at hused
    exact absurd hused hunused
  | ok answer =>
    refine ⟨?_, answer, rfl⟩
    obtain ⟨-, hserve⟩ := serve_ok hresult
    rw [hserve] at hused hresult
    cases hrequest : e.request with
    | login user userAgent =>
      rw [hrequest] at hused
      cases user with
      | none => exact absurd hused hunused
      | some user => exact absurd (used_minted hused) hunused
    | logout presented =>
      rw [hrequest] at hused
      have hused : Used H (revokeRefresh H e.now s.tokens presented) p := hused
      unfold revokeRefresh at hused
      split at hused
      · exact absurd hused hunused
      · split at hused
        · exact absurd (used_revoked hused) hunused
        · exact absurd hused hunused
    | logoutAll userId =>
      rw [hrequest] at hused
      exact absurd (used_revoked hused) hunused
    | refresh presented userAgent =>
      rw [hrequest] at hused hresult
      obtain ⟨row, hfind, -, htokens⟩ := endpoint_refresh hresult
      rw [htokens] at hused
      obtain ⟨r, hr, hopen, hlast⟩ := used_minted hused
      obtain ⟨r₀, hr₀, rfl⟩ := mem_updateWhere.1 hr
      obtain ⟨p', rfl, hrow, hopen'⟩ := find_eq_some hfind
      by_cases hid : r₀.id = row.id
      · obtain rfl := h.keys r₀ hr₀ row hrow hid
        obtain ⟨owner, -, hown⟩ := h.sound.owner r₀ hr₀
        simp only [decide_true, if_true] at hopen
        rw [← (hown p').1 hopen', (hown p).1 hopen]
        exact ⟨userAgent, rfl⟩
      · simp only [hid, decide_false, Bool.false_eq_true, if_false] at hopen hlast
        exact absurd ⟨r₀, hr₀, hopen, hlast⟩ hunused

/-- A session's cookie is a new token. -/
lemma cookie_step (h : Table H s.tokens) (hstep : Step H ttl s e t) {userId q : String}
    (hresult : (serve H ttl e s.tokens).result = .ok (.session userId q)) :
    Known H t.tokens q ∧ ¬Known H s.tokens q ∧ ¬Used H t.tokens q := by
  have hnew : q = e.minted.plaintext ∧ Known H t.tokens q := by
    obtain ⟨-, hserve⟩ := serve_ok hresult
    rw [hstep.next]
    dsimp only
    rw [hserve] at hresult ⊢
    have hopen : H.verify (H.hash e.minted.salt e.minted.plaintext) e.minted.plaintext = true :=
      (H.verify_hash _ _ _).2 rfl
    cases hrequest : e.request with
    | login user userAgent =>
      rw [hrequest] at hresult
      cases user with
      | none => cases hresult
      | some user =>
        cases hresult
        exact ⟨rfl, _, List.mem_append_right _ List.mem_cons_self, hopen⟩
    | logout presented => simp [hrequest, endpoint] at hresult
    | logoutAll userId => simp [hrequest, endpoint] at hresult
    | refresh presented userAgent =>
      rw [hrequest] at hresult
      obtain ⟨row, -, hsession, htokens⟩ := endpoint_refresh hresult
      cases hsession
      rw [htokens]
      exact ⟨rfl, _, List.mem_append_right _ List.mem_cons_self, hopen⟩
  obtain ⟨rfl, hknown⟩ := hnew
  have hunknown : ¬Known H s.tokens e.minted.plaintext := by
    rintro ⟨r, hr, hopen⟩
    rw [hstep.fresh.plaintext r hr] at hopen
    cases hopen
  refine ⟨hknown, hunknown, fun hused => ?_⟩
  have hunused : ¬Used H s.tokens e.minted.plaintext := by
    rintro ⟨r, hr, hopen, -⟩
    exact hunknown ⟨r, hr, hopen⟩
  obtain ⟨⟨userAgent, hrequest⟩, -⟩ := used_step h hstep hused hunused
  obtain ⟨-, hserve⟩ := serve_ok hresult
  rw [hserve, hrequest] at hresult
  obtain ⟨row, hfind, -⟩ := endpoint_refresh hresult
  obtain ⟨p, hp, hrow, hopen⟩ := find_eq_some hfind
  cases hp
  exact hunknown ⟨row, hrow, hopen⟩

end

/-! ### The tokens of the tab -/

/-- The tab's tokens against the rows. The one in the jar is used only while the answer that
replaces it is on its way; one on its way is new and nowhere else; one that a refresh presents is
unused until that is served. -/
structure Tokens (H : Hasher) (tokens : List RefreshToken) (t : Tab) : Prop where
  known : ∀ p, t.Holds p → Known H tokens p
  carried : ∀ f ∈ t.fetches, ∀ q, f.cookie = some q → ¬Used H tokens q ∧ t.jar ≠ some q ∧
    ∀ g ∈ t.fetches, g.presented ≠ some q ∧ (g.cookie = some q → g = f)
  jar : ∀ p, t.jar = some p → Used H tokens p →
    ∃ f ∈ t.fetches, f.target = .refresh ∧ f.presented = some p ∧ f.cookie ≠ none
  presented : ∀ f ∈ t.fetches, f.target = .refresh → f.answer = none →
    ∀ p, f.presented = some p → ¬Used H tokens p

namespace Tokens

variable {H : Hasher} {ttl : Time} {tokens : List RefreshToken} {t u : Tab}

lemma congr (h : Tokens H tokens t) (hjar : u.jar = t.jar) (hfetches : u.fetches = t.fetches) :
    Tokens H tokens u where
  known p hp := h.known p (by rwa [Tab.Holds, hjar, hfetches] at hp)
  carried := by
    rw [hjar, hfetches]
    exact h.carried
  jar := by
    rw [hjar, hfetches]
    exact h.jar
  presented := by
    rw [hfetches]
    exact h.presented

/-- A refresh is sent while none is in flight, so what it presents is unused. -/
lemma rawFetch (h : Tokens H tokens t) (target : Target)
    (hnone : target = .refresh → ∀ f ∈ t.fetches, f.target ≠ .refresh) :
    Tokens H tokens (t.rawFetch target) where
  known p hp := by
    obtain hp | ⟨f, hf, hp⟩ := hp
    · exact h.known p (.inl hp)
    · obtain hf | hf := List.mem_append.1 hf
      · exact h.known p (.inr ⟨f, hf, hp⟩)
      · obtain rfl := List.mem_singleton.1 hf
        obtain hp | hp := hp
        · exact h.known p (.inl hp)
        · cases hp
  carried f hf q hq := by
    obtain hf | hf := List.mem_append.1 hf
    · obtain ⟨hunused, hjar, halone⟩ := h.carried f hf q hq
      refine ⟨hunused, hjar, fun g hg => ?_⟩
      obtain hg | hg := List.mem_append.1 hg
      · exact halone g hg
      · obtain rfl := List.mem_singleton.1 hg
        exact ⟨hjar, nofun⟩
    · obtain rfl := List.mem_singleton.1 hf
      cases hq
  jar p hp hused := by
    obtain ⟨f, hf, hrest⟩ := h.jar p hp hused
    exact ⟨f, List.mem_append_left _ hf, hrest⟩
  presented f hf htarget hopen p hp hused := by
    obtain hf | hf := List.mem_append.1 hf
    · exact h.presented f hf htarget hopen p hp hused
    · obtain rfl := List.mem_singleton.1 hf
      obtain ⟨g, hg, hrefresh, -⟩ := h.jar p hp hused
      exact hnone htarget g hg hrefresh

lemma received (h : Tokens H tokens t) (hflight : Flight t) (n status : Nat) :
    Tokens H tokens (t.received n status) := by
  have htry : Tokens H tokens t.tryRefresh.1 := by
    unfold Tab.tryRefresh
    cases hrefreshing : t.refreshing with
    | some k => exact h
    | none =>
      refine (h.rawFetch .refresh fun _ f hf hrefresh => ?_).congr rfl rfl
      simpa [hrefreshing] using (hflight.single f hf).1 hrefresh
  unfold Tab.received
  split
  · split
    · exact htry.congr rfl rfl
    · exact h.congr rfl rfl
  · exact h.congr rfl rfl

/-- A fetch is over; if it was a refresh, its answer is not lost. -/
lemma drop (h : Tokens H tokens t) (hnumbered : Numbered t) {f : Fetch} (hf : f ∈ t.fetches)
    (hkept : f.target = .refresh → f.cookie = none) : Tokens H tokens (t.drop f.id) where
  known p hp := by
    refine h.known p (hp.imp id ?_)
    rintro ⟨g, hg, hp⟩
    exact ⟨g, (List.mem_filter.1 hg).1, hp⟩
  carried g hg q hq := by
    obtain ⟨hunused, hjar, halone⟩ := h.carried g (List.mem_filter.1 hg).1 q hq
    exact ⟨hunused, hjar, fun g' hg' => halone g' (List.mem_filter.1 hg').1⟩
  jar p hp hused := by
    obtain ⟨g, hg, htarget, hpresented, hcookie⟩ := h.jar p hp hused
    refine ⟨g, List.mem_filter.2 ⟨hg, decide_eq_true fun hid => hcookie ?_⟩, htarget, hpresented,
      hcookie⟩
    obtain rfl := hnumbered.distinct g hg f hf hid
    exact hkept htarget
  presented g hg := h.presented g (List.mem_filter.1 hg).1

/-- The answer of a fetch arrives at the browser. -/
lemma store (h : Tokens H tokens t) (hnumbered : Numbered t) {f : Fetch} (hf : f ∈ t.fetches)
    {a : Answer} (hanswer : f.answer = some a) : Tokens H tokens ((t.drop f.id).store a) := by
  have hforget : ∀ jar, (∀ p, jar = some p → Known H tokens p ∧ ¬Used H tokens p ∧
      ∀ g ∈ (t.drop f.id).fetches, g.cookie ≠ some p) →
        Tokens H tokens { t.drop f.id with jar } := by
    intro jar hjar
    refine ⟨fun p hp => ?_, fun g hg q hq => ?_, fun p hp hused => ?_, fun g hg => ?_⟩
    · obtain hp | ⟨g, hg, hp⟩ := hp
      · exact (hjar p hp).1
      · exact h.known p (.inr ⟨g, (List.mem_filter.1 hg).1, hp⟩)
    · obtain ⟨hunused, -, halone⟩ := h.carried g (List.mem_filter.1 hg).1 q hq
      exact ⟨hunused, fun hq' => (hjar q hq').2.2 g hg hq,
        fun g' hg' => halone g' (List.mem_filter.1 hg').1⟩
    · exact absurd hused (hjar p hp).2.1
    · exact h.presented g (List.mem_filter.1 hg).1
  unfold Tab.store
  split
  · next userId q =>
    have hcookie : f.cookie = some q := by rw [Fetch.cookie, hanswer]
    obtain ⟨hunused, -, halone⟩ := h.carried f hf q hcookie
    refine hforget _ fun p hp => ?_
    cases hp
    refine ⟨h.known q (.inr ⟨f, hf, .inr hcookie⟩), hunused, fun g hg hq => ?_⟩
    obtain ⟨hg, hne⟩ := List.mem_filter.1 hg
    exact of_decide_eq_true hne ((halone g hg).2 hq ▸ rfl)
  · exact hforget none nofun
  · next hno _ =>
    refine h.drop hnumbered hf fun _ => ?_
    rw [Fetch.cookie, hanswer]
    split
    · next heq =>
      cases heq
      exact absurd rfl (hno _ _)
    · rfl

/-- What is in flight when a fetch is served. -/
lemma mem_serve (hnumbered : Numbered t) {f : Fetch} (hf : f ∈ t.fetches) {a : Answer} {g : Fetch}
    (hg : g ∈ (t.serve f.id a).fetches) :
    g = { f with answer := some a } ∨ g ∈ t.fetches ∧ g ≠ f := by
  obtain ⟨g₀, hg₀, rfl⟩ := List.mem_map.1 hg
  by_cases hid : g₀.id = f.id
  · left
    rw [if_pos hid, hnumbered.distinct g₀ hg₀ f hf hid]
  · right
    rw [if_neg hid]
    exact ⟨hg₀, fun he => hid (he ▸ rfl)⟩

lemma mem_serve_of_ne {f g : Fetch} {a : Answer} (hg : g ∈ t.fetches) (hne : g.id ≠ f.id) :
    g ∈ (t.serve f.id a).fetches :=
  List.mem_map.2 ⟨g, hg, if_neg hne⟩

lemma mem_serve_self {f : Fetch} (hf : f ∈ t.fetches) {a : Answer} :
    { f with answer := some a } ∈ (t.serve f.id a).fetches :=
  List.mem_map.2 ⟨f, hf, if_pos rfl⟩

/-- An answer without cookies, of what is no refresh. -/
lemma answered (h : Tokens H tokens t) (hnumbered : Numbered t) {f : Fetch} (hf : f ∈ t.fetches)
    (hopen : f.answer = none) (status : Nat) : Tokens H tokens (t.serve f.id (.other status)) := by
  have hold : ∀ g ∈ (t.serve f.id (.other status)).fetches, ∃ g₀ ∈ t.fetches,
      g.presented = g₀.presented ∧ g.cookie = g₀.cookie ∧ (g ≠ g₀ → g.cookie = none) := by
    intro g hg
    obtain rfl | ⟨hg, -⟩ := mem_serve hnumbered hf hg
    · exact ⟨f, hf, rfl, by simp [Fetch.cookie, hopen], fun _ => rfl⟩
    · exact ⟨g, hg, rfl, rfl, fun hne => absurd rfl hne⟩
  refine ⟨fun p hp => ?_, fun g hg q hq => ?_, fun p hp hused => ?_, fun g hg htarget hnone => ?_⟩
  · refine h.known p (hp.imp id ?_)
    rintro ⟨g, hg, hp⟩
    obtain ⟨g₀, hg₀, hpresented, hcookie, -⟩ := hold g hg
    exact ⟨g₀, hg₀, by rwa [← hpresented, ← hcookie]⟩
  · obtain rfl | ⟨hg, hne⟩ := mem_serve hnumbered hf hg
    · cases hq
    · obtain ⟨hunused, hjar, halone⟩ := h.carried g hg q hq
      refine ⟨hunused, hjar, fun g' hg' => ?_⟩
      obtain rfl | ⟨hg', -⟩ := mem_serve hnumbered hf hg'
      · exact ⟨(halone f hf).1, nofun⟩
      · exact halone g' hg'
  · obtain ⟨g, hg, htarget, hpresented, hcookie⟩ := h.jar p hp hused
    refine ⟨g, mem_serve_of_ne hg fun hid => hcookie ?_, htarget, hpresented, hcookie⟩
    rw [hnumbered.distinct g hg f hf hid, Fetch.cookie, hopen]
  · obtain rfl | ⟨hg, -⟩ := mem_serve hnumbered hf hg
    · cases hnone
    · exact h.presented g hg htarget hnone

/-- A request of a client that does not have the tab's tokens. -/
lemma others {s s' : AuthState} {e : Event} (h : Tokens H s.tokens t) (htable : Table H s.tokens)
    (hothers : ∀ p userAgent, e.request = .refresh (some p) userAgent → ¬t.Holds p)
    (hstep : Step H ttl s e s') : Tokens H s'.tokens t := by
  have hunused : ∀ p, t.Holds p → ¬Used H s.tokens p → ¬Used H s'.tokens p := by
    intro p hp hunused hused
    obtain ⟨⟨userAgent, hrequest⟩, -⟩ := used_step htable hstep hused hunused
    exact hothers p userAgent hrequest hp
  refine ⟨fun p hp => (h.known p hp).step hstep, fun f hf q hq => ?_, fun p hp hused => ?_,
    fun f hf htarget hopen p hp => ?_⟩
  · obtain ⟨hnew, hrest⟩ := h.carried f hf q hq
    exact ⟨hunused q (.inr ⟨f, hf, .inr hq⟩) hnew, hrest⟩
  · by_contra hnone
    exact hunused p (.inl hp) (fun hold => hnone (h.jar p hp hold)) hused
  · exact hunused p (.inr ⟨f, hf, .inl hp⟩) (h.presented f hf htarget hopen p hp)

/-- A fetch of the tab is served. -/
lemma served {s s' : AuthState} {e : Event} (h : Tokens H s.tokens t) (hflight : Flight t)
    (htable : Table H s.tokens) {f : Fetch} (hf : f ∈ t.fetches) (hopen : f.answer = none)
    (hasks : f.Asks e.request) (hstep : Step H ttl s e s') :
    Tokens H s'.tokens (t.serve f.id (.auth (serve H ttl e s.tokens).result)) := by
  set a : Answer := .auth (serve H ttl e s.tokens).result with ha
  have hnumbered := hflight.numbered
  have hempty : f.cookie = none := by rw [Fetch.cookie, hopen]
  -- a token that the request uses is the one that this fetch, a refresh, presents
  have hused : ∀ p, Used H s'.tokens p → ¬Used H s.tokens p →
      f.target = .refresh ∧ f.presented = some p ∧
        Fetch.cookie { f with answer := some a } ≠ none := by
    intro p hused hunused
    obtain ⟨⟨userAgent, hrequest⟩, answer, hresult⟩ := used_step htable hstep hused hunused
    obtain ⟨htarget, hpresented⟩ := hasks.of_refresh hrequest
    refine ⟨htarget, hpresented, ?_⟩
    obtain ⟨-, hserve⟩ := serve_ok hresult
    obtain ⟨row, -, rfl, -⟩ := endpoint_refresh (hrequest ▸ hserve ▸ hresult)
    simp [Fetch.cookie, ha, hresult]
  -- a cookie of its answer is new
  have hcookie : ∀ q, Fetch.cookie { f with answer := some a } = some q →
      Known H s'.tokens q ∧ ¬Known H s.tokens q ∧ ¬Used H s'.tokens q := by
    intro q hq
    rw [Fetch.cookie, ha] at hq
    cases hresult : (serve H ttl e s.tokens).result with
    | error x => simp [hresult] at hq
    | ok answer =>
      cases answer with
      | session userId q' =>
        simp only [hresult, Option.some.injEq] at hq
        exact cookie_step htable hstep (hq ▸ hresult)
      | loggedOut => simp [hresult] at hq
      | loggedOutAll n => simp [hresult] at hq
  refine ⟨fun p hp => ?_, fun g hg q hq => ?_, fun p hp hnow => ?_,
    fun g hg htarget hnone p hp => ?_⟩
  · obtain hp | ⟨g, hg, hp⟩ := hp
    · exact (h.known p (.inl hp)).step hstep
    · obtain rfl | ⟨hg, -⟩ := mem_serve hnumbered hf hg
      · obtain hp | hp := hp
        · exact (h.known p (.inr ⟨f, hf, .inl hp⟩)).step hstep
        · exact (hcookie p hp).1
      · exact (h.known p (.inr ⟨g, hg, hp⟩)).step hstep
  · obtain rfl | ⟨hg, hne⟩ := mem_serve hnumbered hf hg
    · obtain ⟨-, hunknown, hunused⟩ := hcookie q hq
      refine ⟨hunused, fun hjar => hunknown (h.known q (.inl hjar)), fun g' hg' => ?_⟩
      obtain rfl | ⟨hg', -⟩ := mem_serve hnumbered hf hg'
      · exact ⟨fun hp => hunknown (h.known q (.inr ⟨f, hf, .inl hp⟩)), fun _ => rfl⟩
      · exact ⟨fun hp => hunknown (h.known q (.inr ⟨g', hg', .inl hp⟩)),
          fun hq' => absurd (h.known q (.inr ⟨g', hg', .inr hq'⟩)) hunknown⟩
    · obtain ⟨hunused, hjar, halone⟩ := h.carried g hg q hq
      refine ⟨fun hnow => (halone f hf).1 (hused q hnow hunused).2.1, hjar, fun g' hg' => ?_⟩
      obtain rfl | ⟨hg', -⟩ := mem_serve hnumbered hf hg'
      · exact ⟨(halone f hf).1,
          fun hq' => absurd (h.known q (.inr ⟨g, hg, .inr hq⟩)) (hcookie q hq').2.1⟩
      · exact halone g' hg'
  · by_cases hbefore : Used H s.tokens p
    · obtain ⟨g, hg, htarget, hpresented, hcarries⟩ := h.jar p hp hbefore
      refine ⟨g, mem_serve_of_ne hg fun hid => hcarries ?_, htarget, hpresented, hcarries⟩
      rw [hnumbered.distinct g hg f hf hid, hempty]
    · obtain ⟨htarget, hpresented, hcarries⟩ := hused p hnow hbefore
      exact ⟨_, mem_serve_self hf, htarget, hpresented, hcarries⟩
  · obtain rfl | ⟨hg, hne⟩ := mem_serve hnumbered hf hg
    · cases hnone
    · intro hnow
      obtain ⟨hrefresh, -, -⟩ := hused p hnow (h.presented g hg htarget hnone p hp)
      have hsame := ((hflight.single g hg).1 htarget).symm.trans ((hflight.single f hf).1 hrefresh)
      exact hne (hnumbered.distinct g hg f hf (Option.some.inj hsame))

end Tokens

/-! ### Runs -/

/-- The step does not lose the answer of a refresh with its cookie. -/
def Delivers (a : Act) : Prop :=
  ∀ f, a = .lost f → f.target = .refresh → f.cookie = none

structure Safe (H : Hasher) (w : World) : Prop where
  flight : Flight w.tab
  table : Table H w.server.tokens
  tokens : Tokens H w.server.tokens w.tab

section

variable {H : Hasher} {ttl : Time} {w w' : World} {a : Act}

lemma Safe.start : Safe H ⟨{}, ⟨[], 0⟩⟩ where
  flight := ⟨⟨nofun, nofun⟩, nofun, nofun, nofun⟩
  table := ⟨⟨nofun, .nil, nofun⟩, nofun⟩
  tokens := ⟨fun _ hp => (hp.elim nofun fun ⟨_, hf, _⟩ => nomatch hf : False).elim, nofun, nofun,
    nofun⟩

lemma Tokens.acts (h : Safe H w) (hdelivers : Delivers a) (ha : Acts H ttl w a w') :
    Tokens H w'.server.tokens w'.tab := by
  obtain ⟨hflight, htable, htokens⟩ := h
  cases ha with
  | req t server call =>
    exact (htokens.rawFetch (.api t.reqs.length call) nofun).congr rfl rfl
  | served hf hopen hasks hstep => exact htokens.served hflight htable hf hopen hasks hstep
  | answered hf hopen htarget => exact htokens.answered hflight.numbered hf hopen _
  | @arrived t server f a hf hanswer =>
    have hstored := htokens.store hflight.numbered hf hanswer
    unfold Tab.arrive
    cases htarget : f.target with
    | refresh => exact hstored.congr rfl rfl
    | api n call =>
      have hrest := hflight.drop hf (by simp [htarget])
      exact hstored.received (hrest.store a) n a.status
  | @lost t server f hf =>
    have hdropped := htokens.drop hflight.numbered hf (hdelivers f rfl)
    unfold Tab.lose
    cases htarget : f.target with
    | refresh => exact hdropped.congr rfl rfl
    | api n call => exact hdropped.congr rfl rfl
  | resumed t server n =>
    unfold Tab.resume
    split
    · next call _ => exact (htokens.rawFetch (.api n call) nofun).congr rfl rfl
    · exact htokens.congr rfl rfl
    · exact htokens
  | others hothers hstep => exact htokens.others htable hothers hstep

lemma Safe.acts (h : Safe H w) (hdelivers : Delivers a) (ha : Acts H ttl w a w') : Safe H w' := by
  refine ⟨h.flight.acts ha, ?_, .acts h hdelivers ha⟩
  have htable := h.table
  cases ha with
  | served hf hopen hasks hstep => exact htable.step hstep
  | others hothers hstep => exact htable.step hstep
  | _ => exact htable

end

def signInCall : Call := .login (some "u9") none

def signedIn : Answer := .auth (.ok (.session "u9" firstToken.plaintext))

def oneSession : AuthState := ⟨[(mintRefresh plainHasher 30 0 firstToken "u9" none none).2], 0⟩

/-- The tab of a user who has signed in, with two calls of `req`. -/
def twoAsked : Tab where
  jar := some firstToken.plaintext
  fetches := [⟨1, .api 1 .other, some firstToken.plaintext, none⟩,
    ⟨2, .api 2 .other, some firstToken.plaintext, none⟩]
  reqs := [⟨signInCall, .settled (some 200)⟩, ⟨.other, .fetching false⟩, ⟨.other, .fetching false⟩]
  next := 3

/-- Both calls were answered with 401, and one knows. -/
def oneRefused : Tab where
  jar := some firstToken.plaintext
  refreshing := some 3
  fetches := [⟨2, .api 2 .other, some firstToken.plaintext, some (.other 401)⟩,
    ⟨3, .refresh, some firstToken.plaintext, none⟩]
  reqs := [⟨signInCall, .settled (some 200)⟩, ⟨.other, .awaiting 3⟩, ⟨.other, .fetching false⟩]
  next := 4

def twoRefused : Tab where
  jar := some firstToken.plaintext
  refreshing := some 3
  fetches := [⟨3, .refresh, some firstToken.plaintext, none⟩]
  reqs := [⟨signInCall, .settled (some 200)⟩, ⟨.other, .awaiting 3⟩, ⟨.other, .awaiting 3⟩]
  next := 4

lemma run_twoAsked : Lib.Run (Lib.guarded (Acts plainHasher 30) fun _ a => Delivers a)
    ⟨{}, ⟨[], 0⟩⟩ [.req signInCall, .served ⟨0, .api 0 signInCall, none, none⟩,
      .arrived ⟨0, .api 0 signInCall, none, some signedIn⟩, .req .other, .req .other]
    ⟨twoAsked, oneSession⟩ := by
  have hstep : Step plainHasher 30 ⟨[], 0⟩ ⟨0, firstToken, none, .login (some "u9") none⟩
      oneSession := ⟨Nat.le_refl _, ⟨nofun, nofun, nofun⟩, rfl⟩
  have hasks : Fetch.Asks ⟨0, .api 0 signInCall, none, none⟩ (.login (some "u9") none) := rfl
  refine .cons ⟨.req _ _ _, nofun⟩ ?_
  refine .cons ⟨.served (.head _) rfl hasks hstep, nofun⟩ ?_
  refine .cons ⟨.arrived (.head _) rfl, nofun⟩ ?_
  exact .cons ⟨.req _ _ _, nofun⟩ (.single ⟨.req _ _ _, nofun⟩)

end Pulse.Ui
