import Pulse.Api.Access
import Pulse.Lib.Run

/-!
# The lockout of an account

`login` of `api/auth.py` with the failure counter of `ratelimit.py`, whose Redis commands other
requests may come between. The counter is read before a password is evaluated and incremented after
it, so the requests in between do not count.
-/

namespace Pulse.Auth.Lockout

open Lib (Run guarded)
open Pulse.Api (normalizeEmail)
open Pulse.Db (Casing asciiCasing)

/-- A counter in Redis, and whether it has a time to live. -/
structure Counter where
  value : Nat
  expires : Bool
  deriving DecidableEq

abbrev Redis := String → Option Counter

namespace Redis

variable (r : Redis) (key : String)

def incr : Redis :=
  Function.update r key (some
    { value := (r key).elim 1 (·.value + 1), expires := (r key).elim false (·.expires) })

def expire : Redis := Function.update r key ((r key).map ({ · with expires := true }))

def delete : Redis := Function.update r key none

/-- `fail_count` -/
def failCount : Nat := (r key).elim 0 Counter.value

variable {r key}

lemma failCount_incr {key' : String} :
    (r.incr key).failCount key' = r.failCount key' + if key' = key then 1 else 0 := by
  rw [failCount, failCount, incr, Function.update_apply]
  split
  · next h =>
    subst h
    cases r key' with
    | none => rfl
    | some c => rfl
  · rfl

lemma failCount_expire {key' : String} : (r.expire key).failCount key' = r.failCount key' := by
  rw [failCount, failCount, expire, Function.update_apply]
  split
  · next h =>
    subst h
    cases r key' <;> rfl
  · rfl

lemma failCount_delete {key' : String} :
    (r.delete key).failCount key' = if key' = key then 0 else r.failCount key' := by
  rw [failCount, failCount, delete, Function.update_apply]
  split <;> rfl

end Redis

structure LoginIn where
  org : Option String
  email : String
  password : String
  deriving DecidableEq

/-- The settings, and what the database says. -/
structure Env where
  py : Casing
  /-- `login_lockout_max` -/
  lockoutMax : Nat
  /-- The organisation of the schema has this very slug. -/
  canonical : String → Bool
  /-- The password provider finds the account of the organisation with its password. -/
  authenticate : String → String → String → Bool

namespace LoginIn

variable (py : Casing) (body : LoginIn)

/-- `(body.org or DEFAULT_ORG).lower()` -/
def orgSlug : String := py.lower ((body.org.filter (· ≠ "")).getD "default")

def lockKey : String := "lock:login:" ++ body.orgSlug py ++ ":" ++ normalizeEmail py body.email

end LoginIn

/-- How far a request is. -/
inductive Stage
  /-- The counter is below the maximum. -/
  | checked
  /-- The password is wrong. -/
  | failed
  /-- The failure is counted. -/
  | counted
  /-- The password is right. -/
  | passed
  deriving DecidableEq

structure Login where
  body : LoginIn
  stage : Stage := .checked
  deriving DecidableEq

/-- The counters and the open requests. Beside them the run's history: the wrong passwords that were
evaluated under a key since its counter was last deleted. -/
structure State where
  redis : Redis := fun _ => none
  logins : List Login := []
  wrong : String → Nat := fun _ => 0

namespace State

variable (s : State)

def enter (l : Login) : State := { s with logins := l :: s.logins }

def leave (l : Login) : State := { s with logins := s.logins.erase l }

def fail (key : String) : State :=
  { s with wrong := Function.update s.wrong key (s.wrong key + 1) }

/-- The counter is deleted or runs out. -/
def reset (key : String) : State :=
  { s with redis := s.redis.delete key, wrong := Function.update s.wrong key 0 }

end State

inductive Action
  /-- The request reads the counter. -/
  | start (body : LoginIn)
  | authenticate (l : Login)
  /-- The two commands of `record_fail`. -/
  | incr (l : Login)
  | expire (l : Login)
  | clear (l : Login)
  /-- A counter's time to live is over. -/
  | lapse (key : String)

/-- The state after an action, if it can be taken now. -/
def act (env : Env) (s : State) : Action → Option State
  | .start body =>
    -- 429: the request ends
    if env.lockoutMax ≤ s.redis.failCount (body.lockKey env.py) then some s
    else some (s.enter { body })
  | .authenticate l =>
    if s.logins.contains l ∧ l.stage = .checked then
      let org := l.body.orgSlug env.py
      -- 401: the request ends without a look at the password
      if !env.canonical org then some (s.leave l)
      else if env.authenticate org (normalizeEmail env.py l.body.email) l.body.password then
        some ((s.leave l).enter { l with stage := .passed })
      else some (((s.leave l).enter { l with stage := .failed }).fail (l.body.lockKey env.py))
    else none
  | .incr l =>
    if s.logins.contains l ∧ l.stage = .failed then
      let s' := (s.leave l).enter { l with stage := .counted }
      some { s' with redis := s.redis.incr (l.body.lockKey env.py) }
    else none
  | .expire l =>
    if s.logins.contains l ∧ l.stage = .counted then
      some { s.leave l with redis := s.redis.expire (l.body.lockKey env.py) }
    else none
  | .clear l =>
    if s.logins.contains l ∧ l.stage = .passed then
      some ((s.leave l).reset (l.body.lockKey env.py))
    else none
  | .lapse key =>
    if (s.redis key).any Counter.expires then some (s.reset key) else none

def Acts (env : Env) (s : State) (a : Action) (t : State) : Prop := act env s a = some t

/-! ### Requests in flight -/

/-- The request will be counted under the key, if its password is wrong. -/
def Login.inFlight (py : Casing) (key : String) (l : Login) : Bool :=
  l.body.lockKey py = key ∧ (l.stage = .checked ∨ l.stage = .failed)

/-- The request has a wrong password that is not counted yet. -/
def Login.uncounted (py : Casing) (key : String) (l : Login) : Bool :=
  l.body.lockKey py = key ∧ l.stage = .failed

/-- A request passes the check only if its failure would still fit under the maximum, with those
that are in flight. -/
def Spaced (env : Env) (s : State) : Action → Prop
  | .start body =>
    let key := body.lockKey env.py
    s.redis.failCount key < env.lockoutMax →
      s.redis.failCount key + s.logins.countP (Login.inFlight env.py key) < env.lockoutMax
  | _ => True

instance (env : Env) (s : State) : (a : Action) → Decidable (Spaced env s a)
  | .start body => inferInstanceAs (Decidable
      (s.redis.failCount (body.lockKey env.py) < env.lockoutMax →
        s.redis.failCount (body.lockKey env.py) +
          s.logins.countP (Login.inFlight env.py (body.lockKey env.py)) < env.lockoutMax))
  | .authenticate _ | .incr _ | .expire _ | .clear _ | .lapse _ => inferInstanceAs (Decidable True)

/-- What holds between the actions. -/
def Inv (env : Env) (s : State) : Prop := ∀ key,
  s.wrong key ≤ s.redis.failCount key + s.logins.countP (Login.uncounted env.py key) ∧
    s.redis.failCount key + s.logins.countP (Login.inFlight env.py key) ≤ env.lockoutMax

section

variable {env : Env} {s t : State} {l : Login}

lemma countP_leave (h : l ∈ s.logins) (p : Login → Bool) :
    s.logins.countP p = (s.leave l).logins.countP p + if p l then 1 else 0 := by
  rw [(List.perm_cons_erase h).countP_eq, List.countP_cons, State.leave]

lemma countP_enter (p : Login → Bool) :
    (s.enter l).logins.countP p = s.logins.countP p + if p l then 1 else 0 := by
  rw [State.enter, List.countP_cons]

/-- The invariant with a request taken out. -/
lemma Inv.leave (h : Inv env s) (hl : l ∈ s.logins) (key : String) :
    s.wrong key ≤ s.redis.failCount key + ((s.leave l).logins.countP (Login.uncounted env.py key) +
        if l.uncounted env.py key then 1 else 0) ∧
      s.redis.failCount key + ((s.leave l).logins.countP (Login.inFlight env.py key) +
        if l.inFlight env.py key then 1 else 0) ≤ env.lockoutMax := by
  rw [← countP_leave hl, ← countP_leave hl]
  exact h key

lemma Inv.start {body : LoginIn} (h : Inv env s) (hok : Spaced env s (.start body))
    (hact : Acts env s (.start body) t) : Inv env t := by
  simp only [Acts, act] at hact
  split at hact
  · cases hact
    exact h
  · next hbelow =>
    cases hact
    intro key
    obtain ⟨hwrong, hmax⟩ := h key
    rw [countP_enter, countP_enter]
    have hfits := hok (by omega)
    by_cases hkey : body.lockKey env.py = key
    · subst hkey
      simp [Login.uncounted, Login.inFlight, State.enter] at hwrong hfits ⊢
      omega
    · simp [Login.uncounted, Login.inFlight, State.enter, hkey] at hwrong hmax ⊢
      omega

/-- A wrong password is evaluated: the request was in flight and still is. -/
lemma Inv.authenticate (h : Inv env s) (hact : Acts env s (.authenticate l) t) : Inv env t := by
  simp only [Acts, act] at hact
  split at hact
  · next hopen =>
    have hleft (key : String) := h.leave (List.contains_iff_mem.1 hopen.1) key
    split at hact
    · cases hact
      intro key
      obtain ⟨hwrong, hmax⟩ := hleft key
      simp only [Login.uncounted, hopen.2, State.leave] at hwrong hmax ⊢
      simp at hwrong
      omega
    · split at hact
      · cases hact
        intro key
        obtain ⟨hwrong, hmax⟩ := hleft key
        rw [countP_enter, countP_enter]
        simp [Login.uncounted, Login.inFlight, hopen.2, State.leave, State.enter] at hwrong hmax ⊢
        omega
      · cases hact
        intro key
        obtain ⟨hwrong, hmax⟩ := hleft key
        by_cases hkey : l.body.lockKey env.py = key
        · subst hkey
          simp [Login.uncounted, Login.inFlight, hopen.2, State.leave, State.enter, State.fail]
            at hwrong hmax ⊢
          omega
        · simp [Login.uncounted, Login.inFlight, hopen.2, State.leave, State.enter, State.fail,
            hkey, Function.update_of_ne (Ne.symm hkey)] at hwrong hmax ⊢
          omega
  · cases hact

lemma Inv.incr (h : Inv env s) (hact : Acts env s (.incr l) t) : Inv env t := by
  simp only [Acts, act] at hact
  split at hact
  · next hopen =>
    cases hact
    intro key
    obtain ⟨hwrong, hmax⟩ := h.leave (List.contains_iff_mem.1 hopen.1) key
    rw [countP_enter, countP_enter, Redis.failCount_incr]
    by_cases hkey : l.body.lockKey env.py = key
    · subst hkey
      simp [Login.uncounted, Login.inFlight, hopen.2, State.leave, State.enter] at hwrong hmax ⊢
      omega
    · simp [Login.uncounted, Login.inFlight, hopen.2, State.leave, State.enter, hkey,
        Ne.symm hkey] at hwrong hmax ⊢
      omega
  · cases hact

lemma Inv.expire (h : Inv env s) (hact : Acts env s (.expire l) t) : Inv env t := by
  simp only [Acts, act] at hact
  split at hact
  · next hopen =>
    cases hact
    intro key
    obtain ⟨hwrong, hmax⟩ := h.leave (List.contains_iff_mem.1 hopen.1) key
    rw [Redis.failCount_expire]
    simp [Login.uncounted, Login.inFlight, hopen.2, State.leave] at hwrong hmax ⊢
    omega
  · cases hact

/-- Without its counter a key has no wrong passwords either. -/
lemma Inv.reset (h : Inv env s) (key : String) : Inv env (s.reset key) := by
  intro key'
  obtain ⟨hwrong, hmax⟩ := h key'
  simp only [State.reset]
  rw [Redis.failCount_delete, Function.update_apply]
  split <;> omega

lemma Inv.clear (h : Inv env s) (hact : Acts env s (.clear l) t) : Inv env t := by
  simp only [Acts, act] at hact
  split at hact
  · next hopen =>
    cases hact
    refine Inv.reset (fun key => ?_) _
    obtain ⟨hwrong, hmax⟩ := h.leave (List.contains_iff_mem.1 hopen.1) key
    simp [Login.uncounted, Login.inFlight, hopen.2, State.leave] at hwrong hmax ⊢
    omega
  · cases hact

lemma Inv.act {a : Action} (h : Inv env s) (hok : Spaced env s a) (hact : Acts env s a t) :
    Inv env t := by
  cases a with
  | start => exact h.start hok hact
  | authenticate => exact h.authenticate hact
  | incr => exact h.incr hact
  | expire => exact h.expire hact
  | clear => exact h.clear hact
  | lapse key =>
    simp only [Acts, Lockout.act] at hact
    split at hact
    · cases hact
      exact h.reset key
    · cases hact

lemma uncounted_le_inFlight (py : Casing) (key : String) (ls : List Login) :
    ls.countP (Login.uncounted py key) ≤ ls.countP (Login.inFlight py key) := by
  refine List.countP_mono_left fun l _ h => ?_
  simp only [Login.uncounted, Login.inFlight, decide_eq_true_eq] at h ⊢
  exact ⟨h.1, .inr h.2⟩

/-- When no request passes the check unless its failure would fit, at most as many wrong passwords
are evaluated for an account as the lockout allows, and a request that comes once the counter is full
is refused. -/
theorem wrong_le_lockoutMax {as : List Action}
    (hrun : Run (guarded (Acts env) (Spaced env)) {} as s) (key : String) :
    s.wrong key ≤ env.lockoutMax ∧ ∀ body t, body.lockKey env.py = key →
      env.lockoutMax ≤ s.redis.failCount key → Acts env s (.start body) t → t = s := by
  have hinv : Inv env s := hrun.invariant_guarded (fun _ _ _ h hok hact => h.act hok hact) fun key => by
    simp [Redis.failCount]
  constructor
  · obtain ⟨hwrong, hmax⟩ := hinv key
    have hle := uncounted_le_inFlight env.py key s.logins
    omega
  · rintro body t rfl hfull hact
    simp only [Acts, act, if_pos hfull] at hact
    exact (Option.some.inj hact).symm

end

/-! ### Concurrent guesses -/

/-- Nobody knows a password. -/
def guessing : Env where
  py := asciiCasing
  lockoutMax := 8
  canonical _ := true
  authenticate _ _ _ := false

def guess : LoginIn := { org := none, email := "a@b.com", password := "guess" }

/-- Two guesses, one after the other. -/
def spacedGuesses : List Action :=
  [.start guess, .authenticate { body := guess }, .incr { body := guess, stage := .failed },
    .expire { body := guess, stage := .counted }, .start guess, .authenticate { body := guess }]

def after (as : List Action) : State :=
  (as.foldlM (fun s a => if Spaced guessing s a then act guessing s a else none) {}).getD {}

theorem wrong_le_lockoutMax_spaced : (after spacedGuesses).wrong (guess.lockKey asciiCasing) ≤ 8 := by
  have hrun : Run (guarded (Acts guessing) (Spaced guessing)) {} spacedGuesses
      (after spacedGuesses) := Lib.run_guarded_of_foldlM (by rfl)
  exact (wrong_le_lockoutMax hrun _).1

/-- Nine requests read the counter before any of them has failed. -/
theorem guesses_not_bounded :
    ¬∀ (as : List Action) (s : State), as.foldlM (act guessing) {} = some s →
      ∀ key, s.wrong key ≤ guessing.lockoutMax := by
  intro h
  let as := List.replicate 9 (Action.start guess) ++
    List.replicate 9 (Action.authenticate { body := guess })
  have hbound := h as ((as.foldlM (act guessing) {}).getD {}) (by rfl) (guess.lockKey asciiCasing)
  revert hbound
  decide +kernel

end Pulse.Auth.Lockout
