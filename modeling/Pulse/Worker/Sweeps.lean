import Mathlib.Algebra.Order.BigOperators.Group.List
import Mathlib.Algebra.Order.Ring.Nat
import Pulse.Worker.Flush

/-!
# Repeated sweeps

Every sweep in which an organisation's batch goes through reaches the next organisation; a sweep
that meets a call whose analysis raises stops there, and so does every later one. After `n` sweeps
an organisation has therefore had as many visits as all the organisations before it allowed, and
a due call has been analysed when its batch is among the visited ones.
-/

namespace Pulse.Worker

open Ingest

/-- The call of the `j`-th organisation is stored with an analysis at the current version. -/
def Analysed (orgs : List Org) (j : Nat) (pk : Pk) : Prop :=
  ∃ o, orgs[j]? = some o ∧ ∃ c ∈ o.db.calls, c.id = pk ∧ c.metricVersion = some metricVersion

/-- Every due call that can be analysed is, in every organisation. -/
def FlushIsolates (outcome : String → Pk → ProcessOutcome) (cfg : WorkerConfig) (now : Time)
    (orgs orgs' : List Org) : Prop :=
  ∀ (j p : Nat) (o : Org) (c : Call), orgs[j]? = some o → (dueCalls cfg now o.db)[p]? = some c →
    outcome o.schema c.id = .ok → Analysed orgs' j c.id

/-- The calls whose analysis raises, in the organisation of a call that can be analysed and in
those before it, are in later batches than this call. -/
def PoisonInLaterBatches (outcome : String → Pk → ProcessOutcome) (cfg : WorkerConfig) (now : Time)
    (orgs : List Org) : Prop :=
  ∀ (j p : Nat) (o : Org) (c : Call), orgs[j]? = some o → (dueCalls cfg now o.db)[p]? = some c →
    outcome o.schema c.id = .ok → 0 < cfg.batch ∧
      ∀ (i q : Nat) (o' : Org) (c' : Call), i ≤ j → orgs[i]? = some o' →
        (dueCalls cfg now o'.db)[q]? = some c' → outcome o'.schema c'.id = .raises →
        p / cfg.batch < q / cfg.batch

section

variable {process : String → Process} {outcome : String → Pk → ProcessOutcome}
  {cfg : WorkerConfig} {now : Time}

/-- `n` sweeps visit the first organisation until a visit is rolled back, and the other
organisations as often. -/
lemma flushDue_iterate_cons (process : String → Process) (cfg : WorkerConfig) (now : Time) (o : Org)
    (orgs : List Org) (n : Nat) :
    ∃ k ≤ n, ∃ db, visits (process o.schema) cfg now k o.db = .ok db ∧
      (flushDue process cfg now)^[n] (o :: orgs) =
        ⟨o.schema, db⟩ :: (flushDue process cfg now)^[k] orgs ∧
      (k < n → ∃ e, flushOrg (process o.schema) cfg now db = .error e) := by
  induction n with
  | zero => exact ⟨0, le_rfl, o.db, rfl, rfl, fun h => absurd h (lt_irrefl 0)⟩
  | succ n ih =>
    obtain ⟨k, hk, db, hvisits, hstate, hstuck⟩ := ih
    rw [Function.iterate_succ_apply', hstate, flushDue]
    cases hflush : flushOrg (process o.schema) cfg now db with
    | error e => exact ⟨k, by omega, db, hvisits, rfl, fun _ => ⟨e, hflush⟩⟩
    | ok db' =>
      have hkn : k = n := by
        apply le_antisymm hk
        by_contra hlt
        obtain ⟨e, herror⟩ := hstuck (by omega)
        rw [hflush] at herror
        cases herror
      subst hkn
      refine ⟨k + 1, le_rfl, db', ?_, ?_, fun h => absurd h (lt_irrefl _)⟩
      · rw [visits, hvisits]
        exact hflush
      · rw [Function.iterate_succ_apply']

lemma visits_no_raise {process : Process} {outcome : Pk → ProcessOutcome} {db db' : Store}
    (h : Assigns process outcome) {k : Nat} (hvisits : visits process cfg now k db = .ok db') :
    ∀ r ∈ (dueRows cfg now (sweepRows db)).take (cfg.batch * k), outcome r.id ≠ .raises := by
  induction k generalizing db' with
  | zero => simp
  | succ k ih =>
    rw [visits] at hvisits
    cases hfirst : visits process cfg now k db with
    | error e =>
      rw [hfirst] at hvisits
      cases hvisits
    | ok db₁ =>
      rw [hfirst] at hvisits
      obtain ⟨db₂, hsame, hdue, -⟩ := visits_ok h k (ih hfirst)
      obtain rfl : db₁ = db₂ := Except.ok.inj (hfirst.symm.trans hsame)
      intro r hr hraises
      rw [Nat.mul_succ, List.take_add, ← hdue] at hr
      rcases List.mem_append.1 hr with hr | hr
      · exact ih hfirst r hr hraises
      · obtain ⟨e, herror⟩ := flushOrg_raises h cfg now db₁ ⟨r, hr, hraises⟩
        have hflush : flushOrg process cfg now db₁ = .ok db' := hvisits
        rw [herror] at hflush
        cases hflush

lemma dueRows_getElem? (cfg : WorkerConfig) (now : Time) (db : Store) (p : Nat) :
    (dueRows cfg now (sweepRows db))[p]? = (dueCalls cfg now db)[p]?.map SweepRow.of := by
  rw [← dueCalls_rows, List.getElem?_map]

/-- The places of the calls whose analysis raises, among the due calls of an organisation. -/
def PoisonAt (outcome : String → Pk → ProcessOutcome) (cfg : WorkerConfig) (now : Time) (o : Org)
    (q : Nat) : Prop :=
  ∃ c, (dueCalls cfg now o.db)[q]? = some c ∧ outcome o.schema c.id = .raises

lemma stuck_at {process : Process} {outcome : Pk → ProcessOutcome} {db db' : Store}
    (h : Assigns process outcome) {k : Nat} (hvisits : visits process cfg now k db = .ok db')
    {e : HandleError} (hstuck : flushOrg process cfg now db' = .error e) :
    ∃ i < cfg.batch, ∃ c, (dueCalls cfg now db)[cfg.batch * k + i]? = some c ∧
      outcome c.id = .raises := by
  obtain ⟨db₁, hsame, hdue, -⟩ := visits_ok h k (visits_no_raise h hvisits)
  obtain rfl : db' = db₁ := Except.ok.inj (hvisits.symm.trans hsame)
  have hnext : ∃ r ∈ (dueRows cfg now (sweepRows db')).take cfg.batch, outcome r.id = .raises := by
    by_contra hnone
    push Not at hnone
    obtain ⟨db₂, hflush, -⟩ := flushOrg_ok h db' hnone
    rw [hflush] at hstuck
    cases hstuck
  obtain ⟨r, hr, hraises⟩ := hnext
  rw [hdue] at hr
  obtain ⟨i, hi⟩ := List.mem_iff_getElem?.1 hr
  rw [List.getElem?_take] at hi
  split at hi
  · rename_i hib
    rw [List.getElem?_drop, dueRows_getElem?] at hi
    obtain ⟨c, hc, rfl⟩ := Option.map_eq_some_iff.1 hi
    exact ⟨i, hib, c, hc, hraises⟩
  · cases hi

/-- A place is in a visited batch exactly when the sweeps are many enough and every poisonous
place comes in a later batch. -/
lemma visited_iff (h : ∀ schema, Assigns (process schema) (outcome schema)) {o : Org} {k n : Nat}
    {db : Store} (hk : k ≤ n) (hvisits : visits (process o.schema) cfg now k o.db = .ok db)
    (hstuck : k < n → ∃ e, flushOrg (process o.schema) cfg now db = .error e) (p : Nat) :
    p < cfg.batch * k ↔
      p < cfg.batch * n ∧ ∀ q, PoisonAt outcome cfg now o q → p / cfg.batch < q / cfg.batch := by
  have hlater : ∀ q, PoisonAt outcome cfg now o q → cfg.batch * k ≤ q := by
    intro q hq
    obtain ⟨c, hc, hraises⟩ := hq
    by_contra hlt
    have hmem : SweepRow.of c ∈ (dueRows cfg now (sweepRows o.db)).take (cfg.batch * k) := by
      apply List.mem_of_getElem? (i := q)
      rw [List.getElem?_take_of_lt (by omega), dueRows_getElem?, hc]
      rfl
    exact visits_no_raise (h o.schema) hvisits _ hmem hraises
  constructor
  · intro hp
    have hb : 0 < cfg.batch := Nat.pos_of_mul_pos_right (Nat.zero_lt_of_lt hp)
    refine ⟨hp.trans_le (Nat.mul_le_mul_left _ hk), fun q hq => ?_⟩
    calc p / cfg.batch < k := Nat.div_lt_of_lt_mul hp
      _ = cfg.batch * k / cfg.batch := (Nat.mul_div_cancel_left k hb).symm
      _ ≤ q / cfg.batch := Nat.div_le_div_right (hlater q hq)
  · rintro ⟨hp, hall⟩
    rcases hk.eq_or_lt with rfl | hlt
    · exact hp
    · obtain ⟨e, herror⟩ := hstuck hlt
      obtain ⟨i, hi, c, hc, hraises⟩ := stuck_at (h o.schema) hvisits herror
      have hb : 0 < cfg.batch := Nat.zero_lt_of_lt hi
      have hbatch : (cfg.batch * k + i) / cfg.batch = k := by
        rw [Nat.mul_add_div hb, Nat.div_eq_of_lt hi, Nat.add_zero]
      have hpk := hall _ ⟨c, hc, hraises⟩
      rw [hbatch] at hpk
      rw [Nat.mul_comm]
      exact (Nat.div_lt_iff_lt_mul hb).1 hpk

/-- The visits stamp a due call that can be analysed exactly when its batch is among them. -/
lemma stamped_iff {process : Process} {outcome : Pk → ProcessOutcome} {db db' : Store}
    (h : Assigns process outcome) {k : Nat} (hvisits : visits process cfg now k db = .ok db')
    {p : Nat} {c : Call} (hc : (dueCalls cfg now db)[p]? = some c) (hok : outcome c.id = .ok) :
    (∃ c' ∈ db'.calls, c'.id = c.id ∧ c'.metricVersion = some metricVersion) ↔
      p < cfg.batch * k := by
  obtain ⟨db₁, hsame, -, hrows⟩ := visits_ok h k (visits_no_raise h hvisits)
  obtain rfl : db' = db₁ := Except.ok.inj (hvisits.symm.trans hsame)
  have hmem : c ∈ db.calls ∧ isDue cfg now c := by
    have := List.mem_of_getElem? hc
    rw [dueCalls, Lib.mem_sorted, List.mem_filter] at this
    exact this
  have hplace : c.id ∈ ((dueRows cfg now (sweepRows db)).take (cfg.batch * k)).map SweepRow.id ↔
      p < cfg.batch * k := by
    have hids : ((dueRows cfg now (sweepRows db)).map SweepRow.id)[p]? = some c.id := by
      rw [List.getElem?_map, dueRows_getElem?, hc]
      rfl
    rw [List.map_take]
    exact Lib.mem_take_iff (dueRows_nodup cfg now (sweepRows_nodup db)) hids
  have hstamp : (∃ c' ∈ db'.calls, c'.id = c.id ∧ c'.metricVersion = some metricVersion) ↔
      ∃ r ∈ sweepRows db', r.id = c.id ∧ r.metricVersion = some metricVersion := by
    simp only [sweepRows, List.mem_map, exists_exists_and_eq_and]
    rfl
  rw [hstamp, ← hplace, hrows]
  constructor
  · rintro ⟨r, hr, hid, hversion⟩
    by_contra hout
    obtain ⟨r₀, hr₀, rfl⟩ := List.mem_map.1 hr
    obtain ⟨c₀, hc₀, rfl⟩ := List.mem_map.1 hr₀
    have hid₀ : c₀.id = c.id := by
      rw [apply_ite SweepRow.id, SweepRow.settle_id, ite_self] at hid
      exact hid
    obtain rfl : c₀ = c := List.inj_on_of_nodup_map db.call_pk hc₀ hmem.1 hid₀
    have hin : ¬ (SweepRow.of c₀).id ∈
        ((dueRows cfg now (sweepRows db)).take (cfg.batch * k)).map SweepRow.id := hout
    rw [if_neg hin] at hversion
    have hdue := hmem.2
    simp only [isDue, Bool.and_eq_true, decide_eq_true_eq] at hdue
    exact hdue.2 hversion
  · intro hin
    refine ⟨(SweepRow.of c).settle outcome, ?_, SweepRow.settle_id outcome _, ?_⟩
    · refine List.mem_map.2 ⟨SweepRow.of c, List.mem_map_of_mem hmem.1, ?_⟩
      exact if_pos hin
    · have hok' : outcome (SweepRow.of c).id = .ok := hok
      rw [SweepRow.settle, hok']

/-- A due call that can be analysed is, within `n` sweeps, exactly when these are enough for its
place and no poisonous call of its organisation or of one before it is in the same or an earlier
batch. -/
lemma analysed_iff (h : ∀ schema, Assigns (process schema) (outcome schema)) (orgs : List Org)
    (n j p : Nat) (o : Org) (c : Call) (ho : orgs[j]? = some o)
    (hc : (dueCalls cfg now o.db)[p]? = some c) (hok : outcome o.schema c.id = .ok) :
    Analysed ((flushDue process cfg now)^[n] orgs) j c.id ↔
      p < cfg.batch * n ∧ ∀ (i q : Nat) (o' : Org), i ≤ j → orgs[i]? = some o' →
        PoisonAt outcome cfg now o' q → p / cfg.batch < q / cfg.batch := by
  induction orgs generalizing n j with
  | nil => cases ho
  | cons o₁ orgs ih =>
    obtain ⟨k, hk, db, hvisits, hstate, hstuck⟩ :=
      flushDue_iterate_cons process cfg now o₁ orgs n
    have hvisited := visited_iff h hk hvisits hstuck p
    rw [hstate]
    cases j with
    | zero =>
      obtain rfl : o₁ = o := Option.some.inj ho
      have hhead : Analysed (⟨o₁.schema, db⟩ :: (flushDue process cfg now)^[k] orgs) 0 c.id ↔
          p < cfg.batch * k := by
        rw [← stamped_iff (h o₁.schema) hvisits hc hok]
        simp [Analysed]
      rw [hhead, hvisited]
      apply and_congr_right
      intro _
      constructor
      · intro hq i q o' hi ho'
        obtain rfl : i = 0 := by omega
        obtain rfl : o₁ = o' := Option.some.inj ho'
        exact hq q
      · intro hall q
        exact hall 0 q o₁ le_rfl rfl
    | succ j =>
      have htail : Analysed (⟨o₁.schema, db⟩ :: (flushDue process cfg now)^[k] orgs) (j + 1) c.id ↔
          Analysed ((flushDue process cfg now)^[k] orgs) j c.id := by
        simp [Analysed]
      rw [htail, ih k j ho, hvisited, and_assoc]
      apply and_congr_right
      intro _
      constructor
      · rintro ⟨hhead, hrest⟩ i q o' hi ho'
        cases i with
        | zero =>
          obtain rfl : o₁ = o' := Option.some.inj ho'
          exact hhead q
        | succ i => exact hrest i q o' (by omega) ho'
      · intro hall
        exact ⟨fun q => hall 0 q o₁ (Nat.zero_le _) rfl,
          fun i q o' hi => hall (i + 1) q o' (Nat.succ_le_succ hi)⟩

lemma flushOrg_idle {process : Process} {db : Store}
    (h : (dueCalls cfg now db).take cfg.batch = []) : flushOrg process cfg now db = .ok db := by
  rw [flushOrg, h]
  rfl

/-- After enough sweeps another one changes nothing. -/
lemma flushDue_settles (h : ∀ schema, Assigns (process schema) (outcome schema))
    (cfg : WorkerConfig) (now : Time) (orgs : List Org) : ∃ N, ∀ n ≥ N, flushDue process cfg now
      ((flushDue process cfg now)^[n] orgs) = (flushDue process cfg now)^[n] orgs := by
  induction orgs with
  | nil =>
    refine ⟨0, fun n _ => ?_⟩
    have hnil : (flushDue process cfg now)^[n] [] = [] := Function.iterate_fixed rfl n
    rw [hnil]
    rfl
  | cons o orgs ih =>
    obtain ⟨N, hN⟩ := ih
    refine ⟨N + (dueCalls cfg now o.db).length, fun n hn => ?_⟩
    obtain ⟨k, hk, db, hvisits, hstate, hstuck⟩ := flushDue_iterate_cons process cfg now o orgs n
    rw [hstate, flushDue]
    rcases hk.eq_or_lt with rfl | hlt
    · obtain ⟨db₁, hsame, hdue, -⟩ := visits_ok (h o.schema) k (visits_no_raise (h o.schema) hvisits)
      obtain rfl : db = db₁ := Except.ok.inj (hvisits.symm.trans hsame)
      have hidle : (dueCalls cfg now db).take cfg.batch = [] := by
        have hlength : (dueCalls cfg now db).length =
            (dueCalls cfg now o.db).length - cfg.batch * k := by
          have := congrArg List.length hdue
          rwa [← dueCalls_rows, ← dueCalls_rows, List.length_map, List.length_drop,
            List.length_map] at this
        rw [List.take_eq_nil_iff]
        rcases Nat.eq_zero_or_pos cfg.batch with hb | hb
        · exact .inl hb
        · right
          apply List.length_eq_zero_iff.1
          have := Nat.le_mul_of_pos_left k hb
          omega
      rw [flushOrg_idle hidle]
      simp only
      rw [hN k (by omega)]
    · obtain ⟨e, herror⟩ := hstuck hlt
      rw [herror]

/-- Repeated sweeps come to a state that another sweep leaves as it is. There every due call that
can be analysed has been, whatever happens to the others, exactly when no call whose analysis
raises shares a batch with it or precedes it, in its organisation or one before it. -/
theorem flush_isolates_iff (h : ∀ schema, Assigns (process schema) (outcome schema))
    (cfg : WorkerConfig) (now : Time) (orgs : List Org) : ∃ N, ∀ n ≥ N,
      flushDue process cfg now ((flushDue process cfg now)^[n] orgs) =
        (flushDue process cfg now)^[n] orgs ∧
      (FlushIsolates outcome cfg now orgs ((flushDue process cfg now)^[n] orgs) ↔
        PoisonInLaterBatches outcome cfg now orgs) := by
  obtain ⟨N, hN⟩ := flushDue_settles h cfg now orgs
  set longest := (orgs.map fun o => (dueCalls cfg now o.db).length).sum with hlongest
  refine ⟨N + longest, fun n hn => ⟨hN n (by omega), ?_⟩⟩
  have henough : ∀ (j p : Nat) (o : Org) (c : Call), orgs[j]? = some o →
      (dueCalls cfg now o.db)[p]? = some c → 0 < cfg.batch → p < cfg.batch * n := by
    intro j p o c ho hc hb
    obtain ⟨hp, -⟩ := List.getElem?_eq_some_iff.1 hc
    have hle : (dueCalls cfg now o.db).length ≤ longest :=
      List.le_sum_of_mem (List.mem_map_of_mem (List.mem_of_getElem? ho))
    have := Nat.le_mul_of_pos_left n hb
    omega
  constructor
  · intro hall j p o c ho hc hok
    obtain ⟨hp, hlater⟩ := (analysed_iff h orgs n j p o c ho hc hok).1 (hall j p o c ho hc hok)
    refine ⟨Nat.pos_of_mul_pos_right (Nat.zero_lt_of_lt hp), fun i q o' c' hi ho' hc' hr => ?_⟩
    exact hlater i q o' hi ho' ⟨c', hc', hr⟩
  · intro hlater j p o c ho hc hok
    obtain ⟨hb, hbatches⟩ := hlater j p o c ho hc hok
    apply (analysed_iff h orgs n j p o c ho hc hok).2
    refine ⟨henough j p o c ho hc hb, fun i q o' hi ho' hpoison => ?_⟩
    obtain ⟨c', hc', hr⟩ := hpoison
    exact hbatches i q o' c' hi ho' hc' hr

end

/-! ### Two due calls -/

/-- An analysis that only ends as assigned to the call. -/
def stampOnly (outcome : Pk → ProcessOutcome) : Process := fun db pk _ =>
  match outcome pk with
  | .ok =>
    match db.updateCall pk fun c => { c with metricVersion := some metricVersion } with
    | .ok db => .analysed db
    | .error _ => .raised none
  | .unsupported => .unsupportedSchema db
  | .raises => .raised (some db)

lemma stampOnly_assigns (outcome : Pk → ProcessOutcome) : Assigns (stampOnly outcome) outcome where
  ok := by
    intro db pk now ho
    obtain ⟨db', hok, hcalls, -⟩ := Store.updateCall_ok db pk
      (fun c => { c with metricVersion := some metricVersion }) (fun _ _ _ => .inl rfl)
    refine ⟨db', by simp [stampOnly, ho, hok], ?_⟩
    rw [sweepRows, hcalls, sweepRows, List.map_map, List.map_map]
    apply List.map_congr_left
    intro c _
    by_cases hc : c.id = pk
    · simp [Store.onRow, SweepRow.of, hc]
    · simp [Store.onRow, SweepRow.of, hc]
  unsupported := fun db pk now ho => ⟨db, by simp [stampOnly, ho], rfl⟩
  raises := fun db pk now ho => ⟨some db, by simp [stampOnly, ho]⟩

/-- Two calls with their audio, of which the second came in later. -/
def twoDue : Store := { Store.empty with
  calls := [
    { id := 0, externalCallId := "c0", source := .str "pipecat", environment := .str "prod",
      spansComplete := true, mediaReady := true, lastActivityAt := 0 },
    { id := 1, externalCallId := "c1", source := .str "pipecat", environment := .str "prod",
      spansComplete := true, mediaReady := true, lastActivityAt := 1 }]
  nextPk := 2
  call_lt := by decide
  call_pk := by decide
  call_external := by decide
  fragment_call := nofun
  media_call := nofun }

/-- The analysis of the second call raises. -/
def secondRaises (pk : Pk) : ProcessOutcome :=
  if pk = 1 then .raises else .ok

lemma twoDue_due (b : Nat) : dueCalls ⟨60, b⟩ 100 twoDue = twoDue.calls := by
  have hbatch : dueCalls ⟨60, b⟩ 100 twoDue = dueCalls ⟨60, 10⟩ 100 twoDue := rfl
  rw [hbatch]
  decide

/-- With batches of one call the first is analysed and committed before the second is met. -/
theorem flush_isolates_single : ∃ n, FlushIsolates (fun _ => secondRaises) ⟨60, 1⟩ 100
    [⟨"default", twoDue⟩] ((flushDue (fun _ => stampOnly secondRaises) ⟨60, 1⟩ 100)^[n]
      [⟨"default", twoDue⟩]) := by
  obtain ⟨N, hN⟩ := flush_isolates_iff
    (fun _ => stampOnly_assigns secondRaises) ⟨60, 1⟩ 100 [⟨"default", twoDue⟩]
  refine ⟨N, (hN N le_rfl).2.2 ?_⟩
  intro j p o c ho hc hok
  obtain rfl : o = ⟨"default", twoDue⟩ := List.mem_singleton.1 (List.mem_of_getElem? ho)
  refine ⟨Nat.one_pos, fun i q o' c' _ ho' hc' hr => ?_⟩
  obtain rfl : o' = ⟨"default", twoDue⟩ := List.mem_singleton.1 (List.mem_of_getElem? ho')
  rw [twoDue_due] at hc hc'
  have hp : p = 0 := by
    match p with
    | 0 => rfl
    | 1 =>
      obtain rfl := Option.some.inj hc
      exact absurd hok (by decide)
  have hq : q = 1 := by
    match q with
    | 0 =>
      obtain rfl := Option.some.inj hc'
      exact absurd hr (by decide)
    | 1 => rfl
  simp [hp, hq]

/-- In one batch the first call's analysis is rolled back with the second's, on every sweep. -/
theorem flush_poisoned :
    (∀ n, (flushDue (fun _ => stampOnly secondRaises) ⟨60, 10⟩ 100)^[n] [⟨"default", twoDue⟩] =
      [⟨"default", twoDue⟩]) ∧
    ¬FlushIsolates (fun _ => secondRaises) ⟨60, 10⟩ 100 [⟨"default", twoDue⟩]
      [⟨"default", twoDue⟩] := by
  constructor
  · refine Function.iterate_fixed ?_
    obtain ⟨e, herror⟩ := flushOrg_raises
      (stampOnly_assigns secondRaises) ⟨60, 10⟩ 100 twoDue (by decide)
    rw [flushDue, herror]
  · intro h
    obtain ⟨o, ho, c, hc, -, hversion⟩ := h 0 0 ⟨"default", twoDue⟩ _ rfl
      (by rw [twoDue_due]; rfl) rfl
    obtain rfl := Option.some.inj ho
    have hnone : ∀ c ∈ twoDue.calls, c.metricVersion = none := by decide
    rw [hnone c hc] at hversion
    cases hversion

end Pulse.Worker
