import Pulse.Core.Metrics
import Pulse.Lib.Buckets

/-!
# Boards

`build_snapshot` of `api/boards.py`: four queries over the calls of a scope are counted into shared
buckets of time. A call that failed and was judged not to be connected is counted as failed twice.
-/

namespace Pulse.Api.Boards

open Core (percentile)
open Lib (InBucket PyFloat bucketOf pyRange roundTo tally)

/-! ### The store -/

/-- A `datetime` in microseconds since the epoch. -/
abbrev Instant := Int

/-- `t.timestamp()` -/
def timestamp (t : Instant) : ℚ := t / 1000000

structure Call where
  id : String
  agentId : Option String := none
  environment : String
  startedAt : Option Instant := none
  createdAt : Instant
  lastActivityAt : Option Instant := none
  status : String := "awaiting_media"
  costTotal : Option PyFloat := none
  costLlm : Option PyFloat := none
  costStt : Option PyFloat := none
  costTts : Option PyFloat := none

structure Judgment where
  callId : String
  disposition : Option String := none
  status : String := "skipped"
  guardrailViolation : Option Bool := none
  judgedAt : Instant

structure Turn where
  callId : String
  trigger : Option String := none
  interrupted : Option Bool := none
  responseLatencyMs : Option PyFloat := none

structure Event where
  callId : String
  kind : String
  type : String
  error : Option Bool := none

/-- The tables that the boards read, with their keys: the id of a call, and `uq_judgment_call`. -/
structure Tables where
  calls : List Call := []
  judgments : List Judgment := []
  turns : List Turn := []
  events : List Event := []
  calls_nodup : (calls.map Call.id).Nodup := by decide
  judgments_nodup : (judgments.map Judgment.callId).Nodup := by decide

/-- What `_scope` filters by: the visible agents, if they are restricted, and the two parameters. -/
structure Scope where
  visible : Option (List String) := none
  agentId : Option String := none
  environment : Option String := none

/-- `_scope` -/
def Scope.includes (scope : Scope) (c : Call) : Bool :=
  scope.visible.all (fun ids => c.agentId.any (ids.contains ·)) &&
    scope.agentId.all (fun a => a = "" || c.agentId = some a) &&
    scope.environment.all (fun e => e = "" || c.environment = e)

/-! ### Time -/

/-- `_RANGES.get(range_key, _RANGES["7d"])`: the window and the bucket, in seconds. -/
def ranges (rangeKey : String) : Int × Int :=
  if rangeKey = "24h" then (24 * 3600, 3600)
  else if rangeKey = "30d" then (30 * 24 * 3600, 24 * 3600)
  else (7 * 24 * 3600, 6 * 3600)

/-- `_call_time` -/
def callTime (c : Call) : Instant := c.startedAt.getD c.createdAt

/-- `int(t)` -/
def truncate (q : ℚ) : Int := if 0 ≤ q then ⌊q⌋ else ⌈q⌉

/-- `_bucket_keys` -/
def bucketKeys (since until' : Instant) (bucketS : Int) : List Int :=
  pyRange (bucketOf bucketS (timestamp since)) (truncate (timestamp until') + bucketS) bucketS

/-- `_key` of the time of a call -/
def keyOf (bucketS : Int) (c : Call) : Int := bucketOf bucketS (timestamp (callTime c))

/-! ### The snapshot -/

/-- The calls of the scope that are in the window. -/
def inWindow (db : Tables) (scope : Scope) (since : Instant) : List Call :=
  db.calls.filter fun c => scope.includes c && since ≤ callTime c

/-- The calls with the rows of another table that are theirs. -/
def joined {ρ : Type} (calls : List Call) (rows : List ρ) (callId : ρ → String) : List (Call × ρ) :=
  calls.flatMap fun c => (rows.filter fun row => callId row = c.id).map fun row => (c, row)

/-- `round(n / d, 4) if d else 0.0` -/
def rate (n d : Nat) : ℚ := if d = 0 then 0 else roundTo 4 (n / d)

structure Disposition where
  connected : Nat := 0
  noAnswer : Nat := 0
  unknown : Nat := 0
  none : Nat := 0

/-- `disposition[disp if disp in disposition else "none"] += 1` -/
def Disposition.count (d : Disposition) : Option String → Disposition
  | some "connected" => { d with connected := d.connected + 1 }
  | some "no_answer" => { d with noAnswer := d.noAnswer + 1 }
  | some "unknown" => { d with unknown := d.unknown + 1 }
  | _ => { d with none := d.none + 1 }

structure Totals where
  calls : Nat
  failureRate : ℚ
  p50Ms : Option PyFloat
  p95Ms : Option PyFloat
  costTotal : PyFloat
  violationRate : ℚ
  toolCalls : Nat
  toolErrorRate : ℚ

structure Snapshot where
  range : String
  bucketS : Int
  buckets : List Int
  volume : List Nat
  failed : List Nat
  total : List Nat
  failureRate : List ℚ
  p50 : List (Option PyFloat)
  p95 : List (Option PyFloat)
  violations : List Nat
  judged : List Nat
  guardrailRate : List ℚ
  toolCalls : List Nat
  toolErrors : List Nat
  toolRate : List ℚ
  costTotal : List PyFloat
  costLlm : List PyFloat
  costStt : List PyFloat
  costTts : List PyFloat
  disposition : Disposition
  totals : Totals

/-- A judgment by which a call counts as failed: it has a disposition that is not `connected`. -/
def missed (j : Judgment) : Bool := j.disposition.any (· ≠ "connected")

/-- A turn whose latency is measured: a null trigger is not unequal to `opening`. -/
def measurable (t : Turn) : Bool :=
  t.responseLatencyMs.isSome && t.trigger.any (· ≠ "opening") && t.interrupted ≠ some true

/-- `status == "failed"` -/
def failedCall (c : Call) : Bool := c.status = "failed"

/-- Counters, one for each bucket, over the calls. -/
def countCalls (keys : List Int) (bucketS : Int) (p : Call → Bool) (xs : List Nat)
    (calls : List Call) : List Nat :=
  tally keys (keyOf bucketS) (fun n c => if p c then n + 1 else n) xs calls

/-- Counters over the rows that are joined to the calls. -/
def countRows {ρ : Type} (keys : List Int) (bucketS : Int) (p : ρ → Bool) (xs : List Nat)
    (rows : List (Call × ρ)) : List Nat :=
  tally keys (fun r => keyOf bucketS r.1) (fun n r => if p r.2 then n + 1 else n) xs rows

/-- `until - window` -/
def sinceOf (rangeKey : String) (now : Instant) : Instant := now - (ranges rangeKey).1 * 1000000

/-- `build_snapshot`, with the time for `_now()`; the buckets are shown as texts there. -/
def buildSnapshot (db : Tables) (scope : Scope) (rangeKey : String) (now : Instant) : Snapshot :=
  let bucketS := (ranges rangeKey).2
  let since := sinceOf rangeKey now
  let keys := bucketKeys since now bucketS
  let zeros := keys.map fun _ => 0
  let callRows := inWindow db scope since
  let volume := countCalls keys bucketS (fun _ => true) zeros callRows
  let total := countCalls keys bucketS (fun _ => true) zeros callRows
  let costOf (cost : Call → Option PyFloat) : List PyFloat :=
    tally keys (keyOf bucketS) (fun x c => x + (cost c).getD (.fin 0))
      (keys.map fun _ => PyFloat.fin 0) callRows
  let jRows := joined callRows db.judgments Judgment.callId
  -- the counter of the failed calls goes on with the judgments
  let failed := countRows keys bucketS missed (countCalls keys bucketS failedCall zeros callRows)
    jRows
  let violations := countRows keys bucketS (fun j => j.guardrailViolation = some true) zeros jRows
  let judged := countRows keys bucketS (fun j => j.guardrailViolation.isSome) zeros jRows
  let latRows := joined callRows (db.turns.filter measurable) Turn.callId
  let latBuckets := tally keys (fun r => keyOf bucketS r.1)
    (fun xs r => xs ++ r.2.responseLatencyMs.toList) (keys.map fun _ => []) latRows
  let toolRows := joined callRows (db.events.filter fun e => e.kind = "span" && e.type = "tool")
    Event.callId
  let toolCalls := countRows keys bucketS (fun _ => true) zeros toolRows
  let toolErrors := countRows keys bucketS (fun e => e.error = some true) zeros toolRows
  let allLat := latBuckets.flatten
  { range := rangeKey
    bucketS
    buckets := keys
    volume
    failed
    total
    failureRate := List.zipWith rate failed total
    p50 := latBuckets.map (percentile · 50)
    p95 := latBuckets.map (percentile · 95)
    violations
    judged
    guardrailRate := List.zipWith rate violations judged
    toolCalls
    toolErrors
    toolRate := List.zipWith rate toolErrors toolCalls
    costTotal := costOf Call.costTotal
    costLlm := costOf Call.costLlm
    costStt := costOf Call.costStt
    costTts := costOf Call.costTts
    disposition := jRows.foldl (fun d r => d.count r.2.disposition) {}
    totals :=
      { calls := volume.sum
        failureRate := rate failed.sum volume.sum
        p50Ms := percentile allLat 50
        p95Ms := percentile allLat 95
        costTotal := ((costOf Call.costTotal).foldl (· + ·) (PyFloat.fin 0)).round 4
        violationRate := rate violations.sum judged.sum
        toolCalls := toolCalls.sum
        toolErrorRate := rate toolErrors.sum toolCalls.sum } }

/-! ### The buckets -/

lemma bucketS_pos (rangeKey : String) : 0 < (ranges rangeKey).2 := by
  unfold ranges
  split
  · decide
  · split <;> decide

lemma timestamp_mono {t t' : Instant} (h : t ≤ t') : timestamp t ≤ timestamp t' := by
  have hcast : (t : ℚ) ≤ t' := by exact_mod_cast h
  unfold timestamp
  linarith

lemma floor_le_truncate (q : ℚ) : ⌊q⌋ ≤ truncate q := by
  unfold truncate
  split
  · exact le_rfl
  · exact Int.floor_le_ceil q

section

variable {bucketS : Int} {since until' : Instant}

lemma bucketKeys_nodup (h : 0 < bucketS) : (bucketKeys since until' bucketS).Nodup :=
  Lib.pyRange_nodup h

lemma dvd_of_mem_bucketKeys (h : 0 < bucketS) {k : Int} (hk : k ∈ bucketKeys since until' bucketS) :
    bucketS ∣ k := by
  obtain ⟨i, rfl, -⟩ := (Lib.mem_pyRange h).1 hk
  exact (Lib.dvd_bucketOf).add (dvd_mul_left bucketS _)

/-- A time of the window has its bucket, the one in which the window begins among them. -/
lemma bucketOf_mem {t : Instant} (h : 0 < bucketS) (hsince : since ≤ t) (huntil : t ≤ until') :
    bucketOf bucketS (timestamp t) ∈ bucketKeys since until' bucketS := by
  rw [bucketKeys, Lib.mem_pyRange h]
  have hstart := Int.floor_mono (div_le_div_of_nonneg_right (timestamp_mono hsince)
    (show (0 : ℚ) ≤ bucketS by exact_mod_cast h.le))
  refine ⟨(⌊timestamp t / bucketS⌋ - ⌊timestamp since / bucketS⌋).toNat, ?_, ?_⟩
  · rw [Int.toNat_of_nonneg (by omega), bucketOf, bucketOf]
    ring
  · have hle : bucketOf bucketS (timestamp t) ≤ ⌊timestamp until'⌋ :=
      Int.le_floor.2 ((Lib.bucketOf_le h _).trans (timestamp_mono huntil))
    have htruncate := floor_le_truncate (timestamp until')
    omega

end

/-! ### The rows of the other tables -/

/-- Among the rows that are joined to a call, one for each call, those that count. -/
lemma countP_joined {ρ : Type} (calls : List Call) {rows : List ρ} {callId : ρ → String}
    (hrows : (rows.map callId).Nodup) (p : Call → Bool) (q : ρ → Bool) :
    (joined calls rows callId).countP (fun r => p r.1 && q r.2) =
      calls.countP fun c => p c && rows.any fun row => callId row = c.id && q row := by
  have hone (id : String) : (rows.filter fun row => callId row = id).countP q =
      if rows.any fun row => callId row = id && q row then 1 else 0 := by
    induction rows with
    | nil => rfl
    | cons row rows ih =>
      rw [List.map_cons, List.nodup_cons] at hrows
      by_cases hid : callId row = id
      · have hnone : (rows.filter fun row => callId row = id) = [] := by
          rw [List.filter_eq_nil_iff]
          intro row' hrow' hid'
          exact hrows.1 (List.mem_map.2 ⟨row', hrow', (of_decide_eq_true hid').trans hid.symm⟩)
        have hany : (rows.any fun row => callId row = id && q row) = false := by
          rw [List.any_eq_false]
          intro row' hrow' hand
          rw [Bool.and_eq_true, decide_eq_true_eq] at hand
          exact hrows.1 (List.mem_map.2 ⟨row', hrow', hand.1.trans hid.symm⟩)
        rw [List.filter_cons, if_pos (by simpa using hid), hnone, List.any_cons, hany]
        cases hq : q row <;> simp [hid, hq]
      · rw [List.filter_cons, if_neg (by simpa using hid), ih hrows.2]
        simp [hid]
  induction calls with
  | nil => rfl
  | cons c calls ih =>
    rw [joined, List.flatMap_cons, ← joined, List.countP_append, ih, List.countP_map,
      List.countP_cons, Nat.add_comm]
    refine congrArg _ ?_
    cases hp : p c with
    | false => simp [Function.comp_def, hp]
    | true => simpa [Function.comp_def, hp] using hone c.id

/-! ### Rates -/

lemma rate_bounds {n d : Nat} (h : n ≤ d) : 0 ≤ rate n d ∧ rate n d ≤ 1 := by
  unfold rate
  split
  · exact ⟨le_rfl, zero_le_one⟩
  · next hd =>
    have hpos : (0 : ℚ) < d := by exact_mod_cast Nat.pos_of_ne_zero hd
    have hle : (n : ℚ) / d ≤ 1 := by
      rw [div_le_one hpos]
      exact_mod_cast h
    have hnonneg : (0 : ℚ) ≤ n / d := by positivity
    constructor
    · rw [Lib.roundTo_nonneg_iff]
      linarith
    · rw [Lib.roundTo_le_one_iff (by decide)]
      linarith

lemma zipWith_rate_bounds {ns ds : List Nat} (h : List.Forall₂ (· ≤ ·) ns ds) :
    ∀ r ∈ List.zipWith rate ns ds, 0 ≤ r ∧ r ≤ 1 := by
  induction h with
  | nil => nofun
  | cons hle _ ih =>
    rw [List.zipWith_cons_cons, List.forall_mem_cons]
    exact ⟨rate_bounds hle, ih⟩

/-! ### What is counted -/

/-- A judgment of the call says that it was not connected. -/
def missedCall (db : Tables) (c : Call) : Bool :=
  db.judgments.any fun j => j.callId = c.id && missed j

/-- There is a judgment of the call. -/
def judgedCall (db : Tables) (c : Call) : Bool :=
  db.judgments.any fun j => j.callId = c.id

section

variable {keys : List Int} (hkeys : keys.Nodup) (bucketS : Int)

include hkeys

lemma countCalls_eq (p : Call → Bool) (calls : List Call) :
    countCalls keys bucketS p (keys.map fun _ => 0) calls =
      keys.map fun k => calls.countP fun c => keyOf bucketS c = k && p c := by
  refine (Lib.tally_count hkeys _ p _ calls).trans ?_
  simp only [Nat.zero_add]

lemma countRows_eq {ρ : Type} (p : ρ → Bool) (f : Int → Nat) (rows : List (Call × ρ)) :
    countRows keys bucketS p (keys.map f) rows =
      keys.map fun k => f k + rows.countP fun r => keyOf bucketS r.1 = k && p r.2 :=
  Lib.tally_count hkeys (fun r : Call × ρ => keyOf bucketS r.1) (fun r => p r.2) f rows

/-- Of the rows that are counted, those that are counted as well in another place. -/
lemma countRows_le {ρ : Type} {p q : ρ → Bool} (hpq : ∀ row, p row = true → q row = true)
    (rows : List (Call × ρ)) :
    List.Forall₂ (· ≤ ·) (countRows keys bucketS p (keys.map fun _ => 0) rows)
      (countRows keys bucketS q (keys.map fun _ => 0) rows) := by
  rw [countRows_eq hkeys, countRows_eq hkeys, List.forall₂_map_left_iff,
    List.forall₂_map_right_iff, List.forall₂_same]
  intro k _
  refine Nat.add_le_add_left (List.countP_mono_left fun r _ h => ?_) 0
  rw [Bool.and_eq_true] at h ⊢
  exact ⟨h.1, hpq r.2 h.2⟩

end

section

variable (db : Tables) (scope : Scope) (rangeKey : String) (now : Instant)

/-- The calls of the window. -/
abbrev windowCalls : List Call := inWindow db scope (sinceOf rangeKey now)

/-- The buckets of the window. -/
abbrev windowKeys : List Int := bucketKeys (sinceOf rangeKey now) now (ranges rangeKey).2

lemma windowKeys_nodup : (windowKeys rangeKey now).Nodup := bucketKeys_nodup (bucketS_pos rangeKey)

lemma volume_eq : (buildSnapshot db scope rangeKey now).volume =
    (windowKeys rangeKey now).map fun k =>
      (windowCalls db scope rangeKey now).countP fun c => keyOf (ranges rangeKey).2 c = k := by
  refine (countCalls_eq (windowKeys_nodup rangeKey now) _ _ _).trans ?_
  simp only [Bool.and_true]

lemma failed_eq : (buildSnapshot db scope rangeKey now).failed =
    (windowKeys rangeKey now).map fun k =>
      (windowCalls db scope rangeKey now).countP
          (fun c => keyOf (ranges rangeKey).2 c = k && failedCall c) +
        (windowCalls db scope rangeKey now).countP
          fun c => keyOf (ranges rangeKey).2 c = k && missedCall db c := by
  have hkeys := windowKeys_nodup rangeKey now
  change countRows (windowKeys rangeKey now) (ranges rangeKey).2 missed
    (countCalls (windowKeys rangeKey now) (ranges rangeKey).2 failedCall
      ((windowKeys rangeKey now).map fun _ => 0) (windowCalls db scope rangeKey now))
    (joined (windowCalls db scope rangeKey now) db.judgments Judgment.callId) = _
  rw [countCalls_eq hkeys, countRows_eq hkeys]
  refine List.map_congr_left fun k _ => ?_
  rw [countP_joined _ db.judgments_nodup (fun c => keyOf (ranges rangeKey).2 c = k) missed]
  rfl

/-! ### Consistency -/

def Disposition.sum (d : Disposition) : Nat := d.connected + d.noAnswer + d.unknown + d.none

/-- The counts of a snapshot agree with each other and with the calls of the window. -/
structure Consistent : Prop where
  buckets_nodup : (buildSnapshot db scope rangeKey now).buckets.Nodup
  oneBucket : ∀ c ∈ windowCalls db scope rangeKey now,
    ∃! k, k ∈ (buildSnapshot db scope rangeKey now).buckets ∧
      InBucket (ranges rangeKey).2 k (timestamp (callTime c))
  volume : (buildSnapshot db scope rangeKey now).volume =
    (buildSnapshot db scope rangeKey now).buckets.map fun k =>
      (windowCalls db scope rangeKey now).countP
        fun c => InBucket (ranges rangeKey).2 k (timestamp (callTime c))
  failed : List.Forall₂ (· ≤ ·) (buildSnapshot db scope rangeKey now).failed
    (buildSnapshot db scope rangeKey now).total
  violations : List.Forall₂ (· ≤ ·) (buildSnapshot db scope rangeKey now).violations
    (buildSnapshot db scope rangeKey now).judged
  toolErrors : List.Forall₂ (· ≤ ·) (buildSnapshot db scope rangeKey now).toolErrors
    (buildSnapshot db scope rangeKey now).toolCalls
  rates : ∀ r ∈ (buildSnapshot db scope rangeKey now).failureRate ++
    (buildSnapshot db scope rangeKey now).guardrailRate ++
      (buildSnapshot db scope rangeKey now).toolRate, 0 ≤ r ∧ r ≤ 1
  totalRates : ∀ r ∈ [(buildSnapshot db scope rangeKey now).totals.failureRate,
    (buildSnapshot db scope rangeKey now).totals.violationRate,
      (buildSnapshot db scope rangeKey now).totals.toolErrorRate], 0 ≤ r ∧ r ≤ 1
  disposition : (buildSnapshot db scope rangeKey now).disposition.sum =
    (windowCalls db scope rangeKey now).countP (judgedCall db)

variable {db scope rangeKey now}

lemma inBucket_iff_keyOf {k : Int} (hk : k ∈ windowKeys rangeKey now) (c : Call) :
    InBucket (ranges rangeKey).2 k (timestamp (callTime c)) ↔ keyOf (ranges rangeKey).2 c = k :=
  Lib.inBucket_iff (bucketS_pos rangeKey) (dvd_of_mem_bucketKeys (bucketS_pos rangeKey) hk)

/-- The bucket of a call of the window is one of the board. -/
lemma keyOf_mem (hnow : ∀ c ∈ db.calls, callTime c ≤ now) {c : Call}
    (hc : c ∈ windowCalls db scope rangeKey now) :
    keyOf (ranges rangeKey).2 c ∈ windowKeys rangeKey now := by
  obtain ⟨hmem, hand⟩ := List.mem_filter.1 hc
  rw [Bool.and_eq_true, decide_eq_true_eq] at hand
  exact bucketOf_mem (bucketS_pos rangeKey) hand.2 (hnow c hmem)

lemma sum_count (d : Disposition) (disp : Option String) : (d.count disp).sum = d.sum + 1 := by
  unfold Disposition.count
  split <;> simp only [Disposition.sum] <;> omega

lemma disposition_sum : (buildSnapshot db scope rangeKey now).disposition.sum =
    (windowCalls db scope rangeKey now).countP (judgedCall db) := by
  have hfold (d : Disposition) (rows : List (Call × Judgment)) :
      (rows.foldl (fun d r => d.count r.2.disposition) d).sum = d.sum + rows.length := by
    induction rows generalizing d with
    | nil => rfl
    | cons r rows ih =>
      rw [List.foldl_cons, ih, sum_count, List.length_cons]
      omega
  have hlength := countP_joined (windowCalls db scope rangeKey now) db.judgments_nodup
    (fun _ => true) fun _ => true
  simp only [Bool.and_true, Bool.true_and, List.countP_true] at hlength
  refine (hfold {} _).trans ?_
  rw [hlength]
  exact Nat.zero_add _

/-- The calls that are counted as failed once or twice are as many as the calls, or fewer, when no
more are counted twice than not at all. -/
lemma countP_add_le_iff {calls : List Call} {p q r : Call → Bool} :
    (calls.countP fun c => p c && q c) + (calls.countP fun c => p c && r c) ≤ calls.countP p ↔
      (calls.countP fun c => p c && (q c && r c)) ≤ calls.countP fun c => p c && (!q c && !r c) := by
  have hcount : (calls.countP fun c => p c && q c) + (calls.countP fun c => p c && r c) +
      (calls.countP fun c => p c && (!q c && !r c)) =
        calls.countP p + calls.countP fun c => p c && (q c && r c) := by
    induction calls with
    | nil => rfl
    | cons c calls ih =>
      simp only [List.countP_cons]
      cases p c <;> cases q c <;> cases r c <;> simp <;> omega
  omega

lemma failed_le_iff : List.Forall₂ (· ≤ ·) (buildSnapshot db scope rangeKey now).failed
    (buildSnapshot db scope rangeKey now).total ↔ ∀ k ∈ windowKeys rangeKey now,
      ((windowCalls db scope rangeKey now).countP
        fun c => keyOf (ranges rangeKey).2 c = k && (failedCall c && missedCall db c)) ≤
      (windowCalls db scope rangeKey now).countP
        fun c => keyOf (ranges rangeKey).2 c = k && (!failedCall c && !missedCall db c) := by
  change List.Forall₂ (· ≤ ·) _ (buildSnapshot db scope rangeKey now).volume ↔ _
  rw [failed_eq, volume_eq, List.forall₂_map_left_iff, List.forall₂_map_right_iff,
    List.forall₂_same]
  exact forall₂_congr fun k _ => countP_add_le_iff

lemma violations_le : List.Forall₂ (· ≤ ·) (buildSnapshot db scope rangeKey now).violations
    (buildSnapshot db scope rangeKey now).judged := by
  have himp (j : Judgment) (h : decide (j.guardrailViolation = some true) = true) :
      j.guardrailViolation.isSome = true := by
    rw [of_decide_eq_true h]
    rfl
  exact countRows_le (windowKeys_nodup rangeKey now) (ranges rangeKey).2 himp
    (joined (windowCalls db scope rangeKey now) db.judgments Judgment.callId)

lemma toolErrors_le : List.Forall₂ (· ≤ ·) (buildSnapshot db scope rangeKey now).toolErrors
    (buildSnapshot db scope rangeKey now).toolCalls :=
  countRows_le (windowKeys_nodup rangeKey now) (ranges rangeKey).2
    (p := fun e : Event => e.error = some true) (q := fun _ => true) (fun _ _ => rfl)
    (joined (windowCalls db scope rangeKey now)
      (db.events.filter fun e => e.kind = "span" && e.type = "tool") Event.callId)

/-- A snapshot is consistent when in each bucket the failed calls are at most the calls. -/
lemma consistent_of_failed (hnow : ∀ c ∈ db.calls, callTime c ≤ now)
    (hfailed : List.Forall₂ (· ≤ ·) (buildSnapshot db scope rangeKey now).failed
      (buildSnapshot db scope rangeKey now).total) : Consistent db scope rangeKey now where
  buckets_nodup := windowKeys_nodup rangeKey now
  oneBucket c hc := by
    have hmem := keyOf_mem hnow hc
    refine ⟨keyOf (ranges rangeKey).2 c, ⟨hmem, (inBucket_iff_keyOf hmem c).2 rfl⟩, ?_⟩
    rintro k ⟨hk, hin⟩
    exact ((inBucket_iff_keyOf hk c).1 hin).symm
  volume := by
    rw [volume_eq]
    refine List.map_congr_left fun k hk => List.countP_congr fun c _ => ?_
    rw [decide_eq_true_eq, decide_eq_true_eq]
    exact (inBucket_iff_keyOf hk c).symm
  failed := hfailed
  violations := violations_le
  toolErrors := toolErrors_le
  rates r hr := by
    rw [List.mem_append, List.mem_append] at hr
    obtain (hr | hr) | hr := hr
    · exact zipWith_rate_bounds hfailed r hr
    · exact zipWith_rate_bounds violations_le r hr
    · exact zipWith_rate_bounds toolErrors_le r hr
  totalRates := by
    simp only [List.forall_mem_cons]
    refine ⟨rate_bounds hfailed.sum_le_sum, rate_bounds violations_le.sum_le_sum,
      rate_bounds toolErrors_le.sum_le_sum, nofun⟩
  disposition := disposition_sum

/-- The counts are consistent exactly when in each bucket no more calls both failed and were judged
not to be connected than did neither. -/
theorem snapshot_consistent_iff (db : Tables) (scope : Scope) (rangeKey : String) (now : Instant)
    (hnow : ∀ c ∈ db.calls, callTime c ≤ now) : Consistent db scope rangeKey now ↔
      ∀ k, ((windowCalls db scope rangeKey now).countP
          fun c => keyOf (ranges rangeKey).2 c = k && (failedCall c && missedCall db c)) ≤
        (windowCalls db scope rangeKey now).countP
          fun c => keyOf (ranges rangeKey).2 c = k && (!failedCall c && !missedCall db c) := by
  constructor
  · intro h k
    by_cases hk : k ∈ windowKeys rangeKey now
    · exact failed_le_iff.1 h.failed k hk
    · have hzero : ((windowCalls db scope rangeKey now).countP
          fun c => keyOf (ranges rangeKey).2 c = k && (failedCall c && missedCall db c)) = 0 := by
        rw [List.countP_eq_zero]
        intro c hc hand
        rw [Bool.and_eq_true, decide_eq_true_eq] at hand
        exact hk (hand.1 ▸ keyOf_mem hnow hc)
      omega
  · intro h
    exact consistent_of_failed hnow (failed_le_iff.2 fun k _ => h k)

end

/-- Two calls of one bucket, of which one failed. -/
def oneFailed : Tables where
  calls := [{ id := "a", environment := "prod", createdAt := 0, status := "failed" },
    { id := "b", environment := "prod", createdAt := 1000000, status := "ingested" }]
  judgments := [{ callId := "b", disposition := some "connected", judgedAt := 2000000 }]

theorem snapshot_consistent_two : Consistent oneFailed {} "24h" 3000000 :=
  (snapshot_consistent_iff oneFailed {} "24h" 3000000 (by decide)).2 fun k => by
    have hnone : ((windowCalls oneFailed {} "24h" 3000000).countP
        fun c => keyOf (ranges "24h").2 c = k && (failedCall c && missedCall oneFailed c)) = 0 := by
      rw [List.countP_eq_zero]
      intro c hc hand
      obtain ⟨hmem, -⟩ := List.mem_filter.1 hc
      rw [Bool.and_eq_true] at hand
      have hall : ∀ c ∈ oneFailed.calls, (failedCall c && missedCall oneFailed c) = false := by
        decide
      rw [hall c hmem] at hand
      cases hand.2
    omega

/-- A call that failed before anyone spoke is judged as not answered. -/
def failedUnanswered : Tables where
  calls := [{ id := "a", environment := "prod", createdAt := 0, status := "failed" }]
  judgments := [{ callId := "a", disposition := some "no_answer", judgedAt := 2000000 }]

/-- One call is two failed calls. -/
theorem failed_twice : ¬Consistent failedUnanswered {} "24h" 3000000 := by
  intro h
  have hle : (buildSnapshot failedUnanswered {} "24h" 3000000).failed.sum ≤
      (buildSnapshot failedUnanswered {} "24h" 3000000).total.sum := h.failed.sum_le_sum
  exact absurd hle (by decide +kernel)

end Pulse.Api.Boards
