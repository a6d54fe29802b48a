import Pulse.Ingest.Receiver

/-!
# Spans on their way through the receiver

Which spans come out of the records of a request as they were in its body. Grouping keeps each span
once and in order, so what matters is what the numbers and the texts become.
-/

namespace Pulse.Ingest.Receiver

open Lib (Doc Text Value lastOf nearestDouble ofEntries shortestDecimal text)

/-! ### What should arrive -/

def spans {N : Type} (payload : Doc N) : List (Doc N) := (resourceSpans payload).map Prod.snd

/-- Each span of the body is in one record, in the order of the body, and is there the same value. -/
def Verbatim (records : List OutRecord) (body : Doc Decimal) : Prop :=
  ∃ place : Nat → Nat, (∀ i < (spans body).length, place i < records.length) ∧
    ∀ r (hr : r < records.length), (spans records[r].value).map Doc.value =
      ((spans body).zipIdx.filter fun e => place e.2 = r).map fun e => e.1.value

def ArrivesVerbatim (sprint : Float64 → Text) (b : Batch) (body : Doc Decimal) : Prop :=
  ∃ payload, decodePayload (some body) = some payload ∧
    Verbatim (buildRecords sprint b payload) body

/-- A value that `float64` leaves: each number is the shortest decimal of the double next to it, and
no text has a surrogate on its own. -/
inductive Kept : Value Decimal → Prop
  | null : Kept .null
  | bool (b : Bool) : Kept (.bool b)
  | num (n : Decimal) : shortestDecimal (nearestDouble n.mag) = n.mag → Kept (.num n)
  | str (s : Text) : (∀ c ∈ s, ¬c.IsSurrogate) → Kept (.str s)
  | arr (vs : List (Value Decimal)) : (∀ v ∈ vs, Kept v) → Kept (.arr vs)
  | obj (fields : Text → Option (Value Decimal)) :
      (∀ key v, fields key = some v → ∀ c ∈ key, ¬c.IsSurrogate) →
      (∀ key v, fields key = some v → Kept v) → Kept (.obj fields)

/-- `json.Unmarshal` takes the document: it is not nested too deep, and each number is in the range
of `float64`. -/
def Accepted (doc : Doc Decimal) : Prop :=
  doc.depth ≤ maxNestingDepth ∧ ∀ n ∈ doc.numbers, ¬Overflows n

/-! ### Lookup -/

/-- The key is not one that a replaced surrogate could have become. -/
def Plain (s : Text) : Prop := ∀ c ∈ s, ¬c.IsSurrogate ∧ c ≠ replacementChar

instance (s : Text) : Decidable (Plain s) := List.decidableBAll _ s

lemma unquote_of_valid {s : Text} (h : ∀ c ∈ s, ¬c.IsSurrogate) : unquote s = s := by
  rw [unquote]
  conv_rhs => rw [← List.map_id s]
  apply List.map_congr_left
  intro c hc
  exact if_neg (h c hc)

lemma valid_unquote {s : Text} : ∀ c ∈ unquote s, ¬c.IsSurrogate := by
  intro c hc
  obtain ⟨c', -, rfl⟩ := List.mem_map.1 hc
  split
  · decide
  · assumption

lemma unquote_eq_iff {s t : Text} (ht : Plain t) : unquote s = t ↔ s = t := by
  constructor
  · rintro rfl
    refine (unquote_of_valid fun c hc hsurrogate => ?_).symm
    have hreplaced : replacementChar ∈ unquote s :=
      List.mem_map.2 ⟨c, hc, if_pos hsurrogate⟩
    exact (ht _ hreplaced).2 rfl
  · rintro rfl
    exact unquote_of_valid fun c hc => (ht c hc).1

/-- The last entry whose key becomes the one that is looked up. -/
def lastUnquoted (fields : List (Text × Doc Decimal)) (key : Text) : Option (Doc Decimal) :=
  lastOf (fields.map fun e => (unquote e.1, e.2)) key

lemma lastOf_decoded (fields : List (Text × Doc Decimal)) (key : Text) :
    lastOf (ofEntries (fields.map fun e => (unquote e.1, decoded e.2))) key =
      (lastUnquoted fields key).map decoded := by
  rw [Lib.lastOf_ofEntries, lastUnquoted, ← Lib.lastOf_map, List.map_map]
  rfl

lemma lastUnquoted_of_plain {key : Text} (hkey : Plain key) (fields : List (Text × Doc Decimal)) :
    lastUnquoted fields key = lastOf fields key := by
  induction fields with
  | nil => rfl
  | cons e fields ih =>
    rw [lastUnquoted, List.map_cons, Lib.lastOf_cons, ← lastUnquoted, ih, Lib.lastOf_cons]
    simp only [unquote_eq_iff hkey]

lemma lastOf_marshal {fields : List (Text × Any)} (hkeys : (fields.map Prod.fst).Nodup)
    (key : Text) :
    lastOf (Lib.sorted (fun e e' => decide (e.1 < e'.1)) (fields.map fun e => (e.1, marshal e.2)))
      key = (lastOf fields key).map marshal := by
  have hkeys' : ((fields.map fun e => (e.1, marshal e.2)).map Prod.fst).Nodup := by
    rwa [List.map_map]
  rw [Lib.lastOf_perm hkeys' (Lib.sorted_perm ..), Lib.lastOf_map]

/-! ### Spans -/

lemma get?_decoded {key : String} (hkey : Plain (text key)) (d : Doc Decimal) :
    (decoded d).get? key = (d.get? key).map decoded := by
  cases d with
  | obj fields =>
    rw [decoded_obj, Doc.get?_obj, Doc.get?_obj, ← lastUnquoted_of_plain hkey]
    exact lastOf_decoded fields (text key)
  | null | bool | num | str | arr => rfl

lemma elements_decoded (d : Doc Decimal) : (decoded d).elements = d.elements.map decoded := by
  cases d with
  | arr vs => exact decodedAll_eq vs
  | null | bool | num | str | obj => rfl

lemma isObject_decoded (d : Doc Decimal) : (decoded d).isObject = d.isObject := by
  cases d <;> rfl

lemma list_decoded (key : String) (hkey : Plain (text key)) (d : Doc Decimal) :
    (decoded d).list key = (d.list key).map decoded := by
  rw [Doc.list_eq, Doc.list_eq, get?_decoded hkey]
  cases d.get? key with
  | none => rfl
  | some v => exact elements_decoded v

lemma spans_eq {N : Type} (d : Doc N) : spans d =
    (d.list "resourceSpans").flatMap fun rs =>
      (rs.list "scopeSpans").flatMap fun sc => (sc.list "spans").filter Doc.isObject := by
  simp [spans, resourceSpans, List.map_flatMap, Function.comp_def]

/-- The receiver sees the spans of the body. -/
lemma spans_decoded (d : Doc Decimal) : spans (decoded d) = (spans d).map decoded := by
  have hobjects (vs : List (Doc Decimal)) :
      (vs.map decoded).filter Doc.isObject = (vs.filter Doc.isObject).map decoded := by
    rw [List.filter_map]
    congr 2
    funext v
    exact isObject_decoded v
  simp only [spans_eq, list_decoded "resourceSpans" (by decide),
    list_decoded "scopeSpans" (by decide), list_decoded "spans" (by decide),
    List.flatMap_map, List.map_flatMap, hobjects]

lemma isObject_of_mem_spans {N : Type} {d span : Doc N} (h : span ∈ spans d) :
    span.isObject = true := by
  rw [spans_eq] at h
  obtain ⟨rs, -, h⟩ := List.mem_flatMap.1 h
  obtain ⟨sc, -, h⟩ := List.mem_flatMap.1 h
  exact (List.mem_filter.1 h).2

lemma list_marshal {fields : List (Text × Any)} (hkeys : (fields.map Prod.fst).Nodup)
    {key : String} {vs : List Any} (h : lastOf fields (text key) = some (.arr vs)) :
    (marshal (.obj fields)).list key = vs.map marshal := by
  rw [marshal_obj, Doc.list_obj, lastOf_marshal hkeys, h, Option.map_some, marshal_arr]
  rfl

lemma isObject_marshal (v : Any) : (marshal v).isObject = v.isObject := by
  cases v <;> rfl

/-- The spans of a record are those of its group. -/
lemma spans_marshal (resource : Any) {ss : List Any} (hobjects : ∀ v ∈ ss, v.isObject = true) :
    spans (marshal (sliceEnvelope resource ss)) = ss.map marshal := by
  have hkeys : (([(text "resource", orEmpty resource),
      (text "scopeSpans", .arr [.obj [(text "spans", .arr ss)]])] :
        List (Text × Any)).map Prod.fst).Nodup := by
    simp only [List.map_cons, List.map_nil]
    decide
  rw [spans_eq, sliceEnvelope, list_marshal (by simp) (by rfl), List.map_singleton,
    List.flatMap_singleton, list_marshal hkeys (by rfl), List.map_singleton,
    List.flatMap_singleton, list_marshal (by simp) (by rfl), List.filter_eq_self]
  intro v hv
  obtain ⟨v', hv', rfl⟩ := List.mem_map.1 hv
  rw [isObject_marshal]
  exact hobjects v' hv'

/-! ### What becomes of a value -/

lemma arrived_arr (vs : List (Doc Decimal)) : (marshal (decoded (.arr vs))).value =
    .arr (vs.map fun v => (marshal (decoded v)).value) := by
  rw [decoded_arr, marshal_arr, Doc.value_arr, List.map_map, List.map_map]
  rfl

lemma arrived_obj (fields : List (Text × Doc Decimal)) : (marshal (decoded (.obj fields))).value =
    .obj fun key => (lastUnquoted fields key).map fun v => (marshal (decoded v)).value := by
  rw [decoded_obj, marshal_obj, Doc.value_obj]
  congr 1
  funext key
  rw [lastOf_marshal (Lib.ofEntries_keys_nodup _), lastOf_decoded, Option.map_map,
    Option.map_map]
  rfl

lemma mem_of_lastUnquoted {fields : List (Text × Doc Decimal)} {key : Text} {v : Doc Decimal}
    (h : lastUnquoted fields key = some v) : ∃ e ∈ fields, unquote e.1 = key ∧ e.2 = v := by
  obtain ⟨e, he, heq⟩ := List.mem_map.1 (Lib.mem_of_lastOf h)
  exact ⟨e, he, Prod.mk.inj heq⟩

/-- What has been through `float64` once is left by it. -/
lemma kept_arrived (d : Doc Decimal) : Kept (marshal (decoded d)).value := by
  induction d using Doc.induct with
  | null => exact .null
  | bool b => exact .bool b
  | num n => exact .num _ (Lib.shortestDecimal_nearestDouble n.nonneg)
  | str s => exact .str _ valid_unquote
  | arr vs ih =>
    rw [arrived_arr]
    refine .arr _ fun v hv => ?_
    obtain ⟨v', hv', rfl⟩ := List.mem_map.1 hv
    exact ih v' hv'
  | obj fields ih =>
    rw [arrived_obj]
    constructor
    · intro key v h
      obtain ⟨v', h, -⟩ := Option.map_eq_some_iff.1 h
      obtain ⟨e, -, rfl, -⟩ := mem_of_lastUnquoted h
      exact valid_unquote
    · intro key v h
      obtain ⟨v', hlast, rfl⟩ := Option.map_eq_some_iff.1 h
      obtain ⟨e, he, -, rfl⟩ := mem_of_lastUnquoted hlast
      exact ih e he

lemma arrived_of_kept {d : Doc Decimal} (h : Kept d.value) :
    (marshal (decoded d)).value = d.value := by
  induction d using Doc.induct with
  | null => rfl
  | bool b => rfl
  | num n =>
    cases h with
    | num _ hn =>
      have hsame : formatNumber (convertNumber n) = n := by
        cases n
        simp only [formatNumber, convertNumber, Decimal.mk.injEq, true_and]
        exact hn
      exact congrArg (fun n => (Doc.num n).value) hsame
  | str s =>
    cases h with
    | str _ hs => exact congrArg (fun s => (Doc.str s).value) (unquote_of_valid hs)
  | arr vs ih =>
    rw [Doc.value_arr] at h
    cases h with
    | arr _ hvs =>
      rw [arrived_arr, Doc.value_arr]
      congr 1
      exact List.map_congr_left fun v hv => ih v hv (hvs _ (List.mem_map_of_mem hv))
  | obj fields ih =>
    rw [Doc.value_obj] at h
    cases h with
    | obj _ hkeys hvalues =>
      have hvalid : ∀ e ∈ fields, unquote e.1 = e.1 := by
        intro e he
        obtain ⟨v, hv⟩ := Lib.exists_lastOf he
        exact unquote_of_valid (hkeys e.1 v.value (congrArg (Option.map Doc.value) hv))
      have hfields : (fields.map fun e => (unquote e.1, e.2)) = fields := by
        conv_rhs => rw [← List.map_id fields]
        exact List.map_congr_left fun e he => Prod.ext (hvalid e he) rfl
      rw [arrived_obj, Doc.value_obj]
      congr 1
      funext key
      rw [lastUnquoted, hfields]
      cases hlast : lastOf fields key with
      | none => rfl
      | some v =>
        have hkept := hvalues key v.value (congrArg (Option.map Doc.value) hlast)
        rw [Option.map_some, Option.map_some, ih _ (Lib.mem_of_lastOf hlast) hkept]

/-- Integers below `2 ^ 53` are left as they are. -/
lemma kept_natCast {n : Decimal} {k : Nat} (hmag : n.mag = k) (hk : k < 2 ^ 53) :
    Kept (.num n) := by
  apply Kept.num
  rw [hmag, Lib.nearestDouble_natCast hk.le, Lib.shortestDecimal_natCast hk]

/-! ### Groups -/

/-- A group has what it had and the spans that are added. -/
lemma spans_addSpan (es : List (Any × Any)) (o : Option ShardGroup) {g : ShardGroup}
    (h : es.foldl (fun o e => some (addSpan o e)) o = some g) :
    g.spans = o.elim [] ShardGroup.spans ++ es.map Prod.snd := by
  induction es generalizing o with
  | nil =>
    rw [List.foldl_nil] at h
    simp [h]
  | cons e es ih =>
    rw [ih (some (addSpan o e)) h]
    cases o with
    | none => rfl
    | some g => simp [addSpan]

/-- A group has the spans of its key, in their order. -/
lemma spans_of_mem_shard {sprint : Float64 → Text} {payload : Any} {key : Text} {g : ShardGroup}
    (h : (key, g) ∈ shard sprint payload) :
    g.spans = (spans payload).filter fun span => callKey sprint span = key := by
  rw [spans_addSpan _ none (Lib.foldl_of_mem_gather h), spans, List.filter_map]
  rfl

lemma spans_ne_nil {sprint : Float64 → Text} {payload : Any} {key : Text} {g : ShardGroup}
    (h : (key, g) ∈ shard sprint payload) : g.spans ≠ [] := by
  have hfold := Lib.foldl_of_mem_gather h
  rw [spans_addSpan _ none hfold]
  intro hnil
  rw [Option.elim_none, List.nil_append, List.map_eq_nil_iff] at hnil
  rw [hnil] at hfold
  cases hfold

section

variable {sprint : Float64 → Text} {b : Batch} {payload : Any} {body : Doc Decimal}

/-- No group is empty. -/
lemma buildRecords_eq (sprint : Float64 → Text) (b : Batch) (payload : Any) :
    buildRecords sprint b payload =
      (shard sprint payload).zipIdx.map fun e => outRecord b e.1.1 e.1.2 e.2 := by
  rw [buildRecords, ← List.filterMap_eq_map]
  apply List.filterMap_congr
  rintro ⟨⟨key, g⟩, seq⟩ he
  have hnonempty := spans_ne_nil (List.fst_mem_of_mem_zipIdx he)
  simp [hnonempty]

lemma length_buildRecords : (buildRecords sprint b payload).length =
    (shard sprint payload).length := by
  rw [buildRecords_eq, List.length_map, List.length_zipIdx]

/-- The spans of a record are those of its key, once each and in the order of the body. -/
lemma spans_record {r : Nat} (hr : r < (buildRecords sprint b (decoded body)).length)
    (hr' : r < (shard sprint (decoded body)).length) :
    spans (buildRecords sprint b (decoded body))[r].value =
      ((spans body).filter fun span =>
        callKey sprint (decoded span) = (shard sprint (decoded body))[r].1).map
          fun span => marshal (decoded span) := by
  have hfilter : (shard sprint (decoded body))[r].2.spans = ((spans body).filter fun span =>
      callKey sprint (decoded span) = (shard sprint (decoded body))[r].1).map decoded := by
    have hmem : ((shard sprint (decoded body))[r].1, (shard sprint (decoded body))[r].2) ∈
        shard sprint (decoded body) := List.getElem_mem hr'
    rw [spans_of_mem_shard hmem, spans_decoded, List.filter_map]
    rfl
  have hobjects : ∀ v ∈ (shard sprint (decoded body))[r].2.spans, v.isObject = true := by
    intro v hv
    rw [hfilter] at hv
    obtain ⟨span, hspan, rfl⟩ := List.mem_map.1 hv
    rw [isObject_decoded]
    exact isObject_of_mem_spans (List.mem_of_mem_filter hspan)
  simp only [buildRecords_eq, List.getElem_map, List.getElem_zipIdx, outRecord]
  rw [spans_marshal _ hobjects, hfilter, List.map_map]
  rfl

lemma decodePayload_obj_iff {fields : List (Text × Doc Decimal)} :
    decodePayload (some (.obj fields)) = some payload ↔ Accepted (.obj fields) ∧
      decoded (.obj fields) = payload := by
  rw [decodePayload, Option.elim_some, unmarshal]
  split
  · next h =>
    refine iff_of_false nofun fun haccepted => ?_
    rcases h with hdeep | ⟨n, hn, hover⟩
    · exact absurd haccepted.1.1 (not_le.2 hdeep)
    · exact haccepted.1.2 n hn hover
  · next h =>
    push Not at h
    rw [Option.some.injEq]
    exact (and_iff_right ⟨h.1, h.2⟩).symm

/-- The key of each span of the body is the key of a record. -/
lemma callKey_mem_shard {span : Doc Decimal} (h : span ∈ spans body) :
    callKey sprint (decoded span) ∈ (shard sprint (decoded body)).map Prod.fst := by
  have hdecoded : decoded span ∈ spans (decoded body) := by
    rw [spans_decoded]
    exact List.mem_map_of_mem h
  obtain ⟨e, he, heq⟩ := List.mem_map.1 hdecoded
  rw [← heq]
  exact Lib.key_mem_gather he

lemma verbatim_of_kept (h : ∀ span ∈ spans body, Kept span.value) :
    Verbatim (buildRecords sprint b (decoded body)) body := by
  have hkeys : ((shard sprint (decoded body)).map Prod.fst).Nodup := Lib.gather_keys_nodup
  have hmem : ∀ span ∈ spans body, callKey sprint (decoded span) ∈
      (shard sprint (decoded body)).map Prod.fst := fun span hspan => callKey_mem_shard hspan
  obtain ⟨place, hplace, hfilter⟩ := Lib.exists_place hkeys hmem
  have hlength : ((shard sprint (decoded body)).map Prod.fst).length =
      (buildRecords sprint b (decoded body)).length := by
    rw [List.length_map, length_buildRecords]
  refine ⟨place, fun i hi => hlength ▸ hplace i hi, fun r hr => ?_⟩
  have hr' : r < (shard sprint (decoded body)).length := length_buildRecords ▸ hr
  rw [spans_record hr hr', hfilter r (hlength ▸ hr), List.map_map]
  simp only [List.getElem_map]
  refine .trans (List.map_congr_left fun span hspan => ?_) (Lib.map_filter_zipIdx
    (fun span => decide (callKey sprint (decoded span) = (shard sprint (decoded body))[r].1))
    Doc.value (spans body)).symm
  exact arrived_of_kept (h span (List.mem_of_mem_filter hspan))

lemma kept_of_verbatim (h : Verbatim (buildRecords sprint b (decoded body)) body) :
    ∀ span ∈ spans body, Kept span.value := by
  intro span hspan
  obtain ⟨place, hplace, hvalues⟩ := h
  obtain ⟨i, hi, rfl⟩ := List.getElem_of_mem hspan
  have hr := hplace i hi
  have hmem : (spans body)[i].value ∈
      (spans (buildRecords sprint b (decoded body))[place i].value).map Doc.value := by
    rw [hvalues _ hr]
    refine List.mem_map.2 ⟨((spans body)[i], i), List.mem_filter.2 ⟨?_, decide_eq_true rfl⟩, rfl⟩
    exact List.mk_mem_zipIdx_iff_getElem?.2 (List.getElem?_eq_getElem hi)
  rw [spans_record hr (length_buildRecords ▸ hr), List.map_map] at hmem
  obtain ⟨span', -, heq⟩ := List.mem_map.1 hmem
  rw [← heq]
  exact kept_arrived span'

end

/-- All spans of a body arrive as they are if the body is accepted and `float64` leaves them. -/
theorem arrivesVerbatim_iff (sprint : Float64 → Text) (b : Batch)
    (fields : List (Text × Doc Decimal)) : ArrivesVerbatim sprint b (.obj fields) ↔
      Accepted (.obj fields) ∧ ∀ span ∈ spans (.obj fields), Kept span.value := by
  simp only [ArrivesVerbatim, decodePayload_obj_iff]
  constructor
  · rintro ⟨_, ⟨haccepted, rfl⟩, hverbatim⟩
    exact ⟨haccepted, kept_of_verbatim hverbatim⟩
  · rintro ⟨haccepted, hkept⟩
    exact ⟨_, ⟨haccepted, rfl⟩, verbatim_of_kept hkept⟩

/-- A span that starts at a nanosecond which is no `float64`. -/
def nanosecondSpan : Doc Decimal :=
  .obj [(text "traceId", .str (text "t1")),
    (text "startTimeUnixNano", .num ⟨false, 1712345678901234567, by norm_num⟩)]

/-- The start of a span is rounded on its way. -/
theorem startTime_rounded : ¬∀ (sprint : Float64 → Text) (b : Batch)
    (fields : List (Text × Doc Decimal)), ArrivesVerbatim sprint b (.obj fields) := by
  intro h
  have hspan : nanosecondSpan ∈ spans (.obj [(text "resourceSpans",
      .arr [.obj [(text "scopeSpans", .arr [.obj [(text "spans", .arr [nanosecondSpan])]])]])]) := by
    rw [spans_eq]
    exact List.mem_singleton_self _
  obtain ⟨_, haccepted, hverbatim⟩ := h (fun _ => []) ⟨[], [], [], []⟩ _
  obtain ⟨-, rfl⟩ := decodePayload_obj_iff.1 haccepted
  have hkept := kept_of_verbatim hverbatim nanosecondSpan hspan
  rw [nanosecondSpan, Doc.value_obj] at hkept
  cases hkept with
  | obj _ _ hvalues =>
    cases hvalues (text "startTimeUnixNano") _ rfl with
    | num _ hshortest => exact absurd hshortest (by decide +kernel)

end Pulse.Ingest.Receiver
