import Pulse.Core.Analysable

/-!
# The turn spans of spans in another order

`_turn_spans` compares the spans of an exchange and sorts what it keeps, so that its result is the
same in whatever order the spans are listed, if their order keys are different.
-/

namespace Pulse.Core

open Lib (Decides PyFloat StrictOrder lexLt)

section

variable [Text]

/-- Every span has an order key, and no two have the same one. -/
structure DistinctKeys (spans : List (Span PyFloat)) : Prop where
  reads : ∀ s ∈ spans, OrderKeyReads s
  nodup : (spans.map orderKey).Nodup

lemma keyLt_eq_lexLt :
    keyLt (F := PyFloat) = lexLt (fun m n : Nat => decide (m < n)) PyFloat.lt := rfl

lemma strictOrder_keyLt : StrictOrder (keyLt (F := PyFloat)) := by
  rw [keyLt_eq_lexLt]
  refine StrictOrder.lex ⟨fun m n h => ?_, fun m n k hmn hnk => ?_⟩ PyFloat.strictOrder_lt
  · simpa using (of_decide_eq_true h).le
  · exact decide_eq_true ((of_decide_eq_true hmn).trans (of_decide_eq_true hnk))

lemma strictOrder_indexedLt : StrictOrder (indexedLt (F := PyFloat)) := by
  have hlex : indexedLt (F := PyFloat) = lexLt (fun i j : Int => decide (i < j)) keyLt := rfl
  rw [hlex]
  refine StrictOrder.lex ⟨fun m n h => ?_, fun m n k hmn hnk => ?_⟩ strictOrder_keyLt
  · simpa using (of_decide_eq_true h).le
  · exact decide_eq_true ((of_decide_eq_true hmn).trans (of_decide_eq_true hnk))

lemma orderKey_timed {s : Span PyFloat} {k : Nat × PyFloat} {t : PyFloat} (ht : s.tStart = some t)
    (hk : orderKey s = .ok k) : k = (0, t) := by
  rw [orderKey, ht] at hk
  exact (Except.ok.inj hk).symm

/-- A sequence is a number. -/
lemma orderKey_untimed {s : Span PyFloat} {k : Nat × PyFloat} (ht : s.tStart = none)
    (hk : orderKey s = .ok k) : k.1 = 1 ∧ k.2 ≠ .nan := by
  rw [orderKey, ht] at hk
  cases hn : s.sequence with
  | none =>
    rw [hn] at hk
    cases hk
    exact ⟨rfl, PyFloat.noConfusion⟩
  | some n =>
    rw [hn] at hk
    obtain ⟨x, hx, rfl⟩ := Lib.map_eq_ok.1 hk
    have hx : toFloat n = .ok x := hx
    unfold toFloat at hx
    split at hx
    · cases hx
      exact ⟨rfl, PyFloat.noConfusion⟩
    · cases hx

/-- The comparison tells order keys apart if it does the starts. -/
lemma decides_keyLt {s s' : Span PyFloat} {k k' : Nat × PyFloat} (hk : orderKey s = .ok k)
    (hk' : orderKey s' = .ok k')
    (hstarts : ∀ t ∈ s.tStart, ∀ t' ∈ s'.tStart, Decides PyFloat.lt t t') : Decides keyLt k k' := by
  rw [keyLt_eq_lexLt]
  cases ht : s.tStart with
  | some t =>
    obtain rfl := orderKey_timed ht hk
    cases ht' : s'.tStart with
    | some t' =>
      obtain rfl := orderKey_timed ht' hk'
      exact Decides.lex (.inl rfl) (hstarts t ht t' ht')
    | none =>
      obtain ⟨hone, -⟩ := orderKey_untimed ht' hk'
      exact .inr (.inl (Lib.lexLt_iff.2 (.inl (by simp [hone]))))
  | none =>
    obtain ⟨hone, hnumber⟩ := orderKey_untimed ht hk
    cases ht' : s'.tStart with
    | some t' =>
      obtain rfl := orderKey_timed ht' hk'
      exact .inr (.inr (Lib.lexLt_iff.2 (.inl (by simp [hone]))))
    | none =>
      obtain ⟨hone', hnumber'⟩ := orderKey_untimed ht' hk'
      refine Decides.lex (.inl (hone.trans hone'.symm)) (PyFloat.decides_lt ?_)
      exact iff_of_false hnumber hnumber'

/-! ### The span that is kept -/

/-- What decides between two spans of an exchange: does it parent the caller's side, and its order
key. -/
def standing (caller : List (Option String)) (s : Span PyFloat) : Bool × Nat × PyFloat :=
  (caller.contains (some s.spanId), (orderKey s).toOption.getD (0, .nan))

/-- The order of standings: the caller's side comes first. -/
def standingLt : Bool × Nat × PyFloat → Bool × Nat × PyFloat → Bool :=
  lexLt (fun p q => p && !q) keyLt

lemma strictOrder_standingLt : StrictOrder standingLt :=
  StrictOrder.lex ⟨by decide, by decide⟩ strictOrder_keyLt

lemma takesPlace_eq {caller : List (Option String)} {s cur : Span PyFloat} (hs : OrderKeyReads s)
    (hcur : OrderKeyReads cur) :
    takesPlace caller s cur = .ok (standingLt (standing caller s) (standing caller cur)) := by
  obtain ⟨k, hk⟩ := succeeds_orderKey.2 hs
  obtain ⟨k', hk'⟩ := succeeds_orderKey.2 hcur
  simp only [takesPlace, standingLt, standing, lexLt, hk, hk', Lib.ok_bind, Except.toOption,
    Option.getD_some]
  by_cases hp : some s.spanId ∈ caller <;> by_cases hq : some cur.spanId ∈ caller <;> simp [hp, hq] <;> rfl

/-- The dict after some spans: of each exchange it has the one that stands first. -/
structure Champions (caller : List (Option String)) (seen : List (Span PyFloat))
    (best : List (String × Span PyFloat)) : Prop where
  keys : (best.map Prod.fst).Nodup
  mem : ∀ e ∈ best, e.2 ∈ seen ∧ e.2.exchange = e.1
  first : ∀ e ∈ best, ∀ s ∈ seen, s.exchange = e.1 →
    s = e.2 ∨ standingLt (standing caller e.2) (standing caller s) = true
  covers : ∀ s ∈ seen, s.exchange ∈ best.map Prod.fst

/-- One of two spans stands before the other. -/
def Ranked (caller : List (Option String)) (s s' : Span PyFloat) : Prop :=
  s = s' ∨ standingLt (standing caller s) (standing caller s') = true ∨
    standingLt (standing caller s') (standing caller s) = true

variable {caller : List (Option String)} {seen spans spans' : List (Span PyFloat)}
  {best best' : List (String × Span PyFloat)} {s cur : Span PyFloat}

/-- The first span of its exchange. -/
lemma Champions.enter (h : Champions caller seen best) (hfind : best.lookup s.exchange = none) :
    Champions caller (seen ++ [s]) (best ++ [(s.exchange, s)]) := by
  have hnew : s.exchange ∉ best.map Prod.fst := by
    intro hmem
    obtain ⟨e, he, hkey⟩ := List.mem_map.1 hmem
    simpa [hkey] using List.lookup_eq_none_iff.1 hfind e he
  constructor
  · exact Lib.nodup_keys_append h.keys hfind s
  · intro e he
    rcases List.mem_append.1 he with he | he
    · exact ⟨List.mem_append_left _ (h.mem e he).1, (h.mem e he).2⟩
    · rw [List.mem_singleton.1 he]
      exact ⟨by simp, rfl⟩
  · intro e he s' hs' hexchange
    rcases List.mem_append.1 he with hold | hnew'
    · rcases List.mem_append.1 hs' with hs' | hs'
      · exact h.first e hold s' hs' hexchange
      · rw [List.mem_singleton.1 hs'] at hexchange
        exact absurd (hexchange ▸ List.mem_map_of_mem hold) hnew
    · rw [List.mem_singleton.1 hnew'] at hexchange ⊢
      rcases List.mem_append.1 hs' with hs' | hs'
      · have hmem := h.covers s' hs'
        rw [hexchange] at hmem
        exact absurd hmem hnew
      · exact .inl (List.mem_singleton.1 hs')
  · intro s' hs'
    rw [List.map_append]
    rcases List.mem_append.1 hs' with hs' | hs'
    · exact List.mem_append_left _ (h.covers s' hs')
    · rw [List.mem_singleton.1 hs']
      simp

lemma Champions.eq_of_key (h : Champions caller seen best)
    (hfind : best.lookup s.exchange = some cur) {e : String × Span PyFloat} (he : e ∈ best)
    (hkey : e.1 = s.exchange) : e = (s.exchange, cur) :=
  Prod.ext hkey (Option.some.inj ((Lib.lookup_of_mem h.keys (hkey ▸ he)).symm.trans hfind))

lemma Champions.covers_append (h : Champions caller seen best)
    (hfind : best.lookup s.exchange = some cur) :
    ∀ s' ∈ seen ++ [s], s'.exchange ∈ best.map Prod.fst := by
  intro s' hs'
  rcases List.mem_append.1 hs' with hs' | hs'
  · exact h.covers s' hs'
  · rw [List.mem_singleton.1 hs']
    exact List.mem_map_of_mem (Lib.mem_of_lookup hfind)

/-- What the span that is replaced stands before, the new one stands before. -/
lemma Champions.replace (h : Champions caller seen best)
    (hfind : best.lookup s.exchange = some cur)
    (hwins : standingLt (standing caller s) (standing caller cur) = true) :
    Champions caller (seen ++ [s])
      (best.map fun e => if e.1 = s.exchange then (e.1, s) else e) := by
  have hkeys : (best.map fun e => if e.1 = s.exchange then (e.1, s) else e).map Prod.fst =
      best.map Prod.fst := Lib.keys_map fun e => by by_cases he : e.1 = s.exchange <;> simp [he]
  constructor
  · rw [hkeys]
    exact h.keys
  · intro e he
    obtain ⟨e', he', rfl⟩ := List.mem_map.1 he
    by_cases hkey : e'.1 = s.exchange
    · simp [hkey]
    · rw [if_neg hkey]
      exact ⟨List.mem_append_left _ (h.mem e' he').1, (h.mem e' he').2⟩
  · intro e he s' hs' hexchange
    obtain ⟨e', he', rfl⟩ := List.mem_map.1 he
    by_cases hkey : e'.1 = s.exchange
    · rw [if_pos hkey] at hexchange ⊢
      rcases List.mem_append.1 hs' with hs' | hs'
      · obtain rfl := h.eq_of_key hfind he' hkey
        rcases h.first _ he' s' hs' hexchange with rfl | hfirst
        · exact .inr hwins
        · exact .inr (strictOrder_standingLt.trans _ _ _ hwins hfirst)
      · exact .inl (List.mem_singleton.1 hs')
    · rw [if_neg hkey] at hexchange ⊢
      rcases List.mem_append.1 hs' with hs' | hs'
      · exact h.first e' he' s' hs' hexchange
      · rw [List.mem_singleton.1 hs'] at hexchange
        exact absurd hexchange.symm hkey
  · rw [hkeys]
    exact h.covers_append hfind

lemma Champions.stay (h : Champions caller seen best) (hfind : best.lookup s.exchange = some cur)
    (hloses : s = cur ∨ standingLt (standing caller cur) (standing caller s) = true) :
    Champions caller (seen ++ [s]) best := by
  constructor
  · exact h.keys
  · exact fun e he => ⟨List.mem_append_left _ (h.mem e he).1, (h.mem e he).2⟩
  · intro e he s' hs' hexchange
    rcases List.mem_append.1 hs' with hs' | hs'
    · exact h.first e he s' hs' hexchange
    · rw [List.mem_singleton.1 hs'] at hexchange ⊢
      obtain rfl := h.eq_of_key hfind he hexchange.symm
      exact hloses
  · exact h.covers_append hfind

lemma Champions.keepBest (h : Champions caller seen best) (hs : OrderKeyReads s)
    (hseen : ∀ s' ∈ seen, OrderKeyReads s' ∧ Ranked caller s s')
    (hok : keepBest caller best s = .ok best') : Champions caller (seen ++ [s]) best' := by
  unfold Core.keepBest at hok
  cases hfind : best.lookup s.exchange with
  | none =>
    rw [hfind] at hok
    cases hok
    exact h.enter hfind
  | some cur =>
    obtain ⟨hreads, hranked⟩ := hseen cur (h.mem _ (Lib.mem_of_lookup hfind)).1
    rw [hfind] at hok
    dsimp only at hok
    rw [takesPlace_eq hs hreads, Lib.ok_bind] at hok
    by_cases hwins : standingLt (standing caller s) (standing caller cur) = true
    · rw [if_pos hwins] at hok
      cases hok
      exact h.replace hfind hwins
    · rw [if_neg hwins] at hok
      cases hok
      exact h.stay hfind (hranked.imp_right fun hranked => hranked.resolve_left hwins)

lemma Champions.keepAll (hspans : ∀ s ∈ spans, OrderKeyReads s ∧ ∀ s' ∈ spans, Ranked caller s s')
    {ss : List (Span PyFloat)} (hss : ∀ s ∈ ss, s ∈ spans) (hseen : ∀ s ∈ seen, s ∈ spans)
    (h : Champions caller seen best) (hok : ss.foldlM (Core.keepBest caller) best = .ok best') :
    Champions caller (seen ++ ss) best' := by
  induction ss generalizing seen best with
  | nil =>
    cases hok
    rw [List.append_nil]
    exact h
  | cons s ss ih =>
    rw [List.forall_mem_cons] at hss
    rw [List.foldlM_cons] at hok
    obtain ⟨next, hnext, hok⟩ := Lib.bind_eq_ok.1 hok
    have hstep : Champions caller (seen ++ [s]) next := by
      obtain ⟨hreads, hranked⟩ := hspans s hss.1
      refine h.keepBest hreads (fun s' hs' => ⟨(hspans s' (hseen s' hs')).1, ?_⟩) hnext
      exact hranked s' (hseen s' hs')
    have hseen' : ∀ s' ∈ seen ++ [s], s' ∈ spans := by
      intro s' hs'
      rcases List.mem_append.1 hs' with hs' | hs'
      · exact hseen s' hs'
      · rw [List.mem_singleton.1 hs']
        exact hss.1
    simpa using ih hss.2 hseen' hstep hok

/-- The champions are the same in whatever order the spans came. -/
lemma Champions.perm {seen' : List (Span PyFloat)} (h : Champions caller seen best)
    (h' : Champions caller seen' best') (hmem : ∀ s, s ∈ seen ↔ s ∈ seen') : best.Perm best' := by
  have hsub {seen seen' : List (Span PyFloat)} {best best' : List (String × Span PyFloat)}
      (h : Champions caller seen best) (h' : Champions caller seen' best')
      (hmem : ∀ s, s ∈ seen ↔ s ∈ seen') : ∀ e ∈ best, e ∈ best' := by
    intro e he
    obtain ⟨hin, hexchange⟩ := h.mem e he
    obtain ⟨e', he', hkey⟩ := List.mem_map.1 (h'.covers e.2 ((hmem e.2).1 hin))
    obtain ⟨hin', hexchange'⟩ := h'.mem e' he'
    have heq : e'.2 = e.2 := by
      rcases h.first e he e'.2 ((hmem e'.2).2 hin') (hexchange'.trans (hkey.trans hexchange)) with heq | hlt
      · exact heq
      · rcases h'.first e' he' e.2 ((hmem e.2).1 hin) hkey.symm with heq | hlt'
        · exact heq.symm
        · simp [strictOrder_standingLt.asymm _ _ hlt] at hlt'
    have : e' = e := Prod.ext (hkey.trans hexchange) heq
    exact this ▸ he'
  exact (List.perm_ext_iff_of_nodup (List.Nodup.of_map _ h.keys) (List.Nodup.of_map _ h'.keys)).2
    fun e => ⟨hsub h h' hmem e, hsub h' h (fun s => (hmem s).symm) e⟩

/-! ### The turn spans -/

lemma DistinctKeys.decides (h : DistinctKeys spans)
    (hstarts : PyFloat.Comparable (spans.filterMap Span.tStart)) (hs : s ∈ spans) {s' : Span PyFloat}
    (hs' : s' ∈ spans) {k k' : Nat × PyFloat} (hk : orderKey s = .ok k) (hk' : orderKey s' = .ok k') :
    s = s' ∨ keyLt k k' = true ∨ keyLt k' k = true := by
  have hdecides : Decides keyLt k k' := by
    refine decides_keyLt hk hk' fun t ht t' ht' => ?_
    exact hstarts.decides (List.mem_filterMap.2 ⟨s, hs, ht⟩) (List.mem_filterMap.2 ⟨s', hs', ht'⟩)
  refine hdecides.imp_left fun heq => ?_
  exact List.inj_on_of_nodup_map h.nodup hs hs' (hk.trans (heq ▸ hk'.symm))

lemma DistinctKeys.ranked (h : DistinctKeys spans)
    (hstarts : PyFloat.Comparable (spans.filterMap Span.tStart)) (caller : List (Option String)) :
    ∀ s ∈ spans, OrderKeyReads s ∧ ∀ s' ∈ spans, Ranked caller s s' := by
  intro s hs
  refine ⟨h.reads s hs, fun s' hs' => ?_⟩
  obtain ⟨k, hk⟩ := succeeds_orderKey.2 (h.reads s hs)
  obtain ⟨k', hk'⟩ := succeeds_orderKey.2 (h.reads s' hs')
  rcases h.decides hstarts hs hs' hk hk' with heq | hlt
  · exact .inl heq
  · refine .inr ?_
    simp only [standing, hk, hk', Except.toOption, Option.getD_some, standingLt, Lib.lexLt_iff]
    by_cases hp : some s.spanId ∈ caller <;> by_cases hq : some s'.spanId ∈ caller <;>
      simp [hp, hq, hlt]

omit [Text] in
lemma mem_callerSide (hperm : spans.Perm spans') (id : Option String) :
    id ∈ callerSide spans ↔ id ∈ callerSide spans' :=
  ((hperm.filter _).map _).mem_iff

lemma keepBest_congr {caller' : List (Option String)} (h : ∀ id, id ∈ caller ↔ id ∈ caller') :
    keepBest (F := PyFloat) caller = keepBest caller' := by
  funext best s
  simp only [keepBest, takesPlace, h]

/-- The turn spans are the same in whatever order the spans are listed. -/
theorem turnSpans_eq_of_perm (h : DistinctKeys spans)
    (hstarts : PyFloat.Comparable (spans.filterMap Span.tStart)) (hperm : spans.Perm spans')
    {tss : List (Span PyFloat)} (htss : turnSpans spans = .ok tss) : turnSpans spans' = .ok tss := by
  obtain ⟨best, hbest, htss⟩ := Lib.bind_eq_ok.1 htss
  obtain ⟨keyed, hkeyed, htss⟩ := Lib.bind_eq_ok.1 htss
  cases htss
  have hcaller : keepBest (callerSide spans') = keepBest (callerSide spans) :=
    (keepBest_congr (mem_callerSide hperm)).symm
  have hreads' : ∀ s ∈ spans', OrderKeyReads s := fun s hs => h.reads s (hperm.mem_iff.2 hs)
  have hkept := succeeds_keptTurns hreads'
  rw [keptTurns, Lib.succeeds_map] at hkept
  obtain ⟨best', hbest'⟩ := hkept
  have hempty : Champions (callerSide spans) [] [] := by constructor <;> simp
  have hfirst : Champions (callerSide spans) (spans.filter (·.stage = .turn)) best :=
    hempty.keepAll (h.ranked hstarts _) (fun s hs => List.mem_of_mem_filter hs) (by simp) hbest
  have hsecond : Champions (callerSide spans) (spans'.filter (·.stage = .turn)) best' := by
    rw [hcaller] at hbest'
    refine hempty.keepAll (h.ranked hstarts _) (fun s hs => ?_) (by simp) hbest'
    exact hperm.mem_iff.2 (List.mem_of_mem_filter hs)
  obtain ⟨keyed', hkeyed', hkeyedPerm⟩ :=
    Lib.mapM_perm (hfirst.perm hsecond fun s => (hperm.filter _).mem_iff) hkeyed
  have hsorted : Lib.sorted (fun a b => indexedLt a.1 b.1) keyed =
      Lib.sorted (fun a b => indexedLt a.1 b.1) keyed' := by
    refine Lib.sorted_eq_of_perm (strictOrder_indexedLt.comap Prod.fst) hkeyedPerm
      (List.pairwise_of_forall_mem_list fun a ha b hb => ?_)
    obtain ⟨e, he, ha⟩ := Lib.mem_of_mapM_ok hkeyed a ha
    obtain ⟨e', he', hb⟩ := Lib.mem_of_mapM_ok hkeyed b hb
    obtain ⟨i, hi, ha⟩ := Lib.bind_eq_ok.1 ha
    obtain ⟨k, hk, ha⟩ := Lib.bind_eq_ok.1 ha
    obtain ⟨i', hi', hb⟩ := Lib.bind_eq_ok.1 hb
    obtain ⟨k', hk', hb⟩ := Lib.bind_eq_ok.1 hb
    cases ha
    cases hb
    have hin : e.2 ∈ spans := List.mem_of_mem_filter (hfirst.mem e he).1
    have hin' : e'.2 ∈ spans := List.mem_of_mem_filter (hfirst.mem e' he').1
    rcases h.decides hstarts hin hin' hk hk' with heq | hlt
    · rw [heq] at hi hk ⊢
      obtain rfl : i = i' := Except.ok.inj (hi.symm.trans hi')
      obtain rfl : k = k' := Except.ok.inj (hk.symm.trans hk')
      exact .inl rfl
    · have hindexed : Decides (lexLt (fun i j : Int => decide (i < j)) keyLt) (i, k) (i', k') := by
        refine Decides.lex ?_ (.inr hlt)
        rcases lt_trichotomy i i' with h | h | h
        · exact .inr (.inl (decide_eq_true h))
        · exact .inl h
        · exact .inr (.inr (decide_eq_true h))
      refine .inr (hindexed.resolve_left fun heq => ?_)
      rw [(Prod.mk.injEq ..).mp heq |>.2, strictOrder_keyLt.irrefl] at hlt
      simp at hlt
  rw [turnSpans, hbest', Lib.ok_bind, hkeyed', Lib.ok_bind, hsorted]
  rfl

end

end Pulse.Core
