import Pulse.Lib.Intervals

/-!
# The points of intervals

What the operations on lists of intervals cover, point by point, and the intervals of a list that is
apart as the maximal ones within what it covers.
-/

namespace Pulse.Lib

universe u v

section Subtract

variable {α : Type u} [LT α] [DecidableLT α] [LE α] [DecidableLE α]

/-- An interval without what `c` has of it. -/
def cutSegment (c b : Interval α) : List (Interval α) :=
  if c.2 ≤ b.1 ∨ b.2 ≤ c.1 then [b]
  else (if b.1 < c.1 then [(b.1, c.1)] else []) ++ if c.2 < b.2 then [(c.2, b.2)] else []

/-- The intervals of `base` without `cut`. -/
def subtract (base cut : List (Interval α)) : List (Interval α) :=
  base.flatMap fun b => cut.foldl (fun segments c => segments.flatMap (cutSegment c)) [b]

end Subtract

section Order

variable {α : Type u} [LinearOrder α] {x : α}

@[simp] lemma not_covers_nil : ¬Covers ([] : List (Interval α)) x := by
  simp [Covers]

lemma covers_append {ivs jvs : List (Interval α)} :
    Covers (ivs ++ jvs) x ↔ Covers ivs x ∨ Covers jvs x := by
  simp [Covers, or_and_right, exists_or]

lemma covers_flatMap {β : Type v} {f : β → List (Interval α)} {bs : List β} :
    Covers (bs.flatMap f) x ↔ ∃ b ∈ bs, Covers (f b) x := by
  constructor
  · rintro ⟨i, hi, hx⟩
    obtain ⟨b, hb, hib⟩ := List.mem_flatMap.1 hi
    exact ⟨b, hb, i, hib, hx⟩
  · rintro ⟨b, hb, i, hib, hx⟩
    exact ⟨i, List.mem_flatMap.2 ⟨b, hb, hib⟩, hx⟩

/-! ### Overlaps -/

lemma covers_overlap {a b : Interval α} :
    Covers (overlap a b) x ↔ (a.1 ≤ x ∧ x < a.2) ∧ b.1 ≤ x ∧ x < b.2 := by
  have hin : max a.1 b.1 ≤ x ∧ x < min a.2 b.2 ↔ (a.1 ≤ x ∧ x < a.2) ∧ b.1 ≤ x ∧ x < b.2 := by
    rw [max_le_iff, lt_min_iff]
    tauto
  rw [overlap, maxOf_eq_max, minOf_eq_min]
  split
  · rw [covers_cons, or_iff_left not_covers_nil, hin]
  · next hempty =>
    exact iff_of_false not_covers_nil fun h => hempty ((hin.2 h).1.trans_lt (hin.2 h).2)

/-- Two lists that are apart overlap where both cover. -/
theorem covers_intersect {as bs : List (Interval α)} (has : Apart as) (hbs : Apart bs) :
    Covers (intersect as bs) x ↔ Covers as x ∧ Covers bs x := by
  induction as generalizing bs with
  | nil => simp [intersect]
  | cons a as ih =>
    rw [Apart, List.pairwise_cons] at has
    change Covers (intersectFrom (intersect as) a bs) x ↔ _
    induction bs with
    | nil => simp [intersectFrom]
    | cons b bs ihb =>
      have hb := hbs
      rw [Apart, List.pairwise_cons] at hbs
      rw [intersectFrom, covers_append, covers_overlap, covers_cons (i := a)]
      split
      · next hend =>
        -- nothing after `b` begins within `a`
        have hlater : (a.1 ≤ x ∧ x < a.2) → ¬Covers bs x := by
          rintro hx ⟨j, hj, hjx⟩
          exact lt_irrefl x ((hx.2.trans (hend.trans (hbs.1 j hj))).trans_le hjx.1)
        rw [ih has.2 hb, covers_cons]
        constructor
        · rintro (⟨ha, hx⟩ | ⟨ha, hx⟩)
          · exact ⟨.inl ha, .inl hx⟩
          · exact ⟨.inr ha, hx⟩
        · rintro ⟨ha | ha, hx⟩
          · exact .inl ⟨ha, hx.resolve_right (hlater ha)⟩
          · exact .inr ⟨ha, hx⟩
      · next hend =>
        have hlater : (b.1 ≤ x ∧ x < b.2) → ¬Covers as x := by
          rintro hx ⟨j, hj, hjx⟩
          exact lt_irrefl x (((hx.2.trans_le (not_lt.1 hend)).trans (has.1 j hj)).trans_le hjx.1)
        rw [ihb hbs.2, covers_cons, covers_cons]
        constructor
        · rintro (⟨ha, hx⟩ | ⟨ha, hx⟩)
          · exact ⟨.inl ha, .inl hx⟩
          · exact ⟨ha, .inr hx⟩
        · rintro ⟨ha, hx | hx⟩
          · exact .inl ⟨ha.resolve_right (hlater hx), hx⟩
          · exact .inr ⟨ha, hx⟩

lemma overlap_within {a b : Interval α} :
    ∀ i ∈ overlap a b, (a.1 ≤ i.1 ∧ b.1 ≤ i.1) ∧ i.2 ≤ a.2 ∧ i.2 ≤ b.2 := by
  rw [overlap, maxOf_eq_max, minOf_eq_min]
  split <;> simp

/-- An overlap does not begin before the intervals that it is of. -/
lemma intersect_within {as bs : List (Interval α)} : ∀ i ∈ intersect as bs,
    (∃ a ∈ as, a.1 ≤ i.1) ∧ ∃ b ∈ bs, b.1 ≤ i.1 := by
  induction as generalizing bs with
  | nil => simp [intersect]
  | cons a as ih =>
    change ∀ i ∈ intersectFrom (intersect as) a bs, _
    induction bs with
    | nil => simp [intersectFrom]
    | cons b bs ihb =>
      intro i hi
      rcases List.mem_append.1 hi with hi | hi
      · obtain ⟨hstart, -⟩ := overlap_within i hi
        exact ⟨⟨a, List.mem_cons_self, hstart.1⟩, b, List.mem_cons_self, hstart.2⟩
      · split at hi
        · obtain ⟨⟨a', ha', hle⟩, hb⟩ := ih i hi
          exact ⟨⟨a', List.mem_cons_of_mem a ha', hle⟩, hb⟩
        · obtain ⟨ha, b', hb', hle⟩ := ihb i hi
          exact ⟨ha, b', List.mem_cons_of_mem b hb', hle⟩

/-- The overlaps of lists that are apart are apart. -/
lemma intersect_apart {as bs : List (Interval α)} (has : Apart as) (hbs : Apart bs) :
    Apart (intersect as bs) := by
  have hone {a b : Interval α} : Apart (overlap a b) := by
    rw [overlap, maxOf_eq_max, minOf_eq_min]
    split <;> simp [Apart]
  induction as generalizing bs with
  | nil => exact List.Pairwise.nil
  | cons a as ih =>
    change Apart (intersectFrom (intersect as) a bs)
    rw [Apart, List.pairwise_cons] at has
    induction bs with
    | nil => exact List.Pairwise.nil
    | cons b bs ihb =>
      have hb := List.pairwise_cons.1 hbs
      rw [intersectFrom, Apart, List.pairwise_append]
      split
      · refine ⟨hone, ih has.2 hbs, fun i hi j hj => ?_⟩
        obtain ⟨⟨a', ha', hle⟩, -⟩ := intersect_within j hj
        exact ((overlap_within i hi).2.1.trans_lt (has.1 a' ha')).trans_le hle
      · refine ⟨hone, ihb hb.2, fun i hi j hj => ?_⟩
        have hj : j ∈ intersect (a :: as) bs := hj
        obtain ⟨-, b', hb', hle⟩ := intersect_within j hj
        exact ((overlap_within i hi).2.2.trans_lt (hb.1 b' hb')).trans_le hle

/-! ### Differences -/

lemma covers_cutSegment {b c : Interval α} :
    Covers (cutSegment c b) x ↔ (b.1 ≤ x ∧ x < b.2) ∧ ¬(c.1 ≤ x ∧ x < c.2) := by
  have hpiece {lo hi : α} : Covers (if lo < hi then [(lo, hi)] else []) x ↔ lo ≤ x ∧ x < hi := by
    split
    · simp
    · next hempty => exact iff_of_false not_covers_nil fun h => hempty (h.1.trans_lt h.2)
  unfold cutSegment
  split
  · next hout =>
    rw [covers_cons, or_iff_left not_covers_nil, iff_self_and]
    intro hb hc
    rcases hout with hout | hout
    · exact absurd (hc.2.trans_le (hout.trans hb.1)) (lt_irrefl x)
    · exact absurd (hb.2.trans_le (hout.trans hc.1)) (lt_irrefl x)
  · next hin =>
    rw [not_or, not_le, not_le] at hin
    rw [covers_append, hpiece, hpiece, not_and_or, not_le, not_lt]
    constructor
    · rintro (⟨hlo, hhi⟩ | ⟨hlo, hhi⟩)
      · exact ⟨⟨hlo, hhi.trans hin.2⟩, .inl hhi⟩
      · exact ⟨⟨(hin.1.trans_le hlo).le, hhi⟩, .inr hlo⟩
    · rintro ⟨⟨hlo, hhi⟩, hc | hc⟩
      · exact .inl ⟨hlo, hc⟩
      · exact .inr ⟨hc, hhi⟩

/-- A difference covers what `base` covers and `cut` does not. -/
theorem covers_subtract {base cut : List (Interval α)} :
    Covers (subtract base cut) x ↔ Covers base x ∧ ¬Covers cut x := by
  have hfold (segments : List (Interval α)) :
      Covers (cut.foldl (fun segments c => segments.flatMap (cutSegment c)) segments) x ↔
        Covers segments x ∧ ¬Covers cut x := by
    induction cut generalizing segments with
    | nil => simp
    | cons c cut ih =>
      have hcut : Covers (segments.flatMap (cutSegment c)) x ↔
          Covers segments x ∧ ¬(c.1 ≤ x ∧ x < c.2) := by
        rw [covers_flatMap]
        simp only [covers_cutSegment]
        exact ⟨fun ⟨b, hb, hx, hc⟩ => ⟨⟨b, hb, hx⟩, hc⟩, fun ⟨⟨b, hb, hx⟩, hc⟩ => ⟨b, hb, hx, hc⟩⟩
      rw [List.foldl_cons, ih, hcut, covers_cons, not_or, and_assoc]
  rw [subtract, covers_flatMap]
  constructor
  · rintro ⟨b, hb, hx⟩
    rw [hfold, covers_cons, or_iff_left not_covers_nil] at hx
    exact ⟨⟨b, hb, hx.1⟩, hx.2⟩
  · rintro ⟨⟨b, hb, hx⟩, hcut⟩
    refine ⟨b, hb, ?_⟩
    rw [hfold, covers_cons, or_iff_left not_covers_nil]
    exact ⟨hx, hcut⟩

/-- The pieces of an interval are within it and apart. -/
lemma cutSegment_within {b c : Interval α} (hb : b.1 < b.2) (hc : c.1 < c.2) :
    (∀ p ∈ cutSegment c b, b.1 ≤ p.1 ∧ p.1 < p.2 ∧ p.2 ≤ b.2) ∧ Apart (cutSegment c b) := by
  unfold cutSegment
  split
  · simp [Apart, hb]
  · next hin =>
    rw [not_or, not_le, not_le] at hin
    split <;> split <;> simp_all [Apart, le_of_lt]

/-- What is left of intervals that are apart is apart, and none of it is empty. -/
lemma subtract_apart {base cut : List (Interval α)} (hbase : Apart base)
    (hproper : ∀ b ∈ base, b.1 < b.2) (hcut : ∀ c ∈ cut, c.1 < c.2) :
    Apart (subtract base cut) ∧ ∀ p ∈ subtract base cut, p.1 < p.2 := by
  have hpieces (b : Interval α) (hb : b.1 < b.2) (segments : List (Interval α))
      (hwithin : ∀ p ∈ segments, b.1 ≤ p.1 ∧ p.1 < p.2 ∧ p.2 ≤ b.2) (hapart : Apart segments) :
      (∀ p ∈ cut.foldl (fun segments c => segments.flatMap (cutSegment c)) segments,
        b.1 ≤ p.1 ∧ p.1 < p.2 ∧ p.2 ≤ b.2) ∧
          Apart (cut.foldl (fun segments c => segments.flatMap (cutSegment c)) segments) := by
    induction cut generalizing segments with
    | nil => exact ⟨hwithin, hapart⟩
    | cons c cut ih =>
      rw [List.forall_mem_cons] at hcut
      refine ih hcut.2 _ (fun p hp => ?_) ?_
      · obtain ⟨q, hq, hpq⟩ := List.mem_flatMap.1 hp
        obtain ⟨hlo, hlt, hhi⟩ := hwithin q hq
        have hp := (cutSegment_within hlt hcut.1).1 p hpq
        exact ⟨hlo.trans hp.1, hp.2.1, hp.2.2.trans hhi⟩
      · rw [Apart, List.pairwise_flatMap]
        refine ⟨fun q hq => (cutSegment_within (hwithin q hq).2.1 hcut.1).2, ?_⟩
        refine hapart.imp_of_mem fun {q q'} hq hq' hlt p hp p' hp' => ?_
        have hp := (cutSegment_within (hwithin q hq).2.1 hcut.1).1 p hp
        have hp' := (cutSegment_within (hwithin q' hq').2.1 hcut.1).1 p' hp'
        exact (hp.2.2.trans_lt hlt).trans_le hp'.1
  have hone (b : Interval α) (hb : b ∈ base) := hpieces b (hproper b hb) [b]
    (by simp [hproper b hb]) (by simp [Apart])
  constructor
  · rw [Apart, subtract, List.pairwise_flatMap]
    refine ⟨fun b hb => (hone b hb).2, ?_⟩
    refine hbase.imp_of_mem fun {b b'} hb hb' hlt p hp p' hp' => ?_
    exact (((hone b hb).1 p hp).2.2.trans_lt hlt).trans_le ((hone b' hb').1 p' hp').1
  · intro p hp
    obtain ⟨b, hb, hpb⟩ := List.mem_flatMap.1 hp
    exact ((hone b hb).1 p hpb).2.1

/-! ### Gaps -/

/-- Merged intervals end no later than all of the intervals do. -/
lemma merge_ends {ivs : List (Interval α)} (h : ∀ i ∈ ivs, i.1 < i.2) {stop : α}
    (hstop : ∀ i ∈ ivs, i.2 ≤ stop) : ∀ i ∈ merge ivs, i.2 ≤ stop := by
  intro i hi
  have hlt : i.1 < i.2 := merge_all (fun i e hlt hle => hlt.trans_le hle) h i hi
  by_contra hover
  -- the point at `stop`, or at the start if that is later, is covered by no interval
  have hcovered : Covers (merge ivs) (max i.1 stop) :=
    ⟨i, hi, le_max_left _ _, max_lt hlt (not_le.1 hover)⟩
  obtain ⟨j, hj, -, hhi⟩ := (covers_merge ivs _).1 hcovered
  exact absurd (hhi.trans_le (hstop j hj)) (not_lt.2 (le_max_right _ _))

lemma cursor_le_of_mem_gapsFrom {stop cursor : α} {ivs : List (Interval α)} {g : Interval α}
    (hg : g ∈ gapsFrom stop cursor ivs) : cursor ≤ g.1 := by
  induction ivs generalizing cursor with
  | nil =>
    rw [gapsFrom] at hg
    split at hg
    · rw [List.mem_singleton.1 hg]
    · cases hg
  | cons i ivs ih =>
    have hle : cursor ≤ maxOf cursor i.2 := by
      rw [maxOf_eq_max]
      exact le_max_left _ _
    rw [gapsFrom] at hg
    split at hg
    · rcases List.mem_cons.1 hg with rfl | hg
      · exact le_rfl
      · exact hle.trans (ih hg)
    · exact hle.trans (ih hg)

lemma gapsFrom_apart {stop cursor : α} {ivs : List (Interval α)} (h : ∀ i ∈ ivs, i.1 < i.2) :
    Apart (gapsFrom stop cursor ivs) := by
  induction ivs generalizing cursor with
  | nil =>
    rw [gapsFrom]
    split <;> simp [Apart]
  | cons i ivs ih =>
    rw [List.forall_mem_cons] at h
    rw [gapsFrom]
    split
    · refine List.pairwise_cons.2 ⟨fun g hg => ?_, ih h.2⟩
      have hle := cursor_le_of_mem_gapsFrom hg
      rw [maxOf_eq_max] at hle
      exact h.1.trans_le ((le_max_right _ _).trans hle)
    · exact ih h.2

/-- The gaps cover what the intervals do not, between the cursor and the end. -/
theorem covers_gapsFrom {stop cursor : α} {ivs : List (Interval α)} (hapart : Apart ivs)
    (hproper : ∀ i ∈ ivs, i.1 < i.2) (hstop : ∀ i ∈ ivs, i.2 ≤ stop) :
    Covers (gapsFrom stop cursor ivs) x ↔ (cursor ≤ x ∧ x < stop) ∧ ¬Covers ivs x := by
  have hgap {lo hi : α} {gs : List (Interval α)} :
      Covers (if lo < hi then (lo, hi) :: gs else gs) x ↔ (lo ≤ x ∧ x < hi) ∨ Covers gs x := by
    split
    · rw [covers_cons]
    · next hempty => exact (or_iff_right fun h => hempty (h.1.trans_lt h.2)).symm
  induction ivs generalizing cursor with
  | nil => rw [gapsFrom, hgap, or_iff_left not_covers_nil, and_iff_left not_covers_nil]
  | cons i ivs ih =>
    rw [Apart, List.pairwise_cons] at hapart
    rw [List.forall_mem_cons] at hproper hstop
    have hrest : Covers (gapsFrom stop (maxOf cursor i.2) ivs) x ↔ _ :=
      ih hapart.2 hproper.2 hstop.2
    rw [gapsFrom, hgap, hrest, maxOf_eq_max, max_le_iff, covers_cons]
    constructor
    · rintro (⟨hlo, hhi⟩ | ⟨⟨⟨hlo, hi⟩, hstop'⟩, hrest⟩)
      · have hbefore : x < i.2 := hhi.trans hproper.1
        refine ⟨⟨hlo, hbefore.trans_le hstop.1⟩, ?_⟩
        rintro (hx | ⟨j, hj, hx⟩)
        · exact absurd hhi (not_lt.2 hx.1)
        · exact absurd (hbefore.trans (hapart.1 j hj)) (not_lt.2 hx.1)
      · refine ⟨⟨hlo, hstop'⟩, ?_⟩
        rintro (hx | hx)
        · exact absurd hx.2 (not_lt.2 hi)
        · exact hrest hx
    · rintro ⟨⟨hlo, hstop'⟩, hnone⟩
      rw [not_or, not_and, not_lt] at hnone
      rcases lt_or_ge x i.1 with hbefore | hafter
      · exact .inl ⟨hlo, hbefore⟩
      · exact .inr ⟨⟨⟨hlo, hnone.1 hafter⟩, hstop'⟩, hnone.2⟩

/-! ### Maximal intervals -/

/-- All points of the interval are in `s`, and those of no interval that it is a part of. -/
structure MaximalIn (s : α → Prop) (g : Interval α) : Prop where
  lt : g.1 < g.2
  within : ∀ x, g.1 ≤ x → x < g.2 → s x
  maximal : ∀ h : Interval α, h.1 ≤ g.1 → g.2 ≤ h.2 → (∀ x, h.1 ≤ x → x < h.2 → s x) → h = g

section

variable {gs : List (Interval α)} (h : Apart gs) (hproper : ∀ g ∈ gs, g.1 < g.2)

include h in
lemma Apart.trichotomy {g j : Interval α} (hg : g ∈ gs) (hj : j ∈ gs) :
    g = j ∨ g.2 < j.1 ∨ j.2 < g.1 := by
  exact List.Pairwise.forall_of_forall_of_flip
    (R := fun g j => g = j ∨ g.2 < j.1 ∨ j.2 < g.1) (fun _ _ => .inl rfl)
    (h.imp fun hlt => .inr (.inl hlt)) (h.imp fun hlt => .inr (.inr hlt)) hg hj

include h hproper

/-- The end of an interval of a list that is apart is not covered. -/
lemma Apart.not_covers_end {g : Interval α} (hg : g ∈ gs) : ¬Covers gs g.2 := by
  rintro ⟨j, hj, hlo, hhi⟩
  rcases h.trichotomy hg hj with rfl | hlt | hlt
  · exact lt_irrefl _ hhi
  · exact absurd hlo (not_le.2 hlt)
  · exact lt_asymm (hhi.trans hlt) (hproper g hg)

/-- An interval that is covered goes no further than the one that covers its start. -/
lemma Apart.exists_around {lo hi : α} (hlt : lo < hi)
    (hcovered : ∀ x, lo ≤ x → x < hi → Covers gs x) : ∃ j ∈ gs, j.1 ≤ lo ∧ hi ≤ j.2 := by
  obtain ⟨j, hj, hlo, hhi⟩ := hcovered lo le_rfl hlt
  refine ⟨j, hj, hlo, not_lt.1 fun hout => ?_⟩
  exact h.not_covers_end hproper hj (hcovered j.2 hhi.le hout)

/-- Intervals that are apart are the maximal ones in what they cover. -/
theorem Apart.mem_iff {g : Interval α} : g ∈ gs ↔ MaximalIn (Covers gs) g := by
  constructor
  · intro hg
    refine ⟨hproper g hg, fun x hlo hhi => ⟨g, hg, hlo, hhi⟩, fun k hlo hhi hcovered => ?_⟩
    have hlt : k.1 < k.2 := hlo.trans_lt ((hproper g hg).trans_le hhi)
    obtain ⟨j, hj, hjlo, hjhi⟩ := h.exists_around hproper hlt hcovered
    obtain rfl : g = j := by
      rcases h.trichotomy hg hj with heq | hlt | hlt
      · exact heq
      · exact absurd (hjlo.trans hlo) (not_le.2 ((hproper g hg).trans hlt))
      · exact absurd (hhi.trans hjhi) (not_le.2 (hlt.trans (hproper g hg)))
    exact Prod.ext (le_antisymm hlo hjlo) (le_antisymm hjhi hhi)
  · intro hg
    obtain ⟨j, hj, hlo, hhi⟩ := h.exists_around hproper hg.lt hg.within
    rw [← hg.maximal j hlo hhi fun x hjlo hjhi => ⟨j, hj, hjlo, hjhi⟩]
    exact hj

end

end Order

/-! ### Intervals in another order -/

section Embedding

variable {α : Type u} {β : Type v} [LT α] [DecidableLT α] [LE α] [DecidableLE α]
  [LT β] [DecidableLT β] [LE β] [DecidableLE β]

lemma Embeds.subtract {f : α → β} (h : Embeds f) (base cut : List (Interval α)) :
    subtract (base.map (Prod.map f f)) (cut.map (Prod.map f f)) =
      (subtract base cut).map (Prod.map f f) := by
  have hcut (c b : Interval α) : cutSegment (Prod.map f f c) (Prod.map f f b) =
      (cutSegment c b).map (Prod.map f f) := by
    simp only [cutSegment, Prod.map_fst, Prod.map_snd, h.le, h.lt]
    split
    · rfl
    · rw [List.map_append]
      congr 1 <;> split <;> rfl
  have hfold (segments : List (Interval α)) :
      (cut.map (Prod.map f f)).foldl (fun segments c => segments.flatMap (cutSegment c))
        (segments.map (Prod.map f f)) =
          (cut.foldl (fun segments c => segments.flatMap (cutSegment c)) segments).map
            (Prod.map f f) := by
    induction cut generalizing segments with
    | nil => rfl
    | cons c cut ih =>
      rw [List.map_cons, List.foldl_cons, List.foldl_cons, ← ih, List.map_flatMap, List.flatMap_map]
      simp only [hcut]
  rw [Lib.subtract, Lib.subtract, List.flatMap_map, List.map_flatMap]
  exact List.flatMap_congr fun b _ => hfold [b]

end Embedding

end Pulse.Lib
