import Mathlib.Logic.Function.Basic
import Pulse.Lib.Lru
import Pulse.Lib.Run

/-!
# The token cache of the receiver

`tokenCache` of `tokencache.go`: the elements of a linked list, and a map from keys to elements. It
represents a list of entries, the one used last first, and its operations are those on such a list.
-/

namespace Pulse.Ingest

open Lib (Run)

structure Identity where
  org : String
  agentID : String
  deriving DecidableEq

/-- Times are in nanoseconds. -/
structure CacheEntry where
  key : String
  id : Identity
  expires : Int
  deriving DecidableEq

/-- The elements are addresses in a heap; those in the list are in `ll`, the front first. -/
structure TokenCache where
  cap : Int
  ttl : Int
  ll : List Nat := []
  m : String → Option Nat := fun _ => none
  heap : Nat → Option CacheEntry := fun _ => none
  /-- The next address to be allocated. -/
  next : Nat := 0

def newTokenCache (cap ttl : Int) : TokenCache := { cap, ttl }

namespace TokenCache

variable (c : TokenCache)

def moveToFront (el : Nat) : TokenCache :=
  { c with ll := if el ∈ c.ll then el :: c.ll.erase el else c.ll }

def pushFront (ent : CacheEntry) : TokenCache :=
  { c with
    ll := c.next :: c.ll
    heap := Function.update c.heap c.next (some ent)
    next := c.next + 1 }

/-- No result: the program panics on an element without a value. -/
def removeElement : Option Nat → Option TokenCache
  | none => some c
  | some el => do
    let ent ← c.heap el
    some { c with ll := c.ll.erase el, m := Function.update c.m ent.key none }

def get (now : Int) (key : String) : Option (TokenCache × Option Identity) :=
  match c.m key with
  | none => some (c, none)
  | some el => do
    let ent ← c.heap el
    if ent.expires < now then
      let c ← c.removeElement el
      some (c, none)
    else some (c.moveToFront el, some ent.id)

def put (now : Int) (key : String) (id : Identity) : Option TokenCache :=
  match c.m key with
  | some el => do
    let ent ← c.heap el
    let ent := { ent with id, expires := now + c.ttl }
    some ({ c with heap := Function.update c.heap el (some ent) }.moveToFront el)
  | none =>
    let el := c.next
    let c := c.pushFront { key, id, expires := now + c.ttl }
    let c := { c with m := Function.update c.m key (some el) }
    if c.cap < c.ll.length then c.removeElement c.ll.getLast? else some c

end TokenCache

/-- An operation at a time, with what a get returns. -/
inductive CacheEvent
  | get (now : Int) (key : String) (found : Option Identity)
  | put (now : Int) (key : String) (id : Identity)
  deriving DecidableEq

/-- One operation under the lock. -/
def CacheSteps (c : TokenCache) (e : CacheEvent) (c' : TokenCache) : Prop :=
  match e with
  | .get now key found => c.get now key = some (c', found)
  | .put now key id => c.put now key id = some c'

/-! ### The history -/

/-- The key that is put or successfully got. -/
def CacheEvent.used : CacheEvent → Option String
  | .get _ key found => if found.isSome then some key else none
  | .put _ key _ => some key

/-- The keys that were used, the last one first. -/
def cacheUses (es : List CacheEvent) : List String := (es.filterMap CacheEvent.used).reverse

/-- What was put last for a key, and when. -/
def lastPut (es : List CacheEvent) (key : String) : Option (Int × Identity) :=
  es.reverse.findSome? fun
    | .put now key' id => if key' = key then some (now, id) else none
    | .get .. => none

/-! ### The entries that a cache represents -/

/-- The map and the list hold the same entries, each key once. -/
structure Represents (c : TokenCache) (l : List CacheEntry) : Prop where
  nodup : c.ll.Nodup
  entries : c.ll.map c.heap = l.map some
  map : ∀ key el, c.m key = some el ↔
    el ∈ c.ll ∧ ∃ ent, c.heap el = some ent ∧ ent.key = key
  allocated : ∀ el ∈ c.ll, el < c.next

namespace Represents

variable {c : TokenCache} {l : List CacheEntry} {el : Nat} {ent : CacheEntry} {key : String}

lemma exists_entry (h : Represents c l) (hel : el ∈ c.ll) : ∃ ent ∈ l, c.heap el = some ent := by
  have hmem : c.heap el ∈ l.map some := h.entries ▸ List.mem_map_of_mem hel
  obtain ⟨ent, hent, heq⟩ := List.mem_map.1 hmem
  exact ⟨ent, hent, heq.symm⟩

lemma exists_element (h : Represents c l) (hent : ent ∈ l) :
    ∃ el ∈ c.ll, c.heap el = some ent := by
  have hmem : some ent ∈ c.ll.map c.heap := h.entries ▸ List.mem_map_of_mem hent
  exact List.mem_map.1 hmem

lemma length_eq (h : Represents c l) : c.ll.length = l.length := by
  rw [← List.length_map c.heap, h.entries, List.length_map]

lemma map_none (h : Represents c l) (hkey : c.m key = none) : ∀ ent ∈ l, ent.key ≠ key := by
  rintro ent hent rfl
  obtain ⟨el, hel, hheap⟩ := h.exists_element hent
  rw [(h.map ent.key el).2 ⟨hel, ent, hheap, rfl⟩] at hkey
  cases hkey

lemma eq_of_key (h : Represents c l) {el' : Nat} {ent' : CacheEntry} (hel : el ∈ c.ll)
    (hheap : c.heap el = some ent) (hel' : el' ∈ c.ll) (hheap' : c.heap el' = some ent')
    (hkey : ent'.key = ent.key) : el' = el := by
  have hm := (h.map ent.key el).2 ⟨hel, ent, hheap, rfl⟩
  have hm' := (h.map ent.key el').2 ⟨hel', ent', hheap', hkey⟩
  exact Option.some.inj (hm'.symm.trans hm)

/-- The other elements hold the entries with other keys. -/
lemma erase_entries (h : Represents c l) (hel : el ∈ c.ll) (hheap : c.heap el = some ent) :
    (c.ll.erase el).map c.heap = (Lib.Lru.remove CacheEntry.key l ent.key).map some := by
  let p : Option CacheEntry → Bool := fun o => o.any fun e => e.key ≠ ent.key
  have hp : ∀ el' ∈ c.ll, (el' != el) = p (c.heap el') := by
    intro el' hel'
    obtain ⟨ent', -, hheap'⟩ := h.exists_entry hel'
    rw [Bool.eq_iff_iff, bne_iff_ne, hheap']
    simp only [p, Option.any_some, decide_eq_true_eq]
    constructor
    · exact fun hne hkey => hne (h.eq_of_key hel hheap hel' hheap' hkey)
    · rintro hkey rfl
      exact hkey (congrArg CacheEntry.key (Option.some.inj (hheap'.symm.trans hheap)))
  calc (c.ll.erase el).map c.heap
    _ = (c.ll.filter (p ∘ c.heap)).map c.heap := by
      rw [h.nodup.erase_eq_filter, List.filter_congr hp]
      rfl
    _ = (l.map some).filter p := by rw [← List.filter_map, h.entries]
    _ = (Lib.Lru.remove CacheEntry.key l ent.key).map some := by
      rw [List.filter_map]
      rfl

/-- An element and its key are taken out together. -/
lemma removeElement (h : Represents c l) (hel : el ∈ c.ll) (hheap : c.heap el = some ent) :
    ∃ c', c.removeElement (some el) = some c' ∧ c'.cap = c.cap ∧ c'.ttl = c.ttl ∧
      Represents c' (Lib.Lru.remove CacheEntry.key l ent.key) := by
  refine ⟨{ c with ll := c.ll.erase el, m := Function.update c.m ent.key none }, ?_, rfl, rfl,
    h.nodup.erase el, h.erase_entries hel hheap, fun key el' => ?_,
    fun el' hel' => h.allocated el' (List.mem_of_mem_erase hel')⟩
  · rw [TokenCache.removeElement, hheap]
    rfl
  · dsimp only
    rw [Function.update_apply, h.nodup.mem_erase_iff]
    split
    · next hkey =>
      subst hkey
      refine iff_of_false (by simp) ?_
      rintro ⟨⟨hne, hel'⟩, ent', hheap', hkey'⟩
      exact hne (h.eq_of_key hel hheap hel' hheap' hkey')
    · next hkey =>
      rw [h.map]
      refine ⟨?_, fun ⟨⟨_, hel'⟩, hent'⟩ => ⟨hel', hent'⟩⟩
      rintro ⟨hel', ent', hheap', hkey'⟩
      refine ⟨⟨?_, hel'⟩, ent', hheap', hkey'⟩
      rintro rfl
      rw [hheap] at hheap'
      cases hheap'
      exact hkey hkey'.symm

/-- The back of the list is taken out. -/
lemma removeBack (h : Represents c (l ++ [ent])) (hkeys : ((l ++ [ent]).map CacheEntry.key).Nodup) :
    ∃ c', c.removeElement c.ll.getLast? = some c' ∧ c'.cap = c.cap ∧ c'.ttl = c.ttl ∧
      Represents c' l := by
  have hentries := h.entries
  rw [List.map_append] at hentries
  obtain ⟨els, last, hll, -, hlast⟩ := List.map_eq_append_iff.1 hentries
  obtain ⟨el, rfl, hheap⟩ := List.map_eq_singleton_iff.1 hlast
  have hel : el ∈ c.ll := by simp [hll]
  rw [← Lib.Lru.remove_last hkeys, hll, List.getLast?_concat]
  exact h.removeElement hel hheap

/-- An element goes to the front with another entry for its key. -/
lemma moveToFront (h : Represents c l) (hel : el ∈ c.ll) (hheap : c.heap el = some ent)
    {ent' : CacheEntry} (hkey : ent'.key = ent.key) :
    Represents ({ c with heap := Function.update c.heap el (some ent') }.moveToFront el)
      (Lib.Lru.touch CacheEntry.key l ent') := by
  have hll : ({ c with heap := Function.update c.heap el (some ent') }.moveToFront el).ll =
      el :: c.ll.erase el := if_pos hel
  have hmem (el' : Nat) : el' ∈ el :: c.ll.erase el ↔ el' ∈ c.ll :=
    (List.perm_cons_erase hel).symm.mem_iff
  refine ⟨?_, ?_, fun key el' => ?_, fun el' hel' => ?_⟩
  · rw [hll]
    exact (List.perm_cons_erase hel).nodup_iff.1 h.nodup
  · rw [hll, List.map_cons, Lib.Lru.touch, List.map_cons, hkey, ← h.erase_entries hel hheap]
    dsimp only [TokenCache.moveToFront]
    rw [Function.update_self]
    refine congrArg _ (List.map_congr_left fun el' hel' => ?_)
    exact Function.update_of_ne (h.nodup.mem_erase_iff.1 hel').1 ..
  · rw [hll, hmem]
    dsimp only [TokenCache.moveToFront]
    rw [h.map, Function.update_apply]
    refine and_congr_right fun hel' => ?_
    split
    · next heq =>
      subst heq
      simp [hheap, hkey]
    · rfl
  · rw [hll, hmem] at hel'
    exact h.allocated el' hel'

/-- A new element comes to the front. -/
lemma pushFront (h : Represents c l) (hkey : c.m ent.key = none) :
    Represents { c.pushFront ent with m := Function.update c.m ent.key (some c.next) }
      (ent :: l) := by
  have hfresh : ∀ el ∈ c.ll, el ≠ c.next := fun el hel => (h.allocated el hel).ne
  have hold : ∀ el ∈ c.ll, Function.update c.heap c.next (some ent) el = c.heap el :=
    fun el hel => Function.update_of_ne (hfresh el hel) ..
  refine ⟨?_, ?_, fun key el => ?_, ?_⟩
  · exact List.nodup_cons.2 ⟨fun hmem => hfresh _ hmem rfl, h.nodup⟩
  · dsimp only [TokenCache.pushFront]
    rw [List.map_cons, List.map_cons, Function.update_self, List.map_congr_left hold, h.entries]
  · dsimp only [TokenCache.pushFront]
    rw [Function.update_apply, List.mem_cons]
    split
    · next heq =>
      subst heq
      constructor
      · rintro hel
        obtain rfl := Option.some.inj hel
        exact ⟨.inl rfl, ent, Function.update_self .., rfl⟩
      · rintro ⟨rfl | hel, ent', hheap', hkey'⟩
        · rfl
        · rw [hold el hel] at hheap'
          rw [(h.map ent.key el).2 ⟨hel, ent', hheap', hkey'⟩] at hkey
          cases hkey
    · next hne =>
      rw [h.map]
      constructor
      · rintro ⟨hel, ent', hheap', hkey'⟩
        exact ⟨.inr hel, ent', (hold el hel).trans hheap', hkey'⟩
      · rintro ⟨rfl | hel, ent', hheap', hkey'⟩
        · rw [Function.update_self] at hheap'
          cases hheap'
          exact absurd hkey'.symm hne
        · exact ⟨hel, ent', (hold el hel).symm.trans hheap', hkey'⟩
  · refine List.forall_mem_cons.2 ⟨Nat.lt_succ_self _, fun el hel => ?_⟩
    exact (h.allocated el hel).trans (Nat.lt_succ_self _)

end Represents

/-! ### The operations on entries -/

def getEntry (l : List CacheEntry) (now : Int) (key : String) :
    List CacheEntry × Option Identity :=
  match l.find? (·.key = key) with
  | none => (l, none)
  | some ent =>
    if ent.expires < now then (Lib.Lru.remove CacheEntry.key l key, none)
    else (Lib.Lru.touch CacheEntry.key l ent, some ent.id)

namespace Represents

variable {c c' : TokenCache} {l : List CacheEntry} {now : Int} {key : String} {id : Identity}

lemma find_eq (h : Represents c l) (key : String) :
    (c.m key = none ∧ l.find? (·.key = key) = none) ∨ ∃ el ∈ c.ll, ∃ ent,
      c.m key = some el ∧ c.heap el = some ent ∧ ent.key = key ∧
      l.find? (·.key = key) = some ent := by
  cases hm : c.m key with
  | none =>
    refine .inl ⟨rfl, List.find?_eq_none.2 fun ent hent => ?_⟩
    simpa using h.map_none hm ent hent
  | some el =>
    obtain ⟨hel, ent, hheap, hkey⟩ := (h.map key el).1 hm
    refine .inr ⟨el, hel, ent, rfl, hheap, hkey, ?_⟩
    cases hfind : l.find? (·.key = key) with
    | none =>
      obtain ⟨ent', hent', hheap'⟩ := h.exists_entry hel
      obtain rfl := Option.some.inj (hheap.symm.trans hheap')
      have hne := List.find?_eq_none.1 hfind ent hent'
      simp [hkey] at hne
    | some found =>
      obtain ⟨el', hel', hheap'⟩ := h.exists_element (List.mem_of_find?_eq_some hfind)
      have hkey' : found.key = key := by simpa using List.find?_some hfind
      obtain rfl := h.eq_of_key hel hheap hel' hheap' (hkey'.trans hkey.symm)
      rw [← hheap', hheap]

theorem get (h : Represents c l) (now : Int) (key : String) :
    ∃ c', c.get now key = some (c', (getEntry l now key).2) ∧ c'.cap = c.cap ∧ c'.ttl = c.ttl ∧
      Represents c' (getEntry l now key).1 := by
  obtain ⟨hm, hfind⟩ | ⟨el, hel, ent, hm, hheap, rfl, hfind⟩ := h.find_eq key
  · rw [TokenCache.get, hm, getEntry, hfind]
    exact ⟨c, rfl, rfl, rfl, h⟩
  · rw [TokenCache.get, hm, getEntry, hfind]
    dsimp only
    rw [hheap, Option.bind_eq_bind, Option.bind_some]
    split
    · obtain ⟨c', hremove, hcap, httl, hc'⟩ := h.removeElement hel hheap
      rw [hremove]
      exact ⟨c', rfl, hcap, httl, hc'⟩
    · refine ⟨c.moveToFront el, rfl, rfl, rfl, ?_⟩
      have hfront := h.moveToFront hel hheap (rfl : ent.key = ent.key)
      rwa [← hheap, Function.update_eq_self] at hfront

theorem put (h : Represents c l) (hordered : (l.map CacheEntry.key).Nodup)
    (hlen : (l.length : Int) ≤ c.cap) (now : Int) (key : String) (id : Identity) :
    ∃ c', c.put now key id = some c' ∧ c'.cap = c.cap ∧ c'.ttl = c.ttl ∧ Represents c'
      (Lib.Lru.insert CacheEntry.key c.cap.toNat l { key, id, expires := now + c.ttl }) := by
  obtain ⟨hm, -⟩ | ⟨el, hel, ent, hm, hheap, rfl, hfind⟩ := h.find_eq key
  · let ent : CacheEntry := { key, id, expires := now + c.ttl }
    have hpush : Represents _ (ent :: l) := h.pushFront hm
    have hne := h.map_none hm
    have htouch : Lib.Lru.touch CacheEntry.key l ent = ent :: l :=
      congrArg _ (Lib.Lru.remove_of_forall_ne hne)
    rw [TokenCache.put, hm, Lib.Lru.insert, htouch]
    dsimp only
    split
    · next hfull =>
      have hlength : l.length = c.cap.toNat := by
        have hover : c.cap < (c.ll.length : Int) + 1 := by
          simpa [TokenCache.pushFront] using hfull
        rw [h.length_eq] at hover
        omega
      have hkeys : ((ent :: l).map CacheEntry.key).Nodup := by
        rw [List.map_cons, List.nodup_cons]
        refine ⟨fun hmem => ?_, hordered⟩
        obtain ⟨ent', hent', hkey⟩ := List.mem_map.1 hmem
        exact hne ent' hent' hkey
      have htake : (ent :: l).take c.cap.toNat = (ent :: l).dropLast := by
        rw [List.dropLast_eq_take, List.length_cons, hlength]
        rfl
      rw [htake]
      have hsplit := List.dropLast_append_getLast (List.cons_ne_nil ent l)
      rw [← hsplit] at hpush hkeys
      exact hpush.removeBack hkeys
    · next hroom =>
      refine ⟨_, rfl, rfl, rfl, ?_⟩
      rw [List.take_of_length_le]
      · exact hpush
      · have hlength : (c.ll.length : Int) + 1 ≤ c.cap := by
          simpa [TokenCache.pushFront] using hroom
        rw [h.length_eq] at hlength
        rw [List.length_cons]
        omega
  · rw [TokenCache.put, hm]
    dsimp only
    rw [hheap, Option.bind_eq_bind, Option.bind_some]
    refine ⟨_, rfl, rfl, rfl, ?_⟩
    let ent' : CacheEntry := { key := ent.key, id, expires := now + c.ttl }
    have hinsert : Lib.Lru.insert CacheEntry.key c.cap.toNat l ent' =
        Lib.Lru.touch CacheEntry.key l ent' :=
      Lib.Lru.insert_of_mem (List.mem_of_find?_eq_some hfind) rfl (by omega)
    rw [hinsert]
    exact h.moveToFront hel hheap rfl

end Represents

/-! ### What the entries are -/

/-- The entries in the order of their last use, each as it was put last. -/
structure Cached (es : List CacheEvent) (cap ttl : Int) (l : List CacheEntry) : Prop where
  ordered : Lib.Lru.Ordered CacheEntry.key (cacheUses es) l
  length : (l.length : Int) ≤ cap
  put : ∀ ent ∈ l, lastPut es ent.key = some (ent.expires - ttl, ent.id)

section

variable {es : List CacheEvent} {cap ttl now : Int} {l : List CacheEntry} {key : String}
  {id : Identity}

lemma cacheUses_append (e : CacheEvent) :
    cacheUses (es ++ [e]) = e.used.elim (cacheUses es) (· :: cacheUses es) := by
  rw [cacheUses, List.filterMap_append, List.reverse_append]
  cases h : e.used with
  | none => simp [h, cacheUses]
  | some k => simp [h, cacheUses]

lemma lastPut_get (found : Option Identity) (key' : String) :
    lastPut (es ++ [.get now key found]) key' = lastPut es key' := by
  simp [lastPut]

lemma lastPut_put (key' : String) : lastPut (es ++ [.put now key id]) key' =
    if key = key' then some (now, id) else lastPut es key' := by
  simp only [lastPut, List.reverse_append, List.reverse_singleton, List.singleton_append,
    List.findSome?_cons]
  split <;> simp_all

lemma Cached.of_mem (h : Cached es cap ttl l) {es' : List CacheEvent} {l' : List CacheEntry}
    (hordered : Lib.Lru.Ordered CacheEntry.key (cacheUses es') l') (hlen : l'.length ≤ l.length)
    (hmem : ∀ ent ∈ l', ent ∈ l) (hput : ∀ key, lastPut es' key = lastPut es key) :
    Cached es' cap ttl l' := by
  have hlength := h.length
  exact ⟨hordered, by omega, fun ent hent => hput ent.key ▸ h.put ent (hmem ent hent)⟩

/-- A get keeps the entries, apart from one that it finds expired. -/
lemma Cached.get (h : Cached es cap ttl l) (now : Int) (key : String) :
    Cached (es ++ [.get now key (getEntry l now key).2]) cap ttl (getEntry l now key).1 := by
  have hmissed : cacheUses (es ++ [.get now key none]) = cacheUses es := cacheUses_append _
  rw [getEntry]
  split
  · exact h.of_mem (hmissed ▸ h.ordered) le_rfl (fun _ hent => hent) (lastPut_get none)
  · next ent hfind =>
    have hent := List.mem_of_find?_eq_some hfind
    obtain rfl : ent.key = key := by simpa using List.find?_some hfind
    split
    · exact h.of_mem (hmissed ▸ h.ordered.remove ent.key) (List.length_filter_le ..)
        (fun _ hent' => List.mem_of_mem_filter hent') (lastPut_get none)
    · have hfound : cacheUses (es ++ [.get now ent.key (some ent.id)]) = ent.key :: cacheUses es :=
        cacheUses_append _
      refine h.of_mem (hfound ▸ h.ordered.touch ent) (Lib.Lru.length_touch_of_mem hent rfl) ?_
        (lastPut_get _)
      intro ent' hent'
      obtain rfl | ⟨hent', -⟩ := Lib.Lru.mem_touch.1 hent'
      · exact hent
      · exact hent'

lemma Cached.put' (h : Cached es cap ttl l) (now : Int) (key : String) (id : Identity) :
    Cached (es ++ [.put now key id]) cap ttl
      (Lib.Lru.insert CacheEntry.key cap.toNat l { key, id, expires := now + ttl }) := by
  have huses : cacheUses (es ++ [.put now key id]) = key :: cacheUses es := cacheUses_append _
  have hlength := h.length
  refine ⟨?_, ?_, fun ent hent => ?_⟩
  · rw [huses]
    exact h.ordered.insert cap.toNat { key, id, expires := now + ttl }
  · have hle : (Lib.Lru.insert CacheEntry.key cap.toNat l
        { key, id, expires := now + ttl }).length ≤ cap.toNat := Lib.Lru.length_insert_le
    omega
  · rw [lastPut_put]
    obtain rfl | ⟨hent, hne⟩ := Lib.Lru.mem_touch.1 (List.mem_of_mem_take hent)
    · rw [if_pos rfl, Int.add_sub_cancel]
    · rw [if_neg (Ne.symm hne)]
      exact h.put ent hent

/-- What a run keeps. -/
def Inv (cap ttl : Int) (es : List CacheEvent) (c : TokenCache) : Prop :=
  c.cap = cap ∧ c.ttl = ttl ∧ ∃ l, Represents c l ∧ Cached es cap ttl l

lemma Inv.step {c c' : TokenCache} {e : CacheEvent} (h : Inv cap ttl es c)
    (hstep : CacheSteps c e c') : Inv cap ttl (es ++ [e]) c' := by
  obtain ⟨rfl, rfl, l, hc, hl⟩ := h
  cases e with
  | get now key found =>
    obtain ⟨c₁, hget, hcap, httl, hc₁⟩ := hc.get now key
    obtain ⟨rfl, rfl⟩ := Prod.mk.inj (Option.some.inj (hget.symm.trans hstep))
    exact ⟨hcap, httl, _, hc₁, hl.get now key⟩
  | put now key id =>
    obtain ⟨c₁, hput, hcap, httl, hc₁⟩ := hc.put hl.ordered.nodup_keys hl.length now key id
    obtain rfl := Option.some.inj (hput.symm.trans hstep)
    exact ⟨hcap, httl, _, hc₁, hl.put' now key id⟩

variable {c c' : TokenCache}

lemma Inv.run (hcap : 0 ≤ cap) (hrun : Run CacheSteps (newTokenCache cap ttl) es c) :
    Inv cap ttl es c := by
  have hempty : Inv cap ttl [] (newTokenCache cap ttl) :=
    ⟨rfl, rfl, [], ⟨List.nodup_nil, rfl, by simp [newTokenCache], by simp [newTokenCache]⟩,
      ⟨Lib.Lru.Ordered.nil, by simpa using hcap, by simp⟩⟩
  exact hrun.history_of_mem (fun _ _ _ _ _ h hstep => h.step hstep) hempty

lemma Represents.held_iff (h : Represents c l) : c.m key ≠ none ↔ ∃ ent ∈ l, ent.key = key := by
  constructor
  · intro hne
    obtain ⟨el, hel⟩ := Option.ne_none_iff_exists'.1 hne
    obtain ⟨hmem, ent, hheap, hkey⟩ := (h.map key el).1 hel
    obtain ⟨ent', hent', hheap'⟩ := h.exists_entry hmem
    obtain rfl := Option.some.inj (hheap.symm.trans hheap')
    exact ⟨ent, hent', hkey⟩
  · rintro ⟨ent, hent, hkey⟩ hnone
    exact h.map_none hnone ent hent hkey

/-- What a get returns was put last for its key, at most the time to live ago. -/
lemma Inv.get (h : Inv cap ttl es c) (now : Int) (key : String) :
    ∃ c' found, c.get now key = some (c', found) ∧ ∀ id, found = some id →
      ∃ time, lastPut es key = some (time, id) ∧ now ≤ time + ttl := by
  obtain ⟨rfl, rfl, l, hc, hl⟩ := h
  obtain ⟨c', hget, -⟩ := hc.get now key
  refine ⟨c', _, hget, fun id hid => ?_⟩
  rw [getEntry] at hid
  split at hid
  · cases hid
  · next ent hfind =>
    obtain rfl : ent.key = key := by simpa using List.find?_some hfind
    split at hid
    · cases hid
    · next hlive =>
      cases hid
      refine ⟨_, hl.put ent (List.mem_of_find?_eq_some hfind), ?_⟩
      omega

/-- What a put evicts was used before all others that were held. -/
lemma Inv.evicted (h : Inv cap ttl es c) (hcap : 1 ≤ cap) (now : Int) (key : String)
    (id : Identity) : ∃ c', c.put now key id = some c' ∧ ∀ k, c.m k ≠ none → c'.m k = none →
      ∀ k', k' = key ∨ c.m k' ≠ none → k' ≠ k →
        (cacheUses (es ++ [.put now key id])).idxOf k' <
          (cacheUses (es ++ [.put now key id])).idxOf k := by
  obtain ⟨rfl, rfl, l, hc, hl⟩ := h
  obtain ⟨c', hput, -, -, hc'⟩ := hc.put hl.ordered.nodup_keys hl.length now key id
  refine ⟨c', hput, fun k hheld hgone k' hk' hne => ?_⟩
  let new : CacheEntry := { key, id, expires := now + c.ttl }
  have hlength := hl.length
  have hgone' := hc'.map_none hgone
  have hnew : new ∈ Lib.Lru.insert CacheEntry.key c.cap.toNat l new := by
    obtain ⟨n, hn⟩ : ∃ n, c.cap.toNat = n + 1 := ⟨c.cap.toNat - 1, by omega⟩
    rw [hn]
    exact List.mem_cons_self
  obtain ⟨b, hb, rfl⟩ := hc.held_iff.1 hheld
  have hold : b.key ≠ new.key := (hgone' new hnew).symm
  have hdropped : b ∉ Lib.Lru.insert CacheEntry.key c.cap.toNat l new :=
    fun hmem => hgone' b hmem rfl
  have hlast := hl.ordered.insert_dropped (by omega) hb hdropped hold
  have huses : cacheUses (es ++ [.put now key id]) = new.key :: cacheUses es := cacheUses_append _
  rw [huses]
  by_cases hkey : k' = key
  · subst hkey
    exact hlast new List.mem_cons_self (fun heq => hold (congrArg CacheEntry.key heq.symm))
  · obtain ⟨a, ha, rfl⟩ := hc.held_iff.1 (hk'.resolve_left hkey)
    exact hlast a (Lib.Lru.mem_touch.2 (.inr ⟨ha, hkey⟩)) fun heq =>
      hne (congrArg CacheEntry.key heq)

/-- After any operations the map and the list hold the same entries, one for each key and at most
`cap`. A get returns only what was put last for the key, at most `ttl` ago, and a put evicts the
key that was used least recently. -/
theorem tokenCache_lru (hcap : 1 ≤ cap) (hrun : Run CacheSteps (newTokenCache cap ttl) es c) :
    (∃ l, Represents c l ∧ (l.length : Int) ≤ cap) ∧
    (∀ now key, ∃ c' found, c.get now key = some (c', found) ∧ ∀ id, found = some id →
      ∃ time, lastPut es key = some (time, id) ∧ now ≤ time + ttl) ∧
    ∀ now key id, ∃ c', c.put now key id = some c' ∧ ∀ k, c.m k ≠ none → c'.m k = none →
      ∀ k', k' = key ∨ c.m k' ≠ none → k' ≠ k →
        (cacheUses (es ++ [.put now key id])).idxOf k' <
          (cacheUses (es ++ [.put now key id])).idxOf k := by
  have hinv := Inv.run (by omega) hrun
  refine ⟨?_, hinv.get, fun now key id => hinv.evicted hcap now key id⟩
  obtain ⟨-, -, l, hc, hl⟩ := hinv
  exact ⟨l, hc, hl.length⟩

end

/-! ### A third key for two places -/

def o1 : Identity := { org := "o1", agentID := "a1" }

def o2 : Identity := { org := "o2", agentID := "a2" }

def k1Got : List CacheEvent := [.put 0 "k1" o1, .put 1 "k2" o2, .get 2 "k1" (some o1)]

def k1Cache : TokenCache :=
  (do
    let c ← (newTokenCache 2 60).put 0 "k1" o1
    let c ← c.put 1 "k2" o2
    let (c, _) ← c.get 2 "k1"
    some c).getD (newTokenCache 2 60)

theorem tokenCache_lru_third : ∃ c', k1Cache.put 3 "k3" o1 = some c' ∧ c'.m "k2" = none ∧
    (cacheUses (k1Got ++ [.put 3 "k3" o1])).idxOf "k1" <
      (cacheUses (k1Got ++ [.put 3 "k3" o1])).idxOf "k2" := by
  have hrun : Run CacheSteps (newTokenCache 2 60) k1Got k1Cache :=
    .cons (rfl : TokenCache.put _ _ _ _ = some _) <|
      .cons (rfl : TokenCache.put _ _ _ _ = some _) <|
        .cons (rfl : TokenCache.get _ _ _ = some _) (.nil _)
  obtain ⟨c', hput, hlast⟩ := (tokenCache_lru (by decide) hrun).2.2 3 "k3" o1
  have hgone : c'.m "k2" = none := by
    have hm : (k1Cache.put 3 "k3" o1).map (fun c => c.m "k2") = some none := rfl
    rw [hput] at hm
    exact Option.some.inj hm
  have hheld : k1Cache.m "k2" = some 1 := rfl
  have hheld' : k1Cache.m "k1" = some 0 := rfl
  refine ⟨c', hput, hgone, hlast "k2" (by simp [hheld]) hgone "k1" (.inr (by simp [hheld'])) ?_⟩
  decide

end Pulse.Ingest
