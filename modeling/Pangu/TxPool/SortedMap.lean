import Pangu.Lib.Heap
import Pangu.Types.Transaction

/-!
# The nonce-sorted map of the transaction pool

`sortedMap` (`core/txpool/legacypool/list.go`) keeps an account's transactions
by nonce: a map from nonce to transaction, and a heap (`nonceHeap`, over
`container/heap`) of the nonces of the map, so that the lowest nonce is always
at the front, and the slice of its transactions in nonce order that `flatten`
last sorted. The map is valid (`SortedMap.Valid`) when every transaction sits
at its own nonce, the heap holds exactly the map's nonces, and a cached slice
is the map's transactions in increasing nonce (`SortedMap.Flattened`).

* `SortedMap.Valid.put`, `SortedMap.Valid.remove`, `SortedMap.Valid.filter`,
  `SortedMap.Valid.ready`: `Put`, `Remove`, `Filter` (which rebuilds the heap
  by `heap.Init`) and `Ready` keep the map valid;
* `SortedMap.forward_spec`: from a valid map, `Forward(threshold)` takes out
  exactly the transactions below `threshold`, in increasing nonce order, and
  leaves a valid map, with the cache cut to the rest;
* `SortedMap.Valid.flattenCache`: `flatten`, under any sort that sorts, returns
  the map's transactions in increasing nonce and caches them;
* `SortedMap.valid_run`, `SortedMap.forward_after_run`,
  `SortedMap.flatten_after_run`: so every run of these calls from
  `newSortedMap` stays valid, never panics, and each `Forward` and `Flatten`
  along it is exact.
-/

namespace Pangu

open Go

instance instIsStrictWeakOrderUInt64 : IsStrictWeakOrder UInt64 (· < ·) where
  irrefl a := UInt64.lt_irrefl a
  trans _ _ _ := UInt64.lt_trans
  incomp_trans a b c hab hbc := by
    simp only [UInt64.lt_iff_toNat_lt] at *
    omega

/-- `sortedMap`: the transactions by nonce, the heap of their nonces, and the
nonce-sorted slice `flatten` caches (`none` for a nil cache). -/
structure SortedMap where
  items : GoMap UInt64 Transaction
  index : List UInt64
  cache : Option (List Transaction)

/-- `newSortedMap()`. -/
def newSortedMap : SortedMap := ⟨∅, [], none⟩

namespace SortedMap

/-- `Get(nonce)`; `none` for nil. -/
def get (m : SortedMap) (nonce : UInt64) : Option Transaction := m.items.find? nonce

/-- `Put(tx)`: a nonce the map does not hold is pushed on the heap. -/
def put (m : SortedMap) (tx : Transaction) : SortedMap :=
  let nonce := tx.nonce
  let index := if m.items.find? nonce = none then Heap.push (· < ·) m.index nonce else m.index
  { items := m.items.set nonce tx, index := index, cache := none }

/-- The loop of `Forward(threshold)`: while the lowest nonce is below
`threshold`, it is popped off the heap, and its transaction (nil, `none`, if
the map has none) appended to `removed` and deleted. -/
def forwardLoop (threshold : UInt64) (items : GoMap UInt64 Transaction) (index : List UInt64)
    (removed : List (Option Transaction)) : GoMap UInt64 Transaction × List UInt64 × List (Option Transaction) :=
  match index with
  | [] => (items, [], removed)
  | top :: rest =>
    if top < threshold then
      let r := Heap.pop (· < ·) (top :: rest) (List.cons_ne_nil top rest)
      forwardLoop threshold (items.erase r.1) r.2 (removed ++ [items.find? r.1])
    else (items, top :: rest, removed)
termination_by index.length
decreasing_by
  have := (Heap.perm_pop (· < ·) (top :: rest) (List.cons_ne_nil top rest)).length_eq
  simp only [List.length_cons] at this ⊢
  omega

/-- `s[lo:]` of a slice whose capacity is its length. -/
def sliceFrom {α : Type} (s : List α) (lo : Nat) : Go (List α) :=
  if lo ≤ s.length then .ok (s.drop lo)
  else
    let n := s.length
    Go.panic s!"runtime error: slice bounds out of range [{lo}:{n}]"

/-- `Forward(threshold)`: the transactions below `threshold` taken out, and a
cache cut by as many. -/
def forward (m : SortedMap) (threshold : UInt64) : Go (List (Option Transaction) × SortedMap) := do
  let r := forwardLoop threshold m.items m.index []
  let cache ← match m.cache with
    | none => pure none
    | some c => some <$> sliceFrom c r.2.2.length
  pure (r.2.2, { items := r.1, index := r.2.1, cache := cache })

/-- One turn of the range of `filter`: a transaction `f` holds of is appended
to the removed ones and deleted from the map. -/
def filterStep (f : Transaction → Bool) (acc : List Transaction × GoMap UInt64 Transaction)
    (e : Σ _ : UInt64, Transaction) : List Transaction × GoMap UInt64 Transaction :=
  if f e.2 then (acc.1 ++ [e.2], acc.2.erase e.1) else acc

/-- `filter(f)`, the lowercase one: a range over the map deleting the
transactions `f` holds of, with the heap left as it is and the cache dropped if
any went. -/
def filterItems (f : Transaction → Bool) (m : SortedMap) : List Transaction × SortedMap :=
  let r := m.items.entries.foldl (filterStep f) ([], m.items)
  (r.1, { m with items := r.2, cache := if r.1.length > 0 then none else m.cache })

/-- `reheap()`: the heap rebuilt from a range over the map, and no cache. -/
def reheap (m : SortedMap) : SortedMap :=
  { m with index := Heap.init (· < ·) m.items.keyList, cache := none }

/-- `Filter(f)`: `filter`, then `reheap` if anything went. -/
def filter (f : Transaction → Bool) (m : SortedMap) : List Transaction × SortedMap :=
  let r := m.filterItems f
  if r.1.length > 0 then (r.1, r.2.reheap) else r

/-- `Remove(nonce)`: a nonce the map holds is deleted from it, and from the heap
at the first position a scan of the heap finds it. -/
def remove (m : SortedMap) (nonce : UInt64) : Bool × SortedMap :=
  if m.items.find? nonce = none then (false, m)
  else
    let index := match h : m.index.findIdx? (· == nonce) with
      | some i => (Heap.remove (· < ·) m.index i (List.findIdx?_eq_some_iff_findIdx_eq.mp h).1).2
      | none => m.index
    (true, { items := m.items.erase nonce, index := index, cache := none })

/-- `flatten()`: the cached slice, or one made by a range over the map and
sorted by `sort.Sort(types.TxByNonce(...))`, which the map then caches. -/
def flattenCache (sortSlice : SortSlice) (m : SortedMap) : List Transaction × SortedMap :=
  match m.cache with
  | some c => (c, m)
  | none =>
    let c := sortSlice (fun a b => decide (a.nonce < b.nonce)) (m.items.entries.map (·.2))
    (c, { m with cache := some c })

/-- `Flatten()`: a copy of what `flatten` returns. -/
def flatten (sortSlice : SortSlice) (m : SortedMap) : List Transaction × SortedMap :=
  m.flattenCache sortSlice

/-- The loop of `Ready(start)`: while the lowest nonce is `next`, it is popped
off the heap, and its transaction appended to `ready` and deleted; `next`
then moves on by one. -/
def readyLoop (next : UInt64) (items : GoMap UInt64 Transaction) (index : List UInt64)
    (ready : List (Option Transaction)) : GoMap UInt64 Transaction × List UInt64 × List (Option Transaction) :=
  match index with
  | [] => (items, [], ready)
  | top :: rest =>
    if top = next then
      let r := Heap.pop (· < ·) (top :: rest) (List.cons_ne_nil top rest)
      readyLoop (next + 1) (items.erase next) r.2 (ready ++ [items.find? next])
    else (items, top :: rest, ready)
termination_by index.length
decreasing_by
  have := (Heap.perm_pop (· < ·) (top :: rest) (List.cons_ne_nil top rest)).length_eq
  simp only [List.length_cons] at this ⊢
  omega

/-- `Ready(start)`: nothing while the lowest nonce is above `start`; otherwise
the run of consecutive nonces from the lowest is taken out, and the cache
dropped. -/
def ready (m : SortedMap) (start : UInt64) : List (Option Transaction) × SortedMap :=
  match m.index with
  | [] => ([], m)
  | top :: _ =>
    if top > start then ([], m)
    else
      let r := readyLoop top m.items m.index []
      (r.2.2, { items := r.1, index := r.2.1, cache := none })

/-- What `flatten` caches: the map's transactions in increasing nonce. -/
structure Flattened (items : GoMap UInt64 Transaction) (c : List Transaction) : Prop where
  sorted : (c.map (·.nonce)).Pairwise (· < ·)
  keys : (c.map (·.nonce)).Perm items.keyList
  mem : ∀ tx ∈ c, items.find? tx.nonce = some tx

/-- Every transaction sits at its own nonce, the heap holds exactly the map's
nonces, and a cache is the map's transactions in increasing nonce. -/
structure Valid (m : SortedMap) : Prop where
  nonce : ∀ n tx, m.items.find? n = some tx → tx.nonce = n
  heap : Heap.IsHeap (· < ·) m.index
  index : m.index.Perm m.items.keyList
  cache : ∀ c, m.cache = some c → Flattened m.items c

theorem valid_newSortedMap : newSortedMap.Valid where
  nonce n tx h := by simp [newSortedMap] at h
  heap := fun c hc => by simp [newSortedMap] at hc
  index := by simp [newSortedMap, GoMap.keyList]
  cache c h := by simp [newSortedMap] at h

theorem keyList_erase (items : GoMap UInt64 Transaction) (k : UInt64) :
    GoMap.keyList (items.erase k) = items.keyList.erase k := AList.keys_erase k items

theorem keyList_set (items : GoMap UInt64 Transaction) (k : UInt64) (tx : Transaction) :
    (items.set k tx).keyList = k :: items.keyList.erase k := AList.keys_insert items

/-- A deletion only takes transactions out of the map. -/
theorem find?_of_find?_erase {items : GoMap UInt64 Transaction} {k n : UInt64} {tx : Transaction}
    (h : GoMap.find? (items.erase k) n = some tx) : items.find? n = some tx := by
  by_cases hn : n = k
  · subst hn
    simp at h
  · rwa [GoMap.find?_erase_ne _ hn] at h

/-- A heap of the map's nonces with `k` first, once `k` is off it, holds the
nonces of the map with `k` deleted. -/
theorem perm_keyList_erase {items : GoMap UInt64 Transaction} {k : UInt64} {l : List UInt64}
    (h : (k :: l).Perm items.keyList) : l.Perm (GoMap.keyList (items.erase k)) := by
  rw [keyList_erase]
  have := h.erase k
  rwa [List.erase_cons_head] at this

/-- `Put` keeps the map valid. -/
theorem Valid.put {m : SortedMap} (hm : m.Valid) (tx : Transaction) : (m.put tx).Valid := by
  refine ⟨?_, ?_, ?_, fun c h => by simp [SortedMap.put] at h⟩
  · intro n tx' h
    by_cases hn : n = tx.nonce
    · subst hn
      simp only [SortedMap.put, GoMap.find?_set_self, Option.some_inj] at h
      rw [h]
    · simp only [SortedMap.put, GoMap.find?_set_ne _ _ hn] at h
      exact hm.nonce n tx' h
  · simp only [SortedMap.put]
    split
    · exact hm.heap.push _
    · exact hm.heap
  · simp only [SortedMap.put, keyList_set]
    split
    · rename_i hnone
      have hk : tx.nonce ∉ m.items.keyList := by
        rw [GoMap.mem_keyList, hnone]
        simp
      rw [List.erase_of_not_mem hk]
      exact (Heap.perm_push _ _ _).trans ((hm.index.append_right _).trans (List.perm_append_singleton _ _))
    · rename_i hsome
      have hk : tx.nonce ∈ m.items.keyList := GoMap.mem_keyList.mpr (Option.ne_none_iff_isSome.mp hsome)
      exact hm.index.trans (List.perm_cons_erase hk)

theorem foldl_filterStep_length (f : Transaction → Bool) (es : List (Σ _ : UInt64, Transaction)) :
    ∀ acc : List Transaction × GoMap UInt64 Transaction, acc.1.length ≤ (es.foldl (filterStep f) acc).1.length := by
  induction es with
  | nil => exact fun acc => le_rfl
  | cons e es ih =>
    intro acc
    rw [List.foldl_cons]
    refine le_trans ?_ (ih _)
    unfold filterStep
    split <;> simp

/-- The range of `filter` only deletes, and deletes nothing when it removes nothing. -/
theorem foldl_filterStep (f : Transaction → Bool) (es : List (Σ _ : UInt64, Transaction)) :
    ∀ acc : List Transaction × GoMap UInt64 Transaction,
      (∀ n tx, (es.foldl (filterStep f) acc).2.find? n = some tx → acc.2.find? n = some tx) ∧
      ((es.foldl (filterStep f) acc).1.length = acc.1.length → (es.foldl (filterStep f) acc).2 = acc.2) := by
  induction es with
  | nil => exact fun acc => ⟨fun _ _ h => h, fun _ => rfl⟩
  | cons e es ih =>
    intro acc
    rw [List.foldl_cons]
    by_cases hf : f e.2
    · have hstep : filterStep f acc e = (acc.1 ++ [e.2], acc.2.erase e.1) := by simp [filterStep, hf]
      have hlen := foldl_filterStep_length f es (filterStep f acc e)
      obtain ⟨hsub, -⟩ := ih (filterStep f acc e)
      rw [hstep] at hsub hlen ⊢
      refine ⟨fun n tx h => find?_of_find?_erase (hsub n tx h), fun heq => ?_⟩
      -- something was removed, so the lengths differ
      simp only [List.length_append, List.length_singleton] at hlen
      omega
    · have hstep : filterStep f acc e = acc := by simp [filterStep, hf]
      rw [hstep]
      exact ih acc

/-- A map whose transactions sit at their nonces, rebuilt by `reheap`, is valid. -/
theorem valid_reheap {m : SortedMap} (h : ∀ n tx, m.items.find? n = some tx → tx.nonce = n) :
    m.reheap.Valid where
  nonce := h
  heap := Heap.isHeap_init m.items.keyList
  index := Heap.perm_init _ _
  cache c hc := by simp [reheap] at hc

/-- `Filter` keeps the map valid. -/
theorem Valid.filter {m : SortedMap} (hm : m.Valid) (f : Transaction → Bool) : (m.filter f).2.Valid := by
  obtain ⟨hsub, hsame⟩ := foldl_filterStep f m.items.entries ([], m.items)
  unfold SortedMap.filter filterItems
  dsimp only
  split
  · exact valid_reheap fun n tx h => hm.nonce n tx (hsub n tx h)
  · rename_i hnone
    have hitems := hsame (by simp only [List.length_nil]; omega)
    rw [hitems]
    exact hm

/-- `Remove` keeps the map valid. -/
theorem Valid.remove {m : SortedMap} (hm : m.Valid) (nonce : UInt64) : (m.remove nonce).2.Valid := by
  unfold SortedMap.remove
  split
  · exact hm
  · rename_i hsome
    have hk : nonce ∈ m.index :=
      hm.index.mem_iff.mpr (GoMap.mem_keyList.mpr (Option.ne_none_iff_isSome.mp hsome))
    refine ⟨fun n tx h => hm.nonce n tx (find?_of_find?_erase h), ?_, ?_, fun c h => by simp at h⟩
    · split
      · rename_i i hi
        exact hm.heap.remove (List.findIdx?_eq_some_iff_findIdx_eq.mp hi).1
      · exact hm.heap
    · dsimp only
      split
      · rename_i i hi
        obtain ⟨hil, hix, -⟩ := List.findIdx?_eq_some_iff_getElem.mp hi
        have hfst := Heap.remove_fst (· < ·) m.index hil
        rw [beq_iff_eq.mp hix] at hfst
        have hperm := Heap.perm_remove (· < ·) m.index hil
        rw [hfst] at hperm
        exact perm_keyList_erase (hperm.trans hm.index)
      · rename_i hnone
        rw [List.findIdx?_eq_none_iff] at hnone
        exact absurd (hnone nonce hk) (by simp)

theorem Flattened.length {items : GoMap UInt64 Transaction} {c : List Transaction} (h : Flattened items c) :
    c.length = items.keyList.length := by
  rw [← h.keys.length_eq, List.length_map]

theorem nodup_of_pairwise_lt {l : List UInt64} (h : l.Pairwise (· < ·)) : l.Nodup :=
  h.imp fun {a b} (hab : a < b) (he : a = b) => UInt64.lt_irrefl b (he ▸ hab)

/-- Two lists of nonces in increasing order with the same nonces are one. -/
theorem eq_of_pairwise_lt {l₁ l₂ : List UInt64} (h₁ : l₁.Pairwise (· < ·)) (h₂ : l₂.Pairwise (· < ·))
    (hmem : ∀ k, k ∈ l₁ ↔ k ∈ l₂) : l₁ = l₂ := by
  refine List.Perm.eq_of_pairwise (fun a b _ _ hab hba => absurd (UInt64.lt_trans hab hba) (UInt64.lt_irrefl a))
    h₁ h₂ ((List.perm_ext_iff_of_nodup (nodup_of_pairwise_lt h₁) (nodup_of_pairwise_lt h₂)).mpr hmem)

/-- In increasing order, the nonces below `t` come first: dropping as many
leaves those from `t` on. -/
theorem drop_length_filter_lt {l : List UInt64} (hl : l.Pairwise (· < ·)) (t : UInt64) :
    l.drop (l.filter (· < t)).length = l.filter fun k => ¬ k < t := by
  induction l with
  | nil => rfl
  | cons a l ih =>
    obtain ⟨ha, hl⟩ := List.pairwise_cons.mp hl
    by_cases hat : a < t
    · simp [hat, ih hl]
    · -- every later nonce is above `a`, so none is below `t`
      have hge : ∀ b ∈ l, ¬ b < t := fun b hb hbt => by
        have := ha b hb
        simp only [UInt64.lt_iff_toNat_lt] at this hbt hat
        omega
      rw [List.filter_cons_of_neg (by simpa using hat), List.filter_eq_nil_iff.mpr (fun b hb => by simpa using hge b hb),
        List.filter_cons_of_pos (by simpa using hat), List.filter_eq_self.mpr (fun b hb => by simpa using hge b hb)]
      rfl

/-- `Forward` keeps a cache: with the nonces below `threshold` taken out, the
rest of the cache is the rest of the map in increasing nonce. -/
theorem Flattened.drop {items items' : GoMap UInt64 Transaction} {c : List Transaction} {ks : List UInt64}
    {threshold : UInt64} (hc : Flattened items c) (hks : ks.Pairwise (· < ·))
    (hmem : ∀ k, k ∈ ks ↔ k < threshold ∧ (items.find? k).isSome)
    (hitems : ∀ n, items'.find? n = if n < threshold then none else items.find? n) :
    Flattened items' (c.drop ks.length) := by
  -- the nonces taken out are the cache's nonces below `threshold`
  have hks' : ks = (c.map (·.nonce)).filter (· < threshold) := by
    refine eq_of_pairwise_lt hks (hc.sorted.filter _) fun k => ?_
    rw [hmem, List.mem_filter, hc.keys.mem_iff, GoMap.mem_keyList]
    simp [and_comm]
  have hdrop : (c.drop ks.length).map (·.nonce) = (c.map (·.nonce)).filter fun k => ¬ k < threshold := by
    rw [List.map_drop, hks', drop_length_filter_lt hc.sorted]
  refine ⟨?_, ?_, fun tx htx => ?_⟩
  · rw [hdrop]
    exact hc.sorted.filter _
  · rw [hdrop]
    refine (List.perm_ext_iff_of_nodup ((nodup_of_pairwise_lt hc.sorted).filter _) (AList.keys_nodup _)).mpr
      fun k => ?_
    change k ∈ _ ↔ k ∈ items'.keyList
    rw [List.mem_filter, hc.keys.mem_iff, GoMap.mem_keyList, GoMap.mem_keyList, hitems]
    by_cases hk : k < threshold <;> simp [hk]
  · have hn : tx.nonce ∈ (c.drop ks.length).map (·.nonce) := List.mem_map_of_mem htx
    rw [hdrop, List.mem_filter] at hn
    rw [hitems, if_neg (by simpa using hn.2)]
    exact hc.mem tx (List.mem_of_mem_drop htx)

/-- The order `TxByNonce` sorts by is a strict weak order. -/
theorem txByNonce_sorts {sortSlice : SortSlice} (hsort : sortSlice.Sorts) (l : List Transaction) :
    (sortSlice (fun a b => decide (a.nonce < b.nonce)) l).Perm l ∧
      (sortSlice (fun a b => decide (a.nonce < b.nonce)) l).Pairwise fun a b => ¬ b.nonce < a.nonce := by
  have h := hsort Transaction (fun a b => decide (a.nonce < b.nonce))
    (fun a b hab => by
      simp only [decide_eq_true_eq, decide_eq_false_iff_not, UInt64.lt_iff_toNat_lt] at hab ⊢
      omega)
    (fun a b c hac => by
      simp only [decide_eq_true_eq, UInt64.lt_iff_toNat_lt] at hac ⊢
      omega) l
  exact ⟨h.1, h.2.imp fun hab => by simpa using hab⟩

/-- A valid map's transactions, in the order of a range over it, have the map's
nonces. -/
theorem map_nonce_values {m : SortedMap} (hm : m.Valid) :
    (m.items.entries.map (·.2)).map (·.nonce) = m.items.keyList := by
  rw [List.map_map]
  refine List.map_congr_left fun e he => hm.nonce e.1 e.2 (GoMap.find?_eq_some_iff.mpr he)

/-- From a valid map, `flatten` returns the map's transactions in increasing
nonce, and leaves the map valid with that slice cached. -/
theorem Valid.flattenCache {sortSlice : SortSlice} (hsort : sortSlice.Sorts) {m : SortedMap} (hm : m.Valid) :
    Flattened m.items (m.flattenCache sortSlice).1 ∧ (m.flattenCache sortSlice).2.items = m.items ∧
      (m.flattenCache sortSlice).2.Valid := by
  unfold SortedMap.flattenCache
  split
  · rename_i c hc
    exact ⟨hm.cache c hc, rfl, hm⟩
  · obtain ⟨hperm, hle⟩ := txByNonce_sorts hsort (m.items.entries.map (·.2))
    have hkeys : ((sortSlice (fun a b => decide (a.nonce < b.nonce)) (m.items.entries.map (·.2))).map
        (·.nonce)).Perm m.items.keyList := map_nonce_values hm ▸ hperm.map _
    -- no two have one nonce, so the order that puts none below one before it is strict
    have hnd := hkeys.nodup_iff.mpr (AList.keys_nodup _)
    have hflat : Flattened m.items (sortSlice (fun a b => decide (a.nonce < b.nonce)) (m.items.entries.map (·.2))) := by
      refine ⟨?_, hkeys, fun tx htx => ?_⟩
      · rw [List.pairwise_map]
        refine (hle.and (List.pairwise_map.mp hnd)).imp fun ⟨hba, hne⟩ => ?_
        simp only [UInt64.lt_iff_toNat_lt, ne_eq, ← UInt64.toNat_inj] at hba hne ⊢
        omega
      · obtain ⟨e, he, rfl⟩ := List.mem_map.mp (hperm.mem_iff.mp htx)
        rw [hm.nonce e.1 e.2 (GoMap.find?_eq_some_iff.mpr he)]
        exact GoMap.find?_eq_some_iff.mpr he
    refine ⟨hflat, rfl, ⟨hm.nonce, hm.heap, hm.index, fun c hc => ?_⟩⟩
    cases hc
    exact hflat

/-- What the loop of `Ready` does from a heap of exactly the map's nonces: it
leaves a heap of the nonces of the map it leaves, and only deletes. -/
theorem readyLoop_spec (next : UInt64) (items : GoMap UInt64 Transaction) (index : List UInt64)
    (ready : List (Option Transaction)) (hheap : Heap.IsHeap (· < ·) index) (hperm : index.Perm items.keyList) :
    Heap.IsHeap (· < ·) (readyLoop next items index ready).2.1 ∧
    (readyLoop next items index ready).2.1.Perm (readyLoop next items index ready).1.keyList ∧
    ∀ n tx, (readyLoop next items index ready).1.find? n = some tx → items.find? n = some tx := by
  fun_induction readyLoop next items index ready with
  | case1 items ready => exact ⟨hheap, hperm, fun _ _ h => h⟩
  | case2 items ready top rest r ih =>
    -- the nonce popped is the lowest, the one the map then deletes
    have hr1 : r.1 = top := Heap.pop_fst _ _ _
    have hpop := Heap.perm_pop (· < ·) (top :: rest) (List.cons_ne_nil top rest)
    obtain ⟨h1, h2, h3⟩ := ih (hheap.pop _) (hr1 ▸ perm_keyList_erase (hpop.trans hperm))
    exact ⟨h1, h2, fun n tx h => find?_of_find?_erase (h3 n tx h)⟩
  | case3 => exact ⟨hheap, hperm, fun _ _ h => h⟩

/-- `Ready` keeps the map valid. -/
theorem Valid.ready {m : SortedMap} (hm : m.Valid) (start : UInt64) : (m.ready start).2.Valid := by
  unfold SortedMap.ready
  split
  · exact hm
  · rename_i top rest hidx
    split
    · exact hm
    · obtain ⟨h1, h2, h3⟩ := readyLoop_spec top m.items m.index [] hm.heap hm.index
      exact ⟨fun n tx h => hm.nonce n tx (h3 n tx h), h1, h2, fun c h => by simp at h⟩

/-- A nonce of a map whose nonces a heap holds is not below the heap's first. -/
theorem not_lt_top {items : GoMap UInt64 Transaction} {top : UInt64} {rest : List UInt64}
    (hheap : Heap.IsHeap (· < ·) (top :: rest)) (hperm : (top :: rest).Perm items.keyList) {k : UInt64}
    (hk : (items.find? k).isSome) : ¬ k < top :=
  hheap.not_lt_head (List.cons_ne_nil top rest) k (hperm.mem_iff.mpr (GoMap.mem_keyList.mpr hk))

/-- What the loop of `Forward` does from a heap of exactly the map's nonces: it
leaves a heap of the nonces of the map it leaves, which has none below
`threshold` and all the others, and appends the transactions of the nonces
below `threshold`, lowest first. -/
theorem forwardLoop_spec (threshold : UInt64) (items : GoMap UInt64 Transaction) (index : List UInt64)
    (removed : List (Option Transaction)) (hheap : Heap.IsHeap (· < ·) index)
    (hperm : index.Perm items.keyList) :
    Heap.IsHeap (· < ·) (forwardLoop threshold items index removed).2.1 ∧
    (forwardLoop threshold items index removed).2.1.Perm (forwardLoop threshold items index removed).1.keyList ∧
    (∀ n, (forwardLoop threshold items index removed).1.find? n =
      if n < threshold then none else items.find? n) ∧
    ∃ ks : List UInt64, (forwardLoop threshold items index removed).2.2 = removed ++ ks.map items.find? ∧
      ks.Pairwise (· < ·) ∧ ∀ k, k ∈ ks ↔ k < threshold ∧ (items.find? k).isSome := by
  fun_induction forwardLoop threshold items index removed with
  | case1 items removed =>
    -- an empty heap: the map is empty
    have hnone : ∀ n, items.find? n = none := fun n =>
      Option.not_isSome_iff_eq_none.mp fun h => by simpa using hperm.mem_iff.mpr (GoMap.mem_keyList.mpr h)
    refine ⟨hheap, hperm, fun n => by split <;> simp [hnone], [], by simp, List.Pairwise.nil, ?_⟩
    intro k
    simp [hnone]
  | case2 items removed top rest htop r ih =>
    have hr1 : r.1 = top := Heap.pop_fst _ _ _
    have hpop := Heap.perm_pop (· < ·) (top :: rest) (List.cons_ne_nil top rest)
    have hperm' : r.2.Perm (GoMap.keyList (items.erase r.1)) := perm_keyList_erase (hpop.trans hperm)
    obtain ⟨h1, h2, h3, ks, hks, hpw, hmem⟩ := ih (hheap.pop _) hperm'
    -- a nonce the smaller map holds is not the one popped
    have hne : ∀ k, (GoMap.find? (items.erase r.1) k).isSome → k ≠ r.1 := by
      rintro k hk rfl
      simp at hk
    refine ⟨h1, h2, fun n => ?_, r.1 :: ks, ?_, ?_, fun k => ?_⟩
    · rw [h3 n]
      split
      · rfl
      · rename_i hn
        exact GoMap.find?_erase_ne _ (fun h => hn (h ▸ hr1 ▸ htop))
    · rw [hks, List.map_cons, List.append_assoc, List.singleton_append]
      congr 2
      refine List.map_congr_left fun k hk => GoMap.find?_erase_ne _ (hne k ((hmem k).mp hk).2)
    · refine List.pairwise_cons.mpr ⟨fun k hk => ?_, hpw⟩
      have hsome := ((hmem k).mp hk).2
      have hk1 := hne k hsome
      rw [GoMap.find?_erase_ne _ hk1] at hsome
      have := not_lt_top hheap hperm hsome
      rw [hr1] at hk1 ⊢
      simp only [UInt64.lt_iff_toNat_lt, ne_eq, ← UInt64.toNat_inj] at this hk1 ⊢
      omega
    · constructor
      · intro hk
        rcases List.mem_cons.mp hk with hk | hk
        · refine ⟨hk ▸ hr1 ▸ htop, ?_⟩
          rw [hk, ← GoMap.mem_keyList, ← hperm.mem_iff, ← hpop.mem_iff]
          exact List.mem_cons_self
        · obtain ⟨hkt, hks'⟩ := (hmem k).mp hk
          exact ⟨hkt, by rwa [GoMap.find?_erase_ne _ (hne k hks')] at hks'⟩
      · rintro ⟨hkt, hks'⟩
        by_cases hk : k = r.1
        · exact hk ▸ List.mem_cons_self
        · exact List.mem_cons_of_mem _ ((hmem k).mpr ⟨hkt, by rwa [GoMap.find?_erase_ne _ hk]⟩)
  | case3 items removed top rest htop =>
    -- every nonce the map holds is at or above the first, so none is below `threshold`
    have hnone : ∀ n, n < threshold → items.find? n = none := fun n hn =>
      Option.not_isSome_iff_eq_none.mp fun h => by
        have := not_lt_top hheap hperm h
        simp only [UInt64.lt_iff_toNat_lt] at this hn htop
        omega
    refine ⟨hheap, hperm, fun n => by split <;> simp_all, [], by simp, List.Pairwise.nil, ?_⟩
    intro k
    simp only [List.not_mem_nil, false_iff, not_and]
    intro hk
    simp [hnone k hk]

/-- From a valid map, `Forward(threshold)` returns: it takes out the
transactions of exactly the nonces below `threshold`, in increasing nonce
order, keeps the others, and leaves a valid map. -/
theorem forward_spec {m : SortedMap} (hm : m.Valid) (threshold : UInt64) :
    ∃ (ks : List UInt64) (m' : SortedMap), m.forward threshold = .ok (ks.map m.items.find?, m') ∧ m'.Valid ∧
      ks.Pairwise (· < ·) ∧ (∀ k, k ∈ ks ↔ k < threshold ∧ (m.get k).isSome) ∧
      ∀ n, m'.get n = if n < threshold then none else m.get n := by
  obtain ⟨h1, h2, h3, ks, hks, hpw, hmem⟩ := forwardLoop_spec threshold m.items m.index [] hm.heap hm.index
  set r := forwardLoop threshold m.items m.index [] with hr
  -- the map's nonces are those taken out and those left
  have hsplit : m.items.keyList.Perm (ks ++ r.1.keyList) := by
    have hksnd : ks.Nodup := hpw.imp fun {a b} (h : a < b) (he : a = b) => UInt64.lt_irrefl b (he ▸ h)
    have hnd : (ks ++ r.1.keyList).Nodup := by
      refine List.nodup_append.mpr ⟨hksnd, AList.keys_nodup _, fun a ha b hb hab => ?_⟩
      rw [GoMap.mem_keyList, h3, if_pos (hab ▸ ((hmem a).mp ha).1)] at hb
      simp at hb
    refine (List.perm_ext_iff_of_nodup (AList.keys_nodup _) hnd).mpr fun k => ?_
    change k ∈ m.items.keyList ↔ k ∈ ks ++ r.1.keyList
    rw [List.mem_append, hmem, GoMap.mem_keyList, GoMap.mem_keyList, h3]
    split <;> simp_all
  have hlen := hsplit.length_eq
  rw [List.length_append] at hlen
  have hcache : ∀ c, m.cache = some c → ks.length ≤ c.length := by
    intro c hc
    have := (hm.cache c hc).length
    omega
  refine ⟨ks, { items := r.1, index := r.2.1, cache := m.cache.map (·.drop ks.length) }, ?_, ⟨?_, h1, h2, ?_⟩, hpw,
    fun k => by rw [hmem]; rfl, fun n => h3 n⟩
  · have hret : r.2.2 = ks.map m.items.find? := by rw [hks, List.nil_append]
    simp only [forward]
    rw [← hr]
    cases hc : m.cache with
    | none =>
      simp only [hret]
      rfl
    | some c => simp [hret, sliceFrom, hcache c hc]
  · intro n tx h
    rw [h3 n] at h
    split at h
    · cases h
    · exact hm.nonce n tx h
  · intro c hc
    cases hmc : m.cache with
    | none => simp [hmc] at hc
    | some c' =>
      simp only [hmc, Option.map_some, Option.some_inj] at hc
      exact hc ▸ (hm.cache c' hmc).drop hpw hmem h3

/-! ## Runs -/

/-- A call the pool makes on a `sortedMap`. -/
inductive Op where
  | put (tx : Transaction)
  | forward (threshold : UInt64)
  | remove (nonce : UInt64)
  | filter (f : Transaction → Bool)
  | ready (start : UInt64)
  | flatten

/-- One call, `flatten` sorting with `sortSlice`; what the calls return is
dropped. -/
def Op.apply (sortSlice : SortSlice) : Op → SortedMap → Go SortedMap
  | .put tx, m => .ok (m.put tx)
  | .forward threshold, m => (·.2) <$> m.forward threshold
  | .remove nonce, m => .ok (m.remove nonce).2
  | .filter f, m => .ok (m.filter f).2
  | .ready start, m => .ok (m.ready start).2
  | .flatten, m => .ok (m.flatten sortSlice).2

/-- The calls one after another. -/
def run (sortSlice : SortSlice) : List Op → SortedMap → Go SortedMap
  | [], m => .ok m
  | op :: ops, m => do run sortSlice ops (← op.apply sortSlice m)

section Runs

variable {sortSlice : SortSlice}

/-- One call from a valid map never panics and leaves a valid map. -/
theorem Valid.apply (hsort : sortSlice.Sorts) {m : SortedMap} (hm : m.Valid) :
    ∀ op : Op, ∃ m', op.apply sortSlice m = .ok m' ∧ m'.Valid
  | .put tx => ⟨_, rfl, hm.put tx⟩
  | .forward threshold => by
    obtain ⟨ks, m', hf, hv, -⟩ := forward_spec hm threshold
    exact ⟨m', by simp [Op.apply, hf], hv⟩
  | .remove nonce => ⟨_, rfl, hm.remove nonce⟩
  | .filter f => ⟨_, rfl, hm.filter f⟩
  | .ready start => ⟨_, rfl, hm.ready start⟩
  | .flatten => ⟨_, rfl, (hm.flattenCache hsort).2.2⟩

/-- A run of calls from a valid map never panics and ends in a valid map. -/
theorem valid_run (hsort : sortSlice.Sorts) (ops : List Op) :
    ∀ {m : SortedMap}, m.Valid → ∃ m', run sortSlice ops m = .ok m' ∧ m'.Valid := by
  induction ops with
  | nil => exact fun hm => ⟨_, rfl, hm⟩
  | cons op ops ih =>
    intro m hm
    obtain ⟨m₁, h₁, hv₁⟩ := hm.apply hsort op
    obtain ⟨m', hr, hv⟩ := ih hv₁
    exact ⟨m', by simp [run, h₁, hr], hv⟩

end Runs

/-- After any run of `Put`, `Forward`, `Remove`, `Filter`, `Ready` and
`Flatten` calls from `newSortedMap`, `Forward(threshold)` returns: it takes out
the transactions of exactly the nonces below `threshold`, in increasing nonce
order, and keeps the others. -/
theorem forward_after_run (sortSlice : SortSlice) (hsort : sortSlice.Sorts) (ops : List Op) (threshold : UInt64) :
    ∃ (m : SortedMap) (ks : List UInt64) (m' : SortedMap), run sortSlice ops newSortedMap = .ok m ∧
      m.forward threshold = .ok (ks.map m.items.find?, m') ∧ ks.Pairwise (· < ·) ∧
      (∀ k, k ∈ ks ↔ k < threshold ∧ (m.get k).isSome) ∧
      ∀ n, m'.get n = if n < threshold then none else m.get n := by
  obtain ⟨m, hrun, hm⟩ := valid_run hsort ops valid_newSortedMap
  obtain ⟨ks, m', hf, -, hpw, hmem, hget⟩ := forward_spec hm threshold
  exact ⟨m, ks, m', hrun, hf, hpw, hmem, hget⟩

/-- A transaction at nonce `n`. -/
def nonceTx (n : UInt64) : Transaction := ⟨{ PanguTransaction.zero with nonce := n }, none⟩

/-- Two puts, a `Flatten` that caches them, and a `Forward` that cuts the
cache. -/
theorem forward_after_run_flatten :
    insertionSortSlice.Sorts ∧
    ∃ (m : SortedMap) (ks : List UInt64) (m' : SortedMap),
      run insertionSortSlice [.put (nonceTx 1), .put (nonceTx 0), .flatten, .forward 1] newSortedMap = .ok m ∧
      m.forward 2 = .ok (ks.map m.items.find?, m') ∧ ks.Pairwise (· < ·) ∧
      (∀ k, k ∈ ks ↔ k < 2 ∧ (m.get k).isSome) ∧
      ∀ n, m'.get n = if n < 2 then none else m.get n :=
  ⟨insertionSortSlice_sorts,
    forward_after_run insertionSortSlice insertionSortSlice_sorts [.put (nonceTx 1), .put (nonceTx 0), .flatten, .forward 1]
      2⟩

/-- After any run of calls from `newSortedMap`, `Flatten` returns the map's
transactions in increasing nonce order, though it may return the slice an
earlier `Flatten` cached and `Forward` has cut since. -/
theorem flatten_after_run (sortSlice : SortSlice) (hsort : sortSlice.Sorts) (ops : List Op) :
    ∃ m : SortedMap, run sortSlice ops newSortedMap = .ok m ∧ Flattened m.items (m.flatten sortSlice).1 := by
  obtain ⟨m, hrun, hm⟩ := valid_run hsort ops valid_newSortedMap
  exact ⟨m, hrun, (hm.flattenCache hsort).1⟩

theorem flatten_after_run_forward :
    insertionSortSlice.Sorts ∧
    ∃ m : SortedMap,
      run insertionSortSlice [.put (nonceTx 1), .put (nonceTx 0), .flatten, .forward 1] newSortedMap = .ok m ∧
      Flattened m.items (m.flatten insertionSortSlice).1 :=
  ⟨insertionSortSlice_sorts,
    flatten_after_run insertionSortSlice insertionSortSlice_sorts [.put (nonceTx 1), .put (nonceTx 0), .flatten, .forward 1]⟩

end SortedMap

end Pangu
