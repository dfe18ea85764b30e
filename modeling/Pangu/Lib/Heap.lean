import Mathlib

/-!
# Go's container/heap

`container/heap` keeps a slice as a binary min-heap through the slice's own
`Len`, `Less`, `Swap`, `Push` and `Pop`. Here the slice is a list, `Less(i, j)`
compares the items at `i` and `j` by a decidable relation `lt`, and `Push` and
`Pop` append and take off the last item, as every heap of the programs modelled
here does. The package's functions are `up`, `down`, `init`, `push`, `pop` and
`remove`.

A list is a heap (`IsHeap`) when no item is less than the item at its parent
position. For a strict weak order `lt`:

* `isHeap_init`, `IsHeap.push`, `IsHeap.pop`, `IsHeap.remove`: `init` makes a
  heap and the others keep one;
* `perm_init`, `perm_push`, `perm_pop`, `perm_remove`: each only moves the
  items, and `pop` and `remove` return the one they take out;
* `IsHeap.not_lt_head`, `pop_fst`: the first item of a heap is a least one,
  and it is the item `pop` returns.

`down` and `up` are proved by following the item they move: every pair of a
child and its parent is in order except at that item (`DownInv`, `UpInv`).
-/

namespace Heap

variable {α : Type} (lt : α → α → Prop)

/-- The parent of position `j`, `(j - 1) / 2`; as in Go, `0` for `0`. -/
def parent (j : Nat) : Nat := (j - 1) / 2

/-! ## The order of a parent and its child -/

/-- The item at `c`, if there is one, is not less than the item at `p`, if
there is one. -/
def NotBelow (l : List α) (c p : Nat) : Prop :=
  ∀ a b, l[c]? = some a → l[p]? = some b → ¬ lt a b

/-- Every position below `n` whose parent is at or after `k` holds an item not
less than its parent's. -/
def HeapFrom (l : List α) (n k : Nat) : Prop :=
  ∀ c, c < n → 0 < c → k ≤ parent c → NotBelow lt l c (parent c)

/-- No item is less than the item at its parent position. -/
def IsHeap (l : List α) : Prop := HeapFrom lt l l.length 0

/-- What the loop of `down` keeps while the item it moves, having started at
`k`, is at `i`: every position below `n` whose parent is at or after `k`, other
than `i`, is in order with its parent; and unless `i` is `k`, the children of
`i` are in order with the parent of `i`. -/
structure DownInv (l : List α) (n k i : Nat) : Prop where
  le : n ≤ l.length
  start : k ≤ i
  except : ∀ c, c < n → 0 < c → k ≤ parent c → parent c ≠ i → NotBelow lt l c (parent c)
  grand : k < i → ∀ c, c < n → 0 < c → parent c = i → NotBelow lt l c (parent i)

/-- What `up` keeps while the item it moves is at `j`: every position below `n`
other than `j` is in order with its parent, and the children of `j` are in
order with the parent of `j`. -/
structure UpInv (l : List α) (n j : Nat) : Prop where
  le : n ≤ l.length
  lt_n : j < n
  except : ∀ c, c < n → 0 < c → c ≠ j → NotBelow lt l c (parent c)
  grand : 0 < j → ∀ c, c < n → 0 < c → parent c = j → NotBelow lt l c (parent j)

theorem parent_lt {c : Nat} (hc : 0 < c) : parent c < c := by
  unfold parent; omega

theorem parent_eq_iff {c i : Nat} (hc : 0 < c) : parent c = i ↔ c = 2 * i + 1 ∨ c = 2 * i + 2 := by
  unfold parent; omega

theorem parent_eq_self_iff {j : Nat} : parent j = j ↔ j = 0 := by
  unfold parent; omega

theorem HeapFrom.mono {l : List α} {n m k : Nat} (h : HeapFrom lt l n k) (hm : m ≤ n) : HeapFrom lt l m k :=
  fun c hc => h c (by omega)

/-- A heap below `n`, cut to its first `n` items, is a heap. -/
theorem isHeap_dropLast {l : List α} (h : HeapFrom lt l (l.length - 1) 0) : IsHeap lt l.dropLast := by
  intro c hc hc0 _ a b ha hb
  rw [List.length_dropLast] at hc
  rw [List.getElem?_dropLast, if_pos hc] at ha
  rw [List.getElem?_dropLast, if_pos (by have := parent_lt hc0; omega)] at hb
  exact h c hc hc0 (Nat.zero_le _) a b ha hb

section StrictWeak

variable {lt} [IsStrictWeakOrder α lt]

/-- In a strict weak order, not being less is transitive. -/
theorem not_lt_trans {a b c : α} (hab : ¬ lt a b) (hbc : ¬ lt b c) : ¬ lt a c := by
  intro hac
  have hba : ¬ lt b a := fun hba => hbc (IsTrans.trans _ _ _ hba hac)
  have hcb : ¬ lt c b := fun hcb => hab (IsTrans.trans _ _ _ hac hcb)
  exact (IsStrictWeakOrder.incomp_trans a b c ⟨hab, hba⟩ ⟨hbc, hcb⟩).1 hac

theorem notBelow_self (l : List α) (i : Nat) : NotBelow lt l i i := by
  intro a b ha hb
  rw [ha, Option.some_inj] at hb
  exact hb ▸ irrefl a

theorem NotBelow.trans {l : List α} {c p q : Nat} (h₁ : NotBelow lt l c p) (h₂ : NotBelow lt l p q)
    (hp : p < l.length) : NotBelow lt l c q := by
  intro a b ha hb
  exact not_lt_trans (h₁ a l[p] ha (List.getElem?_eq_getElem hp)) (h₂ l[p] b (List.getElem?_eq_getElem hp) hb)

/-- In a heap below `n`, no item below `n` is less than the first. -/
theorem HeapFrom.notBelow_zero {l : List α} {n : Nat} (h : HeapFrom lt l n 0) (hn : n ≤ l.length) :
    ∀ c, c < n → NotBelow lt l c 0 := by
  intro c
  induction c using Nat.strong_induction_on with
  | _ c ih =>
    intro hc
    rcases Nat.eq_zero_or_pos c with rfl | hc0
    · exact notBelow_self l 0
    · have hp := parent_lt hc0
      exact (h c hc hc0 (Nat.zero_le _)).trans (ih _ hp (by omega)) (by omega)

/-- The first item of a heap is a least one. -/
theorem IsHeap.not_lt_head {l : List α} (h : IsHeap lt l) (hne : l ≠ []) :
    ∀ x ∈ l, ¬ lt x (l.head hne) := by
  intro x hx
  obtain ⟨c, hc, rfl⟩ := List.getElem_of_mem hx
  exact h.notBelow_zero le_rfl c hc _ _ (List.getElem?_eq_getElem hc)
    (by rw [List.head_eq_getElem]; exact List.getElem?_eq_getElem _)

/-- The children of a position of a heap are in order with its parent. -/
theorem HeapFrom.notBelow_grand {l : List α} {n i c : Nat} (h : HeapFrom lt l n 0) (hn : n ≤ l.length)
    (hc : c < n) (hc0 : 0 < c) (hpc : parent c = i) : NotBelow lt l c (parent i) := by
  have hi : i < c := hpc ▸ parent_lt hc0
  rcases Nat.eq_zero_or_pos i with rfl | hi0
  · rw [parent_eq_self_iff.mpr rfl]
    exact hpc ▸ h c hc hc0 (Nat.zero_le _)
  · exact (hpc ▸ h c hc hc0 (Nat.zero_le _)).trans (h i (by omega) hi0 (Nat.zero_le _)) (by omega)

theorem HeapFrom.upInv {l : List α} {n j : Nat} (h : HeapFrom lt l n 0) (hn : n ≤ l.length) (hj : j < n) :
    UpInv lt l n j where
  le := hn
  lt_n := hj
  except c hc hc0 _ := h c hc hc0 (Nat.zero_le _)
  grand _ _ hc hc0 hpc := h.notBelow_grand hn hc hc0 hpc

end StrictWeak

section

variable {lt}

theorem DownInv.finish {l : List α} {n k i : Nat} (h : DownInv lt l n k i)
    (hstop : ∀ c, c < n → 0 < c → parent c = i → NotBelow lt l c i) : HeapFrom lt l n k := by
  intro c hc hc0 hk
  by_cases hpi : parent c = i
  · exact hpi ▸ hstop c hc hc0 hpi
  · exact h.except c hc hc0 hk hpi

end

/-! ## Swapping two items -/

/-- `h.Swap(i, j)`. A position past the end, which no call below reaches,
leaves the list as it is. -/
def swap (l : List α) (i j : Nat) : List α :=
  match l[i]?, l[j]? with
  | some a, some b => (l.set i b).set j a
  | _, _ => l

theorem length_swap (l : List α) (i j : Nat) : (swap l i j).length = l.length := by
  unfold swap
  split <;> simp

theorem getElem?_swap {l : List α} {i j : Nat} (hi : i < l.length) (hj : j < l.length) (k : Nat) :
    (swap l i j)[k]? = l[Equiv.swap i j k]? := by
  simp only [swap, List.getElem?_eq_getElem hi, List.getElem?_eq_getElem hj, List.getElem?_set,
    List.length_set, Equiv.swap_apply_def]
  by_cases hkj : k = j
  · subst hkj
    by_cases hki : k = i <;> simp_all
  · by_cases hki : k = i
    · subst hki
      simp [Ne.symm hkj, hi]
    · simp [hkj, hki, Ne.symm hkj, Ne.symm hki]

theorem getElem?_swap_of_ne {l : List α} {i j k : Nat} (hki : k ≠ i) (hkj : k ≠ j) :
    (swap l i j)[k]? = l[k]? := by
  unfold swap
  split
  · simp [Ne.symm hki, Ne.symm hkj]
  · rfl

theorem perm_swap (l : List α) (i j : Nat) : (swap l i j).Perm l := by
  classical
  unfold swap
  split
  · rename_i a b ha hb
    obtain ⟨hi, rfl⟩ := List.getElem?_eq_some_iff.mp ha
    obtain ⟨hj, rfl⟩ := List.getElem?_eq_some_iff.mp hb
    rw [List.perm_iff_count]
    intro x
    have hmem : (if (l[i] == x) = true then 1 else 0) ≤ List.count x l := by
      split
      · rename_i hx
        exact List.count_pos_iff.mpr (by rw [← beq_iff_eq.mp hx]; exact List.getElem_mem hi)
      · exact Nat.zero_le _
    rw [List.count_set (by simpa using hj), List.count_set hi, List.getElem_set]
    split <;> simp_all
  · exact List.Perm.refl l

theorem notBelow_swap {l : List α} {i j : Nat} (hi : i < l.length) (hj : j < l.length) (c p : Nat) :
    NotBelow lt (swap l i j) c p ↔ NotBelow lt l (Equiv.swap i j c) (Equiv.swap i j p) := by
  simp only [NotBelow, getElem?_swap hi hj]

section

variable {lt}

/-- Away from `i` and the last position, a heap with its last item swapped to
`i` is in order as the heap is. -/
theorem IsHeap.notBelow_swap_last {l : List α} (h : IsHeap lt l) {i c : Nat} (hi : i < l.length - 1)
    (hc : c < l.length - 1) (hc0 : 0 < c) (hci : c ≠ i) (hpi : parent c ≠ i) :
    NotBelow lt (swap l i (l.length - 1)) c (parent c) := by
  have hp := parent_lt hc0
  rw [notBelow_swap lt (by omega) (by omega), Equiv.swap_apply_of_ne_of_ne hci (by omega),
    Equiv.swap_apply_of_ne_of_ne hpi (by omega)]
  exact h c (by omega) hc0 (Nat.zero_le _)

variable [IsStrictWeakOrder α lt]

/-- There, a child of `i` is not below the parent of `i`. -/
theorem IsHeap.notBelow_swap_grand {l : List α} (h : IsHeap lt l) {i c : Nat} (hi : i < l.length - 1)
    (hi0 : 0 < i) (hc : c < l.length - 1) (hc0 : 0 < c) (hpc : parent c = i) :
    NotBelow lt (swap l i (l.length - 1)) c (parent i) := by
  have hp := parent_lt hc0
  have hpi := parent_lt hi0
  rw [notBelow_swap lt (by omega) (by omega), Equiv.swap_apply_of_ne_of_ne (by omega) (by omega),
    Equiv.swap_apply_of_ne_of_ne (by omega) (by omega)]
  exact HeapFrom.notBelow_grand h le_rfl (by omega) hc0 hpc

end

/-! ## The package -/

section Package

variable [DecidableRel lt]

/-- `h.Less(i, j)`. A position past the end, which no call below reaches,
compares as false. -/
def less (l : List α) (i j : Nat) : Bool :=
  match l[i]?, l[j]? with
  | some a, some b => decide (lt a b)
  | _, _ => false

/-- `up(h, j)`: the item at `j` moves up while it is less than its parent. -/
def up (l : List α) (j : Nat) : List α :=
  if parent j = j ∨ less lt l j (parent j) = false then l
  else up (swap l (parent j) j) (parent j)
termination_by j
decreasing_by unfold parent at *; omega

/-- The child of `i` that `down` compares with it: the left one, or the right
one when that is below `n` and less than the left. -/
def lesserChild (l : List α) (i n : Nat) : Nat :=
  if 2 * i + 2 < n ∧ less lt l (2 * i + 2) (2 * i + 1) = true then 2 * i + 2 else 2 * i + 1

/-- The loop of `down(h, i0, n)` from position `i`: while `i` has a child below
`n` and the lesser child is less than it, the item at `i` trades places with
that child. The list, and the position the item stops at. -/
def downLoop (l : List α) (i n : Nat) : List α × Nat :=
  if 2 * i + 1 < n then
    let j := lesserChild lt l i n
    if less lt l j i then downLoop (swap l i j) j n else (l, i)
  else (l, i)
termination_by n - i
decreasing_by unfold lesserChild; split <;> omega

/-- `down(h, i0, n)`: the list, and whether the item at `i0` moved. -/
def down (l : List α) (i0 n : Nat) : List α × Bool :=
  let r := downLoop lt l i0 n
  (r.1, decide (i0 < r.2))

/-- `heap.Init(h)`: `down` from every position that has a child, the last first. -/
def init (l : List α) : List α :=
  let n := l.length
  (List.range (n / 2)).reverse.foldl (fun l i => (down lt l i n).1) l

/-- `heap.Push(h, x)`: `x` appended, then moved up. -/
def push (l : List α) (x : α) : List α := up lt (l ++ [x]) l.length

/-! ## Lengths and positions -/

theorem lesserChild_eq (l : List α) (i n : Nat) :
    lesserChild lt l i n = 2 * i + 1 ∨ lesserChild lt l i n = 2 * i + 2 := by
  unfold lesserChild
  split <;> simp

theorem lt_lesserChild (l : List α) (i n : Nat) : i < lesserChild lt l i n := by
  rcases lesserChild_eq lt l i n with h | h <;> omega

theorem lesserChild_lt (l : List α) {i n : Nat} (h : 2 * i + 1 < n) : lesserChild lt l i n < n := by
  unfold lesserChild
  split <;> omega

theorem length_up (l : List α) (j : Nat) : (up lt l j).length = l.length := by
  fun_induction up lt l j <;> simp_all [length_swap]

theorem length_downLoop (l : List α) (i n : Nat) : (downLoop lt l i n).1.length = l.length := by
  fun_induction downLoop lt l i n <;> simp_all [length_swap]

theorem length_down (l : List α) (i n : Nat) : (down lt l i n).1.length = l.length :=
  length_downLoop lt l i n

theorem getElem?_up_of_lt (l : List α) {j p : Nat} (hp : j < p) : (up lt l j)[p]? = l[p]? := by
  fun_induction up lt l j with
  | case1 => rfl
  | case2 l j hstay ih =>
    have hq : parent j ≤ j := by unfold parent; omega
    rw [ih (by omega), getElem?_swap_of_ne (by omega) (by omega)]

theorem perm_up (l : List α) (j : Nat) : (up lt l j).Perm l := by
  fun_induction up lt l j with
  | case1 => exact List.Perm.refl _
  | case2 l j _ ih => exact ih.trans (perm_swap _ _ _)

theorem getElem?_downLoop_of_le (l : List α) (i n : Nat) {p : Nat} (hp : n ≤ p) :
    (downLoop lt l i n).1[p]? = l[p]? := by
  fun_induction downLoop lt l i n with
  | case1 l i hi j _ ih =>
    have hj := lesserChild_lt lt l hi
    have hij := lt_lesserChild lt l i n
    rw [ih, getElem?_swap_of_ne (by omega) (by omega)]
  | case2 => rfl
  | case3 => rfl

theorem perm_downLoop (l : List α) (i n : Nat) : (downLoop lt l i n).1.Perm l := by
  fun_induction downLoop lt l i n with
  | case1 l i _ j _ ih => exact ih.trans (perm_swap _ _ _)
  | case2 => exact List.Perm.refl _
  | case3 => exact List.Perm.refl _

theorem less_eq_false_iff {l : List α} {i j : Nat} : less lt l i j = false ↔ NotBelow lt l i j := by
  unfold less NotBelow
  split
  · rename_i a b ha hb
    simp [ha, hb]
  · rename_i hn
    simp only [true_iff]
    intro a b ha hb
    exact (hn a b ha hb).elim

/-- `down` from a position all of whose children are not less than it moves nothing. -/
theorem downLoop_of_stay (l : List α) {i n : Nat}
    (h : ∀ c, c < n → 0 < c → parent c = i → NotBelow lt l c i) : downLoop lt l i n = (l, i) := by
  rw [downLoop]
  split
  · rename_i hi
    have hj := lesserChild_lt lt l hi
    have hj0 : 0 < lesserChild lt l i n := by have := lt_lesserChild lt l i n; omega
    have hstay : less lt l (lesserChild lt l i n) i = false := (less_eq_false_iff lt).mpr
      (h _ hj hj0 ((parent_eq_iff hj0).mpr (lesserChild_eq lt l i n)))
    simp only [hstay, Bool.false_eq_true, ite_false]
  · rfl

/-- `heap.Pop(h)`: the first item trades places with the last, which moves
down among the others, and is taken off the end. -/
def pop (l : List α) (h : l ≠ []) : α × List α :=
  let l' := (down lt (swap l 0 (l.length - 1)) 0 (l.length - 1)).1
  have hl' : l' ≠ [] := List.ne_nil_of_length_pos (by
    rw [length_down, length_swap]; exact List.length_pos_of_ne_nil h)
  (l'.getLast hl', l'.dropLast)

/-- The list `heap.Remove(h, i)` takes the last item off: unless `i` is the last
position, the item at `i` trades places with the last, which moves down among
the others or, when it does not move, up. -/
def removeSwapped (l : List α) (i : Nat) : List α :=
  let n := l.length - 1
  if n = i then l
  else
    let r := down lt (swap l i n) i n
    if r.2 then r.1 else up lt r.1 i

theorem length_removeSwapped (l : List α) (i : Nat) : (removeSwapped lt l i).length = l.length := by
  dsimp only [removeSwapped]
  split
  · rfl
  · split <;> simp [length_down, length_up, length_swap]

/-- `heap.Remove(h, i)`. -/
def remove (l : List α) (i : Nat) (hi : i < l.length) : α × List α :=
  let l' := removeSwapped lt l i
  have hl' : l' ≠ [] := List.ne_nil_of_length_pos (by
    rw [length_removeSwapped]; omega)
  (l'.getLast hl', l'.dropLast)

theorem getLast_of_getElem? {l : List α} (h : l ≠ []) {n : Nat} {a : α} (hn : l.length = n + 1)
    (ha : l[n]? = some a) : l.getLast h = a := by
  have hl := List.getLast?_eq_getElem? (l := l)
  rw [List.getLast?_eq_some_getLast h, hn, Nat.add_sub_cancel, ha] at hl
  exact Option.some_injective _ hl

theorem perm_getLast_dropLast {l m : List α} (h : l ≠ []) (hl : l.Perm m) :
    (l.getLast h :: l.dropLast).Perm m :=
  (List.perm_append_singleton _ _).symm.trans ((List.dropLast_append_getLast h).symm ▸ hl)

theorem perm_foldl_down (n : Nat) : ∀ (is : List Nat) (l : List α),
    (is.foldl (fun l i => (down lt l i n).1) l).Perm l
  | [], _ => List.Perm.refl _
  | i :: is, l => (perm_foldl_down n is _).trans (perm_downLoop lt l i n)

theorem perm_init (l : List α) : (init lt l).Perm l := perm_foldl_down lt _ _ l

theorem perm_push (l : List α) (x : α) : (push lt l x).Perm (l ++ [x]) := perm_up lt _ _

/-- `pop` returns the first item. -/
theorem pop_fst (l : List α) (h : l ≠ []) : (pop lt l h).1 = l.head h := by
  have h0 := List.length_pos_of_ne_nil h
  apply getLast_of_getElem? _ (n := l.length - 1) (by rw [length_down, length_swap]; omega)
  rw [down, getElem?_downLoop_of_le lt _ _ _ le_rfl, getElem?_swap (by omega) (by omega),
    Equiv.swap_apply_right, List.head_eq_getElem, List.getElem?_eq_getElem]

theorem perm_pop (l : List α) (h : l ≠ []) : ((pop lt l h).1 :: (pop lt l h).2).Perm l :=
  perm_getLast_dropLast _ ((perm_downLoop lt _ _ _).trans (perm_swap _ _ _))

/-- `remove` returns the item at the position it is given. -/
theorem remove_fst (l : List α) {i : Nat} (hi : i < l.length) : (remove lt l i hi).1 = l[i] := by
  apply getLast_of_getElem? _ (n := l.length - 1) (by rw [length_removeSwapped]; omega)
  dsimp only [removeSwapped]
  split
  · rename_i hni
    rw [hni, List.getElem?_eq_getElem hi]
  · rename_i hni
    have hswap : (swap l i (l.length - 1))[l.length - 1]? = some l[i] := by
      rw [getElem?_swap hi (by omega), Equiv.swap_apply_right, List.getElem?_eq_getElem hi]
    have hdown := getElem?_downLoop_of_le lt (swap l i (l.length - 1)) i (l.length - 1) (le_refl _)
    split
    · rw [down, hdown, hswap]
    · rw [getElem?_up_of_lt lt _ (by omega), down, hdown, hswap]

theorem perm_remove (l : List α) {i : Nat} (hi : i < l.length) :
    ((remove lt l i hi).1 :: (remove lt l i hi).2).Perm l := by
  apply perm_getLast_dropLast
  dsimp only [removeSwapped]
  split
  · exact List.Perm.refl l
  · split
    · exact (perm_downLoop lt _ _ _).trans (perm_swap _ _ _)
    · exact ((perm_up lt _ _).trans (perm_downLoop lt _ _ _)).trans (perm_swap _ _ _)

section

variable {lt}

theorem UpInv.finish {l : List α} {n j : Nat} (h : UpInv lt l n j)
    (hstop : parent j = j ∨ less lt l j (parent j) = false) : HeapFrom lt l n 0 := by
  intro c hc hc0 _
  by_cases hcj : c = j
  · subst hcj
    rcases hstop with hs | hs
    · exact absurd (parent_eq_self_iff.mp hs) (by omega)
    · exact (less_eq_false_iff lt).mp hs
  · exact h.except c hc hc0 hcj

end

section StrictWeak

variable {lt} [IsStrictWeakOrder α lt]

theorem notBelow_of_less {l : List α} {i j : Nat} (h : less lt l i j = true) : NotBelow lt l j i := by
  intro b a hb ha
  simp only [less, ha, hb, decide_eq_true_eq] at h
  exact asymm h

/-- A position not less than `p` is not less than an item less than `p`'s. -/
theorem NotBelow.of_less {l : List α} {s p j : Nat} (h : NotBelow lt l s p) (hless : less lt l j p = true) :
    NotBelow lt l s j := by
  intro a b ha hb hab
  cases hp : l[p]? with
  | none => simp [less, hb, hp] at hless
  | some c =>
    simp only [less, hb, hp, decide_eq_true_eq] at hless
    exact h a c ha hp (IsTrans.trans _ _ _ hab hless)

/-- The child `down` picks is not greater than either child. -/
theorem notBelow_lesserChild (l : List α) {i n c : Nat} (hc : c < n) (hc0 : 0 < c) (hpc : parent c = i) :
    NotBelow lt l c (lesserChild lt l i n) := by
  unfold lesserChild
  rcases (parent_eq_iff hc0).mp hpc with rfl | rfl
  · split
    · rename_i h
      exact notBelow_of_less h.2
    · exact notBelow_self l _
  · split
    · exact notBelow_self l _
    · rename_i h
      exact (less_eq_false_iff lt).mp (by simpa [hc] using h)

/-! ## `down` -/

/-- One swap of `down` with the lesser child keeps the invariant, now at the child. -/
theorem DownInv.step {l : List α} {n k i : Nat} (h : DownInv lt l n k i) (hi : 2 * i + 1 < n)
    (hless : less lt l (lesserChild lt l i n) i = true) :
    DownInv lt (swap l i (lesserChild lt l i n)) n k (lesserChild lt l i n) := by
  set j := lesserChild lt l i n with hjdef
  have hj : j = 2 * i + 1 ∨ j = 2 * i + 2 := lesserChild_eq lt l i n
  have hjn : j < n := lesserChild_lt lt l hi
  have hpj : parent j = i := (parent_eq_iff (by omega)).mpr hj
  have hil : i < l.length := by have := h.le; omega
  have hjl : j < l.length := by have := h.le; omega
  refine ⟨by rw [length_swap]; exact h.le, by have := h.start; omega, ?_, ?_⟩
  · intro c hc hc0 hk hcj
    rw [notBelow_swap lt hil hjl]
    have hpc := parent_lt hc0
    by_cases hci : c = i
    · -- the moved item's old place now holds the child, which is in order with `i`'s parent
      subst hci
      rw [Equiv.swap_apply_left, Equiv.swap_apply_of_ne_of_ne (by omega) (by omega)]
      exact h.grand (by omega) j hjn (by omega) hpj
    · by_cases hcj' : c = j
      · subst hcj'
        rw [hpj, Equiv.swap_apply_right, Equiv.swap_apply_left]
        exact notBelow_of_less hless
      · rw [Equiv.swap_apply_of_ne_of_ne hci hcj']
        by_cases hpi : parent c = i
        · rw [hpi, Equiv.swap_apply_left]
          exact notBelow_lesserChild l hc hc0 hpi
        · rw [Equiv.swap_apply_of_ne_of_ne hpi hcj]
          exact h.except c hc hc0 hk hpi
  · intro _ c hc hc0 hpc
    have hjc := hpc ▸ parent_lt hc0
    rw [notBelow_swap lt hil hjl, hpj, Equiv.swap_apply_of_ne_of_ne (by omega) (by omega),
      Equiv.swap_apply_left]
    exact hpc ▸ h.except c hc hc0 (by have := h.start; omega) (by omega)

/-- The loop of `down` ends with every pair below `n` whose parent is at or
after where it started in order. -/
theorem downLoop_heapFrom {l : List α} {n k i : Nat} (h : DownInv lt l n k i) :
    HeapFrom lt (downLoop lt l i n).1 n k := by
  fun_induction downLoop lt l i n with
  | case1 l i hi j hless ih => exact ih (h.step hi hless)
  | case2 l i hi j hless =>
    refine h.finish fun c hc hc0 hpc => ?_
    have hil : j < l.length := by have := lesserChild_lt lt l hi; have := h.le; omega
    exact (notBelow_lesserChild l hc hc0 hpc).trans ((less_eq_false_iff lt).mp (by simpa using hless)) hil
  | case3 l i hi =>
    refine h.finish fun c hc hc0 hpc => ?_
    have := (parent_eq_iff hc0).mp hpc
    omega

/-! ## `up` -/

/-- One swap of `up` with the parent keeps the invariant, now at the parent. -/
theorem UpInv.step {l : List α} {n j : Nat} (h : UpInv lt l n j) (hj : 0 < j)
    (hless : less lt l j (parent j) = true) : UpInv lt (swap l (parent j) j) n (parent j) := by
  have hp := parent_lt hj
  have hjl : j < l.length := by have := h.le; have := h.lt_n; omega
  have hpl : parent j < l.length := by omega
  refine ⟨by rw [length_swap]; exact h.le, by have := h.lt_n; omega, ?_, ?_⟩
  · intro c hc hc0 hcp
    rw [notBelow_swap lt hpl hjl]
    by_cases hcj : c = j
    · subst hcj
      rw [Equiv.swap_apply_right, Equiv.swap_apply_left]
      exact notBelow_of_less hless
    · rw [Equiv.swap_apply_of_ne_of_ne hcp hcj]
      by_cases hpp : parent c = parent j
      · -- the other child of `parent j` is in order with the smaller item that moved up
        rw [hpp, Equiv.swap_apply_left]
        exact (hpp ▸ h.except c hc hc0 hcj).of_less hless
      · by_cases hpc : parent c = j
        · rw [hpc, Equiv.swap_apply_right]
          exact h.grand hj c hc hc0 hpc
        · rw [Equiv.swap_apply_of_ne_of_ne hpp hpc]
          exact h.except c hc hc0 hcj
  · intro hp0 c hc hc0 hpc
    have hpp := parent_lt hp0
    have hq : Equiv.swap (parent j) j (parent (parent j)) = parent (parent j) :=
      Equiv.swap_apply_of_ne_of_ne (by omega) (by omega)
    rw [notBelow_swap lt hpl hjl, hq]
    have hup : NotBelow lt l (parent j) (parent (parent j)) := h.except _ (by have := h.lt_n; omega) hp0 (by omega)
    by_cases hcj : c = j
    · subst hcj
      rw [Equiv.swap_apply_right]
      exact hup
    · have hcp : c ≠ parent j := by have := parent_lt hc0; omega
      rw [Equiv.swap_apply_of_ne_of_ne hcp hcj]
      exact (hpc ▸ h.except c hc hc0 hcj).trans hup hpl

theorem up_heapFrom {l : List α} {n j : Nat} (h : UpInv lt l n j) : HeapFrom lt (up lt l j) n 0 := by
  fun_induction up lt l j with
  | case1 l j hstop => exact h.finish hstop
  | case2 l j hmove ih =>
    have hj : 0 < j := by
      rcases Nat.eq_zero_or_pos j with rfl | hj
      · exact absurd (Or.inl (parent_eq_self_iff.mpr rfl)) hmove
      · exact hj
    exact ih (h.step hj (by simpa using (not_or.mp hmove).2))

/-! ## The operations keep a heap -/

theorem heapFrom_foldl_down {n : Nat} : ∀ (m : Nat) (l : List α), l.length = n → HeapFrom lt l n m →
    HeapFrom lt ((List.range m).reverse.foldl (fun l i => (down lt l i n).1) l) n 0
  | 0, _, _, h => h
  | m + 1, l, hl, h => by
    rw [List.range_succ, List.reverse_append, List.reverse_singleton, List.singleton_append, List.foldl_cons]
    -- `down` from `m` restores the pairs whose parent is `m`, on top of those after it
    have hd : DownInv lt l n m m :=
      ⟨hl.ge, le_rfl, fun c hc hc0 hk hne => h c hc hc0 (by omega), fun hm => absurd hm (lt_irrefl m)⟩
    exact heapFrom_foldl_down m _ (by rw [length_down, hl]) (downLoop_heapFrom hd)

/-- `heap.Init` makes a heap. -/
theorem isHeap_init (l : List α) : IsHeap lt (init lt l) := by
  unfold IsHeap
  rw [(perm_init lt l).length_eq]
  apply heapFrom_foldl_down _ l rfl
  intro c hc hc0 hk
  unfold parent at hk
  omega

example : init (fun a b : Nat => a < b) [5, 3, 8, 1] = [1, 3, 8, 5] := by decide +kernel

/-- `heap.Push` keeps a heap. -/
theorem IsHeap.push {l : List α} (h : IsHeap lt l) (x : α) : IsHeap lt (push lt l x) := by
  have hu : UpInv lt (l ++ [x]) (l.length + 1) l.length := by
    refine ⟨by simp, by omega, ?_, ?_⟩
    · intro c hc hc0 hcn a b ha hb
      have hp := parent_lt hc0
      rw [List.getElem?_append_left (by omega)] at ha hb
      exact h c (by omega) hc0 (Nat.zero_le _) a b ha hb
    · intro _ c hc hc0 hpc
      have := (parent_eq_iff hc0).mp hpc
      omega
  unfold IsHeap
  rw [Heap.push, length_up, List.length_append, List.length_singleton]
  exact up_heapFrom hu

/-- `heap.Pop` keeps a heap. -/
theorem IsHeap.pop {l : List α} (h : IsHeap lt l) (hne : l ≠ []) : IsHeap lt (Heap.pop lt l hne).2 := by
  have h0 := List.length_pos_of_ne_nil hne
  have hd : DownInv lt (swap l 0 (l.length - 1)) (l.length - 1) 0 0 := by
    refine ⟨by rw [length_swap]; omega, le_rfl, ?_, fun h00 => absurd h00 (lt_irrefl 0)⟩
    intro c hc hc0 _ hp0
    have hp := parent_lt hc0
    rw [notBelow_swap lt (by omega) (by omega), Equiv.swap_apply_of_ne_of_ne (by omega) (by omega),
      Equiv.swap_apply_of_ne_of_ne hp0 (by omega)]
    exact h c (by omega) hc0 (Nat.zero_le _)
  apply isHeap_dropLast
  rw [length_down, length_swap]
  exact downLoop_heapFrom hd

/-- `heap.Remove` keeps a heap. -/
theorem IsHeap.remove {l : List α} (h : IsHeap lt l) {i : Nat} (hi : i < l.length) :
    IsHeap lt (Heap.remove lt l i hi).2 := by
  apply isHeap_dropLast
  rw [length_removeSwapped]
  dsimp only [removeSwapped]
  split
  · exact HeapFrom.mono lt h (Nat.sub_le _ _)
  · rename_i hni
    set n := l.length - 1 with hn
    have hin : i < n := by omega
    have hnl : n < l.length := by omega
    have hexcept : ∀ c, c < n → 0 < c → c ≠ i → parent c ≠ i → NotBelow lt (swap l i n) c (parent c) :=
      fun c hc hc0 hci hpi => h.notBelow_swap_last hin hc hc0 hci hpi
    have hgrand : ∀ c, c < n → 0 < c → parent c = i → NotBelow lt l c (parent i) :=
      fun c hc hc0 hpc => HeapFrom.notBelow_grand h le_rfl (by omega) hc0 hpc
    have hgrand' : 0 < i → ∀ c, c < n → 0 < c → parent c = i → NotBelow lt (swap l i n) c (parent i) :=
      fun hi0 c hc hc0 hpc => h.notBelow_swap_grand hin hi0 hc hc0 hpc
    by_cases hup : NotBelow lt (swap l i n) i (parent i)
    · -- the last item is not less than the parent of `i`: `down` puts it in place
      have hd : DownInv lt (swap l i n) n 0 i := by
        refine ⟨by rw [length_swap]; omega, Nat.zero_le _, ?_, hgrand'⟩
        intro c hc hc0 _ hpi
        by_cases hci : c = i
        · exact hci ▸ hup
        · exact hexcept c hc hc0 hci hpi
      have hdown := downLoop_heapFrom hd
      split
      · exact hdown
      · exact up_heapFrom (hdown.upInv (by rw [length_downLoop, length_swap]; omega) hin)
    · -- the last item is less than the parent of `i`, so not greater than its children: it only moves up
      have hi0 : 0 < i := by
        rcases Nat.eq_zero_or_pos i with h0 | h0
        · subst h0
          exact absurd (notBelow_self _ 0) hup
        · exact h0
      have hpi := parent_lt hi0
      obtain ⟨y, z, hy, hz, hyz⟩ : ∃ y z, (swap l i n)[i]? = some y ∧ (swap l i n)[parent i]? = some z ∧ lt y z := by
        simpa [NotBelow] using hup
      rw [getElem?_swap hi hnl, Equiv.swap_apply_of_ne_of_ne (by omega) (by omega)] at hz
      have hchild : ∀ c, c < n → 0 < c → parent c = i → NotBelow lt (swap l i n) c i := by
        intro c hc hc0 hpc a b ha hb hab
        have hp := parent_lt hc0
        rw [hy, Option.some_inj] at hb
        rw [getElem?_swap hi hnl, Equiv.swap_apply_of_ne_of_ne (by omega) (by omega)] at ha
        exact hgrand c hc hc0 hpc a z ha hz (IsTrans.trans _ _ _ hab (hb ▸ hyz))
      rw [down, downLoop_of_stay lt _ hchild]
      simp only [lt_irrefl, decide_false, Bool.false_eq_true, ite_false]
      refine up_heapFrom ⟨by rw [length_swap]; omega, hin, ?_, hgrand'⟩
      intro c hc hc0 hci
      by_cases hpc : parent c = i
      · exact hpc ▸ hchild c hc hc0 hpc
      · exact hexcept c hc hc0 hci hpc

end StrictWeak

end Package

end Heap
