import Mathlib

/-!
# Lists sorted by key

A finite map kept as a list of entries whose keys strictly increase, over any
linear order of the keys: the in-order content of a binary search tree. The
map's operations are `upsert` (set the value at a key), `erase` (drop a key)
and `List.lookup`; `prefixSum` adds up the values of the keys up to a bound.

A tree operation that recurses into one side of a node sees the content cut
at the node's entry, `l₁ ++ e :: l₂`; the lemmas say what each operation does
to such a list:

* `upsert_append_of_lt`, `upsert_append`: an upsert below the entry stays in
  `l₁`, one above the keys of `l₁` passes over them;
* `sorted_upsert`, `sorted_erase`: both keep the keys increasing;
* `lookup_upsert`, `lookup_erase`: what they do to the map, and
  `mem_iff_lookup_eq`: a sorted list is the graph of its lookup;
* `lookup_append_cons_of_lt`, `lookup_append_cons_of_gt`,
  `lookup_append_cons_self`, and the same three for `prefixSum`: a read of a
  sorted list cut at an entry.
-/

namespace KeyedList

variable {K V : Type}

section Order

variable [LT K]

/-- The keys strictly increase. -/
def Sorted (l : List (K × V)) : Prop := l.Pairwise fun a b => a.1 < b.1

theorem Sorted.cons_iff {e : K × V} {l : List (K × V)} :
    Sorted (e :: l) ↔ (∀ y ∈ l, e.1 < y.1) ∧ Sorted l := List.pairwise_cons

theorem Sorted.append_cons {l₁ l₂ : List (K × V)} {e : K × V} (h : Sorted (l₁ ++ e :: l₂)) :
    Sorted l₁ ∧ Sorted l₂ ∧ (∀ x ∈ l₁, x.1 < e.1) ∧ ∀ y ∈ l₂, e.1 < y.1 := by
  obtain ⟨h₁, h₂, h₁₂⟩ := List.pairwise_append.mp h
  obtain ⟨he, h₂⟩ := List.pairwise_cons.mp h₂
  exact ⟨h₁, h₂, fun x hx => h₁₂ x hx e List.mem_cons_self, he⟩

variable [LE K] [Std.LawfulOrderLT K]

/-- Every key of the list is on one side of `k`, so none is `k`. -/
theorem ne_of_forall_lt {l : List (K × V)} {k : K} (h : ∀ x ∈ l, x.1 < k) : ∀ x ∈ l, x.1 ≠ k :=
  fun x hx => Std.ne_of_lt (h x hx)

theorem ne_of_forall_gt {l : List (K × V)} {k : K} (h : ∀ x ∈ l, k < x.1) : ∀ x ∈ l, x.1 ≠ k :=
  fun x hx => (Std.ne_of_lt (h x hx)).symm

end Order

/-! ## Erase -/

section Erase

variable [DecidableEq K]

/-- The list without the entries of `k`. -/
def erase (k : K) (l : List (K × V)) : List (K × V) := l.filter fun e => e.1 ≠ k

/-! ## Erase -/
theorem erase_append (k : K) (l₁ l₂ : List (K × V)) : erase k (l₁ ++ l₂) = erase k l₁ ++ erase k l₂ :=
  List.filter_append _ _

theorem erase_cons_of_ne {k : K} {e : K × V} (h : e.1 ≠ k) (l : List (K × V)) :
    erase k (e :: l) = e :: erase k l := by
  simp [erase, h]

theorem erase_cons_self (k : K) (v : V) (l : List (K × V)) : erase k ((k, v) :: l) = erase k l := by
  simp [erase]

theorem erase_of_forall_ne {k : K} {l : List (K × V)} (h : ∀ x ∈ l, x.1 ≠ k) : erase k l = l :=
  List.filter_eq_self.mpr fun x hx => by simpa using h x hx

theorem lookup_eq_none_of_forall_ne {k : K} {l : List (K × V)} (h : ∀ x ∈ l, x.1 ≠ k) : l.lookup k = none :=
  List.lookup_eq_none_iff.mpr fun x hx => bne_iff_ne.mpr (Ne.symm (h x hx))

theorem lookup_erase (k k' : K) :
    ∀ l : List (K × V), (erase k l).lookup k' = if k' = k then none else l.lookup k'
  | [] => by simp [erase]
  | (a, b) :: l => by
    by_cases ha : a = k
    · subst ha
      rw [erase_cons_self, lookup_erase a k' l]
      by_cases h : k' = a
      · simp [h]
      · simp [List.lookup_cons, h, beq_false_of_ne h]
    · rw [erase_cons_of_ne ha, List.lookup_cons, List.lookup_cons, lookup_erase k k' l]
      by_cases h : k' = k
      · subst h
        simp [beq_false_of_ne (Ne.symm ha)]
      · simp [h]

theorem sorted_erase [LT K] (k : K) {l : List (K × V)} (h : Sorted l) : Sorted (erase k l) :=
  h.sublist List.filter_sublist

end Erase

/-! ## Upsert -/

section Upsert

variable [LT K] [DecidableEq K] [DecidableLT K]

/-- The list with the value at `k` set to `v`: the entry of `k` replaced, or a
new one put before the first larger key. -/
def upsert (k : K) (v : V) : List (K × V) → List (K × V)
  | [] => [(k, v)]
  | e :: l => if k < e.1 then (k, v) :: e :: l else if k = e.1 then (k, v) :: l else e :: upsert k v l

/-! ## Upsert -/
theorem mem_upsert {k : K} {v : V} {x : K × V} :
    ∀ {l : List (K × V)}, x ∈ upsert k v l → x = (k, v) ∨ x ∈ l
  | [], h => by simpa [upsert] using h
  | e :: l, h => by
    unfold upsert at h
    split_ifs at h
    · exact List.mem_cons.mp h
    · rcases List.mem_cons.mp h with h | h
      · exact Or.inl h
      · exact Or.inr (List.mem_cons_of_mem e h)
    · rcases List.mem_cons.mp h with h | h
      · exact Or.inr (h ▸ List.mem_cons_self)
      · rcases mem_upsert h with h | h
        · exact Or.inl h
        · exact Or.inr (List.mem_cons_of_mem e h)

/-- An upsert below an entry happens before it. -/
theorem upsert_append_of_lt {k : K} (v : V) {e : K × V} (h : k < e.1) (l₂ : List (K × V)) :
    ∀ l₁ : List (K × V), upsert k v (l₁ ++ e :: l₂) = upsert k v l₁ ++ e :: l₂
  | [] => by simp [upsert, h]
  | x :: l₁ => by
    simp only [List.cons_append, upsert]
    split_ifs
    · rfl
    · rfl
    · rw [upsert_append_of_lt v h l₂ l₁, List.cons_append]

variable [LE K] [Std.LawfulOrderLT K]

/-- An upsert above every key of `l₁` passes over them. -/
theorem upsert_append {k : K} (v : V) (l₂ : List (K × V)) :
    ∀ {l₁ : List (K × V)}, (∀ x ∈ l₁, x.1 < k) → upsert k v (l₁ ++ l₂) = l₁ ++ upsert k v l₂
  | [], _ => rfl
  | x :: l₁, h => by
    have hx := h x List.mem_cons_self
    simp only [List.cons_append, upsert, if_neg (Std.not_gt_of_lt hx), if_neg (Std.ne_of_lt hx).symm]
    rw [upsert_append v l₂ fun y hy => h y (List.mem_cons_of_mem x hy)]

theorem upsert_cons_of_gt {k : K} (v : V) {e : K × V} (h : e.1 < k) (l : List (K × V)) :
    upsert k v (e :: l) = e :: upsert k v l :=
  upsert_append v l (show ∀ x ∈ [e], x.1 < k from fun _ hx => (List.mem_singleton.mp hx) ▸ h)

theorem upsert_cons_self (k : K) (v v' : V) (l : List (K × V)) : upsert k v' ((k, v) :: l) = (k, v') :: l := by
  simp [upsert, Std.lt_irrefl]

variable [Std.IsLinearOrder K]

theorem sorted_upsert (k : K) (v : V) : ∀ {l : List (K × V)}, Sorted l → Sorted (upsert k v l)
  | [], _ => List.pairwise_singleton _ _
  | e :: l, h => by
    obtain ⟨he, hl⟩ := Sorted.cons_iff.mp h
    unfold upsert
    split_ifs with hlt heq
    · refine Sorted.cons_iff.mpr ⟨fun y hy => ?_, h⟩
      rcases List.mem_cons.mp hy with rfl | hy
      · exact hlt
      · exact Std.lt_trans hlt (he y hy)
    · refine Sorted.cons_iff.mpr ⟨fun y hy => ?_, hl⟩
      exact heq ▸ he y hy
    · -- neither below nor at `e`, so above it
      have hgt : e.1 < k := by
        rcases Std.lt_trichotomy k e.1 with h | h | h
        · exact absurd h hlt
        · exact absurd h heq
        · exact h
      refine Sorted.cons_iff.mpr ⟨fun y hy => ?_, sorted_upsert k v hl⟩
      rcases mem_upsert hy with rfl | hy
      · exact hgt
      · exact he y hy

theorem lookup_upsert (k k' : K) (v : V) :
    ∀ l : List (K × V), (upsert k v l).lookup k' = if k' = k then some v else l.lookup k'
  | [] => by
    by_cases h : k' = k
    · simp [upsert, h]
    · simp [upsert, List.lookup_cons, h, beq_false_of_ne h]
  | (a, b) :: l => by
    rcases Std.lt_trichotomy k a with hlt | rfl | hgt
    · rw [upsert, if_pos hlt]
      by_cases h : k' = k
      · simp [h]
      · simp [List.lookup_cons, h, beq_false_of_ne h]
    · rw [upsert, if_neg Std.lt_irrefl, if_pos rfl]
      by_cases h : k' = k
      · simp [h]
      · simp [List.lookup_cons, h, beq_false_of_ne h]
    · rw [upsert, if_neg (Std.not_gt_of_lt hgt), if_neg (Std.ne_of_lt hgt).symm, List.lookup_cons,
        List.lookup_cons, lookup_upsert k k' v l]
      by_cases h : k' = k
      · subst h
        simp [beq_false_of_ne (Std.ne_of_lt hgt).symm]
      · simp [h]

end Upsert

/-! ## Sums up to a key -/

section Sum

variable [LE K] [DecidableLE K] [AddCommMonoid V]

/-- The sum of the values whose keys are at most `k`. -/
def prefixSum (k : K) (l : List (K × V)) : V :=
  ((l.filter fun e => e.1 ≤ k).map Prod.snd).sum

theorem prefixSum_append (k : K) (l₁ l₂ : List (K × V)) :
    prefixSum k (l₁ ++ l₂) = prefixSum k l₁ + prefixSum k l₂ := by
  simp [prefixSum, List.filter_append]

theorem prefixSum_cons_of_le {k : K} {e : K × V} (h : e.1 ≤ k) (l : List (K × V)) :
    prefixSum k (e :: l) = e.2 + prefixSum k l := by
  simp [prefixSum, h]

theorem prefixSum_of_forall_le {k : K} {l : List (K × V)} (h : ∀ x ∈ l, x.1 ≤ k) :
    prefixSum k l = (l.map Prod.snd).sum := by
  rw [prefixSum, List.filter_eq_self.mpr fun x hx => by simpa using h x hx]

end Sum

/-! ## Reads of a list cut at an entry -/

section Read

variable [LT K] [LE K] [Std.LawfulOrderLT K]

section Lookup

variable [DecidableEq K]

theorem lookup_append_cons_self {l₁ l₂ : List (K × V)} {e : K × V} (hs : Sorted (l₁ ++ e :: l₂)) :
    (l₁ ++ e :: l₂).lookup e.1 = some e.2 := by
  obtain ⟨-, -, h₁, -⟩ := hs.append_cons
  rw [List.lookup_append, lookup_eq_none_of_forall_ne (ne_of_forall_lt h₁), Option.none_or, List.lookup_cons,
    beq_self_eq_true]

/-- In a sorted list an entry is the value its key looks up. -/
theorem mem_iff_lookup_eq : ∀ {l : List (K × V)}, Sorted l → ∀ {k : K} {v : V}, (k, v) ∈ l ↔ l.lookup k = some v
  | [], _, _, _ => by simp
  | (a, b) :: l, h, k, v => by
    obtain ⟨ha, hl⟩ := Sorted.cons_iff.mp h
    by_cases hk : k = a
    · subst hk
      have hnot : ∀ w, (k, w) ∉ l := fun w hw => Std.lt_irrefl (ha (k, w) hw)
      simp only [List.mem_cons, Prod.mk.injEq, true_and, List.lookup_cons, beq_self_eq_true, Option.some.injEq]
      exact ⟨fun h' => h'.elim Eq.symm fun hw => absurd hw (hnot v), fun h' => Or.inl h'.symm⟩
    · simp only [List.mem_cons, Prod.mk.injEq, hk, false_and, false_or, List.lookup_cons, beq_false_of_ne hk]
      exact mem_iff_lookup_eq hl

/-- Erasing the key of an entry of a sorted list removes just that entry. -/
theorem erase_append_cons_self {l₁ l₂ : List (K × V)} {k : K} {v : V} (hs : Sorted (l₁ ++ (k, v) :: l₂)) :
    erase k (l₁ ++ (k, v) :: l₂) = l₁ ++ l₂ := by
  obtain ⟨-, -, h₁, h₂⟩ := hs.append_cons
  rw [erase_append, erase_of_forall_ne (ne_of_forall_lt h₁), erase_cons_self, erase_of_forall_ne (ne_of_forall_gt h₂)]

variable [Std.IsLinearOrder K]

/-- A key below an entry and all the keys after it has nothing to erase there. -/
theorem erase_cons_of_lt {k : K} {e : K × V} {l : List (K × V)} (h : k < e.1) (hl : ∀ x ∈ l, e.1 < x.1) :
    erase k (e :: l) = e :: l := by
  refine erase_of_forall_ne fun x hx => ?_
  rcases List.mem_cons.mp hx with rfl | hx
  · exact (Std.ne_of_lt h).symm
  · exact (Std.ne_of_lt (Std.lt_trans h (hl x hx))).symm

theorem lookup_append_cons_of_lt {l₁ l₂ : List (K × V)} {e : K × V} (hs : Sorted (l₁ ++ e :: l₂)) {k : K}
    (h : k < e.1) : (l₁ ++ e :: l₂).lookup k = l₁.lookup k := by
  obtain ⟨-, -, -, h₂⟩ := hs.append_cons
  have hnone : (e :: l₂).lookup k = none := lookup_eq_none_of_forall_ne fun x hx => by
    rcases List.mem_cons.mp hx with rfl | hx
    · exact (Std.ne_of_lt h).symm
    · exact (Std.ne_of_lt (Std.lt_trans h (h₂ x hx))).symm
  rw [List.lookup_append, hnone, Option.or_none]

theorem lookup_append_cons_of_gt {l₁ l₂ : List (K × V)} {e : K × V} (hs : Sorted (l₁ ++ e :: l₂)) {k : K}
    (h : e.1 < k) : (l₁ ++ e :: l₂).lookup k = l₂.lookup k := by
  obtain ⟨-, -, h₁, -⟩ := hs.append_cons
  have hnone : l₁.lookup k = none :=
    lookup_eq_none_of_forall_ne fun x hx => Std.ne_of_lt (Std.lt_trans (h₁ x hx) h)
  rw [List.lookup_append, hnone, Option.none_or, List.lookup_cons, beq_false_of_ne (Std.ne_of_lt h).symm]

end Lookup

section Extremes

variable [Std.IsLinearOrder K]

/-- The first key of a sorted list is its least. -/
theorem Sorted.head_le {e : K × V} {l : List (K × V)} (h : Sorted (e :: l)) : ∀ x ∈ e :: l, e.1 ≤ x.1 := by
  intro x hx
  rcases List.mem_cons.mp hx with rfl | hx
  · exact Std.le_refl _
  · exact Std.le_of_lt ((Sorted.cons_iff.mp h).1 x hx)

/-- The last key of a sorted list is its greatest. -/
theorem Sorted.le_last {l : List (K × V)} {e : K × V} (h : Sorted (l ++ [e])) : ∀ x ∈ l ++ [e], x.1 ≤ e.1 := by
  intro x hx
  rcases List.mem_append.mp hx with hx | hx
  · exact Std.le_of_lt ((Sorted.append_cons h).2.2.1 x hx)
  · rw [List.mem_singleton.mp hx]
    exact Std.le_refl _

end Extremes

variable [Std.IsLinearOrder K] [DecidableLE K] [AddCommMonoid V]

theorem prefixSum_of_forall_gt {k : K} {l : List (K × V)} (h : ∀ x ∈ l, k < x.1) : prefixSum k l = 0 := by
  rw [prefixSum, List.filter_eq_nil_iff.mpr fun x hx => by simpa using Std.not_le.mpr (h x hx)]
  rfl

theorem prefixSum_append_cons_of_lt {l₁ l₂ : List (K × V)} {e : K × V} (hs : Sorted (l₁ ++ e :: l₂)) {k : K}
    (h : k < e.1) : prefixSum k (l₁ ++ e :: l₂) = prefixSum k l₁ := by
  obtain ⟨-, -, -, h₂⟩ := hs.append_cons
  rw [prefixSum_append, prefixSum_of_forall_gt (l := e :: l₂) fun x hx => ?_, add_zero]
  rcases List.mem_cons.mp hx with rfl | hx
  · exact h
  · exact Std.lt_trans h (h₂ x hx)

theorem prefixSum_append_cons_of_gt {l₁ l₂ : List (K × V)} {e : K × V} (hs : Sorted (l₁ ++ e :: l₂)) {k : K}
    (h : e.1 < k) : prefixSum k (l₁ ++ e :: l₂) = (l₁.map Prod.snd).sum + e.2 + prefixSum k l₂ := by
  obtain ⟨-, -, h₁, -⟩ := hs.append_cons
  rw [prefixSum_append, prefixSum_of_forall_le fun x hx => Std.le_of_lt (Std.lt_trans (h₁ x hx) h),
    prefixSum_cons_of_le (Std.le_of_lt h), add_assoc]

theorem prefixSum_append_cons_self {l₁ l₂ : List (K × V)} {e : K × V} (hs : Sorted (l₁ ++ e :: l₂)) :
    prefixSum e.1 (l₁ ++ e :: l₂) = (l₁.map Prod.snd).sum + e.2 := by
  obtain ⟨-, -, h₁, h₂⟩ := hs.append_cons
  rw [prefixSum_append, prefixSum_of_forall_le fun x hx => Std.le_of_lt (h₁ x hx),
    prefixSum_cons_of_le (Std.le_refl _), prefixSum_of_forall_gt h₂, add_zero]

end Read

end KeyedList
