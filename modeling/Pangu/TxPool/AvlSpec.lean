import Pangu.TxPool.Avl

/-!
# What the AVL tree's operations do

Each operation keeps the invariant `AVLNode.Valid` and does to the content,
`toList`, what the map operation it stands for does: `add` is
`KeyedList.upsert` and `remove` is `KeyedList.erase`, both without a panic;
`search` reads the map and the sum up to a key, `displayNodesInOrder` lists
the entries in order, and `findSmallest`, `findLargest` give the first and the
last.

* `Updates`: an update of a tree, with the bounds its height moves within;
  `Updates.left`, `Updates.right` carry one up through a node;
* `add_spec`, `remove_spec`, `search_spec`, `displayNodesInOrder_spec`;
* `run_spec`: every sequence of `Add`, `Remove` and `Update` from the empty
  tree runs without a panic to a valid tree whose `Search`, `Flatten`,
  `Smallest` and `Largest` report the map the sequence built, in which a key
  holds the last value added for it unless it has been removed since.
-/

namespace Pangu

open Go KeyedList

namespace AVLNode

@[simp] theorem toList_nil : nil.toList = [] := rfl

@[simp] theorem toList_node (k : UInt64) (v s h : Int) (l r : AVLNode) :
    (node k v s h l r).toList = l.toList ++ (k, v) :: r.toList := rfl

theorem node_ne_nil (k : UInt64) (v s h : Int) (l r : AVLNode) : node k v s h l r ≠ nil :=
  fun he => AVLNode.noConfusion he

/-- The entry a node holds, none for nil. -/
def entry : AVLNode → Option (UInt64 × Int)
  | nil => none
  | node k v _ _ _ _ => some (k, v)

/-! ## Updates of a subtree -/

/-- `t'` updates `t` to the content `c`: it is balanced with right sums, holds
`c`, and its height is that of `t` moved by between `lo` and `hi`. -/
structure Updates (t t' : AVLNode) (c : List (UInt64 × Int)) (lo hi : Int) : Prop where
  balanced : t'.Balanced
  sumsOK : t'.SumsOK
  toList_eq : t'.toList = c
  height_ge : t.getHeight + lo ≤ t'.getHeight
  height_le : t'.getHeight ≤ t.getHeight + hi

theorem Updates.mono {t t' : AVLNode} {c : List (UInt64 × Int)} {lo hi lo' hi' : Int}
    (hu : Updates t t' c lo hi) (hlo : lo' ≤ lo) (hhi : hi ≤ hi') : Updates t t' c lo' hi' :=
  ⟨hu.balanced, hu.sumsOK, hu.toList_eq, by have := hu.height_ge; omega, by have := hu.height_le; omega⟩

section Step

variable {k : UInt64} {v s h lo hi : Int} {l r : AVLNode} {c : List (UInt64 × Int)}

/-- A node whose left child is updated, by at most one in height either way,
is updated within the same bounds once rebalanced, whatever entry it takes. -/
theorem Updates.left {l' : AVLNode} (k' : UInt64) (v' : Int) (hb : (node k v s h l r).Balanced) (hsr : r.SumsOK)
    (hu : Updates l l' c lo hi) (hlo : -1 ≤ lo ∧ lo ≤ 0) (hhi : 0 ≤ hi ∧ hi ≤ 1) :
    ∃ t', sumAndRebalance (node k' v' s h l' r) = .ok t' ∧
      Updates (node k v s h l r) t' (c ++ (k', v') :: r.toList) lo hi := by
  obtain ⟨hl, hr, hh, hb₁, hb₂⟩ := hb
  have h₁ := hu.height_ge
  have h₂ := hu.height_le
  obtain ⟨t', ht', hj⟩ := sumAndRebalance_joins (k := k') (v := v') (s := s) (h := h) hu.balanced hr
    (by omega) (by omega)
  have hge := hj.height_ge
  have hle := hj.height_le
  have heq := hj.height_eq
  refine ⟨t', ht', hj.balanced, hj.sumsOK hu.sumsOK hsr, by rw [hj.toList_eq, hu.toList_eq], ?_, ?_⟩
  · simp only [getHeight_node]; omega
  · simp only [getHeight_node]; omega

/-- The mirror of `Updates.left`. -/
theorem Updates.right {r' : AVLNode} (k' : UInt64) (v' : Int) (hb : (node k v s h l r).Balanced) (hsl : l.SumsOK)
    (hu : Updates r r' c lo hi) (hlo : -1 ≤ lo ∧ lo ≤ 0) (hhi : 0 ≤ hi ∧ hi ≤ 1) :
    ∃ t', sumAndRebalance (node k' v' s h l r') = .ok t' ∧
      Updates (node k v s h l r) t' (l.toList ++ (k', v') :: c) lo hi := by
  obtain ⟨hl, hr, hh, hb₁, hb₂⟩ := hb
  have h₁ := hu.height_ge
  have h₂ := hu.height_le
  obtain ⟨t', ht', hj⟩ := sumAndRebalance_joins (k := k') (v := v') (s := s) (h := h) hl hu.balanced
    (by omega) (by omega)
  have hge := hj.height_ge
  have hle := hj.height_le
  have heq := hj.height_eq
  refine ⟨t', ht', hj.balanced, hj.sumsOK hsl hu.sumsOK, by rw [hj.toList_eq, hu.toList_eq], ?_, ?_⟩
  · simp only [getHeight_node]; omega
  · simp only [getHeight_node]; omega

/-- A subtree left as it is. -/
theorem Updates.refl (hb : l.Balanced) (hs : l.SumsOK) : Updates l l l.toList 0 0 :=
  ⟨hb, hs, rfl, by omega, by omega⟩

/-- A balanced node with right sums rebalances to an equal one. -/
theorem Updates.rebalance (hb : (node k v s h l r).Balanced) (hs : (node k v s h l r).SumsOK) :
    ∃ t', sumAndRebalance (node k v s h l r) = .ok t' ∧
      Updates (node k v s h l r) t' (node k v s h l r).toList 0 0 := by
  obtain ⟨t', ht', hu⟩ := Updates.left k v hb hs.2.1 (Updates.refl hb.1 hs.1) (by omega) (by omega)
  exact ⟨t', ht', hu⟩

end Step

/-! ## Adding -/

/-- `add` never panics on a valid tree, upserts the entry, and grows the tree by
at most one. -/
theorem add_spec (key : UInt64) (value : Int) :
    ∀ t : AVLNode, t.Balanced → t.SumsOK → Sorted t.toList →
      ∃ t', t.add key value = .ok t' ∧ Updates t t' (upsert key value t.toList) 0 1
  | nil, _, _, _ =>
    ⟨_, rfl, ⟨⟨trivial, trivial, by simp, by simp, by simp⟩, ⟨trivial, trivial, by simp⟩, rfl, by simp, by simp⟩⟩
  | node k v s h l r, hb, hs, hsort => by
    obtain ⟨hsl, hsr, hlk, hkr⟩ := hsort.append_cons
    rcases Std.lt_trichotomy key k with hlt | rfl | hgt
    · obtain ⟨l', hl', hu⟩ := add_spec key value l hb.1 hs.1 hsl
      obtain ⟨t', ht', hu'⟩ := hu.left k v hb hs.2.1 (by omega) (by omega)
      refine ⟨t', by rw [add, if_pos hlt, hl', ok_bind, ht'], ?_⟩
      rw [toList_node, upsert_append_of_lt value hlt]
      exact hu'
    · obtain ⟨t', ht', hu⟩ := (Updates.refl hb.1 hs.1).left key value hb hs.2.1
        (by omega) (by omega)
      refine ⟨t', by rw [add, if_neg Std.lt_irrefl, if_neg Std.lt_irrefl, ht'], ?_⟩
      rw [toList_node, upsert_append value _ hlk, upsert_cons_self]
      exact hu.mono (le_refl _) (by omega)
    · obtain ⟨r', hr', hu⟩ := add_spec key value r hb.2.1 hs.2.1 hsr
      obtain ⟨t', ht', hu'⟩ := hu.right k v hb hs.1 (by omega) (by omega)
      refine ⟨t', by rw [add, if_neg (Std.not_gt_of_lt hgt), if_pos hgt, hr', ok_bind, ht'], ?_⟩
      rw [toList_node, upsert_append value _ fun x hx => Std.lt_trans (hlk x hx) hgt,
        upsert_cons_of_gt value hgt]
      exact hu'

/-! ## Removing -/

theorem findSmallest_spec {t : AVLNode} (ht : t ≠ nil) :
    ∃ m mk mv rest, t.findSmallest = .ok m ∧ m.key = .ok mk ∧ m.value = .ok mv ∧ t.toList = (mk, mv) :: rest := by
  induction t with
  | nil => exact absurd rfl ht
  | node k v s h l r ihl _ =>
    cases l with
    | nil => exact ⟨node k v s h nil r, k, v, r.toList, by rw [findSmallest], rfl, rfl, rfl⟩
    | node lk lv ls lh ll lr =>
      obtain ⟨m, mk, mv, rest, hm, hk, hv, hl⟩ := ihl (node_ne_nil lk lv ls lh ll lr)
      refine ⟨m, mk, mv, rest ++ (k, v) :: r.toList, by rw [findSmallest, hm], hk, hv, ?_⟩
      rw [toList_node, hl, List.cons_append]

theorem findLargest_spec {t : AVLNode} (ht : t ≠ nil) :
    ∃ m mk mv rest, t.findLargest = .ok m ∧ m.key = .ok mk ∧ m.value = .ok mv ∧ t.toList = rest ++ [(mk, mv)] := by
  induction t with
  | nil => exact absurd rfl ht
  | node k v s h l r _ ihr =>
    cases r with
    | nil => exact ⟨node k v s h l nil, k, v, l.toList, by rw [findLargest], rfl, rfl, by simp⟩
    | node rk rv rs rh rl rr =>
      obtain ⟨m, mk, mv, rest, hm, hk, hv, hr⟩ := ihr (node_ne_nil rk rv rs rh rl rr)
      refine ⟨m, mk, mv, l.toList ++ (k, v) :: rest, by rw [findLargest, hm], hk, hv, ?_⟩
      rw [toList_node, hr]
      simp

/-- `remove` never panics on a valid tree, erases the key, and shrinks the
tree by at most one. -/
theorem remove_spec :
    ∀ (t : AVLNode) (key : UInt64), t.Balanced → t.SumsOK → Sorted t.toList →
      ∃ t', t.remove key = .ok t' ∧ Updates t t' (erase key t.toList) (-1) 0
  | nil, _, _, _, _ => ⟨nil, by unfold remove; rfl, ⟨trivial, trivial, rfl, by simp, by simp⟩⟩
  | node k v s h l r, key, hb, hs, hsort => by
    obtain ⟨hsl, hsr, hlk, hkr⟩ := hsort.append_cons
    rcases Std.lt_trichotomy key k with hlt | rfl | hgt
    · obtain ⟨l', hl', hu⟩ := remove_spec l key hb.1 hs.1 hsl
      obtain ⟨t', ht', hu'⟩ := hu.left k v hb hs.2.1 (by omega) (by omega)
      refine ⟨t', by unfold remove; rw [if_pos hlt, hl', ok_bind, ht'], ?_⟩
      rw [toList_node, erase_append, erase_cons_of_lt hlt hkr]
      exact hu'
    · unfold remove
      rw [if_neg Std.lt_irrefl, if_neg Std.lt_irrefl, toList_node, erase_append_cons_self hsort]
      obtain ⟨hl, hr, hh, hb₁, hb₂⟩ := hb
      have hl₀ := getHeight_nonneg hl
      have hr₀ := getHeight_nonneg hr
      cases l with
      | nil =>
        cases r with
        | nil =>
          simp only [getHeight_nil] at hh
          exact ⟨nil, rfl, ⟨trivial, trivial, rfl, by simp only [getHeight_node, getHeight_nil]; omega,
            by simp only [getHeight_node, getHeight_nil]; omega⟩⟩
        | node rk rv rs rh rl rr =>
          obtain ⟨t', ht', hu⟩ := Updates.rebalance hr hs.2.1
          have h₁ := hu.height_ge
          have h₂ := hu.height_le
          simp only [getHeight_node, getHeight_nil] at hh hb₁ hb₂ h₁ h₂ hl₀ hr₀
          exact ⟨t', ht', hu.balanced, hu.sumsOK, hu.toList_eq, by simp only [getHeight_node]; omega,
            by simp only [getHeight_node]; omega⟩
      | node lk lv ls lh ll lr =>
        cases r with
        | nil =>
          obtain ⟨t', ht', hu⟩ := Updates.rebalance hl hs.1
          have h₁ := hu.height_ge
          have h₂ := hu.height_le
          simp only [getHeight_node, getHeight_nil] at hh hb₁ hb₂ h₁ h₂ hl₀ hr₀
          refine ⟨t', ht', hu.balanced, hu.sumsOK, by rw [hu.toList_eq, toList_nil, List.append_nil], ?_, ?_⟩
          · simp only [getHeight_node]; omega
          · simp only [getHeight_node]; omega
        | node rk rv rs rh rl rr =>
          -- the smallest entry on the right moves up into the node
          obtain ⟨m, mk, mv, rest, hm, hmk, hmv, hrl⟩ := findSmallest_spec (node_ne_nil rk rv rs rh rl rr)
          obtain ⟨r', hr', hu⟩ := remove_spec (node rk rv rs rh rl rr) mk hr hs.2.1 hsr
          obtain ⟨t', ht', hu'⟩ := hu.right mk mv ⟨hl, hr, hh, hb₁, hb₂⟩ hs.1
            (by omega) (by omega)
          refine ⟨t', by dsimp only; rw [hm, ok_bind, hmk, ok_bind, hmv, ok_bind, hr', ok_bind, ht'], ?_⟩
          rw [hrl] at hsr ⊢
          rw [hrl, erase_cons_self, erase_of_forall_ne (ne_of_forall_gt (Sorted.cons_iff.mp hsr).1)] at hu'
          exact hu'
    · obtain ⟨r', hr', hu⟩ := remove_spec r key hb.2.1 hs.2.1 hsr
      obtain ⟨t', ht', hu'⟩ := hu.right k v hb hs.1 (by omega) (by omega)
      refine ⟨t', by unfold remove; rw [if_neg (Std.not_gt_of_lt hgt), if_pos hgt, hr', ok_bind, ht'], ?_⟩
      rw [toList_node, erase_append, erase_of_forall_ne (ne_of_forall_lt fun x hx => Std.lt_trans (hlk x hx) hgt),
        erase_cons_of_ne (Std.ne_of_lt hgt)]
      exact hu'

/-! ## Reading -/

/-- `search` finds the node of the key exactly when the key has an entry, and
returns the sum of the values of the keys up to it. -/
theorem search_spec (key : UInt64) :
    ∀ t : AVLNode, t.SumsOK → Sorted t.toList →
      (t.search key).1.entry = (t.toList.lookup key).map (key, ·) ∧
        (t.search key).2 = prefixSum key t.toList
  | nil, _, _ => ⟨rfl, rfl⟩
  | node k v s h l r, hs, hsort => by
    obtain ⟨hsl, hsr, -, -⟩ := hsort.append_cons
    rw [toList_node] at hsort ⊢
    rcases Std.lt_trichotomy key k with hlt | rfl | hgt
    · rw [search, if_pos hlt, lookup_append_cons_of_lt hsort hlt, prefixSum_append_cons_of_lt hsort hlt]
      exact search_spec key l hs.1 hsl
    · rw [search, if_neg Std.lt_irrefl, if_neg Std.lt_irrefl, lookup_append_cons_self hsort,
        prefixSum_append_cons_self hsort, sumOrZero_eq hs.1]
      exact ⟨rfl, add_comm _ _⟩
    · obtain ⟨hfound, hsum⟩ := search_spec key r hs.2.1 hsr
      rw [search, if_neg (Std.not_gt_of_lt hgt), if_pos hgt, lookup_append_cons_of_gt hsort hgt,
        prefixSum_append_cons_of_gt hsort hgt, sumOrZero_eq hs.1]
      refine ⟨hfound, ?_⟩
      simp only [hsum]
      ring

/-- One node of `displayNodesInOrder`: its left child unless nil, the node
itself, then its right child unless nil. -/
theorem displayNodesInOrder_node (k : UInt64) (v s h : Int) (l r : AVLNode) (nodes : List AVLNode) :
    (node k v s h l r).displayNodesInOrder nodes =
      (if l = nil then .ok nodes else l.displayNodesInOrder nodes) >>= fun ns =>
        if r = nil then .ok (ns ++ [node k v s h l r]) else r.displayNodesInOrder (ns ++ [node k v s h l r]) := by
  cases l <;> cases r <;> rfl

theorem displayNodesInOrder_child {c : AVLNode} {nodes : List AVLNode}
    (hc : c ≠ nil → ∃ ns, c.displayNodesInOrder nodes = .ok (nodes ++ ns) ∧ ns.map entry = c.toList.map some) :
    ∃ ns, (if c = nil then .ok nodes else c.displayNodesInOrder nodes) = .ok (nodes ++ ns) ∧
      ns.map entry = c.toList.map some := by
  by_cases h : c = nil
  · subst h
    exact ⟨[], by simp, rfl⟩
  · rw [if_neg h]
    exact hc h

/-- `displayNodesInOrder` appends the nodes of the entries, in order. -/
theorem displayNodesInOrder_spec :
    ∀ {t : AVLNode}, t ≠ nil → ∀ nodes : List AVLNode,
      ∃ ns, t.displayNodesInOrder nodes = .ok (nodes ++ ns) ∧ ns.map entry = t.toList.map some
  | nil, h, _ => absurd rfl h
  | node k v s h l r, _, nodes => by
    obtain ⟨nsl, hl, hnsl⟩ := displayNodesInOrder_child fun hl => displayNodesInOrder_spec (t := l) hl nodes
    obtain ⟨nsr, hr, hnsr⟩ := displayNodesInOrder_child fun hr =>
      displayNodesInOrder_spec (t := r) hr (nodes ++ nsl ++ [node k v s h l r])
    refine ⟨nsl ++ node k v s h l r :: nsr, ?_, ?_⟩
    · rw [displayNodesInOrder_node, hl, ok_bind, hr]
      simp
    · simp [hnsl, hnsr, entry]

end AVLNode

namespace AVLTree

open AVLNode

/-! ## Runs of operations -/

/-- An operation of the tree's interface that changes it. -/
inductive Op where
  | add (key : UInt64) (value : Int)
  | remove (key : UInt64)
  | update (oldKey newKey : UInt64) (newValue : Int)

def Op.apply : Op → AVLTree → Go AVLTree
  | .add key value, t => t.add key value
  | .remove key, t => t.remove key
  | .update oldKey newKey newValue, t => t.update oldKey newKey newValue

/-- The operations applied one after another, from the empty tree. -/
def run (ops : List Op) : Go AVLTree := ops.foldlM (fun t op => op.apply t) empty

/-- What an operation does to the map the tree stands for. -/
def Op.applyMap : Op → (UInt64 → Option Int) → UInt64 → Option Int
  | .add key value, m => Function.update m key (some value)
  | .remove key, m => Function.update m key none
  | .update oldKey newKey newValue, m => Function.update (Function.update m oldKey none) newKey (some newValue)

/-- The map a sequence of operations builds from the empty one: a key holds
the last value added for it, unless it was removed after. -/
def content (ops : List Op) : UInt64 → Option Int := ops.foldl (fun m op => op.applyMap m) fun _ => none

/-- A valid tree that stands for the map `m`. -/
structure Represents (t : AVLTree) (m : UInt64 → Option Int) : Prop where
  valid : t.root.Valid
  lookup_eq : ∀ k, t.root.toList.lookup k = m k

theorem Represents.add {t : AVLTree} {m : UInt64 → Option Int} (h : t.Represents m) (key : UInt64) (value : Int) :
    ∃ t', t.add key value = .ok t' ∧ t'.Represents (Function.update m key (some value)) := by
  obtain ⟨root', hroot, hu⟩ := add_spec key value t.root h.valid.balanced h.valid.sumsOK h.valid.sorted
  refine ⟨⟨root'⟩, by rw [AVLTree.add, hroot, ok_bind], ⟨?_, ?_, hu.sumsOK⟩, fun k => ?_⟩
  · exact hu.toList_eq ▸ sorted_upsert key value h.valid.sorted
  · exact hu.balanced
  · rw [hu.toList_eq, lookup_upsert, Function.update_apply, h.lookup_eq]

theorem Represents.remove {t : AVLTree} {m : UInt64 → Option Int} (h : t.Represents m) (key : UInt64) :
    ∃ t', t.remove key = .ok t' ∧ t'.Represents (Function.update m key none) := by
  obtain ⟨root', hroot, hu⟩ := remove_spec t.root key h.valid.balanced h.valid.sumsOK h.valid.sorted
  refine ⟨⟨root'⟩, by rw [AVLTree.remove, hroot, ok_bind], ⟨?_, ?_, hu.sumsOK⟩, fun k => ?_⟩
  · exact hu.toList_eq ▸ sorted_erase key h.valid.sorted
  · exact hu.balanced
  · rw [hu.toList_eq, lookup_erase, Function.update_apply, h.lookup_eq]

/-- One operation keeps the tree valid and applies to it what it applies to
the map. -/
theorem Represents.apply {t : AVLTree} {m : UInt64 → Option Int} (h : t.Represents m) :
    ∀ op : Op, ∃ t', op.apply t = .ok t' ∧ t'.Represents (op.applyMap m)
  | .add key value => h.add key value
  | .remove key => h.remove key
  | .update oldKey newKey newValue => by
    obtain ⟨t₁, h₁, hr₁⟩ := h.remove oldKey
    obtain ⟨t₂, h₂, hr₂⟩ := hr₁.add newKey newValue
    exact ⟨t₂, by rw [Op.apply, AVLTree.update, h₁, ok_bind, h₂], hr₂⟩

/-- A whole run keeps the tree valid and builds the map the operations build. -/
theorem Represents.run : ∀ (ops : List Op) {t : AVLTree} {m : UInt64 → Option Int}, t.Represents m →
    ∃ t', ops.foldlM (fun t op => op.apply t) t = .ok t' ∧ t'.Represents (ops.foldl (fun m op => op.applyMap m) m)
  | [], t, _, h => ⟨t, rfl, h⟩
  | op :: ops, _, _, h => by
    obtain ⟨t₁, h₁, hr₁⟩ := h.apply op
    obtain ⟨t₂, h₂, hr₂⟩ := Represents.run ops hr₁
    exact ⟨t₂, by rw [List.foldlM_cons, h₁, ok_bind, h₂], hr₂⟩

theorem represents_empty : empty.Represents fun _ => none := ⟨valid_nil, fun _ => rfl⟩

theorem smallest_of_root_nil {t : AVLTree} (h : t.root = nil) : t.smallest = .ok (.error errEmptyTree) := by
  rw [smallest, h]

theorem largest_of_root_nil {t : AVLTree} (h : t.root = nil) : t.largest = .ok (.error errEmptyTree) := by
  rw [largest, h]

/-- A tree with entries reports the key of its first one as the smallest. -/
theorem smallest_spec {t : AVLTree} (h : t.root ≠ nil) :
    ∃ k v rest, t.root.toList = (k, v) :: rest ∧ t.smallest = .ok (.ok k) := by
  obtain ⟨m, k, v, rest, hm, hk, -, hl⟩ := findSmallest_spec h
  refine ⟨k, v, rest, hl, ?_⟩
  cases hroot : t.root with
  | nil => exact absurd hroot h
  | node =>
    rw [hroot] at hm
    simp only [smallest, hroot, hm, hk, ok_bind]

/-- A tree with entries reports the key of its last one as the largest. -/
theorem largest_spec {t : AVLTree} (h : t.root ≠ nil) :
    ∃ k v rest, t.root.toList = rest ++ [(k, v)] ∧ t.largest = .ok (.ok k) := by
  obtain ⟨m, k, v, rest, hm, hk, -, hl⟩ := findLargest_spec h
  refine ⟨k, v, rest, hl, ?_⟩
  cases hroot : t.root with
  | nil => exact absurd hroot h
  | node =>
    rw [hroot] at hm
    simp only [largest, hroot, hm, hk, ok_bind]

/-- `Flatten` lists the nodes of the entries, in order. -/
theorem flatten_spec (t : AVLTree) : ∃ ns, t.flatten = .ok ns ∧ ns.map entry = t.root.toList.map some := by
  cases hroot : t.root with
  | nil => exact ⟨[], by rw [flatten, hroot], rfl⟩
  | node k v s h l r =>
    obtain ⟨ns, hns, hmap⟩ := displayNodesInOrder_spec (node_ne_nil k v s h l r) []
    exact ⟨ns, by rw [flatten, hroot]; simpa using hns, hmap⟩

/-- Every run of `Add`, `Remove` and `Update` from the empty tree ends without
a panic in a valid tree holding the map the run built: `Search` finds a key's
node exactly when the map holds it, with the sum of the values of the keys up
to it, `Flatten` lists the entries in order, and `Smallest` and `Largest` give
the least and the greatest key, or `errEmptyTree`. -/
theorem run_spec (ops : List Op) :
    ∃ t, run ops = .ok t ∧ t.root.Valid ∧
      (∀ k v, (k, v) ∈ t.root.toList ↔ content ops k = some v) ∧
      (∀ k, (t.search k).1.entry = (content ops k).map (k, ·) ∧ (t.search k).2 = prefixSum k t.root.toList) ∧
      (∃ ns, t.flatten = .ok ns ∧ ns.map entry = t.root.toList.map some) ∧
      ((∀ k, content ops k = none) ∧ t.smallest = .ok (.error errEmptyTree) ∧
          t.largest = .ok (.error errEmptyTree) ∨
        ∃ kmin kmax, t.smallest = .ok (.ok kmin) ∧ t.largest = .ok (.ok kmax) ∧
          (content ops kmin).isSome ∧ (content ops kmax).isSome ∧
          ∀ k, (content ops k).isSome → kmin ≤ k ∧ k ≤ kmax) := by
  obtain ⟨t, ht, hrep⟩ := Represents.run ops represents_empty
  have hmem : ∀ k v, (k, v) ∈ t.root.toList ↔ content ops k = some v := fun k v => by
    rw [mem_iff_lookup_eq hrep.valid.sorted, hrep.lookup_eq, content]
  refine ⟨t, ht, hrep.valid, hmem, fun k => ?_, flatten_spec t, ?_⟩
  · obtain ⟨hfound, hsum⟩ := search_spec k t.root hrep.valid.sumsOK hrep.valid.sorted
    refine ⟨?_, hsum⟩
    rw [AVLTree.search, hfound, hrep.lookup_eq, content]
  by_cases hroot : t.root = nil
  · refine Or.inl ⟨fun k => Option.eq_none_iff_forall_ne_some.mpr fun v hv => ?_,
      smallest_of_root_nil hroot, largest_of_root_nil hroot⟩
    simpa [hroot] using (hmem k v).mpr hv
  obtain ⟨kmin, vmin, rest, hmin, hs⟩ := smallest_spec hroot
  obtain ⟨kmax, vmax, rest', hmax, hl⟩ := largest_spec hroot
  have hsome : ∀ k, (content ops k).isSome ↔ ∃ v, (k, v) ∈ t.root.toList := fun k => by
    simp only [hmem, Option.isSome_iff_exists]
  refine Or.inr ⟨kmin, kmax, hs, hl, (hsome kmin).mpr ⟨vmin, by simp [hmin]⟩,
    (hsome kmax).mpr ⟨vmax, by simp [hmax]⟩, fun k hk => ?_⟩
  obtain ⟨v, hv⟩ := (hsome k).mp hk
  have hsorted := hrep.valid.sorted
  constructor
  · rw [hmin] at hv hsorted
    exact hsorted.head_le (k, v) hv
  · rw [hmax] at hv hsorted
    exact hsorted.le_last (k, v) hv

end AVLTree

end Pangu
