import Pangu.Lib.Go
import Pangu.Lib.KeyedList

/-!
# The AVL prefix-sum tree

`AVLTree` (`core/txpool/legacypool/avl.go`) keeps nonces as keys and costs as
values, and every node the sum of the values below it, so that `Search` also
returns the total cost up to a nonce. The methods work on `*AVLNode` in
place; no node is reachable from two places, so the model is a function from
the tree before to the tree after. A nil child is `nil`. The value `*big.Int`
passed to `Add` is read and copied, never kept, so it is an `Int` here (a nil
one panics in the first `Add` of the big integer).

The code reads a child's fields where only the heights say the child exists:
a rotation reads the child that moves up, and `rebalanceTree` the grandchild
it compares. Those reads panic on a nil child, and the model keeps them, so
that a proof has to show the heights keep them away.

The invariant (`Valid`) has three parts:

* `Sorted`: the keys in order, `toList`, strictly increase;
* `Balanced`: each node's stored height is one more than its taller child's,
  and the children's heights differ by at most one;
* `SumsOK`: each node's sum is its value and its children's sums.

`rebalanceTree_joins` is the step the operations share: a node whose
children are balanced and differ in height by at most two is rebalanced,
without a panic, to a balanced tree with the same content and sums, as tall
as the taller child or one more.
-/

namespace Pangu

open Go

/-- `*AVLNode`: nil, or a node with its key, value, the sum of the values
below it, its height (counting nodes) and its children. -/
inductive AVLNode where
  | nil
  | node (key : UInt64) (value sum : Int) (height : Int) (left right : AVLNode)
  deriving DecidableEq

namespace AVLNode

/-- `n.getHeight()`. -/
def getHeight : AVLNode → Int
  | nil => 0
  | node _ _ _ h _ _ => h

/-- The sum a child adds to its parent's: the code adds `n.left.sum` only when
the child is not nil. -/
def sumOrZero : AVLNode → Int
  | nil => 0
  | node _ _ s _ _ _ => s

/-- `n.key`, which panics on nil. -/
def key : AVLNode → Go UInt64
  | nil => nilDereference
  | node k _ _ _ _ _ => .ok k

/-- `n.value`, which panics on nil. -/
def value : AVLNode → Go Int
  | nil => nilDereference
  | node _ v _ _ _ _ => .ok v

/-- `n.recalculateHeight()`: one more than the taller child. The code calls it
on nodes only. -/
def recalculateHeight : AVLNode → AVLNode
  | nil => nil
  | node k v s _ l r => node k v s (1 + max l.getHeight r.getHeight) l r

/-- `n.rotateLeft()`: the right child becomes the root and `n` its left child,
taking over the right child's left subtree. `n.sum` loses the right child's
sum and gains that subtree's; the new root takes the old `n.sum`. -/
def rotateLeft : AVLNode → Go AVLNode
  | nil => nilDereference
  | node _ _ _ _ _ nil => nilDereference
  | node k v s h l (node rk rv rs rh rl rr) =>
    let temp := s
    let s := s - rs + rl.sumOrZero
    .ok (recalculateHeight (node rk rv temp rh (recalculateHeight (node k v s h l rl)) rr))

/-- `n.rotateRight()`, the mirror of `rotateLeft`. -/
def rotateRight : AVLNode → Go AVLNode
  | nil => nilDereference
  | node _ _ _ _ nil _ => nilDereference
  | node k v s h (node lk lv ls lh ll lr) r =>
    let temp := s
    let s := s - ls + lr.sumOrZero
    .ok (recalculateHeight (node lk lv temp lh ll (recalculateHeight (node k v s h lr r))))

/-- `n.rebalanceTree()`: the height recalculated, then a rotation where the
children's heights differ by two, preceded by one of the child when its inner
grandchild is the taller. -/
def rebalanceTree (n : AVLNode) : Go AVLNode :=
  match recalculateHeight n with
  | nil => .ok nil
  | n@(node k v s h l r) =>
    let balanceFactor := l.getHeight - r.getHeight
    if balanceFactor = -2 then
      match r with
      | nil => nilDereference
      | node _ _ _ _ rl rr => do
        let r ← if rl.getHeight > rr.getHeight then r.rotateRight else .ok r
        rotateLeft (node k v s h l r)
    else if balanceFactor = 2 then
      match l with
      | nil => nilDereference
      | node _ _ _ _ ll lr => do
        let l ← if lr.getHeight > ll.getHeight then l.rotateLeft else .ok l
        rotateRight (node k v s h l r)
    else .ok n

/-- The tail `add` and `remove` share: `n.sum` set to the value and the sums
of the children that are not nil, then `n.rebalanceTree()`. -/
def sumAndRebalance : AVLNode → Go AVLNode
  | nil => .ok nil
  | node k v _ h l r => rebalanceTree (node k v (v + l.sumOrZero + r.sumOrZero) h l r)

/-- `n.add(key, value)`: a new leaf, or the value of an equal key replaced. -/
def add : AVLNode → UInt64 → Int → Go AVLNode
  | nil, key, value => .ok (node key value value 1 nil nil)
  | node k v s h l r, key, value =>
    if key < k then do
      let l ← l.add key value
      sumAndRebalance (node k v s h l r)
    else if key > k then do
      let r ← r.add key value
      sumAndRebalance (node k v s h l r)
    else sumAndRebalance (node k value s h l r)

/-- `n.findSmallest()`: the leftmost node. -/
def findSmallest : AVLNode → Go AVLNode
  | nil => nilDereference
  | n@(node _ _ _ _ nil _) => .ok n
  | node _ _ _ _ l@(node ..) _ => l.findSmallest

/-- `n.findLargest()`: the rightmost node. -/
def findLargest : AVLNode → Go AVLNode
  | nil => nilDereference
  | n@(node _ _ _ _ _ nil) => .ok n
  | node _ _ _ _ _ r@(node ..) => r.findLargest

/-- `n.remove(key)`: a node with two children takes the key and value of the
smallest node on its right, which is then removed there; one with a single
child is replaced by it. -/
def remove : AVLNode → UInt64 → Go AVLNode
  | nil, _ => .ok nil
  | node k v s h l r, key =>
    if key < k then do
      let l ← l.remove key
      sumAndRebalance (node k v s h l r)
    else if key > k then do
      let r ← r.remove key
      sumAndRebalance (node k v s h l r)
    else
      match l, r with
      | l@(node ..), r@(node ..) => do
        let rightMinNode ← r.findSmallest
        let rk ← rightMinNode.key
        let rv ← rightMinNode.value
        let r ← r.remove rk
        sumAndRebalance (node rk rv s h l r)
      | l@(node ..), nil => sumAndRebalance l
      | nil, r@(node ..) => sumAndRebalance r
      | nil, nil => .ok nil

/-- `n.search(key)`: the node of `key`, or nil, and the sum of the values of
the keys up to `key`. -/
def search : AVLNode → UInt64 → AVLNode × Int
  | nil, _ => (nil, 0)
  | n@(node k v _ _ l r), key =>
    if key < k then l.search key
    else if key > k then
      let (found, sum) := r.search key
      (found, sum + l.sumOrZero + v)
    else (n, v + l.sumOrZero)

/-- `n.displayNodesInOrder(&nodes)`: the nodes appended in key order. -/
def displayNodesInOrder : AVLNode → List AVLNode → Go (List AVLNode)
  | nil, _ => nilDereference
  | n@(node _ _ _ _ l r), nodes => do
    let nodes ← match l with
      | nil => .ok nodes
      | _ => l.displayNodesInOrder nodes
    let nodes := nodes ++ [n]
    match r with
    | nil => .ok nodes
    | _ => r.displayNodesInOrder nodes

end AVLNode

def errEmptyTree : String := "empty tree"

/-- `AVLTree`: the root. The zero value is the empty tree. -/
structure AVLTree where
  root : AVLNode
  deriving DecidableEq

namespace AVLTree

/-- The empty tree, `AVLTree{}`. -/
def empty : AVLTree := ⟨.nil⟩

def add (t : AVLTree) (key : UInt64) (value : Int) : Go AVLTree := do
  let root ← t.root.add key value
  .ok ⟨root⟩

def remove (t : AVLTree) (key : UInt64) : Go AVLTree := do
  let root ← t.root.remove key
  .ok ⟨root⟩

/-- `Update(oldKey, newKey, newValue)`: a removal, then an addition. -/
def update (t : AVLTree) (oldKey newKey : UInt64) (newValue : Int) : Go AVLTree := do
  let t ← t.remove oldKey
  t.add newKey newValue

def search (t : AVLTree) (key : UInt64) : AVLNode × Int := t.root.search key

def smallest (t : AVLTree) : Go (Except String UInt64) :=
  match t.root with
  | .nil => .ok (.error errEmptyTree)
  | root => do
    let n ← root.findSmallest
    let k ← n.key
    .ok (.ok k)

def largest (t : AVLTree) : Go (Except String UInt64) :=
  match t.root with
  | .nil => .ok (.error errEmptyTree)
  | root => do
    let n ← root.findLargest
    let k ← n.key
    .ok (.ok k)

def flatten (t : AVLTree) : Go (List AVLNode) :=
  match t.root with
  | .nil => .ok []
  | root => root.displayNodesInOrder []

end AVLTree

/-! ## The invariant -/

namespace AVLNode

/-- The entries in key order. -/
def toList : AVLNode → List (UInt64 × Int)
  | nil => []
  | node k v _ _ l r => l.toList ++ (k, v) :: r.toList

/-- Each stored height is one more than the taller child's, and the
children's heights differ by at most one. -/
def Balanced : AVLNode → Prop
  | nil => True
  | node _ _ _ h l r => l.Balanced ∧ r.Balanced ∧ h = 1 + max l.getHeight r.getHeight ∧
      l.getHeight ≤ r.getHeight + 1 ∧ r.getHeight ≤ l.getHeight + 1

/-- Each stored sum is the node's value and its children's sums. -/
def SumsOK : AVLNode → Prop
  | nil => True
  | node _ v s _ l r => l.SumsOK ∧ r.SumsOK ∧ s = v + l.sumOrZero + r.sumOrZero

/-- The tree's invariant: a search tree on distinct keys, balanced, with every
sum right. -/
structure Valid (t : AVLNode) : Prop where
  sorted : KeyedList.Sorted t.toList
  balanced : t.Balanced
  sumsOK : t.SumsOK

theorem valid_nil : nil.Valid := ⟨List.Pairwise.nil, trivial, trivial⟩

@[simp] theorem getHeight_nil : nil.getHeight = 0 := rfl

@[simp] theorem getHeight_node (k : UInt64) (v s h : Int) (l r : AVLNode) : (node k v s h l r).getHeight = h :=
  rfl

@[simp] theorem sumOrZero_nil : nil.sumOrZero = 0 := rfl

@[simp] theorem sumOrZero_node (k : UInt64) (v s h : Int) (l r : AVLNode) : (node k v s h l r).sumOrZero = s :=
  rfl

theorem getHeight_nonneg : ∀ {t : AVLNode}, t.Balanced → 0 ≤ t.getHeight
  | nil, _ => le_refl 0
  | node _ _ _ _ l _, ⟨hl, _, hh, _⟩ => by
    have := getHeight_nonneg hl
    simp only [getHeight_node]
    omega

theorem sumOrZero_eq : ∀ {t : AVLNode}, t.SumsOK → t.sumOrZero = (t.toList.map Prod.snd).sum
  | nil, _ => rfl
  | node _ _ _ _ l r, ⟨hl, hr, hs⟩ => by
    rw [sumOrZero_node, hs, sumOrZero_eq hl, sumOrZero_eq hr]
    simp only [toList, List.map_append, List.map_cons, List.sum_append, List.sum_cons]
    ring

/-! ## A recalculated node -/

section Recalculated

variable {k : UInt64} {v s : Int} {h : Int} {l r : AVLNode}

@[simp] theorem getHeight_recalculateHeight :
    (recalculateHeight (node k v s h l r)).getHeight = 1 + max l.getHeight r.getHeight := rfl

@[simp] theorem sumOrZero_recalculateHeight : (recalculateHeight (node k v s h l r)).sumOrZero = s := rfl

@[simp] theorem toList_recalculateHeight :
    (recalculateHeight (node k v s h l r)).toList = l.toList ++ (k, v) :: r.toList := rfl

theorem balanced_recalculateHeight (hl : l.Balanced) (hr : r.Balanced) (h₁ : l.getHeight ≤ r.getHeight + 1)
    (h₂ : r.getHeight ≤ l.getHeight + 1) : (recalculateHeight (node k v s h l r)).Balanced :=
  ⟨hl, hr, rfl, h₁, h₂⟩

theorem sumsOK_recalculateHeight (hl : l.SumsOK) (hr : r.SumsOK) (hs : s = v + l.sumOrZero + r.sumOrZero) :
    (recalculateHeight (node k v s h l r)).SumsOK :=
  ⟨hl, hr, hs⟩

end Recalculated

/-! ## Rebalancing -/

/-- `t` joins `l`, the entry `(k, v)` and `r`: it is balanced, holds their
entries in order and their sums, and is as tall as the taller of `l` and `r`
or one more, exactly one more when those differ by at most one. -/
structure Joins (l : AVLNode) (k : UInt64) (v : Int) (r : AVLNode) (t : AVLNode) : Prop where
  balanced : t.Balanced
  toList_eq : t.toList = l.toList ++ (k, v) :: r.toList
  sumsOK : l.SumsOK → r.SumsOK → t.SumsOK
  height_ge : max l.getHeight r.getHeight ≤ t.getHeight
  height_le : t.getHeight ≤ 1 + max l.getHeight r.getHeight
  height_eq : l.getHeight ≤ r.getHeight + 1 → r.getHeight ≤ l.getHeight + 1 →
    t.getHeight = 1 + max l.getHeight r.getHeight

section Rotations

variable {k : UInt64} {v s h : Int} {l r : AVLNode}

theorem rotateLeft_node (rk : UInt64) (rv rs rh : Int) (rl rr : AVLNode) :
    rotateLeft (node k v s h l (node rk rv rs rh rl rr)) =
      .ok (recalculateHeight (node rk rv s rh (recalculateHeight (node k v (s - rs + rl.sumOrZero) h l rl)) rr)) :=
  rfl

theorem rotateRight_node (lk : UInt64) (lv ls lh : Int) (ll lr : AVLNode) :
    rotateRight (node k v s h (node lk lv ls lh ll lr) r) =
      .ok (recalculateHeight (node lk lv s lh ll (recalculateHeight (node k v (s - ls + lr.sumOrZero) h lr r)))) :=
  rfl

/-- A node balanced as it is. -/
theorem joins_node (hl : l.Balanced) (hr : r.Balanced) (h₁ : l.getHeight ≤ r.getHeight + 1)
    (h₂ : r.getHeight ≤ l.getHeight + 1) (hs : s = v + l.sumOrZero + r.sumOrZero) :
    Joins l k v r (recalculateHeight (node k v s h l r)) where
  balanced := balanced_recalculateHeight hl hr h₁ h₂
  toList_eq := rfl
  sumsOK hl' hr' := sumsOK_recalculateHeight hl' hr' hs
  height_ge := by simp only [getHeight_recalculateHeight]; omega
  height_le := le_of_eq rfl
  height_eq _ _ := rfl

/-- One left rotation, for a right child two taller than the left whose outer
child is at least as tall as its inner one. -/
theorem joins_rotateLeft {rk : UInt64} {rv rs rh : Int} {rl rr : AVLNode} (hl : l.Balanced)
    (hr : (node rk rv rs rh rl rr).Balanced) (hbf : rh = l.getHeight + 2) (hout : rl.getHeight ≤ rr.getHeight)
    (hs : s = v + l.sumOrZero + rs) :
    Joins l k v (node rk rv rs rh rl rr)
      (recalculateHeight (node rk rv s rh (recalculateHeight (node k v (s - rs + rl.sumOrZero) h l rl)) rr)) := by
  obtain ⟨hrl, hrr, hrh, hb₁, hb₂⟩ := hr
  have := getHeight_nonneg hl
  refine ⟨balanced_recalculateHeight (balanced_recalculateHeight hl hrl (by omega) (by omega)) hrr ?_ ?_,
    by simp [toList], fun hl' ⟨hrl', hrr', hrs⟩ => ?_, ?_, ?_, fun h₁ h₂ => by simp only [getHeight_node, getHeight_recalculateHeight] at h₁ h₂ ⊢; omega⟩
  · simp only [getHeight_recalculateHeight]; omega
  · simp only [getHeight_recalculateHeight]; omega
  · refine sumsOK_recalculateHeight (sumsOK_recalculateHeight hl' hrl' (by omega)) hrr' ?_
    simp only [sumOrZero_recalculateHeight]
    omega
  · simp only [getHeight_recalculateHeight, getHeight_node]; omega
  · simp only [getHeight_recalculateHeight, getHeight_node]; omega

/-- A right rotation of the right child, then a left one, for a right child
two taller than the left whose inner child is the taller. -/
theorem joins_rotateRightLeft {rk lk : UInt64} {rv rs rh lv ls lh : Int} {rll rlr rr : AVLNode}
    (hl : l.Balanced) (hr : (node rk rv rs rh (node lk lv ls lh rll rlr) rr).Balanced)
    (hbf : rh = l.getHeight + 2) (hin : rr.getHeight < lh) (hs : s = v + l.sumOrZero + rs) :
    Joins l k v (node rk rv rs rh (node lk lv ls lh rll rlr) rr)
      (recalculateHeight (node lk lv s
        (1 + max rll.getHeight (recalculateHeight (node rk rv (rs - ls + rlr.sumOrZero) rh rlr rr)).getHeight)
        (recalculateHeight (node k v (s - rs + rll.sumOrZero) h l rll))
        (recalculateHeight (node rk rv (rs - ls + rlr.sumOrZero) rh rlr rr)))) := by
  obtain ⟨⟨hrll, hrlr, hlh, hc₁, hc₂⟩, hrr, hrh, hb₁, hb₂⟩ := hr
  have := getHeight_nonneg hl
  have := getHeight_nonneg hrll
  have := getHeight_nonneg hrlr
  simp only [getHeight_node] at hrh hb₁ hb₂ hin
  refine ⟨balanced_recalculateHeight (balanced_recalculateHeight hl hrll (by omega) (by omega))
      (balanced_recalculateHeight hrlr hrr (by omega) (by omega)) ?_ ?_,
    by simp [toList], fun hl' ⟨⟨hrll', hrlr', hls⟩, hrr', hrs⟩ => ?_, ?_, ?_,
    fun h₁ h₂ => by simp only [getHeight_node, getHeight_recalculateHeight] at h₁ h₂ ⊢; omega⟩
  · simp only [getHeight_recalculateHeight]; omega
  · simp only [getHeight_recalculateHeight]; omega
  · simp only [sumOrZero_node] at hrs
    refine sumsOK_recalculateHeight (sumsOK_recalculateHeight hl' hrll' (by omega))
      (sumsOK_recalculateHeight hrlr' hrr' (by omega)) ?_
    simp only [sumOrZero_recalculateHeight]
    omega
  · simp only [getHeight_recalculateHeight, getHeight_node]; omega
  · simp only [getHeight_recalculateHeight, getHeight_node]; omega

/-- One right rotation, the mirror of `joins_rotateLeft`. -/
theorem joins_rotateRight {lk : UInt64} {lv ls lh : Int} {ll lr : AVLNode} (hr : r.Balanced)
    (hl : (node lk lv ls lh ll lr).Balanced) (hbf : lh = r.getHeight + 2) (hout : lr.getHeight ≤ ll.getHeight)
    (hs : s = v + ls + r.sumOrZero) :
    Joins (node lk lv ls lh ll lr) k v r
      (recalculateHeight (node lk lv s lh ll (recalculateHeight (node k v (s - ls + lr.sumOrZero) h lr r)))) := by
  obtain ⟨hll, hlr, hlh, hb₁, hb₂⟩ := hl
  have := getHeight_nonneg hr
  refine ⟨balanced_recalculateHeight hll (balanced_recalculateHeight hlr hr (by omega) (by omega)) ?_ ?_,
    by simp [toList], fun ⟨hll', hlr', hls⟩ hr' => ?_, ?_, ?_, fun h₁ h₂ => by simp only [getHeight_node, getHeight_recalculateHeight] at h₁ h₂ ⊢; omega⟩
  · simp only [getHeight_recalculateHeight]; omega
  · simp only [getHeight_recalculateHeight]; omega
  · refine sumsOK_recalculateHeight hll' (sumsOK_recalculateHeight hlr' hr' (by omega)) ?_
    simp only [sumOrZero_recalculateHeight]
    omega
  · simp only [getHeight_recalculateHeight, getHeight_node]; omega
  · simp only [getHeight_recalculateHeight, getHeight_node]; omega

/-- A left rotation of the left child, then a right one, the mirror of
`joins_rotateRightLeft`. -/
theorem joins_rotateLeftRight {lk rk : UInt64} {lv ls lh rv rs rh : Int} {ll lrl lrr : AVLNode}
    (hr : r.Balanced) (hl : (node lk lv ls lh ll (node rk rv rs rh lrl lrr)).Balanced)
    (hbf : lh = r.getHeight + 2) (hin : ll.getHeight < rh) (hs : s = v + ls + r.sumOrZero) :
    Joins (node lk lv ls lh ll (node rk rv rs rh lrl lrr)) k v r
      (recalculateHeight (node rk rv s
        (1 + max (recalculateHeight (node lk lv (ls - rs + lrl.sumOrZero) lh ll lrl)).getHeight lrr.getHeight)
        (recalculateHeight (node lk lv (ls - rs + lrl.sumOrZero) lh ll lrl))
        (recalculateHeight (node k v (s - ls + lrr.sumOrZero) h lrr r)))) := by
  obtain ⟨hll, ⟨hlrl, hlrr, hrh, hc₁, hc₂⟩, hlh, hb₁, hb₂⟩ := hl
  have := getHeight_nonneg hr
  have := getHeight_nonneg hlrl
  have := getHeight_nonneg hlrr
  simp only [getHeight_node] at hlh hb₁ hb₂ hin
  refine ⟨balanced_recalculateHeight (balanced_recalculateHeight hll hlrl (by omega) (by omega))
      (balanced_recalculateHeight hlrr hr (by omega) (by omega)) ?_ ?_,
    by simp [toList], fun ⟨hll', ⟨hlrl', hlrr', hrs⟩, hls⟩ hr' => ?_, ?_, ?_,
    fun h₁ h₂ => by simp only [getHeight_node, getHeight_recalculateHeight] at h₁ h₂ ⊢; omega⟩
  · simp only [getHeight_recalculateHeight]; omega
  · simp only [getHeight_recalculateHeight]; omega
  · simp only [sumOrZero_node] at hls
    refine sumsOK_recalculateHeight (sumsOK_recalculateHeight hll' hlrl' (by omega))
      (sumsOK_recalculateHeight hlrr' hr' (by omega)) ?_
    simp only [sumOrZero_recalculateHeight]
    omega
  · simp only [getHeight_recalculateHeight, getHeight_node]; omega
  · simp only [getHeight_recalculateHeight, getHeight_node]; omega

end Rotations

/-- Rebalancing a node whose children are balanced and differ in height by at
most two never panics, and joins its children and its entry. -/
theorem sumAndRebalance_joins {k : UInt64} {v s h : Int} {l r : AVLNode} (hl : l.Balanced) (hr : r.Balanced)
    (h₁ : l.getHeight ≤ r.getHeight + 2) (h₂ : r.getHeight ≤ l.getHeight + 2) :
    ∃ t, sumAndRebalance (node k v s h l r) = .ok t ∧ Joins l k v r t := by
  have hl₀ := getHeight_nonneg hl
  have hr₀ := getHeight_nonneg hr
  simp only [sumAndRebalance, rebalanceTree, recalculateHeight]
  split_ifs with hbr hbl
  · cases r with
    | nil => simp only [getHeight_nil] at hbr; omega
    | node rk rv rs rh rl rr =>
      simp only [getHeight_node] at hbr
      dsimp only
      by_cases hin : rl.getHeight > rr.getHeight
      · cases rl with
        | nil => have := getHeight_nonneg hr.2.1; simp only [getHeight_nil] at hin; omega
        | node lk lv ls lh rll rlr =>
          rw [if_pos hin]
          exact ⟨_, rfl, joins_rotateRightLeft hl hr (by omega) hin rfl⟩
      · rw [if_neg hin]
        exact ⟨_, rfl, joins_rotateLeft hl hr (by omega) (by omega) rfl⟩
  · cases l with
    | nil => simp only [getHeight_nil] at hbl; omega
    | node lk lv ls lh ll lr =>
      simp only [getHeight_node] at hbl
      dsimp only
      by_cases hin : lr.getHeight > ll.getHeight
      · cases lr with
        | nil => have := getHeight_nonneg hl.1; simp only [getHeight_nil] at hin; omega
        | node rk rv rs rh lrl lrr =>
          rw [if_pos hin]
          exact ⟨_, rfl, joins_rotateLeftRight hr hl (by omega) hin rfl⟩
      · rw [if_neg hin]
        exact ⟨_, rfl, joins_rotateRight hr hl (by omega) (by omega) rfl⟩
  · exact ⟨_, rfl, joins_node (h := h) hl hr (by omega) (by omega) rfl⟩

end AVLNode

end Pangu
