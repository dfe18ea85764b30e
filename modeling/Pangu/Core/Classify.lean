import Pangu.Core.Process

/-!
# Grouping the transactions of a block

`ClassifyTx` and `MergeAccessList` (`core/txclassfy.go`): each transaction's
declared access list becomes a set of resources; two transactions whose sets
meet are put in one class, and the classes become the groups of the block.
The groups are read out of a Go map, whose iteration order the language leaves
open and randomises: `classifyTx` takes that order, any order of the map's
keys, as a parameter.

The loop gives `j` the class of `i` and does not move the transactions already
in `j`'s class: `classifyTx_splits_chain` shows that three transactions whose
resources chain, the first meeting the third and the third the second, end in
two groups, the first alone.

`SelectTxs` takes, round after round, the first transaction of the sender
whose first transaction pays most, until the budget is spent; it never counts
the gas it takes, so `selectTxs_panics`: every map runs it until the sender it
picks has nothing left, and reading that sender's first transaction panics.
-/

namespace Pangu

open Go

/-- An element of a resource set. `MergeAccessList` writes an address as
`addr.Hex()` and a slot as `addr.Hex() + key.Hex()`, strings of 42 and 108
characters, so each string stands for one of these. -/
inductive Resource where
  | addr (a : Address)
  | slot (a : Address) (key : Hash)
  deriving DecidableEq

/-- `MergeAccessList(al)`: the slots of each address, or the address itself.
The test is `num > 0`, so the slot set at index 0 counts as none; an index
past `Slots` panics, and so does a nil list. -/
def mergeAccessList : Option AccessList → Go (List Resource)
  | none => nilDereference
  | some al => go al al.addrs.entries
where
  go (al : AccessList) : List (Σ _ : Address, Int) → Go (List Resource)
    | [] => .ok []
    | ⟨addr, num⟩ :: rest => do
      let here ← if num > 0 then do
          let slots ← sliceIndex al.slots num
          .ok (slots.keyList.map (Resource.slot addr))
        else .ok [Resource.addr addr]
      let rs ← go al rest
      .ok (here ++ rs)

/-- `IsConflict(set1, set2)`: whether the sets meet. -/
def isConflict (set1 set2 : List Resource) : Bool := set1.any (· ∈ set2)

/-- `TxClass`. -/
structure TxClass where
  tx : Transaction
  id : Nat
  txResource : List Resource

/-- `NewTxClassList(txs)`: each transaction, its index as its class, and its
resources. -/
def newTxClassList (txs : List Transaction) : Go (List TxClass) :=
  (txs.zipIdx).mapM fun (tx, i) => do
    let r ← mergeAccessList tx.accessList
    .ok ⟨tx, i, r⟩

/-- The body of the inner loop of `ClassifyTx` at `i < j`: on a conflict, `j`
takes the class of `i`, and both the union of their resources. -/
def classifyStep (cs : List TxClass) (i j : Nat) : List TxClass :=
  match cs[i]?, cs[j]? with
  | some ci, some cj =>
    if isConflict ci.txResource cj.txResource then
      let u := ci.txResource ∪ cj.txResource
      (cs.set i { ci with txResource := u }).set j { cj with id := ci.id, txResource := u }
    else cs
  | _, _ => cs

/-- The two loops of `ClassifyTx` over every pair `i < j`, in order. -/
def classifyLoop (cs : List TxClass) : List TxClass :=
  let n := cs.length
  (List.range n).foldl (fun cs i => (List.range' (i + 1) (n - (i + 1))).foldl (fun cs j => classifyStep cs i j) cs) cs

/-- The map `groups` of `ClassifyTx`: each class id and its transactions, in
the order of the list. -/
def classGroups (cs : List TxClass) : GoMap Nat (List Transaction) :=
  cs.foldl (fun groups c => groups.set c.id (groups.get c.id [] ++ [c.tx])) ∅

/-- The order a group is sorted by: the sender, then the nonce. -/
def groupLess (a b : Address × UInt64) : Bool := a.1 < b.1 || (a.1 == b.1 && a.2 < b.2)

/-- `sort.Slice` of one group by `groupLess`; a group of two or more has every
sender recovered, and a recovery that panics panics the sort. -/
def sortGroup (crypto : Crypto) (sortSlice : SortSlice) (signer : PanguSigner) (txs : List Transaction) :
    Go (List Transaction) :=
  if txs.length < 2 then .ok txs
  else do
    let keyed ← txs.mapM fun tx => do
      let sender ← senderOrZero crypto signer tx
      .ok ((sender, tx.nonce), tx)
    .ok ((sortSlice (fun a b => groupLess a.1 b.1) keyed).map Prod.snd)

/-- `ClassifyTx(txs, signer)`, with the groups read out of their map in the
order `order` of its keys. -/
def classifyTx (crypto : Crypto) (sortSlice : SortSlice) (txs : List Transaction) (signer : PanguSigner)
    (order : List Nat) : Go (List (List Transaction)) := do
  let cs ← newTxClassList txs
  let groups := classGroups (classifyLoop cs)
  let sorted ← groups.entries.mapM fun e => do
    let g ← sortGroup crypto sortSlice signer e.2
    .ok (e.1, g)
  .ok (order.filterMap fun id => (sorted.find? (·.1 == id)).map Prod.snd)

/-- A group of fewer than two is left as it is: no sender is recovered and the
sort is not called. -/
theorem sortGroup_of_length_lt {crypto : Crypto} {sortSlice : SortSlice} {signer : PanguSigner}
    {txs : List Transaction} (h : txs.length < 2) : sortGroup crypto sortSlice signer txs = .ok txs :=
  if_pos h

/-- The sort is called on groups of two or more only, so a block whose classes
are single transactions is grouped alike by every `sort.Slice`. -/
theorem classifyTx_sortSlice_irrel (crypto : Crypto) (s₁ s₂ : SortSlice) (txs : List Transaction)
    (signer : PanguSigner) (order : List Nat)
    (h : (newTxClassList txs).toOption.all
      fun cs => (classGroups (classifyLoop cs)).entries.all fun e => e.2.length < 2) :
    classifyTx crypto s₁ txs signer order = classifyTx crypto s₂ txs signer order := by
  cases hcs : newTxClassList txs with
  | error p => simp only [classifyTx, hcs, error_bind]
  | ok cs =>
    simp only [hcs, Except.toOption, Option.all_some, List.all_eq_true, decide_eq_true_eq] at h
    have hsort : ∀ e ∈ (classGroups (classifyLoop cs)).entries,
        (do let g ← sortGroup crypto s₁ signer e.2; .ok (e.1, g) : Go (Nat × List Transaction)) =
          (do let g ← sortGroup crypto s₂ signer e.2; .ok (e.1, g)) := by
      intro e he
      rw [sortGroup_of_length_lt (h e he), sortGroup_of_length_lt (h e he)]
    simp only [classifyTx, hcs, ok_bind, mapM_congr_mem hsort]

/-- The keys of the map `groups`: Go may range over them in any order. -/
def classIds (txs : List Transaction) : Go (List Nat) := do
  let cs ← newTxClassList txs
  .ok (classGroups (classifyLoop cs)).keyList

theorem isConflict_union_right {s a b : List Resource} (h : isConflict s b = true) :
    isConflict s (a ∪ b) = true := by
  simp only [isConflict, List.any_eq_true, decide_eq_true_eq] at h ⊢
  obtain ⟨x, hx, hb⟩ := h
  exact ⟨x, hx, List.mem_union_right a hb⟩

/-- Three transactions' classes, each with the resources `MergeAccessList` gives. -/
theorem newTxClassList_three {tx₀ tx₁ tx₂ : Transaction} {r₀ r₁ r₂ : List Resource}
    (h₀ : mergeAccessList tx₀.accessList = .ok r₀) (h₁ : mergeAccessList tx₁.accessList = .ok r₁)
    (h₂ : mergeAccessList tx₂.accessList = .ok r₂) :
    newTxClassList [tx₀, tx₁, tx₂] = .ok [⟨tx₀, 0, r₀⟩, ⟨tx₁, 1, r₁⟩, ⟨tx₂, 2, r₂⟩] := by
  simp [newTxClassList, List.zipIdx, h₀, h₁, h₂]

theorem classifyLoop_three (c₀ c₁ c₂ : TxClass) :
    classifyLoop [c₀, c₁, c₂] = classifyStep (classifyStep (classifyStep [c₀, c₁, c₂] 0 1) 0 2) 1 2 := rfl

/-- The loop on a chain: `(0, 2)` gives the third transaction class 0 and the
union of the resources, which then meets the second's at `(1, 2)`, and the
third moves on to class 1 without the first. -/
theorem classGroups_classifyLoop_chain (tx₀ tx₁ tx₂ : Transaction) {r₀ r₁ r₂ : List Resource}
    (h01 : isConflict r₀ r₁ = false) (h02 : isConflict r₀ r₂ = true) (h12 : isConflict r₁ r₂ = true) :
    classGroups (classifyLoop [⟨tx₀, 0, r₀⟩, ⟨tx₁, 1, r₁⟩, ⟨tx₂, 2, r₂⟩]) =
      (((∅ : GoMap Nat (List Transaction)).set 0 [tx₀]).set 1 [tx₁]).set 1 [tx₁, tx₂] := by
  rw [classifyLoop_three]
  simp [classifyStep, h01, h02, isConflict_union_right h12]
  rfl

/-- Three transactions whose resources chain: the first meets the third, the
third the second, and the first not the second. The map has the classes 0 and
1; read in the order `0, 1`, the groups are the first transaction alone and the
sorted group of the other two, so the first and the third, which conflict,
run in different groups. -/
theorem classifyTx_splits_chain (crypto : Crypto) (sortSlice : SortSlice) (signer : PanguSigner)
    {tx₀ tx₁ tx₂ : Transaction} {r₀ r₁ r₂ : List Resource}
    (h₀ : mergeAccessList tx₀.accessList = .ok r₀) (h₁ : mergeAccessList tx₁.accessList = .ok r₁)
    (h₂ : mergeAccessList tx₂.accessList = .ok r₂)
    (h01 : isConflict r₀ r₁ = false) (h02 : isConflict r₀ r₂ = true) (h12 : isConflict r₁ r₂ = true) :
    classIds [tx₀, tx₁, tx₂] = .ok [1, 0] ∧
    classifyTx crypto sortSlice [tx₀, tx₁, tx₂] signer [0, 1] =
      (sortGroup crypto sortSlice signer [tx₁, tx₂]).map fun g => [[tx₀], g] := by
  have hg := classGroups_classifyLoop_chain tx₀ tx₁ tx₂ h01 h02 h12
  constructor
  · simp only [classIds, newTxClassList_three h₀ h₁ h₂, ok_bind, hg]
    rfl
  · -- `Set` moves a key to the front: the map ranges over class 1 first
    have he : ((((∅ : GoMap Nat (List Transaction)).set 0 [tx₀]).set 1 [tx₁]).set 1 [tx₁, tx₂]).entries =
        [⟨1, [tx₁, tx₂]⟩, ⟨0, [tx₀]⟩] := rfl
    simp only [classifyTx, newTxClassList_three h₀ h₁ h₂, ok_bind, hg, he, List.mapM_cons, List.mapM_nil,
      sortGroup_of_length_lt (show [tx₀].length < 2 by simp)]
    cases sortGroup crypto sortSlice signer [tx₁, tx₂] with
    | error p => rfl
    | ok g => rfl

/-- A call of `0xb1` from `sender` at no price, signed for chain 0, declaring
`al`. -/
def declaringTx (sender : Address) (al : AccessList) : Transaction :=
  ⟨{ toAddr := some 0xb1, nonce := 0, value := some 0, gasLimit := 21000, feeCap := some 0, tipCap := some 0,
      chainID := some 0, sigAlgo := SIG_ECDSA, signature := byteSignature sender, encAlgo := 0, encContent := [],
      vmType := 0, data := [], accessList := some al }, none⟩

/-- The addresses `as` with no slots, as `AddAddress` adds them one by one. -/
def addressOnlyList (as : List Address) : AccessList := ⟨some (as.foldl (fun m a => m.set a (-1)) ∅), []⟩

def onlyA : Transaction := declaringTx 0xa1 (addressOnlyList [0xa1])

def onlyB : Transaction := declaringTx 0xa2 (addressOnlyList [0xb1])

def bothAB : Transaction := declaringTx 0xa3 (addressOnlyList [0xa1, 0xb1])

-- recovering the two senders of the sorted group unfolds their signing hashes
-- past the default depth
set_option maxRecDepth 4000 in
/-- The chain `{A}`, `{B}`, `{A, B}` of three address-only lists: the groups
are `[onlyA]` and `[onlyB, bothAB]`, though `onlyA` and `bothAB` both declare
`0xa1`. -/
theorem classifyTx_splits_chain_of_addresses :
    mergeAccessList onlyA.accessList = .ok [.addr 0xa1] ∧ mergeAccessList onlyB.accessList = .ok [.addr 0xb1] ∧
      mergeAccessList bothAB.accessList = .ok [.addr 0xb1, .addr 0xa1] ∧
      isConflict [.addr 0xa1] [.addr 0xb1] = false ∧ isConflict [.addr 0xa1] [.addr 0xb1, .addr 0xa1] = true ∧
      isConflict [.addr 0xb1] [.addr 0xb1, .addr 0xa1] = true ∧
      classIds [onlyA, onlyB, bothAB] = .ok [1, 0] ∧
      classifyTx byteCrypto insertionSortSlice [onlyA, onlyB, bothAB] (newPanguSigner (some 0)) [0, 1] =
        .ok [[onlyA], [onlyB, bothAB]] := by
  have hsort : sortGroup byteCrypto insertionSortSlice (newPanguSigner (some 0)) [onlyB, bothAB] =
      .ok [onlyB, bothAB] := rfl
  have h := @classifyTx_splits_chain byteCrypto insertionSortSlice (newPanguSigner (some 0)) onlyA onlyB bothAB
    [.addr 0xa1] [.addr 0xb1] [.addr 0xb1, .addr 0xa1] rfl rfl rfl (by decide) (by decide) (by decide)
  exact ⟨rfl, rfl, rfl, by decide, by decide, by decide, h.1, h.2.trans (by rw [hsort]; rfl)⟩

/-! ## Selecting by price -/

/-- `FindMaxGasPrice(txMap)`: the sender whose first transaction's price is
the greatest, the first such in range order, or the zero address when no price
is above zero. The first transaction of every sender is read, so a sender with
no transactions left panics the search. -/
def findMaxGasPrice (txMap : GoMap Address (List Transaction)) : Go Address := do
  let (maxGasPriceAddr, _) ← txMap.entries.foldlM
    (fun (acc : Address × Int) e => do
      let tx ← sliceIndex e.2 0
      let price ← tx.gasPrice
      if price > acc.2 then .ok (e.1, price) else .ok acc)
    (0, 0)
  .ok maxGasPriceAddr

/-- The loop of `SelectTxs`: while `sum` is within the budget, take the first
transaction of the sender `FindMaxGasPrice` picks and drop it from that
sender's list. The source never adds to `sum`. -/
def selectLoop (gasLimit sum : UInt64) (temp : GoMap Address (List Transaction))
    (selectedTxs : List Transaction) : Go (List Transaction) :=
  if sum > gasLimit then .ok selectedTxs
  else do
    let selectedAddr ← findMaxGasPrice temp
    match _hget : temp.get selectedAddr [] with
    | [] => sliceIndex [] 0
    | tx :: rest => selectLoop gasLimit sum (temp.set selectedAddr rest) (selectedTxs ++ [tx])
termination_by temp.total List.length
decreasing_by
  have := GoMap.total_set rest List.length (_hget ▸ GoMap.find?_of_get_ne (by simp [_hget]))
  simp only [List.length_cons] at this
  omega

/-- `SelectTxs(txMap, gasLimit)`, on a copy of the map. -/
def selectTxs (txMap : GoMap Address (List Transaction)) (gasLimit : UInt64) : Go (List Transaction) :=
  selectLoop gasLimit 0 txMap []

/-- Within the budget the loop only stops by a panic: every round shortens one
list, and once the list of the sender picked is empty, reading its first
transaction panics. -/
theorem selectLoop_panics (gasLimit sum : UInt64) (hsum : ¬ sum > gasLimit) :
    ∀ (temp : GoMap Address (List Transaction)) (selectedTxs : List Transaction),
      ∃ p, selectLoop gasLimit sum temp selectedTxs = .error p := by
  intro temp selectedTxs
  fun_induction selectLoop gasLimit sum temp selectedTxs
  case case1 hgt => exact absurd hgt hsum
  case case2 temp selectedTxs _ ih =>
    cases hfind : findMaxGasPrice temp with
    | error p => exact ⟨p, rfl⟩
    | ok addr =>
      simp only [ok_bind]
      -- the match on the picked sender's list: empty, or one more round
      split
      · exact sliceIndex_eq_error [] (by simp)
      · next tx rest hget => exact ih addr tx rest hget

/-- `SelectTxs` panics on every map and every budget: `sum` starts at zero and
is never added to, so the loop's only exit is never taken. -/
theorem selectTxs_panics (txMap : GoMap Address (List Transaction)) (gasLimit : UInt64) :
    ∃ p, selectTxs txMap gasLimit = .error p :=
  selectLoop_panics gasLimit 0 (by simp) txMap []

end Pangu
