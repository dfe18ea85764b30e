import Pangu.Core.Chain
import Pangu.Executor.Server

/-!
# The executor's loop and the chain it builds

`ExecuteLoop` (`executor/executor_server.go`) makes each block's header with
`initHeader(COINBASE, 12345678)`: the current block's hash as parent hash and
its number plus one. It runs `Process` under that header, and writes
`NewBlock(...)` with `Process`'s receipts and state root to the chain. A round
reads the clock, the groups `ClassifyTx` makes and `Process`'s results; none
of them reaches a header's number or parent hash, so they are the round's
inputs here, any values at all.

* `executeLoop_linked`: every run from `NewBlokchain` keeps the chain linked,
  one block a round;
* `executeLoop_block_hashes`: the chain is numbered and linked, and under the
  next header `GetHashFn` answers every sequence of queries with the chain's
  hashes, without an index out of range.
-/

namespace Pangu

open Go

/-- `e.initHeader(coinBase, gasLimit)`, at the time `time.Now()` gives: it reads
`CurrentBlock()` once for the parent hash and once for the number. -/
def initHeader (keccak256 : Bytes → Hash) (bc : Blockchain) (coinBase : Address) (gasLimit time : UInt64) :
    Go Header := do
  let parent ← bc.currentBlock
  let current ← bc.currentBlock
  .ok { Header.zero with
    parentHash := parent.hash keccak256, time := time, number := current.number + 1, baseFee := some 0,
    coinbase := coinBase, gasLimit := gasLimit }

/-- What a round that writes a block reads besides the chain: the clock when its
header is made, the groups of its transactions, and `Process`'s receipts and
state root. -/
structure RoundInput where
  time : UInt64
  blockTxs : List (List Transaction)
  receipts : List Receipt
  rootHash : Hash

/-- A round of `ExecuteLoop` that writes a block (`len(txs) >= 1`); the other
rounds leave the chain as it is. An error of `WriteBlockAndSetHead` panics. -/
def executeLoopRound (keccak256 : Bytes → Hash) (hasher : TrieHasher) (bc : Blockchain) (inp : RoundInput) :
    Go Blockchain := do
  let header := copyHeader (← initHeader keccak256 bc COINBASE 12345678 inp.time)
  let block := initBlock header inp.blockTxs
  let okBlock := newBlock keccak256 hasher (copyHeader block.header) inp.blockTxs inp.receipts inp.rootHash
  let (bc, _status, err) := bc.writeBlockAndSetHead okBlock
  match err with
  | some e => panic e
  | none => .ok bc

/-- The chain after the rounds of `ExecuteLoop` that write blocks, from
`NewBlokchain`. -/
def executeLoop (keccak256 : Bytes → Hash) (hasher : TrieHasher) (genesisTime : UInt64)
    (rounds : List RoundInput) : Go Blockchain :=
  rounds.foldlM (executeLoopRound keccak256 hasher) (Blockchain.newBlokchain genesisTime)

section Rounds

variable {keccak256 : Bytes → Hash} (hasher : TrieHasher)

/-- On a linked chain the next header is numbered the length of the chain,
with the last block's hash as parent. -/
theorem initHeader_of_linked {bc : Blockchain} (hl : bc.Linked keccak256) (coinBase : Address)
    (gasLimit time : UInt64) :
    ∃ h, initHeader keccak256 bc coinBase gasLimit time = .ok h ∧ h.number = bc.blocks.length ∧
      h.parentHash = (bc.blocks.getLast hl.ne_nil).hash keccak256 := by
  refine ⟨_, by rw [initHeader, bc.currentBlock_eq hl.ne_nil, ok_bind, ok_bind], ?_, rfl⟩
  have hpos := List.length_pos_iff.mpr hl.ne_nil
  show (bc.blocks.getLast hl.ne_nil).header.number + 1 = bc.blocks.length
  rw [hl.number_getLast]
  omega

/-- A round appends one block, numbered after the last with the last one's
hash as parent, and never panics. -/
theorem executeLoopRound_linked {bc : Blockchain} (hl : bc.Linked keccak256) (inp : RoundInput) :
    ∃ bc', executeLoopRound keccak256 hasher bc inp = .ok bc' ∧ bc'.Linked keccak256 ∧
      bc'.blocks.length = bc.blocks.length + 1 := by
  obtain ⟨h, hh, hnum, hpar⟩ := initHeader_of_linked hl COINBASE 12345678 inp.time
  let okBlock := newBlock keccak256 hasher (copyHeader (initBlock (copyHeader h) inp.blockTxs).header)
    inp.blockTxs inp.receipts inp.rootHash
  have hround : executeLoopRound keccak256 hasher bc inp = .ok (bc.writeBlockAndSetHead okBlock).1 := by
    rw [executeLoopRound, hh, ok_bind]
    rfl
  refine ⟨_, hround, hl.append ?_ ?_, by simp [Blockchain.writeBlockAndSetHead]⟩
  · rw [newBlock_header_number]
    exact hnum
  · rw [newBlock_header_parentHash]
    exact hpar

/-- Every run of rounds from a linked chain stays linked, one block a round. -/
theorem foldlM_executeLoopRound_linked (rounds : List RoundInput) {bc : Blockchain} (hl : bc.Linked keccak256) :
    ∃ bc', rounds.foldlM (executeLoopRound keccak256 hasher) bc = .ok bc' ∧ bc'.Linked keccak256 ∧
      bc'.blocks.length = bc.blocks.length + rounds.length := by
  induction rounds generalizing bc with
  | nil => exact ⟨bc, rfl, hl, rfl⟩
  | cons inp rounds ih =>
    obtain ⟨bc₁, h₁, hl₁, hlen₁⟩ := executeLoopRound_linked hasher hl inp
    obtain ⟨bc₂, h₂, hl₂, hlen₂⟩ := ih hl₁
    refine ⟨bc₂, ?_, hl₂, ?_⟩
    · rw [List.foldlM_cons, h₁, ok_bind, h₂]
    · rw [hlen₂, hlen₁, List.length_cons]
      omega

theorem executeLoop_linked (keccak256 : Bytes → Hash) (hasher : TrieHasher) (genesisTime : UInt64)
    (rounds : List RoundInput) :
    ∃ bc, executeLoop keccak256 hasher genesisTime rounds = .ok bc ∧ bc.Linked keccak256 ∧
      bc.blocks.length = rounds.length + 1 := by
  obtain ⟨bc, h, hl, hlen⟩ :=
    foldlM_executeLoopRound_linked hasher rounds (Blockchain.linked_newBlokchain keccak256 genesisTime)
  exact ⟨bc, h, hl, by rw [hlen, Nat.add_comm]; rfl⟩

end Rounds

/-- The chain `ExecuteLoop` builds: one block more than its rounds, block `i`
numbered `i` with block `i - 1`'s hash as parent; and under the header
`initHeader` makes next, `GetHashFn`'s function, given the fuel to walk the
chain, answers every sequence of queries sharing its cache with block `n`'s
hash below the header's number and the zero hash from it on. A Go slice holds
fewer than `2^63` elements. -/
theorem executeLoop_block_hashes (keccak256 : Bytes → Hash) (hasher : TrieHasher) (genesisTime : UInt64)
    (rounds : List RoundInput) (time : UInt64) (hlen : rounds.length + 1 < 2 ^ 63) :
    ∃ bc, executeLoop keccak256 hasher genesisTime rounds = .ok bc ∧ bc.blocks.length = rounds.length + 1 ∧
      (∀ (i : Nat) (hi : i < bc.blocks.length), (bc.blocks[i]).header.number = i) ∧
      (∀ (i : Nat) (hi : i + 1 < bc.blocks.length),
        (bc.blocks[i + 1]).header.parentHash = (bc.blocks.get ⟨i, Nat.lt_of_succ_lt hi⟩).hash keccak256) ∧
      ∃ h, initHeader keccak256 bc COINBASE 12345678 time = .ok h ∧ h.number = bc.blocks.length ∧
        ∀ (fuel : Nat), h.number ≤ fuel → ∀ qs : List UInt64,
          getHashes bc.chainContext h fuel [] qs = .ok (some (qs.map fun n =>
            if n.toNat < h.number then (bc.blocks[n.toNat]?.map (Block.hash keccak256)).getD 0 else 0)) := by
  obtain ⟨bc, hrun, hl, hlen'⟩ := executeLoop_linked keccak256 hasher genesisTime rounds
  obtain ⟨h, hh, hnum, hpar⟩ := initHeader_of_linked hl COINBASE 12345678 time
  have hparent : some h.parentHash = bc.blocks[h.number - 1]?.map (Block.hash keccak256) := by
    rw [hpar, hnum, List.getLast_eq_getElem, List.getElem?_eq_getElem (by omega), Option.map_some]
  refine ⟨bc, hrun, hlen', fun i hi => hl.number_getElem hi, fun i hi => hl.parentHash_getElem hi, h, hh, hnum,
    fun fuel hfuel qs => ?_⟩
  exact getHashes_spec hl hnum hparent (by omega) hfuel qs (cacheOK_nil _ _ _)

/-- One round with no transactions, under constant hash functions. -/
theorem executeLoop_block_hashes_one_round :
    [(⟨1, [], [], 0⟩ : RoundInput)].length + 1 < 2 ^ 63 ∧
    ∃ bc, executeLoop (fun _ => 0) ⟨fun _ => 0, fun _ => 0⟩ 0 [⟨1, [], [], 0⟩] = .ok bc ∧
      bc.blocks.length = [(⟨1, [], [], 0⟩ : RoundInput)].length + 1 ∧
      (∀ (i : Nat) (hi : i < bc.blocks.length), (bc.blocks[i]).header.number = i) ∧
      (∀ (i : Nat) (hi : i + 1 < bc.blocks.length),
        (bc.blocks[i + 1]).header.parentHash = (bc.blocks.get ⟨i, Nat.lt_of_succ_lt hi⟩).hash fun _ => 0) ∧
      ∃ h, initHeader (fun _ => 0) bc COINBASE 12345678 2 = .ok h ∧ h.number = bc.blocks.length ∧
        ∀ (fuel : Nat), h.number ≤ fuel → ∀ qs : List UInt64,
          getHashes bc.chainContext h fuel [] qs = .ok (some (qs.map fun n =>
            if n.toNat < h.number then (bc.blocks[n.toNat]?.map (Block.hash fun _ => 0)).getD 0 else 0)) :=
  ⟨by decide, executeLoop_block_hashes _ _ _ _ 2 (by decide)⟩

end Pangu
