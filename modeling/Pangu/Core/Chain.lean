import Pangu.Types.Receipt

/-!
# Blocks, the chain, and the block hashes the EVM sees

`Blockchain` (`core/blockchain.go`) is a slice of blocks: `NewBlokchain`
starts it with the genesis block, `WriteBlockAndSetHead` appends, and
`GetHeader(hash, number)` reads the header at index `number`, the hash unread.
`GetHashFn(ref, chain)` (`core/pvm.go`) is `BLOCKHASH`'s lookup: a function of
`n` over a cache it fills with parent hashes, walking `GetHeader` down from the
last hash it knows. Its loop has no bound of its own, so it takes fuel here,
`none` standing for fuel run out.

`Header.Hash()` is `rlpHash(h)`, which drops the encoder's error. The encoder
rejects `types.Header`: `BaseFee` is tagged `rlp:"optional"` and the fields
after it are not, so nothing is written and every header hashes to the
Keccak-256 of no bytes (`Header.hash_eq`). The chain's results below hold for
every hash function.

* `Linked`: block `i` has number `i` and the hash of block `i - 1` as its
  parent hash;
* `getHashes_spec`: over a linked chain, with a reference header of the next
  number whose parent is the last block, every sequence of queries sharing the
  cache answers `blocks[n].Hash()` below the reference number and the zero
  hash from it on, without an index out of range.
-/

namespace Pangu

open Go

/-! ## Headers and blocks -/

/-- `types.Header`. `Number` is a `*big.Int` that nothing here makes negative:
a natural number, whose `Uint64()` is its low 64 bits. -/
structure Header where
  parentHash : Hash
  time : UInt64
  number : Nat
  coinbase : Address
  stateRoot : Hash
  txRoot : Hash
  receiptRoot : Hash
  bloom : Bloom
  baseFee : Option Int
  gasLimit : UInt64
  gasUsed : UInt64
  extra : Bytes

/-- `&types.Header{}`. -/
def Header.zero : Header := ⟨0, 0, 0, 0, 0, 0, 0, Bloom.zero, none, 0, 0, []⟩

/-- The exported fields of `types.Header` with their tags: `BaseFee` alone is
`rlp:"optional"`. -/
def headerFieldTags : List FieldTag :=
  [⟨"ParentHash", false⟩, ⟨"Time", false⟩, ⟨"Number", false⟩, ⟨"Coinbase", false⟩, ⟨"StateRoot", false⟩,
    ⟨"TxRoot", false⟩, ⟨"ReceiptRoot", false⟩, ⟨"Bloom", false⟩, ⟨"BaseFee", true⟩, ⟨"GasLimit", false⟩,
    ⟨"GasUsed", false⟩, ⟨"Extra", false⟩]

def headerFields : List GoType :=
  [.byteArray 32, .uint, .bigIntPtr, .byteArray 20, .byteArray 32, .byteArray 32, .byteArray 32, .byteArray 256,
    .bigIntPtr, .uint, .uint, .bytes]

/-- A `*types.Header` as the encoder sees it. -/
def Header.goValue (h : Header) : GoValue :=
  .ptr (.struct headerFields) (some (.struct headerFields
    [.byteArray h.parentHash.bytes, .uint h.time.toNat, .bigIntPtr (some h.number), .byteArray h.coinbase.bytes,
      .byteArray h.stateRoot.bytes, .byteArray h.txRoot.bytes, .byteArray h.receiptRoot.bytes,
      .byteArray h.bloom.toList, .bigIntPtr h.baseFee, .uint h.gasLimit.toNat, .uint h.gasUsed.toNat,
      .bytes h.extra]))

/-- `rlp.Encode(w, h)`: `structFields` checks the tags before any writer is
made. -/
def Header.rlpEncode (h : Header) : Except String Bytes := do
  checkOptionalFields "types.Header" none headerFieldTags
  Pangu.rlpEncode h.goValue

/-- `h.Hash()`, `rlpHash(h)`: the Keccak-256 of what the encoder wrote, nothing
if it failed. -/
def Header.hash (keccak256 : Bytes → Hash) (h : Header) : Hash :=
  keccak256 (match h.rlpEncode with
    | .ok bs => bs
    | .error _ => [])

/-- `CopyHeader(h)`: a nil `Number` becomes zero, and the rest is copied; as
values, the header itself. -/
def copyHeader (h : Header) : Header := h

/-- `types.Block`. `Hash()` caches the header's hash; nothing changes a
block's header once the block is made, so it is the header's hash. -/
structure Block where
  header : Header
  transactions : List (List Transaction)

def Block.hash (keccak256 : Bytes → Hash) (b : Block) : Hash := b.header.hash keccak256

/-- `InitBlock(header, txs)`. -/
def initBlock (header : Header) (txs : List (List Transaction)) : Block := ⟨copyHeader header, txs⟩

def EmptyRootHash : Hash := 0x56e81f171bcc55a6ff8345e692c0f86e5b48e01b996cadc001622fb5e363b421
def EmptyTxsHash : Hash := 0x56e81f171bcc55a6ff8345e692c0f86e5b48e01b996cadc001622fb5e363b421
def EmptyReceiptsHash : Hash := 0x56e81f171bcc55a6ff8345e692c0f86e5b48e01b996cadc001622fb5e363b421

/-- `DeriveSha(list, hasher)` for the two lists `NewBlock` hashes; the trie is
not modelled. -/
structure TrieHasher where
  deriveShaTxs : List Transaction → Hash
  deriveShaReceipts : List Receipt → Hash

/-- `NewBlock(header, txs, receipts, stateRoot, hasher)`: a copy of the header
with the roots, the bloom filter and the state root set. -/
def newBlock (keccak256 : Bytes → Hash) (hasher : TrieHasher) (header : Header) (txs : List (List Transaction))
    (receipts : List Receipt) (stateRoot : Hash) : Block :=
  let header := copyHeader header
  let header := if txs.length = 0 then { header with txRoot := EmptyTxsHash }
    else { header with txRoot := hasher.deriveShaTxs txs.flatten }
  let header := if receipts.length = 0 then { header with receiptRoot := EmptyReceiptsHash }
    else { header with receiptRoot := hasher.deriveShaReceipts receipts, bloom := createBloom keccak256 receipts }
  ⟨{ header with stateRoot := stateRoot }, if txs.length = 0 then [] else txs⟩

/-! ## The chain -/

/-- `WriteStatus`. -/
inductive WriteStatus where
  | NonStatTy
  | CanonStatTy
  | SideStatTy
  deriving DecidableEq

/-- `Blockchain`: its blocks. The configuration, the state database, the
head-event feed and the mutex are left out: `WriteBlockAndSetHead`'s `TryLock`
fails only on a closed mutex, and nothing closes it. -/
structure Blockchain where
  blocks : List Block

/-- `NewGenesisBlock()`, at the time `time.Now()` gives. -/
def newGenesisBlock (time : UInt64) : Block :=
  initBlock { Header.zero with parentHash := EmptyRootHash, time := time, number := 0, gasLimit := 12345678 } []

namespace Blockchain

/-- `NewBlokchain(config, statedb, vmConfig)`. -/
def newBlokchain (genesisTime : UInt64) : Blockchain := ⟨[newGenesisBlock genesisTime]⟩

/-- `bc.CurrentBlock()`: `bc.blocks[len(bc.blocks)-1].Header()`. -/
def currentBlock (bc : Blockchain) : Go Header := do
  let b ← sliceIndex bc.blocks ((bc.blocks.length : Int) - 1)
  .ok b.header

/-- `bc.GetHeader(h, i)`: `bc.blocks[i].Header()`. -/
def getHeader (bc : Blockchain) (_h : Hash) (i : UInt64) : Go Header := do
  let b ← sliceIndex bc.blocks i.toNat
  .ok b.header

/-- `bc.WriteBlockAndSetHead(block, ...)`: the block appended. -/
def writeBlockAndSetHead (bc : Blockchain) (block : Block) : Blockchain × WriteStatus × Option String :=
  (⟨bc.blocks ++ [block]⟩, .CanonStatTy, none)

/-- `bc` as a `ChainContext`: its `GetHeader`, whose header is never nil. -/
def chainContext (bc : Blockchain) (h : Hash) (i : UInt64) : Go (Option Header) := do
  let header ← bc.getHeader h i
  .ok (some header)

end Blockchain

/-! ## `GetHashFn` -/

/-- The `for` loop of `GetHashFn`'s function: each header's parent hash is
cached and becomes the last known one, until `n` is reached or `GetHeader`
gives nil. -/
def getHashLoop (getHeader : Hash → UInt64 → Go (Option Header)) (n : UInt64) :
    Nat → List Hash → Hash → UInt64 → Go (Option (Hash × List Hash))
  | 0, _, _, _ => .ok none
  | fuel + 1, cache, lastKnownHash, lastKnownNumber => do
    match ← getHeader lastKnownHash lastKnownNumber with
    | none => .ok (some (0, cache))
    | some header =>
      let cache := cache ++ [header.parentHash]
      let lastKnownHash := header.parentHash
      let lastKnownNumber := header.number.toUInt64 - 1
      if n = lastKnownNumber then .ok (some (lastKnownHash, cache))
      else getHashLoop getHeader n fuel cache lastKnownHash lastKnownNumber

/-- The function `GetHashFn(ref, chain)` returns, applied to `n` with the cache
its earlier calls left: the hash and the cache after. -/
def getHash (getHeader : Hash → UInt64 → Go (Option Header)) (ref : Header) (fuel : Nat) (cache : List Hash)
    (n : UInt64) : Go (Option (Hash × List Hash)) :=
  if ref.number.toUInt64 ≤ n then .ok (some (0, cache))
  else
    let cache := if cache.length = 0 then cache ++ [ref.parentHash] else cache
    let idx := ref.number.toUInt64 - n - 1
    if idx < cache.length.toUInt64 then do
      let h ← sliceIndex cache idx.toNat
      .ok (some (h, cache))
    else do
      let lastKnownHash ← sliceIndex cache ((cache.length : Int) - 1)
      let lastKnownNumber := ref.number.toUInt64 - cache.length.toUInt64
      getHashLoop getHeader n fuel cache lastKnownHash lastKnownNumber

/-- Queries one after another to the same function, sharing its cache. -/
def getHashes (getHeader : Hash → UInt64 → Go (Option Header)) (ref : Header) (fuel : Nat) :
    List Hash → List UInt64 → Go (Option (List Hash))
  | _, [] => .ok (some [])
  | cache, n :: ns => do
    match ← getHash getHeader ref fuel cache n with
    | none => .ok none
    | some (h, cache) => do
      match ← getHashes getHeader ref fuel cache ns with
      | none => .ok none
      | some hs => .ok (some (h :: hs))

/-! ## Every header hashes alike -/

theorem Header.rlpEncode_eq (h : Header) :
    h.rlpEncode = .error (optionalTagError "types.Header" "GasLimit" "BaseFee") := rfl

/-- Every header's hash is the Keccak-256 of no bytes. -/
theorem Header.hash_eq (keccak256 : Bytes → Hash) (h : Header) : h.hash keccak256 = keccak256 [] := by
  rw [Header.hash, h.rlpEncode_eq]

/-! ## The chain's invariant -/

/-- Block `i` has number `i`, and each block after the first has the hash of
the one before as its parent hash. -/
structure Blockchain.Linked (keccak256 : Bytes → Hash) (bc : Blockchain) : Prop where
  ne_nil : bc.blocks ≠ []
  number_eq : ∀ (i : Nat) (b : Block), bc.blocks[i]? = some b → b.header.number = i
  parentHash_eq : ∀ (i : Nat) (b : Block), bc.blocks[i + 1]? = some b →
    some b.header.parentHash = bc.blocks[i]?.map (Block.hash keccak256)

/-- `NewBlock` sets the roots, the bloom filter and the state root, and keeps
the number and the parent hash. -/
theorem newBlock_header_number (keccak256 : Bytes → Hash) (hasher : TrieHasher) (header : Header)
    (txs : List (List Transaction)) (receipts : List Receipt) (stateRoot : Hash) :
    (newBlock keccak256 hasher header txs receipts stateRoot).header.number = header.number := by
  simp only [newBlock]
  split_ifs <;> rfl

theorem newBlock_header_parentHash (keccak256 : Bytes → Hash) (hasher : TrieHasher) (header : Header)
    (txs : List (List Transaction)) (receipts : List Receipt) (stateRoot : Hash) :
    (newBlock keccak256 hasher header txs receipts stateRoot).header.parentHash = header.parentHash := by
  simp only [newBlock]
  split_ifs <;> rfl

namespace Blockchain

theorem Linked.number_getElem {keccak256 : Bytes → Hash} {bc : Blockchain} (hl : bc.Linked keccak256) {i : Nat}
    (hi : i < bc.blocks.length) : (bc.blocks[i]).header.number = i :=
  hl.number_eq i _ (List.getElem?_eq_getElem hi)

theorem Linked.parentHash_getElem {keccak256 : Bytes → Hash} {bc : Blockchain} (hl : bc.Linked keccak256)
    {i : Nat} (hi : i + 1 < bc.blocks.length) :
    (bc.blocks[i + 1]).header.parentHash = (bc.blocks[i]).hash keccak256 := by
  have h := hl.parentHash_eq i _ (List.getElem?_eq_getElem hi)
  rw [List.getElem?_eq_getElem (by omega), Option.map_some] at h
  exact Option.some.inj h

/-- The last block is numbered one below the length. -/
theorem Linked.number_getLast {keccak256 : Bytes → Hash} {bc : Blockchain} (hl : bc.Linked keccak256) :
    (bc.blocks.getLast hl.ne_nil).header.number = bc.blocks.length - 1 := by
  rw [List.getLast_eq_getElem]
  exact hl.number_getElem _

theorem currentBlock_eq (bc : Blockchain) (h : bc.blocks ≠ []) : bc.currentBlock = .ok (bc.blocks.getLast h).header := by
  have hlen : bc.blocks.length - 1 < bc.blocks.length := by
    have := List.length_pos_iff.mpr h
    omega
  have hi : ((bc.blocks.length : Int) - 1) = ((bc.blocks.length - 1 : Nat) : Int) := by
    have := List.length_pos_iff.mpr h
    omega
  rw [currentBlock, hi, sliceIndex_of_lt _ hlen, ok_bind, List.getLast_eq_getElem]
  rfl

theorem chainContext_of_lt (bc : Blockchain) (h : Hash) {i : UInt64} (hi : i.toNat < bc.blocks.length) :
    bc.chainContext h i = .ok (some (bc.blocks[i.toNat]).header) := by
  rw [chainContext, getHeader, sliceIndex_of_lt _ hi]
  rfl

theorem linked_newBlokchain (keccak256 : Bytes → Hash) (t : UInt64) : (newBlokchain t).Linked keccak256 where
  ne_nil := List.cons_ne_nil _ _
  number_eq i b hb := by
    cases i with
    | zero => cases hb; rfl
    | succ i => simp [newBlokchain] at hb
  parentHash_eq i b hb := by simp [newBlokchain] at hb

/-- Appending a block numbered after the last, whose parent hash is the last
block's hash, keeps the chain linked. -/
theorem Linked.append {keccak256 : Bytes → Hash} {bc : Blockchain} (hl : bc.Linked keccak256) {b : Block}
    (hnum : b.header.number = bc.blocks.length)
    (hpar : b.header.parentHash = (bc.blocks.getLast hl.ne_nil).hash keccak256) :
    (bc.writeBlockAndSetHead b).1.Linked keccak256 where
  ne_nil := by simp [writeBlockAndSetHead]
  number_eq i b' hb' := by
    simp only [writeBlockAndSetHead, List.getElem?_append, List.getElem?_singleton] at hb'
    split at hb'
    · exact hl.number_eq i b' hb'
    · split at hb'
      · rename_i h₁ h₂
        cases hb'
        omega
      · cases hb'
  parentHash_eq i b' hb' := by
    simp only [writeBlockAndSetHead, List.getElem?_append, List.getElem?_singleton] at hb' ⊢
    split at hb'
    · rw [if_pos (by omega)]
      exact hl.parentHash_eq i b' hb'
    · split at hb'
      · rename_i h₁ h₂
        cases hb'
        have hi : i = bc.blocks.length - 1 := by omega
        have hlt : i < bc.blocks.length := by omega
        rw [if_pos hlt, hpar, List.getLast_eq_getElem, List.getElem?_eq_getElem hlt]
        simp [hi]
      · cases hb'

end Blockchain

/-! ## What `GetHashFn` answers -/

/-- The answer due to query `n` against the reference header `ref`: block
`n`'s hash below `ref`'s number, the zero hash from it on. -/
def Blockchain.hashAt (keccak256 : Bytes → Hash) (bc : Blockchain) (ref : Header) (n : UInt64) : Hash :=
  if n.toNat < ref.number then (bc.blocks[n.toNat]?.map (Block.hash keccak256)).getD 0 else 0

/-- The cache holds, from the top down, the hashes of the blocks below the
reference number. -/
structure CacheOK (keccak256 : Bytes → Hash) (bc : Blockchain) (ref : Header) (cache : List Hash) : Prop where
  length_le : cache.length ≤ ref.number
  getElem?_eq : ∀ j, j < cache.length → cache[j]? = bc.blocks[ref.number - 1 - j]?.map (Block.hash keccak256)

theorem cacheOK_nil (keccak256 : Bytes → Hash) (bc : Blockchain) (ref : Header) : CacheOK keccak256 bc ref [] :=
  ⟨Nat.zero_le _, fun _ hj => absurd hj (Nat.not_lt_zero _)⟩

/-- A cache stays right with the hash of the block below its last one. -/
theorem CacheOK.append {keccak256 : Bytes → Hash} {bc : Blockchain} {ref : Header} {cache : List Hash}
    (hc : CacheOK keccak256 bc ref cache) (hlt : cache.length < ref.number) {h : Hash}
    (hh : some h = bc.blocks[ref.number - 1 - cache.length]?.map (Block.hash keccak256)) :
    CacheOK keccak256 bc ref (cache ++ [h]) := by
  refine ⟨by simp; omega, fun j hj => ?_⟩
  rw [List.length_append, List.length_singleton] at hj
  rcases Nat.lt_or_ge j cache.length with hj' | hj'
  · rw [List.getElem?_append_left hj', hc.getElem?_eq j hj']
  · have hjc : j = cache.length := by omega
    rw [hjc, List.getElem?_append_right (le_refl _), Nat.sub_self, List.getElem?_singleton, if_pos rfl, hh]

theorem toNat_toUInt64_of_lt {m : Nat} (h : m < 2 ^ 64) : m.toUInt64.toNat = m := by
  simp only [Nat.toUInt64_eq, UInt64.toNat_ofNat', Nat.mod_eq_of_lt h]

theorem toNat_sub_one_of_pos {L : UInt64} (h : 1 ≤ L.toNat) : (L - 1).toNat = L.toNat - 1 := by
  rw [UInt64.toNat_sub_of_le _ _ (UInt64.le_iff_toNat_le.mpr (by simpa using h))]
  rfl

section Lookup

variable {keccak256 : Bytes → Hash} {bc : Blockchain} {ref : Header}

theorem hashAt_of_some {n : UInt64} (hn : n.toNat < ref.number) {h : Hash}
    (hh : some h = bc.blocks[n.toNat]?.map (Block.hash keccak256)) : bc.hashAt keccak256 ref n = h := by
  rw [Blockchain.hashAt, if_pos hn, ← hh]
  rfl

/-- The loop of `GetHashFn`'s function from block `L` down: each step reads
block `L`'s header, in range, caches its parent hash, and stops at `n`. -/
theorem getHashLoop_spec (hl : bc.Linked keccak256) (hnum : ref.number = bc.blocks.length) (n : UInt64)
    (fuel : Nat) (cache : List Hash) (lastKnownHash : Hash) (L : UInt64)
    (hc : CacheOK keccak256 bc ref cache) (hpos : 0 < cache.length) (hsum : cache.length + L.toNat = ref.number)
    (hn : n.toNat < L.toNat) (hf : L.toNat - n.toNat ≤ fuel) :
    ∃ cache', getHashLoop bc.chainContext n fuel cache lastKnownHash L =
      .ok (some (bc.hashAt keccak256 ref n, cache')) ∧ CacheOK keccak256 bc ref cache' := by
  -- on the fuel, which covers the distance from `L` down to `n`
  induction fuel generalizing cache lastKnownHash L with
  | zero => omega
  | succ fuel ih =>
    have hL : L.toNat < bc.blocks.length := by omega
    have hL1 : 1 ≤ L.toNat := by omega
    have hblk : bc.blocks[L.toNat]? = some bc.blocks[L.toNat] := List.getElem?_eq_getElem hL
    have hnumL : (bc.blocks[L.toNat]).header.number = L.toNat := hl.number_eq _ _ hblk
    have hparL : some (bc.blocks[L.toNat]).header.parentHash = bc.blocks[L.toNat - 1]?.map (Block.hash keccak256) :=
      hl.parentHash_eq (L.toNat - 1) _ (by rw [Nat.sub_add_cancel hL1]; exact hblk)
    have hc' := hc.append (h := (bc.blocks[L.toNat]).header.parentHash) (by omega)
      (by rw [hparL, show ref.number - 1 - cache.length = L.toNat - 1 by omega])
    have hlast : ((bc.blocks[L.toNat]).header.number.toUInt64 - 1).toNat = L.toNat - 1 := by
      have hL' : L.toNat.toUInt64 = L := UInt64.ofNat_toNat
      rw [hnumL, hL']
      exact toNat_sub_one_of_pos hL1
    rw [getHashLoop, bc.chainContext_of_lt _ hL, ok_bind]
    dsimp only
    by_cases heq : n = (bc.blocks[L.toNat]).header.number.toUInt64 - 1
    · have hnL : n.toNat = L.toNat - 1 := by rw [heq, hlast]
      rw [if_pos heq, hashAt_of_some (by omega) (by rw [hnL]; exact hparL)]
      exact ⟨_, rfl, hc'⟩
    · have hne : n.toNat ≠ L.toNat - 1 := fun h => heq (UInt64.toNat_inj.mp (by rw [hlast, h]))
      rw [if_neg heq]
      refine ih _ _ ((bc.blocks[L.toNat]).header.number.toUInt64 - 1) hc' (by simp) ?_ (by omega) (by omega)
      rw [List.length_append, List.length_singleton, hlast]
      omega

/-- One query: the answer due, and a cache still right. -/
theorem getHash_spec (hl : bc.Linked keccak256) (hnum : ref.number = bc.blocks.length)
    (hpar : some ref.parentHash = bc.blocks[ref.number - 1]?.map (Block.hash keccak256)) (hbound : ref.number < 2 ^ 64)
    {fuel : Nat} (hfuel : ref.number ≤ fuel) {cache : List Hash} (hc : CacheOK keccak256 bc ref cache) (n : UInt64) :
    ∃ cache', getHash bc.chainContext ref fuel cache n = .ok (some (bc.hashAt keccak256 ref n, cache')) ∧
      CacheOK keccak256 bc ref cache' := by
  have hr : ref.number.toUInt64.toNat = ref.number := toNat_toUInt64_of_lt hbound
  unfold getHash
  by_cases hge : ref.number.toUInt64 ≤ n
  · have hn : ¬ n.toNat < ref.number := by rw [UInt64.le_iff_toNat_le, hr] at hge; omega
    rw [if_pos hge, Blockchain.hashAt, if_neg hn]
    exact ⟨cache, rfl, hc⟩
  have hn : n.toNat < ref.number := by rw [UInt64.le_iff_toNat_le, hr] at hge; omega
  rw [if_neg hge]
  -- the cache, seeded with the reference's parent hash when empty
  obtain ⟨c, hcdef, hcc, hcpos⟩ : ∃ c, (if cache.length = 0 then cache ++ [ref.parentHash] else cache) = c ∧
      CacheOK keccak256 bc ref c ∧ 0 < c.length := by
    by_cases h0 : cache.length = 0
    · rw [if_pos h0]
      exact ⟨_, rfl, hc.append (by omega) (by rw [h0, Nat.sub_zero]; exact hpar), by simp⟩
    · rw [if_neg h0]
      exact ⟨cache, rfl, hc, by omega⟩
  have hidx : (ref.number.toUInt64 - n - 1).toNat = ref.number - n.toNat - 1 := by
    have h1 : n ≤ ref.number.toUInt64 := UInt64.le_iff_toNat_le.mpr (by omega)
    rw [toNat_sub_one_of_pos (by rw [UInt64.toNat_sub_of_le _ _ h1]; omega), UInt64.toNat_sub_of_le _ _ h1, hr]
  have hclen : c.length.toUInt64.toNat = c.length := toNat_toUInt64_of_lt (by have := hcc.length_le; omega)
  rw [hcdef]
  by_cases hin : ref.number.toUInt64 - n - 1 < c.length.toUInt64
  · have hin' : ref.number - n.toNat - 1 < c.length := by rw [UInt64.lt_iff_toNat_lt, hidx, hclen] at hin; exact hin
    have hget : some (c.get ⟨_, hin'⟩) = bc.blocks[n.toNat]?.map (Block.hash keccak256) := by
      rw [List.get_eq_getElem, ← List.getElem?_eq_getElem hin', hcc.getElem?_eq _ hin',
        show ref.number - 1 - (ref.number - n.toNat - 1) = n.toNat by omega]
    rw [if_pos hin, hidx, sliceIndex_of_lt _ hin', ok_bind, hashAt_of_some hn hget]
    exact ⟨c, rfl, hcc⟩
  · have hout : c.length ≤ ref.number - n.toNat - 1 := by
      rw [UInt64.lt_iff_toNat_lt, hidx, hclen] at hin; omega
    have hlastIdx : ((c.length : Int) - 1) = ((c.length - 1 : Nat) : Int) := by omega
    have hL : (ref.number.toUInt64 - c.length.toUInt64).toNat = ref.number - c.length := by
      rw [UInt64.toNat_sub_of_le _ _ (UInt64.le_iff_toNat_le.mpr (by rw [hclen, hr]; exact hcc.length_le)), hclen, hr]
    rw [if_neg hin, hlastIdx, sliceIndex_of_lt _ (by omega), ok_bind]
    exact getHashLoop_spec hl hnum n fuel c _ _ hcc hcpos (by rw [hL]; have := hcc.length_le; omega)
      (by rw [hL]; omega) (by rw [hL]; omega)

/-- Any sequence of queries, sharing the cache from empty: each gets the
answer due, and none reads past the end of the chain. -/
theorem getHashes_spec (hl : bc.Linked keccak256) (hnum : ref.number = bc.blocks.length)
    (hpar : some ref.parentHash = bc.blocks[ref.number - 1]?.map (Block.hash keccak256)) (hbound : ref.number < 2 ^ 64)
    {fuel : Nat} (hfuel : ref.number ≤ fuel) (qs : List UInt64) {cache : List Hash}
    (hc : CacheOK keccak256 bc ref cache) :
    getHashes bc.chainContext ref fuel cache qs = .ok (some (qs.map (bc.hashAt keccak256 ref))) := by
  induction qs generalizing cache with
  | nil => rfl
  | cons n ns ih =>
    obtain ⟨cache', h1, hc'⟩ := getHash_spec hl hnum hpar hbound hfuel hc n
    rw [getHashes, h1, ok_bind]
    dsimp only
    rw [ih hc', ok_bind]
    rfl

end Lookup

end Pangu
