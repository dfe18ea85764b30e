import Pangu.Rlp.Encode
import Pangu.Types.Transaction

/-!
# Transaction hashing

`prefixedRlpHash` (`core/types/hashing.go`) writes the type byte to a Keccak
hasher, then lets `rlp.Encode` write the value, and ignores the error it
returns. `Transaction.Hash` passes it a `*PanguTransaction`, whose access list
holds two map types: the encoder has no writer for that type, writes nothing,
and the hasher sees the type byte alone.

The bytes a hash is taken of (`prefixedRlpInput`, `Transaction.hashInput`) are
what the theorems speak of: Keccak itself is a function outside `src/`, taken
as a parameter.

* `makeWriter_panguTransaction`: `*PanguTransaction` has no writer;
* `hashInput_eq`: every transaction's hash is taken of `[PanguTxType]`, or
  panics in `copy` on a nil access list;
* `size_eq`: `Size()` of a transaction not decoded from bytes is 1, less
  than the length of its encoding (`size_lt_marshalBinary_length`).
-/

namespace Pangu

open Go

/-! ## The Go types and values of a transaction -/

/-- The fields of `accesslist.AccessList`: `map[common.Address]int` and
`[]map[common.Hash]struct{}`. -/
def accessListFields : List GoType :=
  [.map (.byteArray 20) .int, .slice (.map (.byteArray 32) (.struct []))]

/-- The fields of `types.PanguTransaction`, in declaration order. -/
def panguTransactionFields : List GoType :=
  [.ptr (.byteArray 20), .uint, .bigIntPtr, .uint, .bigIntPtr, .bigIntPtr, .bigIntPtr,
    .uint, .bytes, .uint, .bytes, .uint, .bytes, .ptr (.struct accessListFields)]

/-- `*common.Address`. -/
def addressPtrValue (a : Option Address) : GoValue :=
  .ptr (.byteArray 20) (a.map fun a => .byteArray a.bytes)

/-- An access list as a Go value. -/
def AccessList.goValue (al : AccessList) : GoValue :=
  .struct accessListFields
    [.map (.byteArray 20) .int,
      .slice (.map (.byteArray 32) (.struct [])) (al.slots.map fun _ => .map (.byteArray 32) (.struct []))]

/-- A transaction's data as a Go value. -/
def PanguTransaction.goValue (tx : PanguTransaction) : GoValue :=
  .struct panguTransactionFields
    [addressPtrValue tx.toAddr, .uint tx.nonce.toNat, .bigIntPtr tx.value, .uint tx.gasLimit.toNat,
      .bigIntPtr tx.feeCap, .bigIntPtr tx.tipCap, .bigIntPtr tx.chainID, .uint tx.sigAlgo.toNat,
      .bytes tx.signature, .uint tx.encAlgo.toNat, .bytes tx.encContent, .uint tx.vmType.toNat,
      .bytes tx.data, .ptr (.struct accessListFields) (tx.accessList.map AccessList.goValue)]

/-- The `*PanguTransaction` value `Hash` passes to the encoder. -/
def PanguTransaction.ptrValue (tx : PanguTransaction) : GoValue :=
  .ptr (.struct panguTransactionFields) (some tx.goValue)

/-! ## Hashing -/

/-- The bytes `prefixedRlpHash(prefix, x)` writes to the hasher: the prefix,
then what `rlp.Encode` wrote, which is nothing when it failed. -/
def prefixedRlpInput (pfx : UInt8) (x : GoValue) : Bytes :=
  pfx :: match rlpEncode x with
    | .ok bs => bs
    | .error _ => []

/-- `prefixedRlpHash(prefix, x)`, for the hash function `keccak256`. -/
def prefixedRlpHash (keccak256 : Bytes → Hash) (pfx : UInt8) (x : GoValue) : Hash :=
  keccak256 (prefixedRlpInput pfx x)

theorem makeWriter_panguTransaction :
    makeWriter (.ptr (.struct panguTransactionFields)) = .error errNotSerializable := rfl

theorem prefixedRlpInput_ptrValue (pfx : UInt8) (tx : PanguTransaction) :
    prefixedRlpInput pfx tx.ptrValue = [pfx] := by
  have h : makeWriter tx.ptrValue.type = .error errNotSerializable := makeWriter_panguTransaction
  rw [prefixedRlpInput, rlpEncode_of_makeWriter_error h]

namespace Transaction

/-- The bytes `Hash()` writes to the hasher: the type byte, then the encoding
of a copy of the inner data. -/
def hashInput (tx : Transaction) : Go Bytes := do
  let inner ← tx.inner.copy
  .ok (prefixedRlpInput tx.type inner.ptrValue)

/-- `Hash()`. The hash cache only memoises this. -/
def hash (keccak256 : Bytes → Hash) (tx : Transaction) : Go Hash :=
  tx.hashInput.map keccak256

/-- Every transaction whose access list is set is hashed from its type byte alone. -/
theorem hashInput_eq (tx : Transaction) :
    tx.hashInput = match tx.accessList with
      | some _ => .ok [PanguTxType]
      | none => nilDereference := by
  unfold hashInput accessList PanguTransaction.copy
  cases tx.inner.accessList with
  | none => rfl
  | some al => simp only [bind, Except.bind, prefixedRlpInput_ptrValue]; rfl

theorem hash_eq (keccak256 : Bytes → Hash) (tx : Transaction) :
    tx.hash keccak256 = match tx.accessList with
      | some _ => .ok (keccak256 [PanguTxType])
      | none => nilDereference := by
  rw [hash, hashInput_eq]
  cases tx.accessList <;> rfl

/-- `writeCounter`'s count of what `rlp.Encode(&c, &tx.inner)` writes: the
encoder reaches the `*PanguTransaction` in the interface and fails there. -/
def encodedInnerLength (tx : Transaction) : Nat :=
  match rlpEncode (.ptr .iface (some (.iface (some tx.inner.ptrValue)))) with
  | .ok bs => bs.length
  | .error _ => 0

/-- `Size()`: the cached size, or one more than the encoded length. -/
def size (tx : Transaction) : UInt64 :=
  match tx.cachedSize with
  | some s => s
  | none => tx.encodedInnerLength.toUInt64 + 1

theorem encodedInnerLength_eq (tx : Transaction) : tx.encodedInnerLength = 0 := by
  have hw : writeValue (.ptr .iface (some (.iface (some tx.inner.ptrValue)))) =
      .error errNotSerializable := by
    simp only [writeValue, GoValue.type, PanguTransaction.ptrValue, makeWriter_panguTransaction]
    rfl
  simp only [encodedInnerLength, rlpEncode, GoValue.type, hw]
  rfl

theorem size_eq (tx : Transaction) (h : tx.cachedSize = none) : tx.size = 1 := by
  simp [size, h, encodedInnerLength_eq]

/-- A transaction with no size cached, as `NewTx` and `WithSignature` build it,
reports size 1, while its encoding holds the type byte, the JSON text and a
newline. -/
theorem size_lt_marshalBinary_length {encodeJson : JsonEncoder} {tx : Transaction} {json : Bytes}
    (h : tx.cachedSize = none) (hjson : encodeJson tx.inner = .ok json) :
    tx.size.toNat < (tx.marshalBinary encodeJson).1.length := by
  rw [size_eq tx h, marshalBinary_of_ok hjson]
  simp

/-- `NewTx` of the zero transaction with an empty access list, encoded as `{}`:
size 1, and four bytes on the wire. -/
theorem size_lt_marshalBinary_length_newTx :
    (⟨{ PanguTransaction.zero with accessList := some .newAccessList }, none⟩ : Transaction).cachedSize = none ∧
      (fun _ => .ok [0x7b, 0x7d] : JsonEncoder) { PanguTransaction.zero with accessList := some .newAccessList } =
        .ok [0x7b, 0x7d] ∧
      (⟨{ PanguTransaction.zero with accessList := some .newAccessList }, none⟩ : Transaction).size.toNat <
        ((⟨{ PanguTransaction.zero with accessList := some .newAccessList }, none⟩ : Transaction).marshalBinary
          fun _ => .ok [0x7b, 0x7d]).1.length :=
  ⟨rfl, rfl, size_lt_marshalBinary_length rfl rfl⟩

end Transaction

/-! ## A collision -/

/-- A call to no address with the given nonce and access list, every other
integer zero. -/
def sampleCall (nonce : UInt64) (al : Option AccessList) : Transaction :=
  ⟨{ toAddr := none, nonce := nonce, value := some 0, gasLimit := 0, feeCap := some 0,
      tipCap := some 0, chainID := some 0, sigAlgo := 0, signature := [], encAlgo := 0,
      encContent := [], vmType := 0, data := [], accessList := al }, none⟩

/-- Two transactions that differ in their nonce are hashed from the same bytes. -/
theorem hashInput_ignores_nonce :
    (sampleCall 0 (some .newAccessList)).hashInput = (sampleCall 1 (some .newAccessList)).hashInput ∧
      (sampleCall 0 (some .newAccessList)).nonce ≠ (sampleCall 1 (some .newAccessList)).nonce := by
  refine ⟨?_, by decide⟩
  rw [Transaction.hashInput_eq, Transaction.hashInput_eq]
  rfl

end Pangu
