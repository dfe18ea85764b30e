import Pangu.AccessList.Basic

/-!
# Transactions

`types.PanguTransaction`, the only implementation of `TxData`, and
`types.Transaction` (`core/types/PanguTransaction.go`, `transaction.go`). The
getters that copy a `*big.Int` (`Value()`, `GasTipCap()`, ...) panic on a nil
field, as `new(big.Int).Set(nil)` does; `copy()` panics on a nil access list
and, as written, drops `EncAlgo`, `EncContent` and `VmType`.

* `intrinsicGas`: `Transaction.IntrinsicGas`, which the pool charges; the
  executor's `core.IntrinsicGas` is in `Core/Transition.lean`, and both are
  `dataGas` followed by a charge for the access list.
-/

namespace Pangu

open Go

/-- `types.PanguTransaction`; a nil `*big.Int` is `none`. -/
structure PanguTransaction where
  /-- `To`, named so since `to` is a keyword. -/
  toAddr : Option Address
  nonce : UInt64
  value : Option Int
  gasLimit : UInt64
  feeCap : Option Int
  tipCap : Option Int
  chainID : Option Int
  sigAlgo : UInt8
  signature : Bytes
  encAlgo : UInt8
  encContent : Bytes
  vmType : UInt8
  data : Bytes
  accessList : Option AccessList

/-- `PanguTxType`. -/
def PanguTxType : UInt8 := 1

/-- `new(big.Int).Set(x)`. -/
def bigSet : Option Int → Go Int
  | none => nilDereference
  | some v => .ok v

/-- `PanguTransaction.copy()`: nil integers become zero, the access list is copied by
value (so a nil one panics), and the fields it does not name are left zero. -/
def PanguTransaction.copy (tx : PanguTransaction) : Go PanguTransaction :=
  match tx.accessList with
  | none => nilDereference
  | some al => .ok
    { nonce := tx.nonce, toAddr := tx.toAddr, data := tx.data, gasLimit := tx.gasLimit,
      sigAlgo := tx.sigAlgo, signature := tx.signature, accessList := some al,
      value := some (tx.value.getD 0), chainID := some (tx.chainID.getD 0),
      tipCap := some (tx.tipCap.getD 0), feeCap := some (tx.feeCap.getD 0),
      encAlgo := 0, encContent := [], vmType := 0 }

/-- `PanguTransaction.effectiveGasPrice(dst, baseFee)`: the fee cap with no base
fee, else the base fee and the tip, the tip cut down to what the fee cap leaves
above the base fee. -/
def PanguTransaction.effectiveGasPrice (tx : PanguTransaction) (baseFee : Option Int) : Go Int := do
  let feeCap ← bigSet tx.feeCap
  match baseFee with
  | none => .ok feeCap
  | some b =>
    let tipCap ← bigSet tx.tipCap
    let tip := feeCap - b
    let tip := if tip > tipCap then tipCap else tip
    .ok (tip + b)

/-- With a base fee, the effective price is the base fee and the tip, or the fee
cap when that is lower. -/
theorem PanguTransaction.effectiveGasPrice_eq_min {tx : PanguTransaction} {b f t : Int} (hf : tx.feeCap = some f)
    (ht : tx.tipCap = some t) : tx.effectiveGasPrice (some b) = .ok (min (t + b) f) := by
  simp only [effectiveGasPrice, hf, ht, bigSet, ok_bind, Except.ok.injEq]
  split_ifs with h <;> omega

/-- `types.Transaction`: the inner data and the size cache, which decoding fills
with the length of the decoded bytes. The hash and sender caches only memoise
functions of `inner`, and are left out. -/
structure Transaction where
  inner : PanguTransaction
  cachedSize : Option UInt64

namespace Transaction

/-- `NewTx(inner)`: a copy, with no size cached. -/
def newTx (inner : PanguTransaction) : Go Transaction := do
  let cpy ← inner.copy
  .ok ⟨cpy, none⟩

def type (_ : Transaction) : UInt8 := PanguTxType
def nonce (tx : Transaction) : UInt64 := tx.inner.nonce
def gasLimit (tx : Transaction) : UInt64 := tx.inner.gasLimit
def data (tx : Transaction) : Bytes := tx.inner.data
/-- `To()`. -/
def toAddr (tx : Transaction) : Option Address := tx.inner.toAddr
def accessList (tx : Transaction) : Option AccessList := tx.inner.accessList
def chainId (tx : Transaction) : Option Int := tx.inner.chainID
def sigAlgo (tx : Transaction) : UInt8 := tx.inner.sigAlgo
def rawSigValues (tx : Transaction) : Bytes := tx.inner.signature
def encContent (tx : Transaction) : Bytes := tx.inner.encContent

/-- `Value()`. -/
def value (tx : Transaction) : Go Int := bigSet tx.inner.value
/-- `GasTipCap()`. -/
def gasTipCap (tx : Transaction) : Go Int := bigSet tx.inner.tipCap
/-- `GasFeeCap()`. -/
def gasFeeCap (tx : Transaction) : Go Int := bigSet tx.inner.feeCap
/-- `GasPrice()`: the fee cap, as `PanguTransaction.gasPrice` returns it. -/
def gasPrice (tx : Transaction) : Go Int := bigSet tx.inner.feeCap

/-- `Cost()`: `GasPrice() * GasLimit() + Value()`. -/
def cost (tx : Transaction) : Go Int := do
  let price ← tx.gasPrice
  let v ← tx.value
  .ok (price * tx.gasLimit.toNat + v)

/-- `WithSignature(signer, sig, sigAlgo)`, with `ChainID()` of the signer. -/
def withSignature (tx : Transaction) (chainID : Int) (sig : Bytes) (sigAlgo : UInt8) :
    Go Transaction := do
  let cpy ← tx.inner.copy
  .ok ⟨{ cpy with chainID := some chainID, sigAlgo := sigAlgo, signature := sig }, none⟩

end Transaction

/-! ## Intrinsic gas -/

/-- `toWordSize(size)`: the number of 32-byte words, rounded up, saturating. -/
def toWordSize (size : UInt64) : UInt64 :=
  if size > maxUint64 - 31 then maxUint64 / 32 + 1 else (size + 31) / 32

/-- The error both intrinsic gas functions return on overflow. -/
def errGasUintOverflow : String := "gas uint64 overflow"

/-- The data part both intrinsic gas functions share: from a base charge `gas`,
`nonZeroGas` per non-zero byte, `TxDataZeroGas` per zero byte, and for a creation
`InitCodeWordGas` per word, each addition checked for overflow first. -/
def dataGas (gas : UInt64) (data : Bytes) (nonZeroGas : UInt64) (isCreation : Bool) :
    Except String UInt64 :=
  let dataLen := data.length.toUInt64
  if dataLen > 0 then
    let nz := (data.filter (· != 0)).length.toUInt64
    if (maxUint64 - gas) / nonZeroGas < nz then .error errGasUintOverflow
    else
      let gas := gas + nz * nonZeroGas
      let z := dataLen - nz
      if (maxUint64 - gas) / TxDataZeroGas < z then .error errGasUintOverflow
      else
        let gas := gas + z * TxDataZeroGas
        if isCreation then
          let lenWords := toWordSize dataLen
          if (maxUint64 - gas) / InitCodeWordGas < lenWords then .error errGasUintOverflow
          else .ok (gas + lenWords * InitCodeWordGas)
        else .ok gas
  else .ok gas

/-- What `dataGas` returns when it does not overflow: every charge added in
`UInt64`. A Go slice is shorter than `2^64`, so its length is `dataLen`. -/
theorem dataGas_eq_ok {gas nonZeroGas g : UInt64} {data : Bytes} {isCreation : Bool}
    (hlen : data.length < 2 ^ 64) (h : dataGas gas data nonZeroGas isCreation = .ok g) :
    g = gas + (data.filter (· != 0)).length.toUInt64 * nonZeroGas +
      (data.length.toUInt64 - (data.filter (· != 0)).length.toUInt64) * TxDataZeroGas +
      (if isCreation then toWordSize data.length.toUInt64 * InitCodeWordGas else 0) := by
  simp only [dataGas] at h
  split_ifs at h with hpos h₁ h₂ hc h₃
  -- the overflow branches return an error; the other three give `g`
  all_goals cases h
  · rw [if_pos hc]
  · rw [if_neg hc, UInt64.add_zero]
  · -- no data, so every charge is zero
    have hnil : data = [] := by
      apply List.eq_nil_of_length_eq_zero
      simp only [gt_iff_lt, UInt64.lt_iff_toNat_lt, Nat.toUInt64_eq, UInt64.toNat_ofNat', UInt64.toNat_zero] at hpos
      omega
    subst hnil
    have hw : toWordSize 0 = 0 := by decide
    cases isCreation <;> simp [hw]

/-- The access-list part of both: `TxAccessListAddressGas` per address and
`TxAccessListStorageKeyGas` per storage key, unchecked. -/
def accessListGas (gas : UInt64) (al : AccessList) : UInt64 :=
  gas + al.len.toUInt64 * TxAccessListAddressGas + al.storageKeys.toUInt64 * TxAccessListStorageKeyGas

/-- `Transaction.IntrinsicGas()`: base `TxGas` even for a creation, EIP-2028
data prices, and the access list charged when the pointer is not nil. -/
def Transaction.intrinsicGas (tx : Transaction) : Except String UInt64 := do
  let gas ← dataGas TxGas tx.data TxDataNonZeroGasEIP2028 tx.toAddr.isNone
  match tx.accessList with
  | some al => .ok (accessListGas gas al)
  | none => .ok gas

/-! ## Decoding -/

def errTxTypeNotSupported : String := "transaction type not supported"
def errShortTypedTx : String := "typed transaction too short"

/-- The zero `PanguTransaction`: every pointer nil, every number zero. -/
def PanguTransaction.zero : PanguTransaction :=
  ⟨none, 0, none, 0, none, none, none, 0, [], 0, [], 0, [], none⟩

/-- A decoder of the inner data, as `json.NewDecoder(r).Decode(&v)` is: from the
bytes read and the value decoded into. `decodeJson` (`Types/Json.lean`) is
`encoding/json`'s. -/
abbrev JsonDecoder := Bytes → PanguTransaction → Except String PanguTransaction

namespace Transaction

/-- `tx.decodeTyped(b)`: a type byte and the JSON of the inner transaction,
decoded into a zero one. -/
def decodeTyped (decodeJson : JsonDecoder) (b : Bytes) : Except String PanguTransaction :=
  match b with
  | [] | [_] => .error errShortTypedTx
  | t :: rest => if t = PanguTxType then decodeJson rest PanguTransaction.zero else .error errTxTypeNotSupported

/-- `tx.UnmarshalBinary(b)` into a new transaction: the decoded inner data,
and the size cache set to the length of `b` (`setDecoded`). -/
def unmarshalBinary (decodeJson : JsonDecoder) (b : Bytes) : Except String Transaction := do
  let inner ← decodeTyped decodeJson b
  .ok ⟨inner, if b.length > 0 then some b.length.toUInt64 else none⟩

/-- What the decoder returns for the bytes after the type byte is the
transaction's inner data, its size the length of the whole. -/
theorem unmarshalBinary_eq {decodeJson : JsonDecoder} {json : Bytes} {inner : PanguTransaction}
    (hne : json ≠ []) (h : decodeJson json PanguTransaction.zero = .ok inner) :
    unmarshalBinary decodeJson (PanguTxType :: json) = .ok ⟨inner, some (json.length + 1).toUInt64⟩ := by
  obtain ⟨b, bs, rfl⟩ := List.exists_cons_of_ne_nil hne
  simp [unmarshalBinary, decodeTyped, h]

end Transaction

/-! ## Encoding -/

/-- An encoder of the inner data, as `json.NewEncoder(w).Encode(v)` is, before
the newline it adds: the JSON text of the value, or the error that stops it
before it writes anything. `encodeJson` (`Types/Json.lean`) is
`encoding/json`'s. -/
abbrev JsonEncoder := PanguTransaction → Except String Bytes

namespace Transaction

/-- `tx.MarshalBinary()`: the buffer, which holds the type byte and then what the
encoder writes (the JSON text and a newline), and the encoder's error. -/
def marshalBinary (encodeJson : JsonEncoder) (tx : Transaction) : Bytes × Option String :=
  match encodeJson tx.inner with
  | .ok json => (PanguTxType :: (json ++ [0x0a]), none)
  | .error e => ([PanguTxType], some e)

theorem marshalBinary_of_ok {encodeJson : JsonEncoder} {tx : Transaction} {json : Bytes}
    (h : encodeJson tx.inner = .ok json) : tx.marshalBinary encodeJson = (PanguTxType :: (json ++ [0x0a]), none) := by
  simp [marshalBinary, h]

end Transaction

end Pangu
