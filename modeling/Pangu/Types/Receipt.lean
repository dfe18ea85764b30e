import Pangu.Rlp.Encode
import Pangu.State.StateDB
import Pangu.Types.Transaction

/-!
# Receipts and their encodings

A receipt has two RLP encodings (`core/types/receipt.go`): the consensus one,
`MarshalBinary`, which writes the type byte and then `receiptRLP` (the status
or post state, the cumulative gas, the bloom filter and the logs), and the
storage one, `ReceiptForStorage.EncodeRLP`, which leaves the bloom filter out
and has `DecodeRLP` compute it again from the logs. A log is written as its
`rlpLog` (`core/types/log.go`).

The decoders are those of `rlp.Stream` on the item `Rlp.decode` reads: each
checks the kind and the size of what it is given and names the Go type it
decodes into, and a struct's and a slice's decoders add where they were to an
error from inside.

* `Receipt.marshalBinary_eq`, `ReceiptForStorage.encodeRLP_eq`: the bytes of
  the two encodings;
* `Receipt.unmarshalBinary_marshalBinary`, `ReceiptForStorage.decodeBytes_encodeRLP`:
  each decoder reads back what its encoder wrote, the status folded into and
  out of `PostStateOrStatus`;
* `Receipt.unmarshalBinary_of_head?_ne`: a typed receipt of another type, or of
  at most one byte, is rejected and the receiver left as it was;
* `receipt_encodings_round_trip`: the three together.
-/

namespace Pangu

open Go

/-! ## Bloom filters -/

def BloomByteLength : Nat := 256

/-- `types.Bloom`: 2048 bits, as 256 bytes. -/
abbrev Bloom := Vector UInt8 256

/-- The empty filter, `Bloom{}`. -/
def Bloom.zero : Bloom := Vector.replicate 256 0

/-- `bloomValues(data, hashbuf)`: three bytes of the filter and the bit to set
in each, from the first six bytes of the data's Keccak-256. -/
def bloomValues (keccak256 : Bytes → Hash) (data : Bytes) : (Nat × UInt8) × (Nat × UInt8) × (Nat × UInt8) :=
  let hashbuf := (keccak256 data).bytes
  let v (i : Nat) : UInt8 := 1 <<< (hashbuf.getD i 0 &&& 0x7)
  let idx (i : Nat) : Nat :=
    BloomByteLength - (((hashbuf.getD i 0).toNat * 256 + (hashbuf.getD (i + 1) 0).toNat &&& 0x7ff) >>> 3) - 1
  ((idx 0, v 1), (idx 2, v 3), (idx 4, v 5))

/-- `b[i] |= v`. -/
def Bloom.orAt (b : Bloom) (i : Nat) (v : UInt8) : Bloom := b.setIfInBounds i (b.getD i 0 ||| v)

/-- `b.add(d, buf)`. -/
def Bloom.add (keccak256 : Bytes → Hash) (b : Bloom) (d : Bytes) : Bloom :=
  let ((i1, v1), (i2, v2), (i3, v3)) := bloomValues keccak256 d
  ((b.orAt i1 v1).orAt i2 v2).orAt i3 v3

/-- The loop body of `CreateBloom` for one receipt: each log's address, then
its topics. -/
def Bloom.addLogs (keccak256 : Bytes → Hash) (bin : Bloom) (logs : List Log) : Bloom :=
  logs.foldl (fun bin log => log.topics.foldl (fun bin b => bin.add keccak256 b.bytes)
    (bin.add keccak256 log.address.bytes)) bin

/-! ## Receipts -/

def ReceiptStatusFailed : UInt64 := 0
def ReceiptStatusSuccessful : UInt64 := 1
def receiptStatusFailedRLP : Bytes := []
def receiptStatusSuccessfulRLP : Bytes := [0x01]
def errShortTypedReceipt : String := "typed receipt too short"

/-- `types.Receipt`, without `EffectiveGasPrice` and `TransactionIndex`, which
nothing sets. -/
structure Receipt where
  type : UInt8
  postState : Bytes
  status : UInt64
  cumulativeGasUsed : UInt64
  bloom : Bloom
  logs : List Log
  txHash : Hash
  contractAddress : Address
  gasUsed : UInt64
  blockHash : Hash
  blockNumber : Int

/-- `Log{}`. -/
def Log.zero : Log := ⟨0, [], [], 0, 0, 0, 0, 0⟩

/-- `rlpLog`: what both encodings write of a log. -/
structure RlpLog where
  address : Address
  topics : List Hash
  data : Bytes
  deriving DecidableEq

/-- `rlpLog{Address: l.Address, Topics: l.Topics, Data: l.Data}`. -/
def Log.toRlpLog (l : Log) : RlpLog := ⟨l.address, l.topics, l.data⟩

/-- `CreateBloom(receipts)`. -/
def createBloom (keccak256 : Bytes → Hash) (receipts : List Receipt) : Bloom :=
  receipts.foldl (fun bin receipt => bin.addLogs keccak256 receipt.logs) Bloom.zero

/-- `receiptRLP`, the consensus fields. -/
structure ReceiptRLP where
  postStateOrStatus : Bytes
  cumulativeGasUsed : UInt64
  bloom : Bloom
  logs : List Log

/-- `storedReceiptRLP`, the fields the storage encoding keeps. -/
structure StoredReceiptRLP where
  postStateOrStatus : Bytes
  cumulativeGasUsed : UInt64
  logs : List Log

namespace Receipt

/-- `new(Receipt)`. -/
def zero : Receipt := ⟨0, [], 0, 0, Bloom.zero, [], 0, 0, 0, 0, 0⟩

/-- `r.statusEncoding()`: the post state if there is one, else the status. -/
def statusEncoding (r : Receipt) : Bytes :=
  if r.postState.length = 0 then
    if r.status = ReceiptStatusFailed then receiptStatusFailedRLP else receiptStatusSuccessfulRLP
  else r.postState

/-- `r.setStatus(postStateOrStatus)`. -/
def setStatus (r : Receipt) (postStateOrStatus : Bytes) : Receipt × Option String :=
  if postStateOrStatus = receiptStatusSuccessfulRLP then ({ r with status := ReceiptStatusSuccessful }, none)
  else if postStateOrStatus = receiptStatusFailedRLP then ({ r with status := ReceiptStatusFailed }, none)
  else if postStateOrStatus.length = 32 then ({ r with postState := postStateOrStatus }, none)
  else (r, some ("invalid receipt status " ++ asciiString (hexEncode postStateOrStatus)))

/-- `r.setFromRLP(data)`. -/
def setFromRLP (r : Receipt) (data : ReceiptRLP) : Receipt × Option String :=
  { r with cumulativeGasUsed := data.cumulativeGasUsed, bloom := data.bloom, logs := data.logs }.setStatus
    data.postStateOrStatus

/-- `&receiptRLP{r.statusEncoding(), r.CumulativeGasUsed, r.Bloom, r.Logs}`. -/
def toRLP (r : Receipt) : ReceiptRLP := ⟨r.statusEncoding, r.cumulativeGasUsed, r.bloom, r.logs⟩

end Receipt

/-! ## Writing -/

def rlpLogFields : List GoType := [.byteArray 20, .slice (.byteArray 32), .bytes]

def receiptRLPFields : List GoType := [.bytes, .uint, .byteArray 256, .slice (.ptr (.struct rlpLogFields))]

/-- An `rlpLog` as the encoder sees it. -/
def RlpLog.goValue (l : RlpLog) : GoValue :=
  .struct rlpLogFields
    [.byteArray l.address.bytes, .slice (.byteArray 32) (l.topics.map fun t => .byteArray t.bytes), .bytes l.data]

/-- A `*Log` in a slice: its `EncodeRLP` encodes `&rlpLog{...}`, so it writes
what the pointer to its `rlpLog` writes. -/
def Log.goValue (l : Log) : GoValue := .ptr (.struct rlpLogFields) (some l.toRlpLog.goValue)

/-- `&receiptRLP{...}` as the encoder sees it. -/
def ReceiptRLP.goValue (d : ReceiptRLP) : GoValue :=
  .ptr (.struct receiptRLPFields) (some (.struct receiptRLPFields
    [.bytes d.postStateOrStatus, .uint d.cumulativeGasUsed.toNat, .byteArray d.bloom.toList,
      .slice (.ptr (.struct rlpLogFields)) (d.logs.map Log.goValue)]))

/-- `l.EncodeRLP(w)`: the bytes, or the error. -/
def Log.encodeRLP (l : Log) : Except String Bytes := rlpEncode l.goValue

namespace Receipt

/-- `r.encodeTyped(data, w)` into an empty buffer: the type byte, then the
encoding of `data`, or the error with the type byte alone written. -/
def encodeTyped (r : Receipt) (data : ReceiptRLP) : Bytes × Option String :=
  match rlpEncode data.goValue with
  | .ok bs => (r.type :: bs, none)
  | .error e => ([r.type], some e)

/-- `r.MarshalBinary()`. -/
def marshalBinary (r : Receipt) : Bytes × Option String := r.encodeTyped r.toRLP

/-- `r.EncodeRLP(w)`: the typed encoding, written as one RLP string. -/
def encodeRLP (r : Receipt) : Except String Bytes :=
  match r.encodeTyped r.toRLP with
  | (_, some e) => .error e
  | (typed, none) => rlpEncode (.bytes typed)

end Receipt

namespace ReceiptForStorage

/-- `(*ReceiptForStorage)(r).EncodeRLP(w)`: through an encoder buffer, the
list of the status, the cumulative gas and the list of the logs, each written
by `rlp.Encode`. -/
def encodeRLP (r : Receipt) : Except String Bytes := do
  let logs ← r.logs.mapM fun log => do
    makeWriter log.goValue.type
    writeValue log.goValue
  .ok (Rlp.encode (.list [.bytes r.statusEncoding, .bytes (Rlp.toBE r.cumulativeGasUsed.toNat), .list logs]))

end ReceiptForStorage

/-! ## Reading -/

/-- `rlp.decodeError`: the message, the Go type decoded into, and the fields
and indices it was inside, innermost first. -/
structure DecodeError where
  msg : String
  typ : String
  ctx : List String

/-- An error of the decoder: a `decodeError`, or one of the stream's own. -/
inductive RlpError where
  | decode (e : DecodeError)
  | stream (text : String)

/-- `addErrorContext(err, ctx)`. -/
def RlpError.within (ctx : String) : RlpError → RlpError
  | .decode e => .decode { e with ctx := e.ctx ++ [ctx] }
  | .stream t => .stream t

/-- `err.Error()`. -/
def RlpError.text : RlpError → String
  | .decode e =>
    let ctx := if e.ctx = [] then "" else ", decoding into " ++ String.join e.ctx.reverse
    "rlp: " ++ e.msg ++ " for " ++ e.typ ++ ctx
  | .stream t => t

def decodeFail {α : Type} (msg typ : String) : Except RlpError α := .error (.decode ⟨msg, typ, []⟩)

def errMoreThanOneValue : String := "rlp: input contains more than one value"
def errValueTooLarge : String := "rlp: value size exceeds available input length"
def errExpectedString : String := "rlp: expected String or Byte"

/-- `decodeByteSlice`: a string, as it is. -/
def decodeByteSlice (typ : String) : Rlp.Item → Except RlpError Bytes
  | .bytes b => .ok b
  | .list _ => decodeFail "expected input string or byte" typ

/-- `decodeUint` for a `uint64`: at most eight bytes, without a leading zero. -/
def decodeUint64 : Rlp.Item → Except RlpError UInt64
  | .bytes b =>
    if 8 < b.length then decodeFail "input string too long" "uint64"
    else if b.head? = some 0 then decodeFail "non-canonical integer (leading zero bytes)" "uint64"
    else .ok (Rlp.ofBE b).toUInt64
  | .list _ => decodeFail "expected input string or byte" "uint64"

/-- `decodeByteArray` for an array of `n` bytes: a string of exactly `n`. -/
def decodeByteArray (n : Nat) (typ : String) : Rlp.Item → Except RlpError {b : Bytes // b.length = n}
  | .bytes b =>
    if h : b.length = n then .ok ⟨b, h⟩
    else if b.length < n then decodeFail "input string too short" typ
    else decodeFail "input string too long" typ
  | .list _ => decodeFail "expected input string or byte" typ

def decodeAddress (x : Rlp.Item) : Except RlpError Address :=
  (decodeByteArray 20 "common.Address" x).map fun b => BitVec.ofNat 160 (ofBytes b.1)

def decodeHash (x : Rlp.Item) : Except RlpError Hash :=
  (decodeByteArray 32 "common.Hash" x).map fun b => BitVec.ofNat 256 (ofBytes b.1)

def decodeBloom (x : Rlp.Item) : Except RlpError Bloom :=
  (decodeByteArray 256 "types.Bloom" x).map fun b => ⟨b.1.toArray, by simp [b.2]⟩

/-- The elements of a slice from the `i`-th on, each error marked with its
index. -/
def decodeElems {α : Type} (dec : Rlp.Item → Except RlpError α) : Nat → List Rlp.Item → Except RlpError (List α)
  | _, [] => .ok []
  | i, x :: xs => do
    let v ← (dec x).mapError (RlpError.within s!"[{i}]")
    let vs ← decodeElems dec (i + 1) xs
    .ok (v :: vs)

/-- `decodeListSlice`. -/
def decodeListSlice {α : Type} (typ : String) (dec : Rlp.Item → Except RlpError α) :
    Rlp.Item → Except RlpError (List α)
  | .list xs => decodeElems dec 0 xs
  | .bytes _ => decodeFail "expected input list" typ

/-- A struct's decoder on its `i`-th field: too few elements if the list ends
before it, and an error inside it marked with the field's name. -/
def structField {α : Type} (typ : String) (xs : List Rlp.Item) (i : Nat) (name : String)
    (dec : Rlp.Item → Except RlpError α) : Except RlpError α :=
  match xs[i]? with
  | none => decodeFail "too few elements" typ
  | some x => (dec x).mapError (RlpError.within ("." ++ name))

/-- A struct's decoder after its `n` fields: `ListEnd` fails on more. -/
def structEnd (typ : String) (xs : List Rlp.Item) (n : Nat) : Except RlpError Unit :=
  if n < xs.length then decodeFail "input list has too many elements" typ else .ok ()

def decodeRlpLog : Rlp.Item → Except RlpError RlpLog
  | .list xs => do
    let address ← structField "types.rlpLog" xs 0 "Address" decodeAddress
    let topics ← structField "types.rlpLog" xs 1 "Topics" (decodeListSlice "[]common.Hash" decodeHash)
    let data ← structField "types.rlpLog" xs 2 "Data" (decodeByteSlice "[]uint8")
    structEnd "types.rlpLog" xs 3
    .ok ⟨address, topics, data⟩
  | .bytes _ => decodeFail "expected input list" "types.rlpLog"

/-- A `*Log` of a slice: a new log, then its `DecodeRLP`. -/
def decodeLog (x : Rlp.Item) : Except RlpError Log :=
  (decodeRlpLog x).map fun dec => { Log.zero with address := dec.address, topics := dec.topics, data := dec.data }

def decodeReceiptRLP : Rlp.Item → Except RlpError ReceiptRLP
  | .list xs => do
    let postStateOrStatus ← structField "types.receiptRLP" xs 0 "PostStateOrStatus" (decodeByteSlice "[]uint8")
    let cumulativeGasUsed ← structField "types.receiptRLP" xs 1 "CumulativeGasUsed" decodeUint64
    let bloom ← structField "types.receiptRLP" xs 2 "Bloom" decodeBloom
    let logs ← structField "types.receiptRLP" xs 3 "Logs" (decodeListSlice "[]*types.Log" decodeLog)
    structEnd "types.receiptRLP" xs 4
    .ok ⟨postStateOrStatus, cumulativeGasUsed, bloom, logs⟩
  | .bytes _ => decodeFail "expected input list" "types.receiptRLP"

def decodeStoredReceiptRLP : Rlp.Item → Except RlpError StoredReceiptRLP
  | .list xs => do
    let postStateOrStatus ← structField "types.storedReceiptRLP" xs 0 "PostStateOrStatus" (decodeByteSlice "[]uint8")
    let cumulativeGasUsed ← structField "types.storedReceiptRLP" xs 1 "CumulativeGasUsed" decodeUint64
    let logs ← structField "types.storedReceiptRLP" xs 2 "Logs" (decodeListSlice "[]*types.Log" decodeLog)
    structEnd "types.storedReceiptRLP" xs 3
    .ok ⟨postStateOrStatus, cumulativeGasUsed, logs⟩
  | .bytes _ => decodeFail "expected input list" "types.storedReceiptRLP"

/-- The first value of `b` as `rlp.Stream` reads it, and what follows. Input
that is not a well-formed value fails with one error here, where the stream
tells several apart. -/
def streamValue (b : Bytes) : Except String (Rlp.Item × Bytes) :=
  match Rlp.decode (2 * b.length + 2) b with
  | some v => .ok v
  | none => .error errValueTooLarge

/-- `rlp.DecodeBytes(b, &val)` for a value with no decoder of its own: one
value and no trailing data. -/
def rlpDecodeBytes {α : Type} (dec : Rlp.Item → Except RlpError α) (b : Bytes) : Except String α := do
  let (x, rest) ← streamValue b
  let v ← (dec x).mapError RlpError.text
  if rest = [] then .ok v else .error errMoreThanOneValue

namespace Receipt

/-- `r.decodeTyped(b)`. -/
def decodeTyped (r : Receipt) : Bytes → Receipt × Option String
  | [] | [_] => (r, some errShortTypedReceipt)
  | t :: rest =>
    if t = PanguTxType then
      match rlpDecodeBytes decodeReceiptRLP rest with
      | .error e => (r, some e)
      | .ok data => { r with type := t }.setFromRLP data
    else (r, some errTxTypeNotSupported)

/-- `r.UnmarshalBinary(b)`. -/
def unmarshalBinary (r : Receipt) (b : Bytes) : Receipt × Option String := r.decodeTyped b

/-- `r.DecodeRLP(s)` on the stream's next value: a string, decoded as a typed
receipt. -/
def decodeRLP (r : Receipt) : Rlp.Item → Receipt × Option String
  | .bytes b => r.decodeTyped b
  | .list _ => (r, some errExpectedString)

end Receipt

namespace ReceiptForStorage

/-- `(*ReceiptForStorage)(r).DecodeRLP(s)` on the stream's next value: the
stored fields, the status, then the bloom filter computed from the logs. -/
def decodeRLP (keccak256 : Bytes → Hash) (r : Receipt) (x : Rlp.Item) : Receipt × Option String :=
  match decodeStoredReceiptRLP x with
  | .error e => (r, some e.text)
  | .ok stored =>
    match r.setStatus stored.postStateOrStatus with
    | (r, some e) => (r, some e)
    | (r, none) =>
      let r := { r with cumulativeGasUsed := stored.cumulativeGasUsed, logs := stored.logs }
      ({ r with bloom := createBloom keccak256 [r] }, none)

/-- `rlp.DecodeBytes(b, (*ReceiptForStorage)(r))`: the receipt's own decoder on
the one value, then the check for trailing data. -/
def decodeBytes (keccak256 : Bytes → Hash) (r : Receipt) (b : Bytes) : Receipt × Option String :=
  match streamValue b with
  | .error e => (r, some e)
  | .ok (x, rest) =>
    match decodeRLP keccak256 r x with
    | (r, some e) => (r, some e)
    | (r, none) => if rest = [] then (r, none) else (r, some errMoreThanOneValue)

end ReceiptForStorage

/-! ## The items written -/

/-- The item an `rlpLog` is written as. -/
def RlpLog.item (l : RlpLog) : Rlp.Item :=
  .list [.bytes l.address.bytes, .list (l.topics.map fun t => .bytes t.bytes), .bytes l.data]

/-- The item `receiptRLP` is written as. -/
def ReceiptRLP.item (d : ReceiptRLP) : Rlp.Item :=
  .list [.bytes d.postStateOrStatus, .bytes (Rlp.toBE d.cumulativeGasUsed.toNat), .bytes d.bloom.toList,
    .list (d.logs.map fun l => l.toRlpLog.item)]

theorem writeValue_rlpLog (l : RlpLog) : writeValue l.goValue = .ok l.item := by
  have ht : writeValues (l.topics.map fun t => .byteArray t.bytes) = .ok (l.topics.map fun t => .bytes t.bytes) :=
    writeValues_map _ _ (fun _ => rfl) l.topics
  simp [RlpLog.goValue, RlpLog.item, writeValue, ht]
  rfl

theorem writeValue_log (l : Log) : writeValue l.goValue = .ok l.toRlpLog.item := by
  rw [Log.goValue, writeValue, writeValue_rlpLog]

theorem Log.encodeRLP_eq (l : Log) : l.encodeRLP = .ok (Rlp.encode l.toRlpLog.item) := by
  rw [Log.encodeRLP, rlpEncode, show makeWriter l.goValue.type = .ok () from rfl, writeValue_log]
  rfl

theorem writeValue_receiptRLP (d : ReceiptRLP) : writeValue d.goValue = .ok d.item := by
  have hl : writeValues (d.logs.map Log.goValue) = .ok (d.logs.map fun l => l.toRlpLog.item) :=
    writeValues_map _ _ writeValue_log d.logs
  simp [ReceiptRLP.goValue, ReceiptRLP.item, writeValue, hl]
  rfl

theorem rlpEncode_receiptRLP (d : ReceiptRLP) : rlpEncode d.goValue = .ok (Rlp.encode d.item) := by
  rw [rlpEncode, show makeWriter d.goValue.type = .ok () from rfl, ok_bind, writeValue_receiptRLP]
  rfl

theorem Receipt.marshalBinary_eq (r : Receipt) : r.marshalBinary = (r.type :: Rlp.encode r.toRLP.item, none) := by
  rw [Receipt.marshalBinary, Receipt.encodeTyped, rlpEncode_receiptRLP]

theorem ReceiptForStorage.encodeRLP_eq (r : Receipt) :
    ReceiptForStorage.encodeRLP r = .ok (Rlp.encode (.list [.bytes r.statusEncoding,
      .bytes (Rlp.toBE r.cumulativeGasUsed.toNat), .list (r.logs.map fun l => l.toRlpLog.item)])) := by
  have hl : ∀ logs : List Log, (logs.mapM fun log => do makeWriter log.goValue.type; writeValue log.goValue) =
      .ok (logs.map fun l => l.toRlpLog.item) := by
    intro logs
    induction logs with
    | nil => rfl
    | cons l ls ih =>
      rw [List.mapM_cons, show makeWriter l.goValue.type = .ok () from rfl, ok_bind, writeValue_log, ok_bind, ih]
      rfl
  rw [ReceiptForStorage.encodeRLP, hl]
  rfl

/-! ## Reading back -/

theorem decodeUint64_toBE (n : UInt64) : decodeUint64 (.bytes (Rlp.toBE n.toNat)) = .ok n := by
  have hlen : (Rlp.toBE n.toNat).length ≤ 8 := (Rlp.length_toBE_le n.toNat 8).mpr n.toNat_lt
  rw [decodeUint64, if_neg (by omega), if_neg (Rlp.head?_toBE_ne_zero n.toNat), Rlp.ofBE_toBE]
  simp

theorem decodeByteArray_of_length {n : Nat} {b : Bytes} (typ : String) (h : b.length = n) :
    decodeByteArray n typ (.bytes b) = .ok ⟨b, h⟩ := by
  rw [decodeByteArray, dif_pos h]

theorem decodeAddress_bytes (a : Address) : decodeAddress (.bytes a.bytes) = .ok a := by
  rw [decodeAddress, decodeByteArray_of_length (b := a.bytes) _ (length_beBytes _ _)]
  show Except.ok (BitVec.ofNat 160 (ofBytes (beBytes a.toNat 20))) = .ok a
  rw [ofBytes_beBytes, Nat.mod_eq_of_lt (show a.toNat < 256 ^ 20 from a.isLt), BitVec.ofNat_toNat, BitVec.setWidth_eq]

theorem decodeHash_bytes (h : Hash) : decodeHash (.bytes h.bytes) = .ok h := by
  rw [decodeHash, decodeByteArray_of_length (b := h.bytes) _ (length_beBytes _ _)]
  show Except.ok (BitVec.ofNat 256 (ofBytes (beBytes h.toNat 32))) = .ok h
  rw [ofBytes_beBytes, Nat.mod_eq_of_lt (show h.toNat < 256 ^ 32 from h.isLt), BitVec.ofNat_toNat, BitVec.setWidth_eq]

theorem decodeBloom_toList (b : Bloom) : decodeBloom (.bytes b.toList) = .ok b := by
  rw [decodeBloom, decodeByteArray_of_length _ b.length_toList]
  show Except.ok _ = .ok b
  congr 1

theorem decodeElems_map {α β : Type} (dec : Rlp.Item → Except RlpError α) (f : β → Rlp.Item) (g : β → α)
    (hfg : ∀ b, dec (f b) = .ok (g b)) : ∀ (i : Nat) (l : List β), decodeElems dec i (l.map f) = .ok (l.map g)
  | _, [] => rfl
  | i, b :: l => by
    rw [List.map_cons, decodeElems, hfg, decodeElems_map dec f g hfg (i + 1) l]
    rfl

theorem decodeRlpLog_item (l : RlpLog) : decodeRlpLog l.item = .ok l := by
  have ht : decodeListSlice "[]common.Hash" decodeHash (.list (l.topics.map fun t => .bytes t.bytes)) = .ok l.topics := by
    rw [decodeListSlice, decodeElems_map decodeHash _ id decodeHash_bytes, List.map_id]
  simp only [decodeRlpLog, RlpLog.item, structField, List.getElem?_cons_zero, List.getElem?_cons_succ,
    decodeAddress_bytes, ht, decodeByteSlice, structEnd]
  rfl

/-- What a decoded log keeps of a log: the `rlpLog` fields. -/
def Log.decoded (l : Log) : Log := { Log.zero with address := l.address, topics := l.topics, data := l.data }

@[simp] theorem Log.toRlpLog_decoded (l : Log) : l.decoded.toRlpLog = l.toRlpLog := rfl

theorem decodeLog_item (l : Log) : decodeLog l.toRlpLog.item = .ok l.decoded := by
  rw [decodeLog, decodeRlpLog_item]
  rfl

theorem decodeLogs_items (logs : List Log) :
    decodeListSlice "[]*types.Log" decodeLog (.list (logs.map fun l => l.toRlpLog.item)) =
      .ok (logs.map Log.decoded) := by
  rw [decodeListSlice, decodeElems_map decodeLog _ _ decodeLog_item]

theorem decodeReceiptRLP_item (d : ReceiptRLP) :
    decodeReceiptRLP d.item = .ok { d with logs := d.logs.map Log.decoded } := by
  simp only [decodeReceiptRLP, ReceiptRLP.item, structField, List.getElem?_cons_zero, List.getElem?_cons_succ,
    decodeByteSlice, decodeUint64_toBE, decodeBloom_toList, decodeLogs_items, structEnd]
  rfl

theorem decodeStoredReceiptRLP_item (ps : Bytes) (gas : UInt64) (logs : List Log) :
    decodeStoredReceiptRLP (.list [.bytes ps, .bytes (Rlp.toBE gas.toNat), .list (logs.map fun l => l.toRlpLog.item)]) =
      .ok ⟨ps, gas, logs.map Log.decoded⟩ := by
  simp only [decodeStoredReceiptRLP, structField, List.getElem?_cons_zero, List.getElem?_cons_succ,
    decodeByteSlice, decodeUint64_toBE, decodeLogs_items, structEnd]
  rfl

/-- The stream reads an encoding back as the one value it is. -/
theorem streamValue_encode (x : Rlp.Item) (h : (Rlp.encode x).length < 2 ^ 64) :
    streamValue (Rlp.encode x) = .ok (x, []) := by
  have hd := Rlp.decode_encode x [] (2 * (Rlp.encode x).length + 2) (by omega) h
  rw [List.append_nil] at hd
  rw [streamValue, hd]

theorem rlpDecodeBytes_encode {α : Type} (dec : Rlp.Item → Except RlpError α) (x : Rlp.Item)
    (h : (Rlp.encode x).length < 2 ^ 64) : rlpDecodeBytes dec (Rlp.encode x) = (dec x).mapError RlpError.text := by
  rw [rlpDecodeBytes, streamValue_encode x h, ok_bind]
  show ((dec x).mapError RlpError.text >>= fun v => if ([] : Bytes) = [] then .ok v else .error errMoreThanOneValue) = _
  cases dec x <;> rfl

/-! ## The status -/

section Status

variable (r₀ : Receipt) {r : Receipt}

theorem setStatus_statusEncoding_of_status (hp : r.postState = []) (hs : r.status = 0 ∨ r.status = 1) :
    r₀.setStatus r.statusEncoding = ({ r₀ with status := r.status }, none) := by
  rcases hs with hs | hs
  · rw [Receipt.statusEncoding, hp, List.length_nil, if_pos rfl, if_pos (show r.status = ReceiptStatusFailed from hs),
      Receipt.setStatus, if_neg (by decide), if_pos rfl, hs]
    rfl
  · rw [Receipt.statusEncoding, hp, List.length_nil, if_pos rfl, if_neg (by rw [hs]; decide), Receipt.setStatus,
      if_pos rfl, hs]
    rfl

theorem setStatus_statusEncoding_of_postState (hp : r.postState.length = 32) :
    r₀.setStatus r.statusEncoding = ({ r₀ with postState := r.postState }, none) := by
  have hne : r.postState ≠ receiptStatusSuccessfulRLP := fun h => by simp [h, receiptStatusSuccessfulRLP] at hp
  have hne' : r.postState ≠ receiptStatusFailedRLP := fun h => by simp [h, receiptStatusFailedRLP] at hp
  rw [Receipt.statusEncoding, if_neg (by omega), Receipt.setStatus, if_neg hne, if_neg hne', if_pos hp]

end Status

/-! ## Round trips -/

/-- `UnmarshalBinary` into a new receipt reads back what `MarshalBinary`
wrote: the type, the post state or else the status, the cumulative gas, the
bloom filter and the logs' `rlpLog` fields. -/
theorem Receipt.unmarshalBinary_marshalBinary {r : Receipt} (ht : r.type = PanguTxType) (hs : r.status = 0 ∨ r.status = 1)
    (hp : r.postState = [] ∨ r.postState.length = 32) (hlen : r.marshalBinary.1.length < 2 ^ 64) :
    ∃ r', Receipt.zero.unmarshalBinary r.marshalBinary.1 = (r', none) ∧ r'.type = r.type ∧
      r'.postState = r.postState ∧ (r.postState = [] → r'.status = r.status) ∧
      r'.cumulativeGasUsed = r.cumulativeGasUsed ∧ r'.bloom = r.bloom ∧
      r'.logs.map Log.toRlpLog = r.logs.map Log.toRlpLog := by
  rw [r.marshalBinary_eq] at hlen ⊢
  have henc : (Rlp.encode r.toRLP.item).length < 2 ^ 64 := by
    rw [List.length_cons] at hlen
    omega
  have hdec : rlpDecodeBytes decodeReceiptRLP (Rlp.encode r.toRLP.item) =
      .ok { r.toRLP with logs := r.logs.map Log.decoded } := by
    rw [rlpDecodeBytes_encode _ _ henc, decodeReceiptRLP_item]
    rfl
  have hlogs : (r.logs.map Log.decoded).map Log.toRlpLog = r.logs.map Log.toRlpLog := by simp
  obtain ⟨b, bs, hb⟩ := List.exists_cons_of_ne_nil (Rlp.encode_ne_nil r.toRLP.item)
  rw [Receipt.unmarshalBinary, hb, Receipt.decodeTyped.eq_3 _ _ _ (List.cons_ne_nil _ _), if_pos ht, ← hb, hdec]
  simp only [Receipt.setFromRLP, Receipt.toRLP]
  rcases hp with hp | hp
  · rw [setStatus_statusEncoding_of_status _ hp hs]
    exact ⟨_, rfl, rfl, hp.symm, fun _ => rfl, rfl, rfl, hlogs⟩
  · rw [setStatus_statusEncoding_of_postState _ hp]
    exact ⟨_, rfl, rfl, rfl, fun h => absurd hp (by simp [h]), rfl, rfl, hlogs⟩

/-- `ReceiptForStorage`'s decoder reads back what its encoder wrote, and
computes the bloom filter of the logs it read. -/
theorem ReceiptForStorage.decodeBytes_encodeRLP (keccak256 : Bytes → Hash) {r : Receipt}
    (hs : r.status = 0 ∨ r.status = 1) (hp : r.postState = [] ∨ r.postState.length = 32) :
    ∃ enc, ReceiptForStorage.encodeRLP r = .ok enc ∧ (enc.length < 2 ^ 64 →
      ∃ r', ReceiptForStorage.decodeBytes keccak256 Receipt.zero enc = (r', none) ∧
        r'.postState = r.postState ∧ (r.postState = [] → r'.status = r.status) ∧
        r'.cumulativeGasUsed = r.cumulativeGasUsed ∧ r'.logs.map Log.toRlpLog = r.logs.map Log.toRlpLog ∧
        r'.bloom = createBloom keccak256 [r']) := by
  refine ⟨_, ReceiptForStorage.encodeRLP_eq r, fun hlen => ?_⟩
  have hlogs : (r.logs.map Log.decoded).map Log.toRlpLog = r.logs.map Log.toRlpLog := by simp
  rw [ReceiptForStorage.decodeBytes, streamValue_encode _ hlen]
  simp only [ReceiptForStorage.decodeRLP, decodeStoredReceiptRLP_item]
  rcases hp with hp | hp
  · rw [setStatus_statusEncoding_of_status _ hp hs]
    exact ⟨_, rfl, hp.symm, fun _ => rfl, rfl, hlogs, rfl⟩
  · rw [setStatus_statusEncoding_of_postState _ hp]
    exact ⟨_, rfl, rfl, fun h => absurd hp (by simp [h]), rfl, hlogs, rfl⟩

/-- A typed receipt whose first byte is not `PanguTxType`, the empty one
included, is rejected, and the receiver is left as it was. -/
theorem Receipt.unmarshalBinary_of_head?_ne (r : Receipt) {b : Bytes} (h : b.head? ≠ some PanguTxType) :
    r.unmarshalBinary b = (r, some errShortTypedReceipt) ∨ r.unmarshalBinary b = (r, some errTxTypeNotSupported) := by
  match b with
  | [] => exact Or.inl rfl
  | [_] => exact Or.inl rfl
  | t :: u :: rest =>
    have ht : t ≠ PanguTxType := fun ht => h (by rw [ht]; rfl)
    right
    rw [Receipt.unmarshalBinary, Receipt.decodeTyped.eq_3 _ _ _ (List.cons_ne_nil _ _), if_neg ht]

/-- The consensus encoding and the storage encoding of a receipt both read
back, and a typed receipt of another type is rejected. -/
theorem receipt_encodings_round_trip (keccak256 : Bytes → Hash) :
    (∀ r : Receipt, r.type = PanguTxType → (r.status = 0 ∨ r.status = 1) →
      (r.postState = [] ∨ r.postState.length = 32) → r.marshalBinary.1.length < 2 ^ 64 →
      ∃ r', Receipt.zero.unmarshalBinary r.marshalBinary.1 = (r', none) ∧ r'.type = r.type ∧
        r'.postState = r.postState ∧ (r.postState = [] → r'.status = r.status) ∧
        r'.cumulativeGasUsed = r.cumulativeGasUsed ∧ r'.bloom = r.bloom ∧
        r'.logs.map Log.toRlpLog = r.logs.map Log.toRlpLog) ∧
    (∀ r : Receipt, (r.status = 0 ∨ r.status = 1) → (r.postState = [] ∨ r.postState.length = 32) →
      ∃ enc, ReceiptForStorage.encodeRLP r = .ok enc ∧ (enc.length < 2 ^ 64 →
        ∃ r', ReceiptForStorage.decodeBytes keccak256 Receipt.zero enc = (r', none) ∧
          r'.postState = r.postState ∧ (r.postState = [] → r'.status = r.status) ∧
          r'.cumulativeGasUsed = r.cumulativeGasUsed ∧ r'.logs.map Log.toRlpLog = r.logs.map Log.toRlpLog ∧
          r'.bloom = createBloom keccak256 [r'])) ∧
    (∀ (r : Receipt) (b : Bytes), b.head? ≠ some PanguTxType →
      r.unmarshalBinary b = (r, some errShortTypedReceipt) ∨ r.unmarshalBinary b = (r, some errTxTypeNotSupported)) :=
  ⟨fun _ ht hs hp hlen => Receipt.unmarshalBinary_marshalBinary ht hs hp hlen,
    fun _ hs hp => ReceiptForStorage.decodeBytes_encodeRLP keccak256 hs hp,
    fun r _ h => Receipt.unmarshalBinary_of_head?_ne r h⟩

/-- A successful receipt with one log. -/
def sampleReceipt : Receipt :=
  { Receipt.zero with
    type := PanguTxType, status := ReceiptStatusSuccessful, cumulativeGasUsed := 21000,
    logs := [{ Log.zero with address := 0xc1, topics := [1], data := [1, 2] }] }

theorem receipt_encodings_round_trip_sample :
    (∃ r', Receipt.zero.unmarshalBinary sampleReceipt.marshalBinary.1 = (r', none) ∧ r'.status = 1) ∧
    (∃ enc r', ReceiptForStorage.encodeRLP sampleReceipt = .ok enc ∧
      ReceiptForStorage.decodeBytes (fun _ => 0) Receipt.zero enc = (r', none) ∧ r'.cumulativeGasUsed = 21000) ∧
    (Receipt.zero.unmarshalBinary [0x02, 0xc0] = (Receipt.zero, some errShortTypedReceipt) ∨
      Receipt.zero.unmarshalBinary [0x02, 0xc0] = (Receipt.zero, some errTxTypeNotSupported)) := by
  have h := receipt_encodings_round_trip (fun _ => 0)
  obtain ⟨r', h1, -, -, hst, -⟩ := h.1 sampleReceipt rfl (Or.inr rfl) (Or.inl rfl) (by decide +kernel)
  obtain ⟨enc, henc, hdec⟩ := h.2.1 sampleReceipt (Or.inr rfl) (Or.inl rfl)
  have hlen : enc.length < 2 ^ 64 := by
    rw [ReceiptForStorage.encodeRLP_eq, Except.ok.injEq] at henc
    rw [← henc]
    decide +kernel
  obtain ⟨r'', h2, -, -, hgas, -⟩ := hdec hlen
  exact ⟨⟨r', h1, hst rfl⟩, ⟨enc, r'', henc, h2, hgas⟩, h.2.2 Receipt.zero [0x02, 0xc0] (by decide)⟩

end Pangu
