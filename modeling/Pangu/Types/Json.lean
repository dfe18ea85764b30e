import Pangu.Common.Hexutil
import Pangu.Lib.Base64
import Pangu.Types.Transaction

/-!
# Transactions as JSON

`MarshalBinary` writes, and `UnmarshalBinary` reads, the inner data of a
transaction with `encoding/json` (`core/types/transaction.go`).
`PanguTransaction` and `accesslist.AccessList` have no JSON tags and no
methods of their own, so each is an object of its fields under their Go names.
An address or a hash is the string of its `MarshalText`, as a value and as a
map key, and reads back by its `UnmarshalJSON`. What the two take from outside
the repository, `*big.Int`'s JSON and base64, is a parameter (`JsonCodecs`);
`stdCodecs` is `math/big`'s and `StdEncoding`'s.

A map comes back with its entries in the order of their keys' text
(`normalize`), which is the same Go map.

* `decodeJson_encodeJson`: the decoder reads back, into a zero transaction,
  what the encoder writes of one: the transaction, maps in normal form;
* `sameData_normalize`: that has the data of the transaction, entry for entry.
-/

namespace Pangu

open Go Json

/-- What `encoding/json` takes from the standard library for a transaction:
`*big.Int`'s `MarshalJSON` and `UnmarshalJSON` (`math/big`), and the base64 of
a `[]byte`. -/
structure JsonCodecs where
  bigIntMarshalJSON : Int → Bytes
  bigIntUnmarshalJSON : Bytes → Except String Int
  base64Encode : Bytes → Bytes
  base64Decode : Bytes → Except String Bytes

/-- Each reads back what it writes, and a big integer writes a JSON number. -/
structure JsonCodecs.RoundTrip (c : JsonCodecs) : Prop where
  bigInt_isNumber : ∀ i, isNumber (c.bigIntMarshalJSON i) = true
  bigInt_read : ∀ i, c.bigIntUnmarshalJSON (c.bigIntMarshalJSON i) = .ok i
  base64_read : ∀ bs, c.base64Decode (c.base64Encode bs) = .ok bs

/-- `math/big`'s decimal text and `base64.StdEncoding`. -/
def stdCodecs : JsonCodecs :=
  ⟨bigIntMarshalJSON, bigIntUnmarshalJSON, Base64.encode, Base64.decode⟩

theorem stdCodecs_roundTrip : stdCodecs.RoundTrip :=
  ⟨isNumber_formatInt, bigIntUnmarshalJSON_marshalJSON, Base64.decode_encode⟩

/-- The bytes of an ASCII name. -/
def ascii (s : List Char) : Bytes := s.map fun c => c.toNat.toUInt8

/-! ## Values of the fields' types -/

/-- A `*common.Address`: `null`, or the string of its `MarshalText`. -/
def addressValue : Option Address → Json
  | none => .null
  | some a => .string a.marshalText

/-- A `*big.Int`: `null`, or what its `MarshalJSON` writes. -/
def bigIntJson (c : JsonCodecs) : Option Int → Except String Json
  | none => .ok .null
  | some i => marshalerJson "*big.Int" (c.bigIntMarshalJSON i)

/-- A `*big.Int`, read by its `UnmarshalJSON`. -/
def bigIntStore (c : JsonCodecs) : Json → Option Int → DecodeM (Option Int) :=
  decodePtr 0 (decodeUnmarshaler c.bigIntUnmarshalJSON)

/-- A `[]byte`: `null`, or the string of its base64. Nil and empty slices are
not told apart, and both are written as nil. -/
def bytesValue (c : JsonCodecs) (bs : Bytes) : Json := if bs = [] then .null else .string (c.base64Encode bs)

/-- An address key, read by `UnmarshalJSON` of its quoted text. -/
def addressKey (k : Bytes) : Except String Address := Address.unmarshalJSON (Json.quote k)

/-- A hash key, read by `UnmarshalJSON` of its quoted text. -/
def hashKey (k : Bytes) : Except String Hash := Hash.unmarshalJSON (Json.quote k)

/-- `Addresses`, a `map[common.Address]int`. -/
def addressesValue : Option (GoMap Address Int) → Json
  | none => .null
  | some m => encodeMap Address.marshalText (fun i => .number (formatInt i)) m

/-- A slot set, a `map[common.Hash]struct{}`. -/
def slotSetValue (m : GoMap Hash Unit) : Json := encodeMap Hash.marshalText (fun _ => .object []) m

/-- `Slots`, a `[]map[common.Hash]struct{}`; nil and empty are not told apart. -/
def slotsValue (slots : List (GoMap Hash Unit)) : Json := if slots = [] then .null else .array (slots.map slotSetValue)

/-- A slot set stored into an element of `Slots`; a nil set reads as empty. -/
def slotSetStore (v : Json) (m : GoMap Hash Unit) : DecodeM (GoMap Hash Unit) :=
  (·.getD ∅) <$> decodeMap hashKey () (decodeStruct [] "AccessList.AccessList.Slots" "struct \x7b\x7d")
    "AccessList.AccessList.Slots" "map[common.Hash]struct \x7b\x7d" v (some m)

/-! ## The structs -/

namespace AccessList

def zero : AccessList := ⟨none, []⟩

/-- `accesslist.AccessList`'s fields, with the path and Go type a type error
names. -/
def jsonFields : List (StructField AccessList) :=
  [.ofGet (ascii ['A', 'd', 'd', 'r', 'e', 's', 's', 'e', 's']) (·.addresses) (fun al m => { al with addresses := m })
      (fun m => .ok (addressesValue m))
      (decodeMap addressKey 0 (decodeScalar readInt "AccessList.AccessList.Addresses" "int")
        "AccessList.AccessList.Addresses" "map[common.Address]int"),
   .ofGet (ascii ['S', 'l', 'o', 't', 's']) (·.slots) (fun al s => { al with slots := s })
      (fun s => .ok (slotsValue s))
      (decodeSlice ∅ slotSetStore "AccessList.AccessList.Slots" "[]map[common.Hash]struct \x7b\x7d")]

end AccessList

/-- A `*accesslist.AccessList`: `null`, or the object of its fields. -/
def accessListJson : Option AccessList → Except String Json
  | none => .ok .null
  | some al => encodeStruct AccessList.jsonFields al

namespace PanguTransaction

/-- `PanguTransaction`'s fields in declaration order, with the path and Go
type a type error names. -/
def jsonFields (c : JsonCodecs) : List (StructField PanguTransaction) :=
  [.ofGet (ascii ['T', 'o']) (·.toAddr) (fun tx a => { tx with toAddr := a }) (fun a => .ok (addressValue a))
      (decodePtr 0 (decodeUnmarshaler Address.unmarshalJSON)),
   .ofGet (ascii ['N', 'o', 'n', 'c', 'e']) (·.nonce) (fun tx n => { tx with nonce := n })
      (fun n => .ok (.number (formatUint n.toNat)))
      (decodeScalar (fun v => (readUint 64 v).map Nat.toUInt64) "PanguTransaction.Nonce" "uint64"),
   .ofGet (ascii ['V', 'a', 'l', 'u', 'e']) (·.value) (fun tx v => { tx with value := v }) (bigIntJson c)
      (bigIntStore c),
   .ofGet (ascii ['G', 'a', 's', 'L', 'i', 'm', 'i', 't']) (·.gasLimit) (fun tx n => { tx with gasLimit := n })
      (fun n => .ok (.number (formatUint n.toNat)))
      (decodeScalar (fun v => (readUint 64 v).map Nat.toUInt64) "PanguTransaction.GasLimit" "uint64"),
   .ofGet (ascii ['F', 'e', 'e', 'C', 'a', 'p']) (·.feeCap) (fun tx v => { tx with feeCap := v }) (bigIntJson c)
      (bigIntStore c),
   .ofGet (ascii ['T', 'i', 'p', 'C', 'a', 'p']) (·.tipCap) (fun tx v => { tx with tipCap := v }) (bigIntJson c)
      (bigIntStore c),
   .ofGet (ascii ['C', 'h', 'a', 'i', 'n', 'I', 'D']) (·.chainID) (fun tx v => { tx with chainID := v })
      (bigIntJson c) (bigIntStore c),
   .ofGet (ascii ['S', 'i', 'g', 'A', 'l', 'g', 'o']) (·.sigAlgo) (fun tx n => { tx with sigAlgo := n })
      (fun n => .ok (.number (formatUint n.toNat)))
      (decodeScalar (fun v => (readUint 8 v).map Nat.toUInt8) "PanguTransaction.SigAlgo" "uint8"),
   .ofGet (ascii ['S', 'i', 'g', 'n', 'a', 't', 'u', 'r', 'e']) (·.signature)
      (fun tx bs => { tx with signature := bs }) (fun bs => .ok (bytesValue c bs))
      (decodeBytes c.base64Decode "PanguTransaction.Signature" "[]uint8"),
   .ofGet (ascii ['E', 'n', 'c', 'A', 'l', 'g', 'o']) (·.encAlgo) (fun tx n => { tx with encAlgo := n })
      (fun n => .ok (.number (formatUint n.toNat)))
      (decodeScalar (fun v => (readUint 8 v).map Nat.toUInt8) "PanguTransaction.EncAlgo" "uint8"),
   .ofGet (ascii ['E', 'n', 'c', 'C', 'o', 'n', 't', 'e', 'n', 't']) (·.encContent)
      (fun tx bs => { tx with encContent := bs }) (fun bs => .ok (bytesValue c bs))
      (decodeBytes c.base64Decode "PanguTransaction.EncContent" "[]uint8"),
   .ofGet (ascii ['V', 'm', 'T', 'y', 'p', 'e']) (·.vmType) (fun tx n => { tx with vmType := n })
      (fun n => .ok (.number (formatUint n.toNat)))
      (decodeScalar (fun v => (readUint 8 v).map Nat.toUInt8) "PanguTransaction.VmType" "uint8"),
   .ofGet (ascii ['D', 'a', 't', 'a']) (·.data) (fun tx bs => { tx with data := bs })
      (fun bs => .ok (bytesValue c bs))
      (decodeBytes c.base64Decode "PanguTransaction.Data" "[]uint8"),
   .ofGet (ascii ['A', 'c', 'c', 'e', 's', 's', 'L', 'i', 's', 't']) (·.accessList)
      (fun tx al => { tx with accessList := al }) accessListJson
      (decodePtr AccessList.zero
        (decodeStruct AccessList.jsonFields "PanguTransaction.AccessList" "accesslist.AccessList"))]

end PanguTransaction

/-- `json.NewEncoder(w).Encode(tx)`'s text before its newline: the object of
the fields, or the error of a `MarshalJSON`. -/
def encodeJson (c : JsonCodecs) : JsonEncoder := fun tx =>
  Json.encode <$> encodeStruct (PanguTransaction.jsonFields c) tx

/-- `json.NewDecoder(r).Decode(&tx)`: one value read, and stored into `tx`;
an error that stops the decoding, else the first type error saved. -/
def decodeJson (c : JsonCodecs) : JsonDecoder := fun b tx =>
  match read b with
  | .error e => .error e
  | .ok (v, _) => (decodeStruct (PanguTransaction.jsonFields c) "" "types.PanguTransaction" v tx).finish

/-! ## Normal form -/

/-- Go's `int`, which the model's `Int` stands for, has 64 bits. -/
def AccessList.IntsFit (al : AccessList) : Prop :=
  ∀ m ∈ al.addresses, ∀ e ∈ m.entries, -2 ^ 63 ≤ e.2 ∧ e.2 < 2 ^ 63

/-- The access list as it reads back: its maps in normal form. -/
def AccessList.normalize (al : AccessList) : AccessList :=
  ⟨al.addresses.map (normalizeMap Address.marshalText), al.slots.map (normalizeMap Hash.marshalText)⟩

/-- The transaction as it reads back: its access list's maps in normal form. -/
def PanguTransaction.normalize (tx : PanguTransaction) : PanguTransaction :=
  { tx with accessList := tx.accessList.map AccessList.normalize }

/-- Two maps with the same entries, key for key. -/
def SameEntries {κ ν : Type} [DecidableEq κ] (m m' : GoMap κ ν) : Prop := ∀ k, m.find? k = m'.find? k

/-- Two access lists that are the same Go value: both nil or maps with the same
entries, and slot sets with the same entries, one for one. -/
def AccessList.SameData (a b : AccessList) : Prop :=
  Option.Rel SameEntries a.addresses b.addresses ∧ List.Forall₂ SameEntries a.slots b.slots

/-- Two transactions that are the same Go value: equal but for the order of
their access lists' maps. -/
def PanguTransaction.SameData (t t' : PanguTransaction) : Prop :=
  { t with accessList := none } = { t' with accessList := none } ∧
    Option.Rel AccessList.SameData t.accessList t'.accessList

theorem AccessList.sameData_normalize (al : AccessList) : al.normalize.SameData al := by
  obtain ⟨addresses, slots⟩ := al
  refine ⟨?_, ?_⟩
  · cases addresses with
    | none => exact .none
    | some m => exact .some fun k => find?_normalizeMap Address.marshalText m k
  · simp only [normalize, List.forall₂_map_left_iff]
    exact List.forall₂_same.mpr fun m _ k => find?_normalizeMap Hash.marshalText m k

/-- What reads back is the transaction, entry for entry. -/
theorem sameData_normalize (tx : PanguTransaction) : tx.normalize.SameData tx := by
  refine ⟨rfl, ?_⟩
  show Option.Rel AccessList.SameData (tx.accessList.map AccessList.normalize) tx.accessList
  cases tx.accessList with
  | none => exact .none
  | some al => exact .some (AccessList.sameData_normalize al)

/-! ## Reading back -/

/-- What `bigIntJson` gives when `MarshalJSON` writes a number. -/
def bigIntValue (c : JsonCodecs) : Option Int → Json
  | none => .null
  | some i => .number (c.bigIntMarshalJSON i)

/-- The object `accessListJson` gives. -/
def accessListValue : Option AccessList → Json
  | none => .null
  | some al => .object (AccessList.jsonFields.map fun f => (f.name, f.value al))

section RoundTrip

variable {c : JsonCodecs}

theorem bigIntJson_eq (hc : c.RoundTrip) (o : Option Int) : bigIntJson c o = .ok (bigIntValue c o) := by
  cases o with
  | none => rfl
  | some i => exact marshalerJson_number (hc.bigInt_isNumber i)

theorem accessListJson_eq (o : Option AccessList) : accessListJson o = .ok (accessListValue o) := by
  cases o with
  | none => rfl
  | some al => exact encodeStruct_of_ok (by simp [AccessList.jsonFields, StructField.ofGet])

/-! ### Each field's store -/

theorem bigIntStore_value (hc : c.RoundTrip) (o old : Option Int) : bigIntStore c (bigIntValue c o) old = pure o := by
  cases o with
  | none => rfl
  | some i =>
    simp only [bigIntStore, bigIntValue, decodePtr, decodeUnmarshaler, Json.encode, hc.bigInt_read, stop]
    rfl

theorem addressStore_value (a old : Option Address) :
    decodePtr 0 (decodeUnmarshaler Address.unmarshalJSON) (addressValue a) old = pure a := by
  cases a with
  | none => rfl
  | some a =>
    simp only [addressValue, decodePtr, decodeUnmarshaler, Json.encode, Address.unmarshalJSON_quote, stop]
    rfl

theorem uint64Store_formatUint (n : UInt64) (field goType : String) (old : UInt64) :
    decodeScalar (fun v => (readUint 64 v).map Nat.toUInt64) field goType (.number (formatUint n.toNat)) old =
      pure n :=
  decodeScalar_of_read (by simp) (by simp [readUint_formatUint n.toNat_lt le_rfl]) old

theorem uint8Store_formatUint (n : UInt8) (field goType : String) (old : UInt8) :
    decodeScalar (fun v => (readUint 8 v).map Nat.toUInt8) field goType (.number (formatUint n.toNat)) old =
      pure n :=
  decodeScalar_of_read (by simp) (by simp [readUint_formatUint n.toNat_lt (by omega)]) old

theorem bytesStore_value (hc : c.RoundTrip) (bs : Bytes) (field goType : String) (old : Bytes) :
    decodeBytes c.base64Decode field goType (bytesValue c bs) old = pure bs := by
  unfold bytesValue
  split_ifs with h
  · subst h
    rfl
  · simp only [decodeBytes, hc.base64_read]

theorem addressesStore_value {m : Option (GoMap Address Int)} (hfit : ∀ a ∈ m, ∀ e ∈ a.entries, -2 ^ 63 ≤ e.2 ∧ e.2 < 2 ^ 63)
    (field goType : String) :
    decodeMap addressKey 0 (decodeScalar readInt field "int") field goType (addressesValue m) none =
      pure (m.map (normalizeMap Address.marshalText)) := by
  cases m with
  | none => rfl
  | some m =>
    have hk : ∀ e ∈ m.entries, addressKey (Address.marshalText e.1) = .ok e.1 :=
      fun e _ => Address.unmarshalJSON_quote e.1
    have hv : ∀ e ∈ m.entries, decodeScalar readInt field "int" (.number (formatInt e.2)) 0 = pure e.2 := by
      intro e he
      obtain ⟨h₁, h₂⟩ := hfit m rfl e he
      exact decodeScalar_of_read (by simp) (by simp [readInt, parseInt_formatInt h₁ h₂]) 0
    exact @decodeMap_encodeMap _ _ _ addressKey 0 (decodeScalar readInt field "int") Address.marshalText
      (fun i => .number (formatInt i)) field goType m hk hv none rfl

theorem slotSetStore_value (m : GoMap Hash Unit) : slotSetStore (slotSetValue m) ∅ = pure (normalizeMap Hash.marshalText m) := by
  have hk : ∀ e ∈ m.entries, hashKey (Hash.marshalText e.1) = .ok e.1 := fun e _ => Hash.unmarshalJSON_quote e.1
  have hold : (some ∅ : Option (GoMap Hash Unit)).getD ∅ = ∅ := rfl
  rw [slotSetStore, slotSetValue, decodeMap_encodeMap hk (fun _ _ => rfl) hold]
  rfl

theorem slotsStore_value (slots : List (GoMap Hash Unit)) (field goType : String) :
    decodeSlice ∅ slotSetStore field goType (slotsValue slots) [] = pure (slots.map (normalizeMap Hash.marshalText)) := by
  unfold slotsValue
  split_ifs with h
  · subst h
    rfl
  · exact decodeItems_map slots fun m _ => slotSetStore_value m

theorem accessListStore_value {o : Option AccessList} (hfit : ∀ al ∈ o, al.IntsFit) (field goType : String) :
    decodePtr AccessList.zero (decodeStruct AccessList.jsonFields field goType) (accessListValue o) none =
      pure (o.map AccessList.normalize) := by
  cases o with
  | none => rfl
  | some al =>
    have hnd : (AccessList.jsonFields.map (·.name)).Nodup := by decide
    simp only [accessListValue, decodePtr, decodeStruct, Option.getD_none,
      decodeMembers_map hnd _ AccessList.jsonFields (fun _ h => h)]
    simp only [AccessList.jsonFields, List.foldlM_cons, List.foldlM_nil, StructField.ofGet_store,
      StructField.ofGet_value, AccessList.zero, addressesStore_value (hfit al rfl), map_pure, pure_bind,
      slotsStore_value]
    rfl

/-! ### Validity and depth -/

theorem valid_addressesValue (m : Option (GoMap Address Int)) : (addressesValue m).valid = true := by
  cases m with
  | none => rfl
  | some m =>
    rw [addressesValue]
    exact valid_encodeMap m fun i => isNumber_formatInt i

theorem depth_addressesValue (m : Option (GoMap Address Int)) : (addressesValue m).depth ≤ 1 := by
  cases m with
  | none => simp [addressesValue, depth]
  | some m =>
    rw [addressesValue]
    exact depth_encodeMap m fun _ => Nat.le_refl 0

theorem valid_slotSetValue (m : GoMap Hash Unit) : (slotSetValue m).valid = true :=
  valid_encodeMap m fun _ => rfl

theorem depth_slotSetValue (m : GoMap Hash Unit) : (slotSetValue m).depth ≤ 2 :=
  depth_encodeMap m fun _ => Nat.le_refl 1

theorem valid_slotsValue (slots : List (GoMap Hash Unit)) : (slotsValue slots).valid = true := by
  unfold slotsValue
  split_ifs
  · rfl
  · rw [valid, validItems_eq_true]
    simp [valid_slotSetValue]

theorem depth_slotsValue (slots : List (GoMap Hash Unit)) : (slotsValue slots).depth ≤ 3 := by
  unfold slotsValue
  split_ifs
  · simp [depth]
  · rw [depth, Nat.add_le_add_iff_right, depthItems_le]
    simp [depth_slotSetValue]

theorem valid_accessListValue (o : Option AccessList) : (accessListValue o).valid = true := by
  cases o with
  | none => rfl
  | some al =>
    rw [accessListValue, valid, validMembers_eq_true]
    simp [AccessList.jsonFields, valid_addressesValue, valid_slotsValue]

theorem depth_accessListValue (o : Option AccessList) : (accessListValue o).depth ≤ 4 := by
  cases o with
  | none => simp [accessListValue, depth]
  | some al =>
    rw [accessListValue, depth, Nat.add_le_add_iff_right, depthMembers_le]
    have h₁ := depth_addressesValue al.addresses
    have h₂ := depth_slotsValue al.slots
    simp only [AccessList.jsonFields, List.map_cons, List.map_nil, List.mem_cons, List.not_mem_nil, or_false,
      forall_eq_or_imp, forall_eq, StructField.ofGet_value]
    exact ⟨by omega, by omega⟩

/-! ### The transaction -/

theorem jsonFields_encode (hc : c.RoundTrip) (tx : PanguTransaction) :
    ∀ f ∈ PanguTransaction.jsonFields c, ∃ v, f.encode tx = .ok v := by
  simp [PanguTransaction.jsonFields, StructField.ofGet, bigIntJson_eq hc, accessListJson_eq]

theorem jsonFields_names_nodup (c : JsonCodecs) : ((PanguTransaction.jsonFields c).map (·.name)).Nodup := by
  rw [show (PanguTransaction.jsonFields c).map (·.name) = (PanguTransaction.jsonFields stdCodecs).map (·.name)
    from rfl]
  decide

/-- The object the encoder writes of a transaction is valid JSON, five levels
deep. -/
theorem valid_encodeStruct (hc : c.RoundTrip) (tx : PanguTransaction) :
    (Json.object ((PanguTransaction.jsonFields c).map fun f => (f.name, f.value tx))).valid = true ∧
      (Json.object ((PanguTransaction.jsonFields c).map fun f => (f.name, f.value tx))).depth ≤ 5 := by
  have hb : ∀ o, (bigIntValue c o).valid = true := fun o => by
    cases o with
    | none => rfl
    | some i => exact hc.bigInt_isNumber i
  have hd : ∀ o, (bigIntValue c o).depth = 0 := fun o => by cases o <;> rfl
  have ha : ∀ o, (addressValue o).depth = 0 := fun o => by cases o <;> rfl
  have hbs : ∀ bs, (bytesValue c bs).valid = true ∧ (bytesValue c bs).depth = 0 := fun bs => by
    unfold bytesValue
    split_ifs <;> exact ⟨rfl, rfl⟩
  have hal := depth_accessListValue tx.accessList
  refine ⟨?_, ?_⟩
  · rw [valid, validMembers_eq_true]
    simp [PanguTransaction.jsonFields, bigIntJson_eq hc, accessListJson_eq, valid, hb, hbs,
      isNumber_formatUint, valid_accessListValue]
    cases tx.toAddr <;> rfl
  · rw [depth, Nat.add_le_add_iff_right, depthMembers_le]
    simp [PanguTransaction.jsonFields, bigIntJson_eq hc, accessListJson_eq, depth, hd, ha, hbs]
    omega

/-- What the decoder reads back, into a zero transaction, from what the
encoder writes of one and the newline after it: that transaction, its maps in
normal form. -/
theorem decodeJson_encodeJson (hc : c.RoundTrip) (tx : PanguTransaction) (hfit : ∀ al ∈ tx.accessList, al.IntsFit) :
    ∃ json, encodeJson c tx = .ok json ∧ decodeJson c (json ++ [0x0a]) PanguTransaction.zero = .ok tx.normalize := by
  obtain ⟨hvalid, hdepth⟩ := valid_encodeStruct hc tx
  refine ⟨_, by rw [encodeJson, encodeStruct_of_ok (jsonFields_encode hc tx)]; rfl, ?_⟩
  rw [decodeJson, read_encode _ hvalid (by unfold maxNestingDepth; omega)]
  simp only [decodeStruct, decodeMembers_map (jsonFields_names_nodup c) _ _ (fun _ h => h)]
  -- each field, in order, stores its own value into the zero transaction
  simp only [PanguTransaction.jsonFields, List.foldlM_cons, List.foldlM_nil, StructField.ofGet_store,
    StructField.ofGet_value, bigIntJson_eq hc, accessListJson_eq, PanguTransaction.zero, addressStore_value,
    uint64Store_formatUint, bigIntStore_value hc, uint8Store_formatUint, bytesStore_value hc,
    accessListStore_value hfit, map_pure, pure_bind, DecodeM.finish_pure]
  rfl

end RoundTrip

end Pangu
