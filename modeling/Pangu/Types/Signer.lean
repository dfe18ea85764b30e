import Pangu.Types.Hashing

/-!
# The transaction signer

`panguSigner` (`core/types/signer.go`): the hash a sender signs is taken of the
type byte and the RLP list `[chainId, Nonce, GasTipCap, GasFeeCap, GasLimit,
To, Value, Data, EncContent]`, and `Sender` recovers the address that signed
that hash from the 65-byte signature. The list leaves out the access list, the
signature algorithm, `VmType` and `EncAlgo`.

* `hashInput_eq`: the bytes hashed, for set caps and value;
* `hashInput_binds`: equal bytes give equal signed fields, provided the
  integers are non-negative and the encoding within RLP's 2^64 byte bound;
* `sender_congr`: `Sender` reads a transaction only through the signed fields,
  the chain id, the algorithm and the signature.
-/

namespace Pangu

open Go

/-- `panguSigner`, with its chain id and twice it; the ECDSA algorithm it holds
has no state. -/
structure PanguSigner where
  chainId : Int
  chainIdMul : Int

/-- `NewPanguSigner(chainId)`: a nil chain id is zero. -/
def newPanguSigner (chainId : Option Int) : PanguSigner :=
  let chainId := chainId.getD 0
  ⟨chainId, chainId * 2⟩

/-- `SIG_ECDSA`. -/
def SIG_ECDSA : UInt8 := 0

def errInvalidChainId : String := "invalid chain id for signer"
def errInvalidSigAlgo : String := "invalid signature algorithm"
def errInvalidSig : String := "invalid transaction signature values"

namespace PanguSigner

/-- `ChainID()`. -/
def chainID (s : PanguSigner) : Int := s.chainId

/-- The elements of the list `Hash` encodes, once the getters have returned. -/
def sigFields (s : PanguSigner) (tx : Transaction) (tip fee v : Int) : List GoValue :=
  [.bigIntPtr (some s.chainId), .uint tx.nonce.toNat, .bigIntPtr (some tip), .bigIntPtr (some fee),
    .uint tx.gasLimit.toNat, addressPtrValue tx.toAddr, .bigIntPtr (some v), .bytes tx.data,
    .bytes tx.encContent]

/-- The `[]interface{}` that `Hash` encodes. The getters that copy a
`*big.Int` run first and panic on a nil one. -/
def sigHashList (s : PanguSigner) (tx : Transaction) : Go GoValue := do
  let tip ← tx.gasTipCap
  let fee ← tx.gasFeeCap
  let v ← tx.value
  .ok (.slice .iface ((s.sigFields tx tip fee v).map fun x => .iface (some x)))

/-- The bytes `Hash(tx)` writes to the hasher. -/
def hashInput (s : PanguSigner) (tx : Transaction) : Go Bytes := do
  let l ← s.sigHashList tx
  .ok (prefixedRlpInput tx.type l)

/-- `Hash(tx)`. -/
def hash (keccak256 : Bytes → Hash) (s : PanguSigner) (tx : Transaction) : Go Hash :=
  (s.hashInput tx).map keccak256

end PanguSigner

/-! ## Sender recovery -/

/-- `crypto.ValidateSignatureValues(v, r, s, homestead)`. -/
def validateSignatureValues (v : UInt8) (r s : Nat) (homestead : Bool) : Bool :=
  let secp256k1N : Nat := 0xfffffffffffffffffffffffffffffffebaaedce6af48a03bbfd25e8cd0364141
  if r < 1 || s < 1 then false
  else if homestead && s > secp256k1N / 2 then false
  else r < secp256k1N && s < secp256k1N && (v == 0 || v == 1)

/-- `ECDSA_Sig.DecodeSignature(sig)`: `r`, `s` and the recovery byte, or a
panic on a signature that is not 65 bytes long. The recovery byte goes through
`+ 27` and back, which cancels in byte arithmetic. -/
def decodeSignature (sig : Bytes) : Go (Nat × Nat × UInt8) :=
  if h : sig.length = 65 then
    .ok (ofBytes (sig.take 32), ofBytes ((sig.drop 32).take 32), sig.get ⟨64, by omega⟩)
  else
    let got := sig.length
    Go.panic s!"wrong size for signature: got {got}, want 65"

/-- `ECDSA_Sig.RecoverPlain(sighash, R, S, V, homestead)`: the address is the
last 20 bytes of the Keccak hash of the recovered key without its `0x04` tag. -/
def recoverPlain (crypto : Crypto) (sighash : Hash) (r s : Nat) (v : UInt8) (homestead : Bool) :
    Except String Address :=
  if !validateSignatureValues v r s homestead then .error errInvalidSig
  else
    match crypto.ecrecover sighash (beBytes r 32 ++ beBytes s 32 ++ [v]) with
    | .error e => .error e
    | .ok pub =>
      if pub.head? ≠ some 4 then .error "invalid public key"
      else .ok ((crypto.keccak256 pub.tail).setWidth 160)

/-- `panguSigner.Sender(tx)`: the signature is decoded before the chain id is
compared, so a short signature panics whatever the chain id; `Cmp` on a nil
chain id panics too. -/
def PanguSigner.sender (crypto : Crypto) (s : PanguSigner) (tx : Transaction) :
    Go (Except String Address) :=
  if tx.sigAlgo = SIG_ECDSA then do
    let (r, sv, v) ← decodeSignature tx.rawSigValues
    let c ← bigSet tx.chainId
    if c ≠ s.chainId then
      let want := s.chainId
      .ok (.error s!"{errInvalidChainId}: have {c} want {want}")
    else do
      let h ← s.hash crypto.keccak256 tx
      .ok (recoverPlain crypto h r sv v true)
  else .ok (.error errInvalidSigAlgo)

/-! ## Signing -/

/-- `LatestSignerForChainID(chainID)`. -/
def latestSignerForChainID (chainID : Option Int) : PanguSigner := newPanguSigner chainID

/-- The secp256k1 operations of the `crypto` package that signing calls, over a
type of private keys. They are outside `src/`, so a model takes them as
parameters. -/
structure Secp256k1 (Key : Type) where
  /-- `crypto.ToECDSA(d)`. -/
  toECDSA : Bytes → Except String Key
  /-- `crypto.Sign(hash, k)`: `[R || S || V]`. -/
  sign : Hash → Key → Except String Bytes
  /-- `crypto.FromECDSAPub(&k.PublicKey)`: the uncompressed public key. -/
  fromECDSAPub : Key → Bytes

/-- `crypto.PubkeyToAddress(k.PublicKey)`: the last 20 bytes of the Keccak hash
of the public key without its tag. -/
def pubkeyToAddress {Key : Type} (crypto : Crypto) (ec : Secp256k1 Key) (k : Key) : Address :=
  (crypto.keccak256 (ec.fromECDSAPub k).tail).setWidth 160

/-- `SignNewTx(txdata, s, prv, algo)`: the hash is taken of `NewTx(txdata)`,
before the algorithm is looked at, and `WithSignature` copies that transaction
again. The outer `Go` carries a panic (a nil access list in `copy`), the inner
`Except` the error returned. -/
def signNewTx {Key : Type} (crypto : Crypto) (ec : Secp256k1 Key) (txdata : PanguTransaction)
    (s : PanguSigner) (prv : Bytes) (algo : UInt8) : Go (Except String Transaction) := do
  let tx ← Transaction.newTx txdata
  let h ← s.hash crypto.keccak256 tx
  if algo = SIG_ECDSA then
    match ec.toECDSA prv with
    | .error e => .ok (.error e)
    | .ok k =>
      match ec.sign h k with
      | .error e => .ok (.error e)
      | .ok sig => do
        let t ← tx.withSignature s.chainID sig algo
        .ok (.ok t)
  else .ok (.error errInvalidSigAlgo)

/-! ## A cryptography to run the model on -/

/-- Cryptography that can be computed, to run the model on fixed inputs: the
hash of bytes is their last 32 bytes read as a number, and recovery gives back
the signature's `r` and `s` as the key, behind its `0x04` tag. A signature
with `s = a` is then recovered as the sender `a` (`byteSignature`). -/
def byteCrypto : Crypto := ⟨fun bs => (ofBytes bs : Hash), fun _ sig => .ok (4 :: sig.take 64)⟩

/-- The signature `r = 1`, `s = a`, `v = 0`, which `byteCrypto` recovers as `a`. -/
def byteSignature (a : Address) : Bytes := beBytes 1 32 ++ beBytes a.toNat 32 ++ [0]

/-! ## What the signing hash binds -/

namespace PanguSigner

/-- The item of a non-negative integer: its minimal big-endian bytes. -/
def natItem (n : Nat) : Rlp.Item := .bytes (Rlp.toBE n)

/-- The item of a `*common.Address`. -/
def addressItem : Option Address → Rlp.Item
  | none => .bytes []
  | some a => .bytes a.bytes

/-- The items of the signing list. -/
def sigItems (s : PanguSigner) (tx : Transaction) (tip fee v : Int) : List Rlp.Item :=
  [natItem s.chainId.toNat, natItem tx.nonce.toNat, natItem tip.toNat, natItem fee.toNat,
    natItem tx.gasLimit.toNat, addressItem tx.toAddr, natItem v.toNat, .bytes tx.data,
    .bytes tx.encContent]

theorem writeValue_bigIntPtr {v : Int} (h : 0 ≤ v) :
    writeValue (.bigIntPtr (some v)) = .ok (natItem v.toNat) := by
  simp [writeValue, natItem, Int.not_lt.mpr h]

theorem writeValue_addressPtrValue (a : Option Address) :
    writeValue (addressPtrValue a) = .ok (addressItem a) := by
  cases a <;> rfl

theorem writeValues_sigFields {s : PanguSigner} {tx : Transaction} {tip fee v : Int}
    (hc : 0 ≤ s.chainId) (htip : 0 ≤ tip) (hfee : 0 ≤ fee) (hv : 0 ≤ v) :
    writeValues ((s.sigFields tx tip fee v).map fun x => .iface (some x)) =
      .ok (s.sigItems tx tip fee v) := by
  simp only [sigFields, List.map_cons, List.map_nil, writeValues_cons, writeValues_nil,
    writeValue_iface_some, GoValue.type, makeWriter_uint, makeWriter_bytes, makeWriter_bigIntPtr,
    Go.ok_bind,
    writeValue_bigIntPtr hc, writeValue_bigIntPtr htip, writeValue_bigIntPtr hfee,
    writeValue_bigIntPtr hv, writeValue_addressPtrValue]
  rfl

/-- The signing hash is taken of the type byte and the encoded list of items. -/
theorem hashInput_eq {s : PanguSigner} {tx : Transaction} {tip fee v : Int}
    (htip : tx.inner.tipCap = some tip) (hfee : tx.inner.feeCap = some fee)
    (hval : tx.inner.value = some v) (hc : 0 ≤ s.chainId) (htip' : 0 ≤ tip) (hfee' : 0 ≤ fee)
    (hv : 0 ≤ v) :
    s.hashInput tx = .ok (PanguTxType :: Rlp.encode (.list (s.sigItems tx tip fee v))) := by
  have hl : s.sigHashList tx =
      .ok (.slice .iface ((s.sigFields tx tip fee v).map fun x => .iface (some x))) := by
    simp [sigHashList, Transaction.gasTipCap, Transaction.gasFeeCap, Transaction.value, htip, hfee,
      hval, bigSet]
  have he : rlpEncode (.slice .iface ((s.sigFields tx tip fee v).map fun x => .iface (some x))) =
      .ok (Rlp.encode (.list (s.sigItems tx tip fee v))) := by
    simp only [rlpEncode, GoValue.type, writeValue, writeValues_sigFields hc htip' hfee' hv]; rfl
  simp only [hashInput, hl, Go.ok_bind, prefixedRlpInput, he]; rfl

theorem natItem_inj {m n : Nat} (h : natItem m = natItem n) : m = n :=
  Rlp.toBE_injective (Rlp.Item.bytes.inj h)

theorem intItem_inj {a b : Int} (ha : 0 ≤ a) (hb : 0 ≤ b) (h : natItem a.toNat = natItem b.toNat) :
    a = b := by
  have := natItem_inj h
  omega

theorem addressItem_inj {a b : Option Address} (h : addressItem a = addressItem b) : a = b := by
  cases a with
  | none =>
    cases b with
    | none => rfl
    | some b =>
      have := congrArg List.length (Rlp.Item.bytes.inj h)
      simp [Address.bytes] at this
  | some a =>
    cases b with
    | none =>
      have := congrArg List.length (Rlp.Item.bytes.inj h)
      simp [Address.bytes] at this
    | some b => exact congrArg some (Address.bytes_injective (Rlp.Item.bytes.inj h))

/-- What a signing hash can be taken for: a chain id, caps and value that are
set and non-negative, as the pool requires of the latter. -/
structure Signable (s : PanguSigner) (tx : Transaction) : Prop where
  chainId_nonneg : 0 ≤ s.chainId
  tipCap : ∃ v, tx.inner.tipCap = some v ∧ 0 ≤ v
  feeCap : ∃ v, tx.inner.feeCap = some v ∧ 0 ≤ v
  value : ∃ v, tx.inner.value = some v ∧ 0 ≤ v

/-- The signing hash reads a transaction only through the fields it lists. -/
theorem hashInput_congr (s : PanguSigner) {t₁ t₂ : Transaction} (hn : t₁.nonce = t₂.nonce)
    (ht : t₁.inner.tipCap = t₂.inner.tipCap) (hf : t₁.inner.feeCap = t₂.inner.feeCap)
    (hg : t₁.gasLimit = t₂.gasLimit) (hto : t₁.toAddr = t₂.toAddr)
    (hv : t₁.inner.value = t₂.inner.value) (hd : t₁.data = t₂.data)
    (he : t₁.encContent = t₂.encContent) :
    s.hashInput t₁ = s.hashInput t₂ := by
  simp only [hashInput, sigHashList, sigFields, Transaction.gasTipCap, Transaction.gasFeeCap,
    Transaction.value, Transaction.type, hn, ht, hf, hg, hto, hv, hd, he]

/-- `Sender` reads a transaction only through its signing-hash input, the
algorithm, the signature and the chain id. -/
theorem sender_congr (crypto : Crypto) (s : PanguSigner) {t₁ t₂ : Transaction}
    (ha : t₁.sigAlgo = t₂.sigAlgo) (hr : t₁.rawSigValues = t₂.rawSigValues)
    (hc : t₁.chainId = t₂.chainId) (hh : s.hashInput t₁ = s.hashInput t₂) :
    s.sender crypto t₁ = s.sender crypto t₂ := by
  simp only [PanguSigner.sender, hash, ha, hr, hc, hh]

/-- Two transactions that differ in their access list, VM type and encryption
algorithm only have one signing hash and one sender: `Sender` reads none of them. -/
theorem sender_of_unsigned_fields (crypto : Crypto) (s : PanguSigner) {t₁ t₂ : Transaction}
    (hsame : t₂.inner =
      { t₁.inner with accessList := t₂.inner.accessList, vmType := t₂.inner.vmType, encAlgo := t₂.inner.encAlgo }) :
    s.sender crypto t₁ = s.sender crypto t₂ := by
  obtain ⟨inner₂, c₂⟩ := t₂
  dsimp only at hsame
  rw [hsame]
  -- every field the two read is one that `hsame` keeps
  exact sender_congr crypto s rfl rfl rfl (hashInput_congr s rfl rfl rfl rfl rfl rfl rfl rfl)

/-- Equal signing-hash inputs give equal signed fields: the nonce, both caps,
the gas limit, the recipient, the value, the data and `EncContent`; and the
access list, the VM type and the encryption algorithm, outside the signed list,
can change with the sender unchanged. -/
theorem hashInput_binds {s : PanguSigner} {t₁ t₂ : Transaction} (h₁ : s.Signable t₁)
    (h₂ : s.Signable t₂) (hfit : ∀ bs, s.hashInput t₁ = .ok bs → bs.length ≤ 2 ^ 64)
    (h : s.hashInput t₁ = s.hashInput t₂) :
    (t₁.nonce = t₂.nonce ∧ t₁.inner.tipCap = t₂.inner.tipCap ∧ t₁.inner.feeCap = t₂.inner.feeCap ∧
      t₁.gasLimit = t₂.gasLimit ∧ t₁.toAddr = t₂.toAddr ∧ t₁.inner.value = t₂.inner.value ∧
      t₁.data = t₂.data ∧ t₁.encContent = t₂.encContent) ∧
    (t₂.inner =
        { t₁.inner with accessList := t₂.inner.accessList, vmType := t₂.inner.vmType, encAlgo := t₂.inner.encAlgo } →
      ∀ crypto, s.sender crypto t₁ = s.sender crypto t₂) := by
  refine ⟨?_, fun hsame crypto => sender_of_unsigned_fields crypto s hsame⟩
  obtain ⟨tip₁, ht₁, ht₁'⟩ := h₁.tipCap
  obtain ⟨fee₁, hf₁, hf₁'⟩ := h₁.feeCap
  obtain ⟨v₁, hv₁, hv₁'⟩ := h₁.value
  obtain ⟨tip₂, ht₂, ht₂'⟩ := h₂.tipCap
  obtain ⟨fee₂, hf₂, hf₂'⟩ := h₂.feeCap
  obtain ⟨v₂, hv₂, hv₂'⟩ := h₂.value
  have e₁ := hashInput_eq ht₁ hf₁ hv₁ h₁.chainId_nonneg ht₁' hf₁' hv₁'
  have e₂ := hashInput_eq ht₂ hf₂ hv₂ h₁.chainId_nonneg ht₂' hf₂' hv₂'
  have hlen := hfit _ e₁
  rw [e₁, e₂] at h
  -- past the type byte, the two inputs are one RLP encoding, which is injective
  have henc := (List.cons.inj (Except.ok.inj h)).2
  have hl₁ : (Rlp.encode (.list (s.sigItems t₁ tip₁ fee₁ v₁))).length < 2 ^ 64 := by
    simp only [List.length_cons] at hlen; omega
  have hl₂ : (Rlp.encode (.list (s.sigItems t₂ tip₂ fee₂ v₂))).length < 2 ^ 64 := henc ▸ hl₁
  have hitems := Rlp.Item.list.inj (Rlp.encode_injective hl₁ hl₂ henc)
  simp only [sigItems, List.cons.injEq] at hitems
  obtain ⟨-, hn, htip, hfee, hg, hto, hv, hd, he, -⟩ := hitems
  refine ⟨UInt64.toNat_inj.mp (natItem_inj hn), ?_, ?_, UInt64.toNat_inj.mp (natItem_inj hg),
    addressItem_inj hto, ?_, Rlp.Item.bytes.inj hd, Rlp.Item.bytes.inj he⟩
  · rw [ht₁, ht₂, intItem_inj ht₁' ht₂' htip]
  · rw [hf₁, hf₂, intItem_inj hf₁' hf₂' hfee]
  · rw [hv₁, hv₂, intItem_inj hv₁' hv₂' hv]

theorem signable_sampleCall (al : Option AccessList) : (newPanguSigner none).Signable (sampleCall 0 al) :=
  ⟨le_refl _, ⟨0, rfl, le_refl _⟩, ⟨0, rfl, le_refl _⟩, ⟨0, rfl, le_refl _⟩⟩

theorem hashInput_sampleCall (al : Option AccessList) :
    (newPanguSigner none).hashInput (sampleCall 0 al) =
      .ok (PanguTxType :: Rlp.encode (.list (List.replicate 9 (.bytes [])))) := by
  rw [hashInput_eq rfl rfl rfl (le_refl _) (le_refl _) (le_refl _) (le_refl _)]
  rfl

theorem hashInput_binds_sampleCall :
    (newPanguSigner none).Signable (sampleCall 0 none) ∧
      (newPanguSigner none).Signable (sampleCall 0 (some .newAccessList)) ∧
      (∀ bs, (newPanguSigner none).hashInput (sampleCall 0 none) = .ok bs → bs.length ≤ 2 ^ 64) ∧
      (newPanguSigner none).hashInput (sampleCall 0 none) =
        (newPanguSigner none).hashInput (sampleCall 0 (some .newAccessList)) ∧
      ((sampleCall 0 none).nonce = (sampleCall 0 (some .newAccessList)).nonce ∧
        (sampleCall 0 none).inner.tipCap = (sampleCall 0 (some .newAccessList)).inner.tipCap ∧
        (sampleCall 0 none).inner.feeCap = (sampleCall 0 (some .newAccessList)).inner.feeCap ∧
        (sampleCall 0 none).gasLimit = (sampleCall 0 (some .newAccessList)).gasLimit ∧
        (sampleCall 0 none).toAddr = (sampleCall 0 (some .newAccessList)).toAddr ∧
        (sampleCall 0 none).inner.value = (sampleCall 0 (some .newAccessList)).inner.value ∧
        (sampleCall 0 none).data = (sampleCall 0 (some .newAccessList)).data ∧
        (sampleCall 0 none).encContent = (sampleCall 0 (some .newAccessList)).encContent) ∧
      (newPanguSigner none).sender byteCrypto (sampleCall 0 none) =
        (newPanguSigner none).sender byteCrypto (sampleCall 0 (some .newAccessList)) := by
  have hfit : ∀ bs, (newPanguSigner none).hashInput (sampleCall 0 none) = .ok bs →
      bs.length ≤ 2 ^ 64 := by
    intro bs hbs
    rw [hashInput_sampleCall] at hbs
    cases hbs
    decide
  have heq : (newPanguSigner none).hashInput (sampleCall 0 none) =
      (newPanguSigner none).hashInput (sampleCall 0 (some .newAccessList)) :=
    hashInput_congr _ rfl rfl rfl rfl rfl rfl rfl rfl
  have hbinds := hashInput_binds (signable_sampleCall _) (signable_sampleCall _) hfit heq
  exact ⟨signable_sampleCall _, signable_sampleCall _, hfit, heq, hbinds.1, hbinds.2 rfl byteCrypto⟩

/-- Two transactions that differ in their access list only have one signing hash. -/
theorem hashInput_ignores_accessList :
    (newPanguSigner none).hashInput (sampleCall 0 none) =
        (newPanguSigner none).hashInput (sampleCall 0 (some .newAccessList)) ∧
      (sampleCall 0 none).accessList ≠ (sampleCall 0 (some .newAccessList)).accessList := by
  refine ⟨hashInput_congr _ rfl rfl rfl rfl rfl rfl rfl rfl, ?_⟩
  simp [sampleCall, Transaction.accessList]

end PanguSigner

end Pangu
