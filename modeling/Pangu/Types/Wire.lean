import Pangu.Types.Json
import Pangu.Types.Signer

/-!
# Signed transactions on the wire

`SignNewTx` signs the hash `panguSigner.Hash` takes of `NewTx(txdata)`, a copy
of the data, and `WithSignature` copies that transaction once more before it
stores the signature and the signer's chain id. A copy of a copy is the copy,
and the signing hash reads none of what `WithSignature` sets, so `Sender`
hashes the signed transaction to the very hash that was signed and recovers
the signer's address, as long as secp256k1's recovery inverts its signing
(`Secp256k1.Inverse`). `MarshalBinary` writes the type byte and the JSON text
of the inner data; `UnmarshalBinary` reads it back (`Types/Json.lean`), when
`*big.Int`'s JSON and base64 read back what they write (`JsonCodecs.RoundTrip`),
with its maps in normal form, the same Go value. The signing hash reads none of
the access list but whether there is one, so the hash and the sender stay.

* `copy_copy`, `newTx_eq`, `withSignature_eq`: the two copies;
* `decodeSignature_eq`, `recoverPlain_of_valid`: recovery of a signature
  `[R || S || V]` whose values pass the check;
* `sender_signed`: the signed copy's sender is the key's address;
* `unmarshalBinary_marshalBinary`: the wire round trip;
* `signNewTx_survives_wire`: a signed transaction, and what is read back from
  its encoding, carry the signer's address, the data and the hash.
-/

namespace Pangu

open Go

/-! ## Copies -/

namespace PanguTransaction

/-- A copy copies to itself: its integers are set and the fields `copy` drops
are already zero. -/
theorem copy_copy {tx c : PanguTransaction} (h : tx.copy = .ok c) : c.copy = .ok c := by
  unfold copy at h
  split at h
  · cases h
  · cases h
    rfl

theorem copy_of_accessList {tx : PanguTransaction} {al : AccessList} (h : tx.accessList = some al) :
    ∃ c, tx.copy = .ok c := by
  simp [copy, h]

end PanguTransaction

namespace Transaction

theorem newTx_eq {d c : PanguTransaction} (h : d.copy = .ok c) : newTx d = .ok ⟨c, none⟩ := by
  simp [newTx, h]

theorem withSignature_eq {c : PanguTransaction} {cachedSize : Option UInt64} (h : c.copy = .ok c)
    (chainID : Int) (sig : Bytes) (sigAlgo : UInt8) :
    (⟨c, cachedSize⟩ : Transaction).withSignature chainID sig sigAlgo =
      .ok ⟨{ c with chainID := some chainID, sigAlgo := sigAlgo, signature := sig }, none⟩ := by
  simp [withSignature, h]

end Transaction

/-- A copy has its caps and value set, so the signing hash of it is taken. -/
theorem PanguSigner.hash_of_copy (s : PanguSigner) (keccak256 : Bytes → Hash) {d c : PanguTransaction}
    (hc : d.copy = .ok c) : ∃ h, s.hash keccak256 ⟨c, none⟩ = .ok h := by
  unfold PanguTransaction.copy at hc
  split at hc
  · cases hc
  · cases hc
    exact ⟨_, rfl⟩

/-! ## Recovery -/

/-- What recovery needs of secp256k1: `Sign` gives, for every hash and key,
`[R || S || V]` with values that pass the homestead check (it gives the lower
`s`), and `Ecrecover` of the hash and that signature gives the key's
uncompressed public key, tagged `0x04`. -/
structure Secp256k1.Inverse {Key : Type} (ec : Secp256k1 Key) (crypto : Crypto) : Prop where
  sign_eq : ∀ h k, ∃ r s v, ec.sign h k = .ok (beBytes r 32 ++ beBytes s 32 ++ [v]) ∧
    validateSignatureValues v r s true
  ecrecover_sign : ∀ h k sig, ec.sign h k = .ok sig → crypto.ecrecover h sig = .ok (ec.fromECDSAPub k)
  fromECDSAPub_head : ∀ k, (ec.fromECDSAPub k).head? = some 4

theorem lt_of_validateSignatureValues {v : UInt8} {r s : Nat} {homestead : Bool}
    (h : validateSignatureValues v r s homestead = true) : r < 2 ^ 256 ∧ s < 2 ^ 256 := by
  dsimp only [validateSignatureValues] at h
  split at h
  · cases h
  split at h
  · cases h
  simp only [Bool.and_eq_true, decide_eq_true_eq] at h
  omega

theorem decodeSignature_eq {r s : Nat} (hr : r < 2 ^ 256) (hs : s < 2 ^ 256) (v : UInt8) :
    decodeSignature (beBytes r 32 ++ beBytes s 32 ++ [v]) = .ok (r, s, v) := by
  have hlen : (beBytes r 32 ++ beBytes s 32 ++ [v]).length = 65 := by simp
  rw [decodeSignature, dif_pos hlen]
  simp only [List.append_assoc, List.take_left' (length_beBytes r 32), List.drop_left' (length_beBytes r 32),
    ofBytes_beBytes]
  rw [Nat.mod_eq_of_lt (by omega : r < 256 ^ 32)]
  simp only [List.take_left' (length_beBytes s 32), ofBytes_beBytes, Except.ok.injEq, Prod.mk.injEq, true_and]
  refine ⟨Nat.mod_eq_of_lt (by omega), ?_⟩
  simp [List.getElem_append_right]

theorem recoverPlain_of_valid {crypto : Crypto} {h : Hash} {r s : Nat} {v : UInt8} {pub : Bytes}
    (hv : validateSignatureValues v r s true = true)
    (he : crypto.ecrecover h (beBytes r 32 ++ beBytes s 32 ++ [v]) = .ok pub) (hpub : pub.head? = some 4) :
    recoverPlain crypto h r s v true = .ok ((crypto.keccak256 pub.tail).setWidth 160) := by
  rw [recoverPlain, if_neg (by simp [hv]), he]
  simp [hpub]

/-- The sender of a transaction that carries a signature of its signing hash and
the signer's chain id is the address of the key that signed. -/
theorem sender_signed {Key : Type} {crypto : Crypto} {ec : Secp256k1 Key} (hec : ec.Inverse crypto)
    {s : PanguSigner} {c : PanguTransaction} {cachedSize : Option UInt64} {h : Hash} {k : Key} {r sv : Nat}
    {v : UInt8} (hh : s.hash crypto.keccak256 ⟨c, none⟩ = .ok h)
    (hsig : ec.sign h k = .ok (beBytes r 32 ++ beBytes sv 32 ++ [v]))
    (hvalid : validateSignatureValues v r sv true = true) :
    s.sender crypto ⟨{ c with
      chainID := some s.chainID, sigAlgo := SIG_ECDSA, signature := beBytes r 32 ++ beBytes sv 32 ++ [v] }, cachedSize⟩ =
        .ok (.ok (pubkeyToAddress crypto ec k)) := by
  obtain ⟨hr, hs⟩ := lt_of_validateSignatureValues hvalid
  have hh' : s.hash crypto.keccak256 ⟨{ c with
      chainID := some s.chainID, sigAlgo := SIG_ECDSA, signature := beBytes r 32 ++ beBytes sv 32 ++ [v] }, cachedSize⟩ = .ok h := by
    rw [← hh, PanguSigner.hash, PanguSigner.hash]
    exact congrArg _ (PanguSigner.hashInput_congr s rfl rfl rfl rfl rfl rfl rfl rfl)
  simp only [PanguSigner.chainID] at hh'
  simp only [PanguSigner.sender, Transaction.sigAlgo, Transaction.rawSigValues, Transaction.chainId,
    ↓reduceIte, decodeSignature_eq hr hs, ok_bind, bigSet, PanguSigner.chainID, ne_eq, not_true_eq_false]
  rw [hh', ok_bind, recoverPlain_of_valid hvalid (hec.ecrecover_sign _ _ _ hsig) (hec.fromECDSAPub_head k)]
  rfl

/-! ## The wire -/

theorem PanguTransaction.copy_accessList {tx c : PanguTransaction} (h : tx.copy = .ok c) :
    c.accessList = tx.accessList := by
  unfold PanguTransaction.copy at h
  split at h
  · cases h
  · cases h
    rename_i al hal
    exact hal.symm

/-- What `UnmarshalBinary` reads back from `MarshalBinary`: the inner data, its
maps in normal form, and the length of the bytes as its size. -/
theorem unmarshalBinary_marshalBinary {codecs : JsonCodecs} (hcodecs : codecs.RoundTrip) (tx : Transaction)
    (hfit : ∀ al ∈ tx.inner.accessList, al.IntsFit) :
    Transaction.unmarshalBinary (decodeJson codecs) (tx.marshalBinary (encodeJson codecs)).1 =
      .ok ⟨tx.inner.normalize, some (tx.marshalBinary (encodeJson codecs)).1.length.toUInt64⟩ := by
  obtain ⟨json, henc, hdec⟩ := decodeJson_encodeJson hcodecs tx.inner hfit
  rw [Transaction.marshalBinary_of_ok henc]
  exact Transaction.unmarshalBinary_eq (by simp) hdec

/-- The hash reads only whether there is an access list, which the normal form
keeps. -/
theorem hash_normalize (keccak256 : Bytes → Hash) (tx : Transaction) (size : Option UInt64) :
    Transaction.hash keccak256 ⟨tx.inner.normalize, size⟩ = tx.hash keccak256 := by
  rw [Transaction.hash_eq, Transaction.hash_eq]
  simp only [Transaction.accessList, PanguTransaction.normalize]
  cases tx.inner.accessList <;> rfl

/-- `SignNewTx(d, LatestSignerForChainID(c), prv, SIG_ECDSA)` returns a transaction
whose sender is the address of the key, and `UnmarshalBinary(MarshalBinary(t))`
gives a transaction with that data, entry for entry, that hash and that
sender. -/
theorem signNewTx_survives_wire {Key : Type} (crypto : Crypto) (ec : Secp256k1 Key) (hec : ec.Inverse crypto)
    {codecs : JsonCodecs} (hcodecs : codecs.RoundTrip) {d : PanguTransaction} {al : AccessList}
    (hal : d.accessList = some al) (hfit : al.IntsFit) (c : Option Int) {prv : Bytes} {k : Key}
    (hk : ec.toECDSA prv = .ok k) :
    ∃ t, signNewTx crypto ec d (latestSignerForChainID c) prv SIG_ECDSA = .ok (.ok t) ∧
      (latestSignerForChainID c).sender crypto t = .ok (.ok (pubkeyToAddress crypto ec k)) ∧
      ∃ t₂, Transaction.unmarshalBinary (decodeJson codecs) (t.marshalBinary (encodeJson codecs)).1 = .ok t₂ ∧
        t₂.inner = t.inner.normalize ∧ t₂.inner.SameData t.inner ∧
        t₂.hash crypto.keccak256 = t.hash crypto.keccak256 ∧
        (latestSignerForChainID c).sender crypto t₂ = .ok (.ok (pubkeyToAddress crypto ec k)) := by
  obtain ⟨c₀, hc⟩ := PanguTransaction.copy_of_accessList hal
  have hc₀ : c₀.accessList = some al := (PanguTransaction.copy_accessList hc).trans hal
  obtain ⟨h, hh⟩ := PanguSigner.hash_of_copy (latestSignerForChainID c) crypto.keccak256 hc
  obtain ⟨r, sv, v, hsig, hvalid⟩ := hec.sign_eq h k
  refine ⟨⟨{ c₀ with
      chainID := some (latestSignerForChainID c).chainID, sigAlgo := SIG_ECDSA,
      signature := beBytes r 32 ++ beBytes sv 32 ++ [v] }, none⟩, ?_, sender_signed hec hh hsig hvalid,
    _, unmarshalBinary_marshalBinary hcodecs _ ?_, rfl, sameData_normalize _, hash_normalize _ _ _, ?_⟩
  · simp only [signNewTx, Transaction.newTx_eq hc, ok_bind, hh, ↓reduceIte, hk, hsig,
      Transaction.withSignature_eq (PanguTransaction.copy_copy hc)]
  · -- the signed copy carries the access list of `d`
    intro al' hal'
    have : al' = al := by simpa [hc₀] using hal'.symm
    exact this ▸ hfit
  · -- the normal form changes the access list only, which `Sender` does not read
    exact (PanguSigner.sender_of_unsigned_fields crypto _ rfl).symm.trans
      (@sender_signed _ _ _ hec _ _ none _ _ _ _ _ hh hsig hvalid)

/-! ## A signature scheme to run the model on -/

/-- Keys that are addresses: `Sign` gives `r = 1` and `s` one more than the
key, and the public key is `0x04` and the two, which `byteCrypto` recovers. -/
def byteSecp256k1 : Secp256k1 Address where
  toECDSA bs := .ok (BitVec.ofNat 160 (ofBytes bs))
  sign _ a := .ok (beBytes 1 32 ++ beBytes (a.toNat + 1) 32 ++ [0])
  fromECDSAPub a := 4 :: (beBytes 1 32 ++ beBytes (a.toNat + 1) 32)

theorem byteSecp256k1_inverse : byteSecp256k1.Inverse byteCrypto where
  sign_eq _ a := by
    refine ⟨1, a.toNat + 1, 0, rfl, ?_⟩
    have ha := a.isLt
    dsimp only [validateSignatureValues]
    rw [if_neg (by simp), if_neg (by simp; omega)]
    simp only [Bool.and_eq_true, decide_eq_true_eq]
    exact ⟨⟨by omega, by omega⟩, by decide⟩
  ecrecover_sign _ a sig h := by
    cases h
    simp only [byteCrypto, byteSecp256k1]
    rw [List.take_left' (by simp)]
  fromECDSAPub_head _ := rfl

theorem intsFit_newAccessList : AccessList.newAccessList.IntsFit := by
  intro m hm e he
  simp [AccessList.newAccessList] at hm
  subst hm
  simp at he

/-- The zero transaction with an empty access list, signed for chain 7 by the
key `0xa1`, through `math/big`'s JSON and `StdEncoding`. -/
theorem signNewTx_survives_wire_zero :
    byteSecp256k1.Inverse byteCrypto ∧ stdCodecs.RoundTrip ∧
      ({ PanguTransaction.zero with accessList := some .newAccessList } : PanguTransaction).accessList =
        some .newAccessList ∧
      AccessList.newAccessList.IntsFit ∧ byteSecp256k1.toECDSA [0xa1] = .ok 0xa1 ∧
      ∃ t, signNewTx byteCrypto byteSecp256k1 { PanguTransaction.zero with accessList := some .newAccessList }
          (latestSignerForChainID (some 7)) [0xa1] SIG_ECDSA = .ok (.ok t) ∧
        (latestSignerForChainID (some 7)).sender byteCrypto t =
          .ok (.ok (pubkeyToAddress byteCrypto byteSecp256k1 0xa1)) ∧
        ∃ t₂, Transaction.unmarshalBinary (decodeJson stdCodecs) (t.marshalBinary (encodeJson stdCodecs)).1 =
            .ok t₂ ∧
          t₂.inner = t.inner.normalize ∧ t₂.inner.SameData t.inner ∧
          t₂.hash byteCrypto.keccak256 = t.hash byteCrypto.keccak256 ∧
          (latestSignerForChainID (some 7)).sender byteCrypto t₂ =
            .ok (.ok (pubkeyToAddress byteCrypto byteSecp256k1 0xa1)) :=
  ⟨byteSecp256k1_inverse, stdCodecs_roundTrip, rfl, intsFit_newAccessList, rfl,
    signNewTx_survives_wire byteCrypto byteSecp256k1 byteSecp256k1_inverse stdCodecs_roundTrip rfl
      intsFit_newAccessList (some 7) rfl⟩

end Pangu
