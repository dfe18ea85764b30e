import Pangu.Lib.Go

/-!
# Common types

`common.Address`, `common.Hash` and the 256-bit stack words of the EVM are bit
vectors, big-endian as their byte arrays are; byte slices are lists of bytes. A
`*big.Int` that may be nil is an `Option Int`. The gas constants are those of
`params/gas_params.go`, which `core/evm/params` repeats.
-/

namespace Pangu

/-- `common.Address`: 20 bytes. -/
abbrev Address := BitVec 160

/-- `common.Hash`: 32 bytes. -/
abbrev Hash := BitVec 256

/-- A byte slice. Go's `nil` and empty slices are not told apart: no function
modelled here distinguishes them. -/
abbrev Bytes := List UInt8

/-- The `n` big-endian bytes of `v`, the lowest last. -/
def beBytes (v n : Nat) : Bytes :=
  (List.range n).map fun i => (v / 256 ^ (n - 1 - i) % 256).toUInt8

/-- The number a big-endian byte string stands for. -/
def ofBytes (bs : Bytes) : Nat := bs.foldl (fun acc b => acc * 256 + b.toNat) 0

/-- `Address.Bytes()`. -/
def Address.bytes (a : Address) : Bytes := beBytes a.toNat 20

/-- `Hash.Bytes()`. -/
def Hash.bytes (h : Hash) : Bytes := beBytes h.toNat 32

@[simp] theorem length_beBytes (v n : Nat) : (beBytes v n).length = n := by simp [beBytes]

theorem beBytes_succ (v n : Nat) : beBytes v (n + 1) = beBytes (v / 256) n ++ [(v % 256).toUInt8] := by
  simp only [beBytes, List.range_succ, List.map_append, List.map_singleton, Nat.add_sub_cancel,
    Nat.sub_self, Nat.pow_zero, Nat.div_one]
  congr 1
  refine List.map_congr_left fun i hi => ?_
  have hi : i < n := List.mem_range.mp hi
  have hpow : 256 ^ (n - i) = 256 * 256 ^ (n - 1 - i) := by
    rw [← Nat.pow_succ']; congr 1; omega
  rw [hpow, Nat.div_div_eq_div_mul]

theorem ofBytes_append_single (bs : Bytes) (b : UInt8) : ofBytes (bs ++ [b]) = ofBytes bs * 256 + b.toNat := by
  simp [ofBytes, List.foldl_append]

theorem ofBytes_beBytes (v n : Nat) : ofBytes (beBytes v n) = v % 256 ^ n := by
  induction n generalizing v with
  | zero => simp [beBytes, ofBytes, Nat.mod_one]
  | succ n ih =>
    rw [beBytes_succ, ofBytes_append_single, ih, Nat.pow_succ', Nat.mod_mul]
    have : ((v % 256).toUInt8).toNat = v % 256 := by simp
    rw [this]; omega

theorem Address.bytes_injective {a b : Address} (h : a.bytes = b.bytes) : a = b := by
  have hv : a.toNat % 256 ^ 20 = b.toNat % 256 ^ 20 := by
    rw [← ofBytes_beBytes, ← ofBytes_beBytes]; exact congrArg ofBytes h
  have ha : a.toNat < 256 ^ 20 := a.isLt
  have hb : b.toNat < 256 ^ 20 := b.isLt
  rw [Nat.mod_eq_of_lt ha, Nat.mod_eq_of_lt hb] at hv
  exact BitVec.eq_of_toNat_eq hv

/-- `math.MaxUint64`. -/
def maxUint64 : UInt64 := 18446744073709551615

/-- The cryptography `src/` calls into and does not itself implement:
Keccak-256 (`golang.org/x/crypto/sha3`) and public-key recovery
(`crypto.Ecrecover`, over the vendored libsecp256k1), which returns the 65-byte
uncompressed key or an error. -/
structure Crypto where
  keccak256 : Bytes → Hash
  ecrecover : Hash → Bytes → Except String Bytes

/-! ## Hex text -/

/-- `hex.Encode`: two lower-case ASCII digits a byte, the high one first. -/
def hexEncode (bs : Bytes) : Bytes :=
  bs.flatMap fun (b : UInt8) => [hexDigit (b >>> 4), hexDigit (b &&& 0xf)]
where
  hexDigit (n : UInt8) : UInt8 := if n < 10 then 0x30 + n else 0x61 + (n - 10)

example : hexEncode [0xab, 0x09] = [0x61, 0x62, 0x30, 0x39] := by decide

/-- ASCII bytes as a string. -/
def asciiString (bs : Bytes) : String := String.ofList (bs.map fun b => Char.ofNat b.toNat)

/-- `Address.checksumHex()` (EIP-55): `0x` and the lower-case digits, with each
letter made upper case where the nibble of the Keccak-256 of the digits at its
place is above 7. -/
def Address.checksumHex (crypto : Crypto) (a : Address) : Bytes :=
  let digits := hexEncode a.bytes
  let hash := (crypto.keccak256 digits).bytes
  ([0x30, 0x78] : Bytes) ++ digits.mapIdx fun i c =>
    let hashByte := hash.getD (i / 2) 0
    let nibble := if i % 2 = 0 then hashByte >>> 4 else hashByte &&& 0xf
    if c > 0x39 && nibble > 7 then c - 32 else c

/-- `Address.Hex()`. -/
def Address.hex (crypto : Crypto) (a : Address) : String := asciiString (a.checksumHex crypto)

/-- `Hash.Format` for `%s` and `%v`: `0x` and the lower-case digits. -/
def Hash.hex (h : Hash) : String := asciiString ([0x30, 0x78] ++ hexEncode h.bytes)

/-- `big.Int.BitLen()`: the bits of the absolute value. -/
def bitLen (x : Int) : Nat := x.natAbs.size

/-! ## Gas and size constants -/

def TxGas : UInt64 := 21000
def TxGasContractCreation : UInt64 := 53000
def TxDataZeroGas : UInt64 := 4
def TxDataNonZeroGasFrontier : UInt64 := 68
def TxDataNonZeroGasEIP2028 : UInt64 := 16
def InitCodeWordGas : UInt64 := 2
def TxAccessListAddressGas : UInt64 := 2400
def TxAccessListStorageKeyGas : UInt64 := 1900
def MaxCodeSize : Nat := 24576
def MaxInitCodeSize : Nat := 2 * MaxCodeSize

end Pangu
