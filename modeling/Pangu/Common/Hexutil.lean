import Pangu.Common.Types
import Pangu.Lib.JsonDecode

/-!
# Addresses and hashes as hex text

`common.Address` and `common.Hash` write themselves as text with `MarshalText`,
that is `hexutil.Bytes(b[:]).MarshalText()`: `0x` and `hex.Encode` of the bytes.
They read themselves back from JSON with `UnmarshalJSON`, that is
`hexutil.UnmarshalFixedJSON`. It takes a string's text between its quotes as
it stands, and hands it to `UnmarshalFixedText`, which wants `0x` and exactly
two hex digits a byte (`common/types.go`, `common/hexutil/json.go`).

* `unmarshalFixedText_marshalText`: the text of `n` bytes reads back as them;
* `Address.unmarshalJSON_quote`, `Hash.unmarshalJSON_quote`: an address or a
  hash, written as a JSON string, reads back.
-/

namespace Pangu

open Go

/-! ## hexutil -/

/-- hexutil's errors: a `decError`, which `wrapTypeError` turns into an
`UnmarshalTypeError`, or another. -/
inductive HexError where
  | decError (msg : String)
  | other (msg : String)

def errSyntax : HexError := .decError "invalid hex string"
def errMissingPrefix : HexError := .decError "hex string without 0x prefix"
def errOddLength : HexError := .decError "hex string of odd length"

def bytesHave0xPrefix : Bytes → Bool
  | c :: x :: _ => c == 0x30 && (x == 0x78 || x == 0x58)
  | _ => false

/-- `checkText(input, wantPrefix)`: an empty text, or the digits after `0x`,
an even number of them. -/
def checkText (input : Bytes) (wantPrefix : Bool) : Except HexError Bytes :=
  if input = [] then .ok []
  else if !bytesHave0xPrefix input && wantPrefix then .error errMissingPrefix
  else
    let raw := if bytesHave0xPrefix input then input.drop 2 else input
    if raw.length % 2 ≠ 0 then .error errOddLength else .ok raw

/-- Two hex digits, `decodeNibble` of each, as one byte. -/
def hexByte (a b : UInt8) : Option UInt8 := do
  let x ← Json.hexValue a
  let y ← Json.hexValue b
  pure (x * 16 + y).toUInt8

/-- `hex.Decode` of digits: two a byte, the high one first. -/
def hexDecode : Bytes → Option Bytes
  | a :: b :: r =>
    match hexByte a b, hexDecode r with
    | some x, some rest => some (x :: rest)
    | _, _ => none
  | [] => some []
  | [_] => none

/-- `UnmarshalFixedText(typname, input, out)` for an `out` of `n` bytes. -/
def unmarshalFixedText (typname : String) (input : Bytes) (n : Nat) : Except HexError Bytes := do
  let raw ← checkText input true
  if raw.length / 2 ≠ n then
    let len := raw.length
    let want := n * 2
    throw (.other s!"hex string has length {len}, want {want} for {typname}")
  match hexDecode raw with
  | some out => pure out
  | none => throw errSyntax

/-- `isString(input)`: at least two bytes, a quote first and last. -/
def isString (input : Bytes) : Bool := input.length ≥ 2 && input.head? == some 0x22 && input.getLast? == some 0x22

/-- `wrapTypeError(err, typ)`. -/
def wrapTypeError (e : HexError) (typ : String) : String :=
  match e with
  | .decError msg => "json: cannot unmarshal " ++ msg ++ " into Go value of type " ++ typ
  | .other msg => msg

/-- `UnmarshalFixedJSON(typ, input, out)` for an `out` of `n` bytes: a string,
whose text between its quotes `UnmarshalFixedText` reads. -/
def unmarshalFixedJSON (typ : String) (input : Bytes) (n : Nat) : Except String Bytes :=
  if !isString input then .error ("json: cannot unmarshal non-string into Go value of type " ++ typ)
  else (unmarshalFixedText typ (input.drop 1).dropLast n).mapError fun e => wrapTypeError e typ

/-! ## Addresses and hashes -/

/-- `Address.MarshalText()`. -/
def Address.marshalText (a : Address) : Bytes := [0x30, 0x78] ++ hexEncode a.bytes

/-- `Address.UnmarshalJSON(input)`. -/
def Address.unmarshalJSON (input : Bytes) : Except String Address :=
  (fun b => BitVec.ofNat 160 (ofBytes b)) <$> unmarshalFixedJSON "common.Address" input 20

/-- `Hash.MarshalText()`. -/
def Hash.marshalText (h : Hash) : Bytes := [0x30, 0x78] ++ hexEncode h.bytes

/-- `Hash.UnmarshalJSON(input)`. -/
def Hash.unmarshalJSON (input : Bytes) : Except String Hash :=
  (fun b => BitVec.ofNat 256 (ofBytes b)) <$> unmarshalFixedJSON "common.Hash" input 32

/-! ## Reading back -/

theorem hexByte_hexDigit (b : UInt8) :
    hexByte (hexEncode.hexDigit (b >>> 4)) (hexEncode.hexDigit (b &&& 0xf)) = some b :=
  Json.forall_byte (P := fun b => hexByte (hexEncode.hexDigit (b >>> 4)) (hexEncode.hexDigit (b &&& 0xf)) = some b)
    (by decide +kernel) b

theorem hexEncode_cons (b : UInt8) (bs : Bytes) :
    hexEncode (b :: bs) = hexEncode.hexDigit (b >>> 4) :: hexEncode.hexDigit (b &&& 0xf) :: hexEncode bs := rfl

theorem hexDecode_hexEncode (bs : Bytes) : hexDecode (hexEncode bs) = some bs := by
  induction bs with
  | nil => rfl
  | cons b bs ih => rw [hexEncode_cons, hexDecode, hexByte_hexDigit, ih]

theorem length_hexEncode (bs : Bytes) : (hexEncode bs).length = 2 * bs.length := by
  induction bs with
  | nil => rfl
  | cons b bs ih =>
    rw [hexEncode_cons, List.length_cons, List.length_cons, ih, List.length_cons]
    omega

/-- The text `MarshalText` writes of `n` bytes reads back as them. -/
theorem unmarshalFixedText_marshalText (typname : String) (bs : Bytes) :
    unmarshalFixedText typname ([0x30, 0x78] ++ hexEncode bs) bs.length = .ok bs := by
  have hcheck : checkText ([0x30, 0x78] ++ hexEncode bs) true = .ok (hexEncode bs) := by
    simp [checkText, bytesHave0xPrefix, length_hexEncode]
  have hlen : (hexEncode bs).length / 2 = bs.length := by
    rw [length_hexEncode]
    omega
  rw [unmarshalFixedText, hcheck]
  simp only [bind, Except.bind, hlen, ne_eq, not_true_eq_false, if_false, hexDecode_hexEncode]
  rfl

/-- Both digits of a byte are written in a JSON string as they stand. -/
theorem flatMap_escapeByte_hexDigits (b : UInt8) :
    [hexEncode.hexDigit (b >>> 4), hexEncode.hexDigit (b &&& 0xf)].flatMap Json.escapeByte =
      [hexEncode.hexDigit (b >>> 4), hexEncode.hexDigit (b &&& 0xf)] :=
  Json.forall_byte (P := fun b => [hexEncode.hexDigit (b >>> 4), hexEncode.hexDigit (b &&& 0xf)].flatMap
    Json.escapeByte = [hexEncode.hexDigit (b >>> 4), hexEncode.hexDigit (b &&& 0xf)]) (by decide +kernel) b

theorem flatMap_escapeByte_hexEncode (bs : Bytes) : (hexEncode bs).flatMap Json.escapeByte = hexEncode bs := by
  induction bs with
  | nil => rfl
  | cons b bs ih =>
    have e : hexEncode (b :: bs) = [hexEncode.hexDigit (b >>> 4), hexEncode.hexDigit (b &&& 0xf)] ++ hexEncode bs :=
      rfl
    rw [e, List.flatMap_append, flatMap_escapeByte_hexDigits, ih]

/-- Hex text is written in a JSON string as it stands. -/
theorem flatMap_escapeByte_marshalText (bs : Bytes) :
    ([0x30, 0x78] ++ hexEncode bs).flatMap Json.escapeByte = [0x30, 0x78] ++ hexEncode bs := by
  rw [List.flatMap_append, flatMap_escapeByte_hexEncode]
  rfl

theorem isString_quote (s : Bytes) : isString (0x22 :: (s ++ [0x22])) = true := by
  have hlast : (0x22 :: (s ++ [0x22])).getLast? = some (0x22 : UInt8) := by
    rw [← List.cons_append, List.getLast?_concat]
  simp [isString, hlast]

/-- The text `MarshalText` writes of `n` bytes, as a JSON string, reads back as
them. -/
theorem unmarshalFixedJSON_quote (typ : String) (bs : Bytes) :
    unmarshalFixedJSON typ (Json.quote ([0x30, 0x78] ++ hexEncode bs)) bs.length = .ok bs := by
  rw [Json.quote, flatMap_escapeByte_marshalText, unmarshalFixedJSON]
  simp only [isString_quote, Bool.not_true, Bool.false_eq_true, if_false, List.drop_one, List.tail_cons,
    List.dropLast_concat, unmarshalFixedText_marshalText]
  rfl

/-- An address written as a JSON string reads back. -/
theorem Address.unmarshalJSON_quote (a : Address) : Address.unmarshalJSON (Json.quote a.marshalText) = .ok a := by
  have hlen : a.bytes.length = 20 := length_beBytes _ _
  rw [Address.unmarshalJSON, marshalText, ← hlen, unmarshalFixedJSON_quote]
  simp only [Functor.map, Except.map, Address.bytes, ofBytes_beBytes]
  congr 1
  apply BitVec.eq_of_toNat_eq
  simp [Nat.mod_eq_of_lt a.isLt]

/-- A hash written as a JSON string reads back. -/
theorem Hash.unmarshalJSON_quote (h : Hash) : Hash.unmarshalJSON (Json.quote h.marshalText) = .ok h := by
  have hlen : h.bytes.length = 32 := length_beBytes _ _
  rw [Hash.unmarshalJSON, marshalText, ← hlen, unmarshalFixedJSON_quote]
  simp only [Functor.map, Except.map, Hash.bytes, ofBytes_beBytes]
  congr 1
  apply BitVec.eq_of_toNat_eq
  simp [Nat.mod_eq_of_lt h.isLt]

end Pangu
