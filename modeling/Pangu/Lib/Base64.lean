import Pangu.Lib.Go

/-!
# Base64

`encoding/base64`'s `StdEncoding`, the encoding `encoding/json` writes a
`[]byte` in: the alphabet of RFC 4648 with `=` padding. `Encode` writes each
three bytes as four symbols of six bits and pads a last group of one or two.
`Decode` reads a quantum of four symbols at a time (`decodeQuantum`), skips
the line breaks `\r` and `\n` anywhere, takes padding only at the end of the
text, and reports the offset of the first byte it cannot take
(`CorruptInputError`). Its fast paths over eight and four symbols give what
`decodeQuantum` gives, and are not modelled apart.

* `value_symbol`: the alphabet read back;
* `decode_encode`: decoding gives back what was encoded.
-/

namespace Go

namespace Base64

/-- `encodeStd[n]`: the symbol of a six-bit value. -/
def symbol (n : Nat) : UInt8 :=
  if n < 26 then (n + 0x41).toUInt8
  else if n < 52 then (n - 26 + 0x61).toUInt8
  else if n < 62 then (n - 52 + 0x30).toUInt8
  else if n = 62 then 0x2b
  else 0x2f

/-- `decodeMap[c]`: the value of a symbol, none for any other byte. -/
def value (c : UInt8) : Option Nat :=
  if 0x41 ≤ c ∧ c ≤ 0x5a then some (c.toNat - 0x41)
  else if 0x61 ≤ c ∧ c ≤ 0x7a then some (c.toNat - 0x61 + 26)
  else if 0x30 ≤ c ∧ c ≤ 0x39 then some (c.toNat - 0x30 + 52)
  else if c = 0x2b then some 62
  else if c = 0x2f then some 63
  else none

/-- `StdPadding`, `=`. -/
def padChar : UInt8 := 0x3d

def isNewline (c : UInt8) : Bool := c == 0x0a || c == 0x0d

/-- `StdEncoding.Encode(dst, src)`. -/
def encode : List UInt8 → List UInt8
  | a :: b :: c :: r =>
    let val := a.toNat * 65536 + b.toNat * 256 + c.toNat
    symbol (val / 262144 % 64) :: symbol (val / 4096 % 64) :: symbol (val / 64 % 64) :: symbol (val % 64) ::
      encode r
  | [a, b] =>
    let val := a.toNat * 65536 + b.toNat * 256
    [symbol (val / 262144 % 64), symbol (val / 4096 % 64), symbol (val / 64 % 64), padChar]
  | [a] =>
    let val := a.toNat * 65536
    [symbol (val / 262144 % 64), symbol (val / 4096 % 64), padChar, padChar]
  | [] => []

/-- The bytes of a quantum of `j + 1` bytes, from its symbols' values `q`, the
missing ones zero. -/
def quantum (q : List Nat) : List UInt8 :=
  let val := q.foldl (fun acc v => acc * 64 + v) 0 * 64 ^ (4 - q.length)
  [(val / 65536 % 256).toUInt8, (val / 256 % 256).toUInt8, (val % 256).toUInt8].take (q.length - 1)

/-- What follows the padding of the last quantum: line breaks only, else the
offset of the first other byte ("trailing garbage"). -/
def afterPadding (si : Nat) (r : List UInt8) (q : List Nat) : Except Nat (List UInt8) :=
  match r.dropWhile isNewline with
  | [] => .ok (quantum q)
  | r' => .error (si + (r.length - r'.length))

/-- A `=` after the values `q` of a quantum, at the offset `si - 1`: two
symbols and `==`, or three and `=`, then the end of the text. -/
def padding (si : Nat) (q : List Nat) (r : List UInt8) : Except Nat (List UInt8) :=
  if q.length = 2 then
    match r.dropWhile isNewline with
    | [] => .error (si + r.length)
    | c :: r' =>
      let si' := si + (r.length - (c :: r').length)
      if c ≠ padChar then .error (si' - 1) else afterPadding (si' + 1) r' q
  else if q.length = 3 then afterPadding si r q
  else .error (si - 1)

/-- `Decode`'s loop over `decodeQuantum`, a byte at a time: `si` is the offset
of the next byte, `q` the values of the quantum read so far. -/
def decodeFrom (si : Nat) (q : List Nat) : List UInt8 → Except Nat (List UInt8)
  | [] => if q = [] then .ok [] else .error (si - q.length)
  | c :: r =>
    match value c with
    | some v =>
      if q.length = 3 then (quantum (q ++ [v]) ++ ·) <$> decodeFrom (si + 1) [] r
      else decodeFrom (si + 1) (q ++ [v]) r
    | none =>
      if isNewline c then decodeFrom (si + 1) q r
      else if c ≠ padChar then .error si
      else padding (si + 1) q r

/-- `StdEncoding.Decode(dst, src)`'s result and error. -/
def decode (src : List UInt8) : Except String (List UInt8) :=
  match decodeFrom 0 [] src with
  | .ok out => .ok out
  | .error n => .error ("illegal base64 data at input byte " ++ toString n)

/-! ## Reading back -/

theorem value_symbol {n : Nat} (h : n < 64) : value (symbol n) = some n := by
  have : ∀ m, m < 64 → value (symbol m) = some m := by decide
  exact this n h

theorem decodeFrom_symbol {n : Nat} (h : n < 64) (si : Nat) (q : List Nat) (hq : q.length ≠ 3) (r : List UInt8) :
    decodeFrom si q (symbol n :: r) = decodeFrom (si + 1) (q ++ [n]) r := by
  rw [decodeFrom, value_symbol h]
  simp [hq]

theorem toUInt8_of_eq {n : Nat} {a : UInt8} (h : n = a.toNat) : n.toUInt8 = a := by
  rw [h]
  exact UInt8.ofNat_toNat

theorem quantum_eq {q : List Nat} {val : Nat}
    (h : q.foldl (fun acc v => acc * 64 + v) 0 * 64 ^ (4 - q.length) = val) :
    quantum q = [(val / 65536 % 256).toUInt8, (val / 256 % 256).toUInt8, (val % 256).toUInt8].take (q.length - 1) := by
  simp only [quantum, h]

/-- Three bytes, as their four symbols' values. -/
theorem quantum_three {a b c : UInt8} {val : Nat} (hv : val = a.toNat * 65536 + b.toNat * 256 + c.toNat) :
    quantum [val / 262144 % 64, val / 4096 % 64, val / 64 % 64, val % 64] = [a, b, c] := by
  have ha := a.toNat_lt
  have hb := b.toNat_lt
  have hc := c.toNat_lt
  rw [@quantum_eq _ val (by simp; omega)]
  simp only [List.length_cons, List.length_nil, List.take_succ_cons, List.take_zero]
  rw [toUInt8_of_eq (by omega : val / 65536 % 256 = a.toNat), toUInt8_of_eq (by omega : val / 256 % 256 = b.toNat),
    toUInt8_of_eq (by omega : val % 256 = c.toNat)]

/-- Two bytes, as three symbols' values. -/
theorem quantum_two {a b : UInt8} {val : Nat} (hv : val = a.toNat * 65536 + b.toNat * 256) :
    quantum [val / 262144 % 64, val / 4096 % 64, val / 64 % 64] = [a, b] := by
  have ha := a.toNat_lt
  have hb := b.toNat_lt
  rw [@quantum_eq _ val (by simp; omega)]
  simp only [List.length_cons, List.length_nil, List.take_succ_cons, List.take_zero]
  rw [toUInt8_of_eq (by omega : val / 65536 % 256 = a.toNat), toUInt8_of_eq (by omega : val / 256 % 256 = b.toNat)]

/-- One byte, as two symbols' values. -/
theorem quantum_one {a : UInt8} {val : Nat} (hv : val = a.toNat * 65536) :
    quantum [val / 262144 % 64, val / 4096 % 64] = [a] := by
  have ha := a.toNat_lt
  rw [@quantum_eq _ val (by simp; omega)]
  simp only [List.length_cons, List.length_nil, List.take_succ_cons, List.take_zero]
  rw [toUInt8_of_eq (by omega : val / 65536 % 256 = a.toNat)]

theorem decode_encode_from (si : Nat) (bs : List UInt8) : decodeFrom si [] (encode bs) = .ok bs := by
  fun_induction encode bs generalizing si with
  | case1 a b c r val ih =>
    have hs : ∀ k, val / k % 64 < 64 := fun k => Nat.mod_lt _ (by omega)
    rw [decodeFrom_symbol (hs _) _ _ (by simp), decodeFrom_symbol (hs _) _ _ (by simp),
      decodeFrom_symbol (hs _) _ _ (by simp), decodeFrom, value_symbol (Nat.mod_lt _ (by omega))]
    simp only [List.nil_append, List.cons_append, List.length_cons, List.length_nil, if_true, ih]
    rw [quantum_three rfl]
    rfl
  | case2 a b val =>
    have hs : ∀ k, val / k % 64 < 64 := fun k => Nat.mod_lt _ (by omega)
    rw [decodeFrom_symbol (hs _) _ _ (by simp), decodeFrom_symbol (hs _) _ _ (by simp),
      decodeFrom_symbol (hs _) _ _ (by simp)]
    simp [decodeFrom, value, padChar, isNewline, padding, afterPadding]
    exact quantum_two rfl
  | case3 a val =>
    have hs : ∀ k, val / k % 64 < 64 := fun k => Nat.mod_lt _ (by omega)
    rw [decodeFrom_symbol (hs _) _ _ (by simp), decodeFrom_symbol (hs _) _ _ (by simp)]
    simp [decodeFrom, value, padChar, isNewline, padding, afterPadding]
    exact quantum_one rfl
  | case4 => rfl

/-- Decoding gives back what was encoded. -/
theorem decode_encode (bs : List UInt8) : decode (encode bs) = .ok bs := by
  rw [decode, decode_encode_from]

/-- `"TWFu"` is `Man`; `"TWE="` is `Ma`; a stray byte is reported where it is. -/
example : decode [0x54, 0x57, 0x46, 0x75] = .ok [0x4d, 0x61, 0x6e] ∧ encode [0x4d, 0x61] = [0x54, 0x57, 0x45, 0x3d] ∧
    decodeFrom 0 [] [0x54, 0x57, 0x0a, 0x21] = .error 3 := by
  decide +kernel

end Base64

end Go
