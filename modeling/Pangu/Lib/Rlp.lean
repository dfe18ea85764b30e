import Mathlib

/-!
# Recursive length prefix

RLP writes a tree of byte strings as bytes: a byte string behind a header that
gives its length (a byte below `0x80` standing for itself), a list behind a
header that gives the length of its items' encodings, one after another.
Lengths of 56 bytes and more are written big-endian after the header byte.

* `decode_encode`: a decoder reads an item back from its encoding followed by
  anything, given fuel twice its length; so an encoding is never a prefix of
  another (`encode_append_inj`) and `encode` is injective (`encode_injective`);
* `toBE`, `ofBE`: the minimal big-endian bytes of a number, and back
  (`ofBE_toBE`), as the headers and the encodings of integers use them.

Every length here is below `2 ^ 64`, as RLP requires: a header byte has room
for eight length bytes only.
-/

namespace Rlp

/-- An RLP item: a byte string or a list of items. -/
inductive Item where
  | bytes (b : List UInt8)
  | list (l : List Item)
  deriving Repr

/-! ## Big-endian numbers -/

/-- The minimal big-endian bytes of `n`: none for `0`, and no leading zero. -/
def toBE (n : Nat) : List UInt8 := ((Nat.digits 256 n).map Nat.toUInt8).reverse

/-- The number whose big-endian bytes are `bs`. -/
def ofBE (bs : List UInt8) : Nat := Nat.ofDigits 256 (bs.reverse.map UInt8.toNat)

theorem ofBE_toBE (n : Nat) : ofBE (toBE n) = n := by
  have h : ∀ d ∈ Nat.digits 256 n, (UInt8.toNat ∘ Nat.toUInt8) d = id d := fun d hd =>
    UInt8.toNat_ofNat_of_lt' (Nat.digits_lt_base (by decide) hd)
  simp only [ofBE, toBE, List.reverse_reverse, List.map_map, List.map_congr_left h, List.map_id]
  exact Nat.ofDigits_digits 256 n

theorem toBE_injective {m n : Nat} (h : toBE m = toBE n) : m = n := by
  rw [← ofBE_toBE m, h, ofBE_toBE]

theorem length_toBE_le (n k : Nat) : (toBE n).length ≤ k ↔ n < 256 ^ k := by
  simp only [toBE, List.length_reverse, List.length_map]
  exact Nat.digits_length_le_iff (by decide) n

theorem toBE_zero : toBE 0 = [] := by simp [toBE]

theorem toBE_ne_nil {n : Nat} (h : n ≠ 0) : toBE n ≠ [] := by
  simp only [toBE, ne_eq, List.reverse_eq_nil_iff, List.map_eq_nil_iff]
  exact Nat.digits_ne_nil_iff_ne_zero.mpr h

/-- `toBE` has no leading zero. -/
theorem head?_toBE_ne_zero (n : Nat) : (toBE n).head? ≠ some 0 := by
  rcases Nat.eq_zero_or_pos n with rfl | hn
  · simp [toBE_zero]
  have hne : Nat.digits 256 n ≠ [] := Nat.digits_ne_nil_iff_ne_zero.mpr (by omega)
  have hlast := Nat.getLast_digit_ne_zero 256 (by omega : n ≠ 0)
  have hlt := Nat.digits_lt_base (by decide : 1 < 256) (List.getLast_mem hne)
  rw [toBE, List.head?_reverse, List.getLast?_map, List.getLast?_eq_some_getLast hne, Option.map_some, ne_eq,
    Option.some.injEq]
  intro h
  have := congrArg UInt8.toNat h
  rw [UInt8.toNat_ofNat_of_lt' hlt] at this
  exact hlast this

/-! ## Encoding -/

/-- The header of a payload of `len` bytes: `short + len` if `len < 56`, else
`long` plus the number of bytes of `len`, followed by those bytes. -/
def header (short long len : Nat) : List UInt8 :=
  if len < 56 then [(short + len).toUInt8] else (long + (toBE len).length).toUInt8 :: toBE len

/-- A byte string: a single byte below `0x80` is its own encoding. -/
def encodeBytes : List UInt8 → List UInt8
  | [x] => if x.toNat < 0x80 then [x] else header 0x80 0xB7 1 ++ [x]
  | b => header 0x80 0xB7 b.length ++ b

mutual
/-- The RLP encoding of an item. -/
def encode : Item → List UInt8
  | .bytes b => encodeBytes b
  | .list l => header 0xC0 0xF7 (encodeList l).length ++ encodeList l
/-- The encodings of a list's items, one after another: a list's payload. -/
def encodeList : List Item → List UInt8
  | [] => []
  | x :: xs => encode x ++ encodeList xs
end

@[simp] theorem encode_bytes (b : List UInt8) : encode (.bytes b) = encodeBytes b := by
  simp [encode]

@[simp] theorem encode_list (l : List Item) :
    encode (.list l) = header 0xC0 0xF7 (encodeList l).length ++ encodeList l := by
  simp [encode]

@[simp] theorem encodeList_nil : encodeList [] = [] := by simp [encodeList]

@[simp] theorem encodeList_cons (x : Item) (xs : List Item) :
    encodeList (x :: xs) = encode x ++ encodeList xs := by
  simp [encodeList]

theorem header_ne_nil (short long len : Nat) : header short long len ≠ [] := by
  unfold header; split <;> simp

theorem encodeBytes_ne_nil (b : List UInt8) : encodeBytes b ≠ [] := by
  unfold encodeBytes
  split
  · split <;> simp
  · simp [header_ne_nil]

theorem encode_ne_nil (x : Item) : encode x ≠ [] := by
  cases x with
  | bytes b => simpa using encodeBytes_ne_nil b
  | list l => simp [header_ne_nil]

theorem one_le_length_encode (x : Item) : 1 ≤ (encode x).length :=
  List.length_pos_iff.mpr (encode_ne_nil x)

/-! ## Decoding -/

/-- The payload length that a header byte `p` (at least `short`) announces,
and the bytes after the header: `p - short` if `p ≤ long`, else the
big-endian number in the next `p - long` bytes. -/
def readLength (p short long : Nat) (rest : List UInt8) : Option (Nat × List UInt8) :=
  if p ≤ long then some (p - short, rest)
  else if p - long ≤ rest.length then some (ofBE (rest.take (p - long)), rest.drop (p - long))
  else none

mutual
/-- Reads one item from the front of `bs`, with `fuel` bounding the nesting and the
number of items read. -/
def decode : Nat → List UInt8 → Option (Item × List UInt8)
  | 0, _ => none
  | _ + 1, [] => none
  | n + 1, p :: rest =>
    if p.toNat < 0x80 then some (.bytes [p], rest)
    else if p.toNat < 0xC0 then
      (readLength p.toNat 0x80 0xB7 rest).bind fun (len, r) =>
        if len ≤ r.length then some (.bytes (r.take len), r.drop len) else none
    else
      (readLength p.toNat 0xC0 0xF7 rest).bind fun (len, r) =>
        if len ≤ r.length then (decodeSeq n (r.take len)).map fun l => (.list l, r.drop len)
        else none
/-- Reads items until `bs` is used up: a list's payload. -/
def decodeSeq : Nat → List UInt8 → Option (List Item)
  | 0, _ => none
  | _ + 1, [] => some []
  | n + 1, b :: bs => (decode n (b :: bs)).bind fun (x, r) => (decodeSeq n r).map (x :: ·)
end

/-- What a header says: its first byte lies between `short` and `long + 8`, and
`readLength` gives back the length and the bytes after it. -/
theorem header_spec (short long : Nat) {len : Nat} (hs : short + 55 = long) (hl : long + 8 < 256)
    (hlen : len < 2 ^ 64) :
    ∃ p hs', header short long len = p :: hs' ∧ short ≤ p.toNat ∧ p.toNat ≤ long + 8 ∧
      ∀ rest, readLength p.toNat short long (hs' ++ rest) = some (len, rest) := by
  unfold header
  split
  · rename_i h
    have hp : (short + len).toUInt8.toNat = short + len := UInt8.toNat_ofNat_of_lt' (by simp only [UInt8.size]; omega)
    refine ⟨_, [], rfl, by omega, by omega, fun rest => ?_⟩
    simp only [readLength, hp, List.nil_append]
    rw [if_pos (by omega)]
    congr; omega
  · rename_i h
    have hk : (toBE len).length ≤ 8 := (length_toBE_le len 8).mpr (by simpa using hlen)
    have hk0 : (toBE len).length ≠ 0 := by
      simpa using toBE_ne_nil (by omega : len ≠ 0)
    have hp : (long + (toBE len).length).toUInt8.toNat = long + (toBE len).length :=
      UInt8.toNat_ofNat_of_lt' (by simp only [UInt8.size]; omega)
    refine ⟨_, toBE len, rfl, by omega, by omega, fun rest => ?_⟩
    simp only [readLength, hp, Nat.add_sub_cancel_left, List.length_append]
    rw [if_neg (by omega), if_pos (by omega), List.take_left, List.drop_left, ofBE_toBE]

theorem decode_encodeBytes (b rest : List UInt8) (n : Nat) (hb : b.length < 2 ^ 64) :
    decode (n + 1) (encodeBytes b ++ rest) = some (.bytes b, rest) := by
  -- A byte below `0x80` stands for itself; every other string has a header.
  have general : ∀ c : List UInt8, c.length < 2 ^ 64 →
      decode (n + 1) (header 0x80 0xB7 c.length ++ c ++ rest) = some (.bytes c, rest) := by
    intro c hc
    obtain ⟨p, hs', he, h1, h2, hr⟩ := header_spec 0x80 0xB7 (by decide) (by decide) hc
    rw [he, List.cons_append, List.cons_append, decode, if_neg (by omega), if_pos (by omega),
      List.append_assoc, hr]
    simp
  match b with
  | [x] =>
    simp only [encodeBytes]
    split
    · rename_i h; simp [decode, h]
    · exact general [x] (by simp)
  | [] => exact general [] (by simp)
  | x :: y :: zs => exact general (x :: y :: zs) hb

mutual
/-- Decoding reads back an item from its encoding followed by anything. -/
theorem decode_encode : ∀ (x : Item) (rest : List UInt8) (n : Nat),
    2 * (encode x).length ≤ n → (encode x).length < 2 ^ 64 →
    decode n (encode x ++ rest) = some (x, rest)
  | .bytes b, rest, n, hn, hlen => by
    obtain ⟨m, rfl⟩ : ∃ m, n = m + 1 :=
      ⟨n - 1, by have := one_le_length_encode (.bytes b); omega⟩
    have hb : b.length < 2 ^ 64 := by
      have : b.length ≤ (encodeBytes b).length := by
        unfold encodeBytes; split
        · split <;> simp
        · simp
      simp only [encode_bytes] at hlen; omega
    simpa using decode_encodeBytes b rest m hb
  | .list l, rest, n, hn, hlen => by
    have hh := header_ne_nil 0xC0 0xF7 (encodeList l).length
    simp only [encode_list, List.length_append] at hn hlen ⊢
    obtain ⟨p, hs', he, h1, h2, hr⟩ :=
      header_spec 0xC0 0xF7 (by decide) (by decide) (by omega : (encodeList l).length < 2 ^ 64)
    have hlen' : (header 0xC0 0xF7 (encodeList l).length).length = hs'.length + 1 := by simp [he]
    obtain ⟨m, rfl⟩ : ∃ m, n = m + 1 := ⟨n - 1, by omega⟩
    rw [he, List.cons_append, List.cons_append, decode, if_neg (by omega), if_neg (by omega),
      List.append_assoc, hr]
    simp only [Option.bind_some, List.length_append, Nat.le_add_right, if_true, List.take_left,
      List.drop_left]
    rw [decodeSeq_encodeList l m (by omega) (by omega)]
    rfl
/-- Decoding a list's payload reads back its items. -/
theorem decodeSeq_encodeList : ∀ (l : List Item) (n : Nat),
    2 * (encodeList l).length + 1 ≤ n → (encodeList l).length < 2 ^ 64 →
    decodeSeq n (encodeList l) = some l
  | [], n, hn, _ => by
    obtain ⟨m, rfl⟩ : ∃ m, n = m + 1 := ⟨n - 1, by simp at hn; omega⟩
    simp [decodeSeq]
  | x :: xs, n, hn, hlen => by
    have hx := one_le_length_encode x
    simp only [encodeList_cons, List.length_append] at hn hlen ⊢
    obtain ⟨m, rfl⟩ : ∃ m, n = m + 1 := ⟨n - 1, by omega⟩
    obtain ⟨b, bs, hb⟩ := List.exists_cons_of_ne_nil (encode_ne_nil x)
    have hd := decode_encode x (encodeList xs) m (by omega) (by omega)
    rw [hb, List.cons_append, decodeSeq, ← List.cons_append, ← hb, hd]
    simp only [Option.bind_some]
    rw [decodeSeq_encodeList xs m (by omega) (by omega)]
    rfl
end

/-- No encoding is a prefix of another: the item and what follows it are both
determined. -/
theorem encode_append_inj {x y : Item} {r r' : List UInt8} (hx : (encode x).length < 2 ^ 64)
    (hy : (encode y).length < 2 ^ 64) (h : encode x ++ r = encode y ++ r') : x = y ∧ r = r' := by
  have dx := decode_encode x r (2 * (encode x).length + 2 * (encode y).length) (by omega) hx
  have dy := decode_encode y r' (2 * (encode x).length + 2 * (encode y).length) (by omega) hy
  rw [h, dy] at dx
  simp only [Option.some.injEq, Prod.mk.injEq] at dx
  exact ⟨dx.1.symm, dx.2.symm⟩

theorem encode_injective {x y : Item} (hx : (encode x).length < 2 ^ 64)
    (hy : (encode y).length < 2 ^ 64) (h : encode x = encode y) : x = y :=
  (encode_append_inj hx hy (show encode x ++ ([] : List UInt8) = encode y ++ [] by simpa using h)).1

end Rlp
