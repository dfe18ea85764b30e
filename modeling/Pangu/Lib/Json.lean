import Pangu.Lib.Go

/-!
# The text of Go's encoding/json

A JSON value (`Json`) is what `json.Decoder` reads and `json.Encoder` writes. A
number keeps the text it was written with, as the decoder hands that text to the
type it decodes into, and an object keeps its members in order, duplicates
included, as the decoder stores them in that order.

`Json.encode` is the compact text `json.NewEncoder` writes, strings escaped as
`appendString` escapes them with HTML escaping on. `Json.readValue` is the
scanner and the unquoting of `Decoder.Decode`: it reads one value after
whitespace and returns what follows it, unread. Its errors carry the text of
Go's, without the offending character. Nesting deeper than `maxNestingDepth`
is refused, as the scanner refuses it.

Strings are bytes. Bytes from `0x80` up are written and read as they are,
which is what Go does for valid UTF-8 other than U+2028 and U+2029. An escape
`\uXXXX` is read into the UTF-8 of its code point, surrogate pairs combined.

* `scanNumber_append`: the number scanner, a state machine, reads a complete
  number back out of any text it starts;
* `scanString_quote`: the string scanner reads back what `quote` writes;
* `readValue_encode`: every value whose numbers are numbers reads back from
  its text, whatever follows it that a number cannot continue with.
-/

namespace Go

/-- A JSON value as `encoding/json` reads it: a number keeps its text, a
string its bytes, an object its members in order. -/
inductive Json where
  | null
  | bool (b : Bool)
  | number (text : List UInt8)
  | string (s : List UInt8)
  | array (items : List Json)
  | object (members : List (List UInt8 × Json))
  deriving Repr

namespace Json

/-! ## Writing -/

/-- The encoder's `hex[n]`, for `n < 16`. -/
def hexDigit (n : UInt8) : UInt8 := if n < 10 then n + 0x30 else n + 0x57

/-- What `appendString` writes for one byte, HTML escaping on: `\"`, `\\`,
`\n`, `\r`, `\t`, `\u00XX` for the other control bytes and for `<`, `>` and
`&`, and the byte itself otherwise. -/
def escapeByte (b : UInt8) : List UInt8 :=
  if b = 0x22 ∨ b = 0x5c then [0x5c, b]
  else if b = 0x0a then [0x5c, 0x6e]
  else if b = 0x0d then [0x5c, 0x72]
  else if b = 0x09 then [0x5c, 0x74]
  else if b < 0x20 ∨ b = 0x3c ∨ b = 0x3e ∨ b = 0x26 then
    [0x5c, 0x75, 0x30, 0x30, hexDigit (b / 16), hexDigit (b % 16)]
  else [b]

/-- A string between quotes, escaped. -/
def quote (s : List UInt8) : List UInt8 := 0x22 :: (s.flatMap escapeByte ++ [0x22])

mutual
/-- The compact text of a value. -/
def encode : Json → List UInt8
  | .null => [0x6e, 0x75, 0x6c, 0x6c]
  | .bool true => [0x74, 0x72, 0x75, 0x65]
  | .bool false => [0x66, 0x61, 0x6c, 0x73, 0x65]
  | .number text => text
  | .string s => quote s
  | .array [] => [0x5b, 0x5d]
  | .array (v :: vs) => 0x5b :: (encode v ++ encodeItems vs)
  | .object [] => [0x7b, 0x7d]
  | .object ((k, v) :: ms) => 0x7b :: (quote k ++ 0x3a :: (encode v ++ encodeMembers ms))

/-- The items of an array after its first, and the closing bracket. -/
def encodeItems : List Json → List UInt8
  | [] => [0x5d]
  | v :: vs => 0x2c :: (encode v ++ encodeItems vs)

/-- The members of an object after its first, and the closing brace. -/
def encodeMembers : List (List UInt8 × Json) → List UInt8
  | [] => [0x7d]
  | (k, v) :: ms => 0x2c :: (quote k ++ 0x3a :: (encode v ++ encodeMembers ms))
end

/-! ## Numbers -/

def isDigit (b : UInt8) : Bool := 0x30 ≤ b && b ≤ 0x39

def isExp (b : UInt8) : Bool := b == 0x65 || b == 0x45

/-- The scanner's states in a number: before it, after `-`, after a leading
`0`, in the integer digits, after `.`, in the fraction, after `e`, after the
exponent's sign, in the exponent. -/
inductive NumState where
  | start | neg | zero | int | dot | frac | exp | expSign | expDigits
  deriving DecidableEq, Repr

/-- One byte: the next state, or `none` where the number cannot go on. -/
def NumState.step : NumState → UInt8 → Option NumState
  | .start, b => if b = 0x2d then some .neg else if b = 0x30 then some .zero else if isDigit b then some .int else none
  | .neg, b => if b = 0x30 then some .zero else if isDigit b then some .int else none
  | .zero, b => if b = 0x2e then some .dot else if isExp b then some .exp else none
  | .int, b => if isDigit b then some .int else if b = 0x2e then some .dot else if isExp b then some .exp else none
  | .dot, b => if isDigit b then some .frac else none
  | .frac, b => if isDigit b then some .frac else if isExp b then some .exp else none
  | .exp, b => if b = 0x2b ∨ b = 0x2d then some .expSign else if isDigit b then some .expDigits else none
  | .expSign, b => if isDigit b then some .expDigits else none
  | .expDigits, b => if isDigit b then some .expDigits else none

/-- The states a number may end in. -/
def NumState.final : NumState → Bool
  | .zero | .int | .frac | .expDigits => true
  | _ => false

/-- The scanner's error in a state a number may not end in. -/
def NumState.error : NumState → String
  | .dot => "invalid character after decimal point in numeric literal"
  | .exp | .expSign => "invalid character in exponent of numeric literal"
  | _ => "invalid character in numeric literal"

def errUnexpectedEnd : String := "unexpected end of JSON input"

/-- The rest of a number from state `st`: the bytes it takes, and what follows. -/
def scanNumber (st : NumState) : List UInt8 → Except String (List UInt8 × List UInt8)
  | [] => if st.final then .ok ([], []) else .error errUnexpectedEnd
  | b :: bs =>
    match st.step b with
    | some st' => (scanNumber st' bs).map fun r => (b :: r.1, r.2)
    | none => if st.final then .ok ([], b :: bs) else .error st.error

/-- A number's text: the scanner takes all of it and may end there. -/
def isNumber (text : List UInt8) : Bool :=
  match scanNumber .start text with
  | .ok (_, []) => true
  | _ => false

/-- A byte no number goes on with: none of the digits, `.`, `e`, `E`, `+`, `-`. -/
def stopsNumber (b : UInt8) : Bool := !isDigit b && b != 0x2e && !isExp b && b != 0x2b && b != 0x2d

theorem step_of_stopsNumber {b : UInt8} (hb : stopsNumber b = true) (st : NumState) : st.step b = none := by
  simp only [stopsNumber, Bool.and_eq_true, Bool.not_eq_true', bne_iff_ne, ne_eq] at hb
  obtain ⟨⟨⟨⟨hd, hdot⟩, he⟩, hplus⟩, hminus⟩ := hb
  have h0 : b ≠ 0x30 := fun h => by simp [h, isDigit] at hd
  cases st <;> simp [NumState.step, hd, hdot, he, hplus, hminus, h0]

/-- What the scanner leaves of a number's text and what follows it. -/
theorem scanNumber_eq_append {st : NumState} {bs t r : List UInt8} (h : scanNumber st bs = .ok (t, r)) :
    t ++ r = bs := by
  induction bs generalizing st t r with
  | nil =>
    simp only [scanNumber] at h
    split at h <;> cases h
    rfl
  | cons b bs ih =>
    simp only [scanNumber] at h
    split at h
    · obtain ⟨⟨t', r'⟩, h', he⟩ := map_eq_ok h
      cases he
      rw [List.cons_append, ih h']
    · split at h <;> cases h
      rfl

theorem scanNumber_rest_le {st : NumState} {bs t r : List UInt8} (h : scanNumber st bs = .ok (t, r)) :
    r.length ≤ bs.length := by
  rw [← scanNumber_eq_append h, List.length_append]
  omega

/-- A number the scanner reads to its end, followed by a byte no number goes on
with, reads the same. -/
theorem scanNumber_append {st : NumState} {t rest : List UInt8} (ht : scanNumber st t = .ok (t, []))
    (hrest : ∀ b ∈ rest.head?, stopsNumber b = true) : scanNumber st (t ++ rest) = .ok (t, rest) := by
  induction t generalizing st with
  | nil =>
    simp only [scanNumber] at ht
    split at ht <;> cases ht
    rename_i hfinal
    cases rest with
    | nil => simp [scanNumber, hfinal]
    | cons b bs =>
      simp [scanNumber, step_of_stopsNumber (hrest b rfl), hfinal]
  | cons b t ih =>
    simp only [scanNumber] at ht
    split at ht
    · rename_i st' hst
      obtain ⟨⟨t', r'⟩, h', he⟩ := map_eq_ok ht
      simp only [Prod.mk.injEq, List.cons.injEq, true_and] at he
      obtain ⟨rfl, rfl⟩ := he
      simp only [List.cons_append, scanNumber, hst, ih h']
      rfl
    · split at ht <;> cases ht

/-! ## Strings -/

def hexValue (b : UInt8) : Option Nat :=
  if isDigit b then some (b.toNat - 0x30)
  else if 0x61 ≤ b ∧ b ≤ 0x66 then some (b.toNat - 0x57)
  else if 0x41 ≤ b ∧ b ≤ 0x46 then some (b.toNat - 0x37)
  else none

/-- The code unit of `\uXXXX`. -/
def hex4 (a b c d : UInt8) : Option Nat := do
  let a ← hexValue a
  let b ← hexValue b
  let c ← hexValue c
  let d ← hexValue d
  pure (((a * 16 + b) * 16 + c) * 16 + d)

/-- U+FFFD, in UTF-8. -/
def replacementChar : List UInt8 := [0xef, 0xbf, 0xbd]

/-- `utf8.EncodeRune`: surrogates and code points past U+10FFFF are written
as U+FFFD. -/
def utf8Encode (r : Nat) : List UInt8 :=
  if r < 0x80 then [r.toUInt8]
  else if r < 0x800 then [(0xc0 + r / 64).toUInt8, (0x80 + r % 64).toUInt8]
  else if 0xd800 ≤ r ∧ r < 0xe000 then replacementChar
  else if r < 0x10000 then [(0xe0 + r / 4096).toUInt8, (0x80 + r / 64 % 64).toUInt8, (0x80 + r % 64).toUInt8]
  else if r < 0x110000 then
    [(0xf0 + r / 262144).toUInt8, (0x80 + r / 4096 % 64).toUInt8, (0x80 + r / 64 % 64).toUInt8,
      (0x80 + r % 64).toUInt8]
  else replacementChar

/-- The escapes of one byte: `\"`, `\\`, `\/`, `\b`, `\f`, `\n`, `\r`, `\t`. -/
def unescape (e : UInt8) : Option UInt8 :=
  if e = 0x22 ∨ e = 0x5c ∨ e = 0x2f then some e
  else if e = 0x62 then some 0x08
  else if e = 0x66 then some 0x0c
  else if e = 0x6e then some 0x0a
  else if e = 0x72 then some 0x0d
  else if e = 0x74 then some 0x09
  else none

/-- Bytes read, before what is read after them. -/
def prepend (x : List UInt8) (r : Except String (List UInt8 × List UInt8)) :
    Except String (List UInt8 × List UInt8) :=
  (fun p => (x ++ p.1, p.2)) <$> r

/-- The rest of a string after its opening quote: the bytes it stands for, and
what follows its closing quote. A high surrogate followed by a low one is one
code point; any other surrogate is U+FFFD. -/
def scanString : List UInt8 → Except String (List UInt8 × List UInt8)
  | [] => .error errUnexpectedEnd
  | b :: bs =>
    if b = 0x22 then .ok ([], bs)
    else if b = 0x5c then
      match bs with
      | [] => .error errUnexpectedEnd
      | e :: r =>
        if e = 0x75 then
          match r with
          | a :: b :: c :: d :: r' =>
            match hex4 a b c d with
            | none => .error "invalid character in \\u hexadecimal character escape"
            | some u =>
              if 0xd800 ≤ u ∧ u < 0xe000 then
                match r' with
                | s :: t :: a' :: b' :: c' :: d' :: r'' =>
                  match hex4 a' b' c' d' with
                  | some u' =>
                    if s = 0x5c ∧ t = 0x75 ∧ u < 0xdc00 ∧ 0xdc00 ≤ u' ∧ u' < 0xe000 then
                      prepend (utf8Encode (0x10000 + (u - 0xd800) * 0x400 + (u' - 0xdc00))) (scanString r'')
                    else prepend replacementChar (scanString (s :: t :: a' :: b' :: c' :: d' :: r''))
                  | none => prepend replacementChar (scanString (s :: t :: a' :: b' :: c' :: d' :: r''))
                | r'' => prepend replacementChar (scanString r'')
              else prepend (utf8Encode u) (scanString r')
          | _ => .error errUnexpectedEnd
        else
          match unescape e with
          | some c => prepend [c] (scanString r)
          | none => .error "invalid character in string escape code"
    else if b < 0x20 then .error "invalid character in string literal"
    else prepend [b] (scanString bs)

theorem prepend_eq_ok {x : List UInt8} {r : Except String (List UInt8 × List UInt8)} {s rest : List UInt8}
    (h : prepend x r = .ok (s, rest)) : ∃ s', r = .ok (s', rest) := by
  obtain ⟨⟨s', r'⟩, h', he⟩ := map_eq_ok h
  cases he
  exact ⟨s', h'⟩

/-- A string read leaves less than it was given: at least its closing quote. -/
theorem scanString_rest {bs s r : List UInt8} (h : scanString bs = .ok (s, r)) : r.length < bs.length := by
  fun_induction scanString bs generalizing s r
  -- an error contradicts `h`; every other case reads a suffix of `bs` after one quote or escape
  all_goals first
    | simp at h; done
    | cases h; simp
    | obtain ⟨s', h'⟩ := prepend_eq_ok h
      rename_i ih
      have := ih h'
      simp only [List.length_cons] at this ⊢
      omega


theorem scanString_quote_cons (bs : List UInt8) : scanString (0x22 :: bs) = .ok ([], bs) := by
  rw [scanString.eq_def]
  simp

theorem scanString_escape {e : UInt8} (he : e ≠ 0x75) (r : List UInt8) :
    scanString (0x5c :: e :: r) = match unescape e with
      | some c => prepend [c] (scanString r)
      | none => .error "invalid character in string escape code" := by
  rw [scanString.eq_def]
  simp [he]

theorem scanString_unicode {a b c d : UInt8} {u : Nat} (hu : hex4 a b c d = some u) (hs : ¬ (0xd800 ≤ u ∧ u < 0xe000))
    (r : List UInt8) : scanString (0x5c :: 0x75 :: a :: b :: c :: d :: r) = prepend (utf8Encode u) (scanString r) := by
  rw [scanString.eq_def]
  simp [hu, hs]

theorem scanString_byte {b : UInt8} (hq : b ≠ 0x22) (he : b ≠ 0x5c) (hc : ¬ b < 0x20) (bs : List UInt8) :
    scanString (b :: bs) = prepend [b] (scanString bs) := by
  rw [scanString.eq_def]
  simp [hq, he, hc]

theorem toUInt8_toNat (b : UInt8) : b.toNat.toUInt8 = b := UInt8.ofNat_toNat

/-- A fact of every byte, from the same fact of the numbers below 256, which
`decide +kernel` checks one by one. -/
theorem forall_byte {P : UInt8 → Prop} (h : ∀ n, n < 256 → P n.toUInt8) (b : UInt8) : P b := by
  have := h b.toNat b.toNat_lt
  rwa [toUInt8_toNat] at this

theorem hex4_escape (b : UInt8) : hex4 0x30 0x30 (hexDigit (b / 16)) (hexDigit (b % 16)) = some b.toNat :=
  forall_byte (P := fun b => hex4 0x30 0x30 (hexDigit (b / 16)) (hexDigit (b % 16)) = some b.toNat)
    (by decide +kernel) b

theorem utf8Encode_of_lt {n : Nat} (h : n < 0x80) : utf8Encode n = [n.toUInt8] := by
  simp [utf8Encode, h]

/-- The scanner reads back one byte as `appendString` writes it. -/
theorem scanString_escapeByte (b : UInt8) (t : List UInt8) :
    scanString (escapeByte b ++ t) = prepend [b] (scanString t) := by
  unfold escapeByte
  split_ifs with hq hn hr ht hu
  · rcases hq with rfl | rfl <;> simp [scanString_escape, unescape]
  · subst hn; simp [scanString_escape, unescape]
  · subst hr; simp [scanString_escape, unescape]
  · subst ht; simp [scanString_escape, unescape]
  · -- `\u00XX`: a code unit below `0x80`, so one byte and no surrogate
    have hlt : b.toNat < 0x80 := by
      rcases hu with h | rfl | rfl | rfl
      · rw [UInt8.lt_iff_toNat_lt] at h
        simp at h
        omega
      all_goals decide
    rw [List.cons_append, List.cons_append, List.cons_append, List.cons_append, List.cons_append,
      List.singleton_append, scanString_unicode (hex4_escape b) (by omega), utf8Encode_of_lt hlt, toUInt8_toNat]
  · exact scanString_byte (fun h => hq (Or.inl h)) (fun h => hq (Or.inr h)) (fun h => hu (Or.inl h)) t

/-- The scanner reads back a string as `quote` writes it. -/
theorem scanString_quote (s rest : List UInt8) : scanString (s.flatMap escapeByte ++ 0x22 :: rest) = .ok (s, rest) := by
  induction s with
  | nil => exact scanString_quote_cons rest
  | cons b s ih =>
    rw [List.flatMap_cons, List.append_assoc, scanString_escapeByte, ih]
    rfl

/-! ## Values -/

/-- The scanner's `maxNestingDepth`. -/
def maxNestingDepth : Nat := 10000

/-- The scanner's white space. -/
def isSpace (b : UInt8) : Bool := b == 0x20 || b == 0x09 || b == 0x0a || b == 0x0d

def skipSpace (bs : List UInt8) : List UInt8 := bs.dropWhile isSpace

/-- What a read leaves of `bs`: a shorter suffix. -/
abbrev Rest (bs : List UInt8) := { r : List UInt8 // r.length < bs.length }

theorem skipSpace_rest {bs r : List UInt8} {b : UInt8} (h : skipSpace bs = b :: r) : r.length < bs.length := by
  have hle := List.length_dropWhile_le isSpace bs
  rw [← skipSpace, h, List.length_cons] at hle
  omega

/-- The next byte after white space, and what follows it. -/
def nextByte (bs : List UInt8) : Option (UInt8 × Rest bs) :=
  match h : skipSpace bs with
  | [] => none
  | b :: r => some (b, ⟨r, skipSpace_rest h⟩)

/-- A string after its opening quote, with what follows it as a suffix. -/
def readString (bs : List UInt8) : Except String (List UInt8 × Rest bs) :=
  match h : scanString bs with
  | .ok (s, r) => .ok (s, ⟨r, scanString_rest h⟩)
  | .error e => .error e

/-- A value read from a suffix of `bs`, as read from `bs`. -/
def Rest.widen {bs r : List UInt8} (h : r.length < bs.length) (x : Json × Rest r) : Json × Rest bs :=
  (x.1, ⟨x.2.1, x.2.2.trans h⟩)

/-- `true`, `false` or `null`, after its first byte: the rest of its word. -/
def readLiteral {bs : List UInt8} (word : List UInt8) (v : Json) (r : Rest bs) : Except String (Json × Rest bs) :=
  if word <+: r.1 then .ok (v, ⟨r.1.drop word.length, lt_of_le_of_lt (by simp) r.2⟩)
  else .error "invalid character in literal"

/-- A number after its first byte, from the state that byte leads to. -/
def readNumber {bs : List UInt8} (b : UInt8) (st : NumState) (r : Rest bs) : Except String (Json × Rest bs) :=
  match h : scanNumber st r.1 with
  | .ok (t, r') => .ok (.number (b :: t), ⟨r', lt_of_le_of_lt (scanNumber_rest_le h) r.2⟩)
  | .error e => .error e

mutual
/-- One value after white space, inside `depth` open arrays and objects. -/
def readValue (depth : Nat) (bs : List UInt8) : Except String (Json × Rest bs) :=
  match nextByte bs with
  | none => .error errUnexpectedEnd
  | some (b, ⟨r, hr⟩) =>
    if b = 0x7b then
      if depth < maxNestingDepth then Rest.widen hr <$> readObject (depth + 1) r
      else .error "exceeded max depth"
    else if b = 0x5b then
      if depth < maxNestingDepth then Rest.widen hr <$> readArray (depth + 1) r
      else .error "exceeded max depth"
    else if b = 0x22 then
      match readString r with
      | .ok (s, ⟨r', hr'⟩) => .ok (.string s, ⟨r', hr'.trans hr⟩)
      | .error e => .error e
    else if b = 0x74 then readLiteral [0x72, 0x75, 0x65] (.bool true) ⟨r, hr⟩
    else if b = 0x66 then readLiteral [0x61, 0x6c, 0x73, 0x65] (.bool false) ⟨r, hr⟩
    else if b = 0x6e then readLiteral [0x75, 0x6c, 0x6c] .null ⟨r, hr⟩
    else
      match NumState.start.step b with
      | some st => readNumber b st ⟨r, hr⟩
      | none => .error "invalid character looking for beginning of value"
termination_by 3 * bs.length

/-- After `[`: `]`, or the items. -/
def readArray (depth : Nat) (bs : List UInt8) : Except String (Json × Rest bs) :=
  match nextByte bs with
  | none => .error errUnexpectedEnd
  | some (b, r) => if b = 0x5d then .ok (.array [], r) else readItems depth [] bs
termination_by 3 * bs.length + 2

/-- An item after those in `acc`, and what follows it: `,` and more, or `]`. -/
def readItems (depth : Nat) (acc : List Json) (bs : List UInt8) : Except String (Json × Rest bs) :=
  match readValue depth bs with
  | .error e => .error e
  | .ok (v, ⟨r, hr⟩) =>
    match nextByte r with
    | none => .error errUnexpectedEnd
    | some (c, ⟨r', hr'⟩) =>
      if c = 0x2c then Rest.widen (hr'.trans hr) <$> readItems depth (acc ++ [v]) r'
      else if c = 0x5d then .ok (.array (acc ++ [v]), ⟨r', hr'.trans hr⟩)
      else .error "invalid character after array element"
termination_by 3 * bs.length + 1

/-- After `{`: `}`, or the members. -/
def readObject (depth : Nat) (bs : List UInt8) : Except String (Json × Rest bs) :=
  match nextByte bs with
  | none => .error errUnexpectedEnd
  | some (b, r) => if b = 0x7d then .ok (.object [], r) else readMembers depth [] bs
termination_by 3 * bs.length + 2

/-- A member after those in `acc`, and what follows it: `,` and more, or `}`. -/
def readMembers (depth : Nat) (acc : List (List UInt8 × Json)) (bs : List UInt8) :
    Except String (Json × Rest bs) :=
  match nextByte bs with
  | none => .error errUnexpectedEnd
  | some (b, ⟨r, hr⟩) =>
    if b = 0x22 then
      match readString r with
      | .error e => .error e
      | .ok (k, ⟨r₁, hr₁⟩) =>
        match nextByte r₁ with
        | none => .error errUnexpectedEnd
        | some (c, ⟨r₂, hr₂⟩) =>
          if c = 0x3a then
            match readValue depth r₂ with
            | .error e => .error e
            | .ok (v, ⟨r₃, hr₃⟩) =>
              match nextByte r₃ with
              | none => .error errUnexpectedEnd
              | some (d, ⟨r₄, hr₄⟩) =>
                have h₄ : r₄.length < bs.length := by omega
                if d = 0x2c then Rest.widen h₄ <$> readMembers depth (acc ++ [(k, v)]) r₄
                else if d = 0x7d then .ok (.object (acc ++ [(k, v)]), ⟨r₄, h₄⟩)
                else .error "invalid character after object key:value pair"
          else .error "invalid character after object key"
    else .error "invalid character looking for beginning of object key string"
termination_by 3 * bs.length + 1
end

/-- `Decoder.Decode`'s read: one value, and what follows it, unread. -/
def read (bs : List UInt8) : Except String (Json × List UInt8) :=
  (fun x => (x.1, x.2.1)) <$> readValue 0 bs

/-! ## Reading back what is written -/

mutual
/-- Every number of the value is a number's text. -/
def valid : Json → Bool
  | .number t => isNumber t
  | .array items => validItems items
  | .object ms => validMembers ms
  | _ => true

def validItems : List Json → Bool
  | [] => true
  | v :: vs => valid v && validItems vs

def validMembers : List (List UInt8 × Json) → Bool
  | [] => true
  | (_, v) :: ms => valid v && validMembers ms
end

mutual
/-- How deep arrays and objects nest in the value. -/
def depth : Json → Nat
  | .array items => depthItems items + 1
  | .object ms => depthMembers ms + 1
  | _ => 0

def depthItems : List Json → Nat
  | [] => 0
  | v :: vs => max v.depth (depthItems vs)

def depthMembers : List (List UInt8 × Json) → Nat
  | [] => 0
  | (_, v) :: ms => max v.depth (depthMembers ms)
end

theorem validItems_eq_true {vs : List Json} : validItems vs = true ↔ ∀ v ∈ vs, v.valid = true := by
  induction vs with
  | nil => simp [validItems]
  | cons v vs ih => simp [validItems, ih]

theorem validMembers_eq_true {ms : List (List UInt8 × Json)} :
    validMembers ms = true ↔ ∀ m ∈ ms, m.2.valid = true := by
  induction ms with
  | nil => simp [validMembers]
  | cons m ms ih => simp [validMembers, ih]

theorem depthItems_le {vs : List Json} {d : Nat} : depthItems vs ≤ d ↔ ∀ v ∈ vs, v.depth ≤ d := by
  induction vs with
  | nil => simp [depthItems]
  | cons v vs ih => simp [depthItems, ih]

theorem depthMembers_le {ms : List (List UInt8 × Json)} {d : Nat} :
    depthMembers ms ≤ d ↔ ∀ m ∈ ms, m.2.depth ≤ d := by
  induction ms with
  | nil => simp [depthMembers]
  | cons m ms ih => simp [depthMembers, ih]

/-- What follows a value: nothing a number goes on with. -/
def Stops (rest : List UInt8) : Prop := ∀ b ∈ rest.head?, stopsNumber b = true

theorem stops_cons {b : UInt8} (hb : stopsNumber b = true) (r : List UInt8) : Stops (b :: r) := by
  simp [Stops, hb]

/-- A read, with what it leaves as a plain list. -/
def Rest.forget {α : Type} {bs : List UInt8} (e : Except String (α × Rest bs)) : Except String (α × List UInt8) :=
  (fun x => (x.1, x.2.1)) <$> e

theorem Rest.forget_eq_ok {α : Type} {bs : List UInt8} {e : Except String (α × Rest bs)} {a : α}
    {r : List UInt8} (h : Rest.forget e = .ok (a, r)) : ∃ p, e = .ok (a, ⟨r, p⟩) := by
  obtain ⟨⟨a', ⟨r', p⟩⟩, he, hx⟩ := map_eq_ok h
  cases hx
  exact ⟨p, he⟩

@[simp] theorem Rest.forget_widen {bs r : List UInt8} (h : r.length < bs.length) (e : Except String (Json × Rest r)) :
    Rest.forget (Rest.widen h <$> e) = Rest.forget e := by
  cases e <;> rfl

theorem skipSpace_cons {b : UInt8} (hb : isSpace b = false) (r : List UInt8) : skipSpace (b :: r) = b :: r := by
  simp [skipSpace, hb]

theorem nextByte_cons {b : UInt8} (hb : isSpace b = false) (r : List UInt8) :
    nextByte (b :: r) = some (b, ⟨r, by simp⟩) := by
  unfold nextByte
  split
  · rename_i h
    rw [skipSpace_cons hb] at h
    cases h
  · rename_i b' r' h
    rw [skipSpace_cons hb] at h
    cases h
    rfl

theorem readString_of_scanString {bs s r : List UInt8} (h : scanString bs = .ok (s, r)) :
    ∃ p, readString bs = .ok (s, ⟨r, p⟩) := by
  unfold readString
  split
  · rename_i s' r' h'
    rw [h] at h'
    cases h'
    exact ⟨scanString_rest h, rfl⟩
  · rename_i e h'
    rw [h] at h'
    cases h'

theorem readLiteral_append {bs : List UInt8} (word : List UInt8) (v : Json) (rest : List UInt8)
    (p : (word ++ rest).length < bs.length) :
    Rest.forget (readLiteral word v ⟨word ++ rest, p⟩) = .ok (v, rest) := by
  simp [readLiteral, Rest.forget]

theorem readNumber_of_scanNumber {bs t r : List UInt8} {b : UInt8} {st : NumState} (p : t.length < bs.length)
    {r' : List UInt8} (h : scanNumber st t = .ok (r, r')) :
    Rest.forget (readNumber b st ⟨t, p⟩) = .ok (.number (b :: r), r') := by
  unfold readNumber
  split
  · rename_i t₁ r₁ h₁
    rw [h] at h₁
    cases h₁
    rfl
  · rename_i e h₁
    rw [h] at h₁
    cases h₁

theorem isNumber_spec {t : List UInt8} (h : isNumber t = true) : scanNumber .start t = .ok (t, []) := by
  unfold isNumber at h
  split at h
  · rename_i t' h'
    have := scanNumber_eq_append h'
    rw [List.append_nil] at this
    rwa [this] at h'
  · cases h

/-- A number starts with `-` or a digit: not with white space, nor with a
byte that starts another value or closes one. -/
theorem start_step_some {b : UInt8} (h : (NumState.start.step b).isSome = true) :
    isSpace b = false ∧ b ≠ 0x5d ∧ b ≠ 0x7d ∧ b ≠ 0x7b ∧ b ≠ 0x5b ∧ b ≠ 0x22 ∧ b ≠ 0x74 ∧ b ≠ 0x66 ∧ b ≠ 0x6e := by
  refine forall_byte (P := fun b => (NumState.start.step b).isSome = true →
      isSpace b = false ∧ b ≠ 0x5d ∧ b ≠ 0x7d ∧ b ≠ 0x7b ∧ b ≠ 0x5b ∧ b ≠ 0x22 ∧ b ≠ 0x74 ∧ b ≠ 0x66 ∧ b ≠ 0x6e)
    ?_ b h
  decide +kernel

/-- A valid value's text starts with a byte that is neither white space nor
`]`. -/
theorem encode_head (v : Json) (hv : v.valid = true) :
    ∃ c t, v.encode = c :: t ∧ isSpace c = false ∧ c ≠ 0x5d := by
  match v with
  | .null => exact ⟨_, _, rfl, by decide, by decide⟩
  | .bool true => exact ⟨_, _, rfl, by decide, by decide⟩
  | .bool false => exact ⟨_, _, rfl, by decide, by decide⟩
  | .string s => exact ⟨_, _, rfl, by decide, by decide⟩
  | .array [] => exact ⟨_, _, rfl, by decide, by decide⟩
  | .array (_ :: _) => exact ⟨_, _, rfl, by decide, by decide⟩
  | .object [] => exact ⟨_, _, rfl, by decide, by decide⟩
  | .object (_ :: _) => exact ⟨_, _, rfl, by decide, by decide⟩
  | .number t =>
    have hn := isNumber_spec hv
    match t, hn with
    | [], hn => simp [scanNumber, NumState.final] at hn
    | c :: t, hn =>
      simp only [scanNumber] at hn
      split at hn
      · rename_i st hst
        obtain ⟨h1, h2, -⟩ := start_step_some (by rw [hst]; rfl)
        exact ⟨c, t, rfl, h1, h2⟩
      · simp [NumState.final] at hn

/-! ### The reader, one token at a time -/

theorem readValue_lbrace {depth : Nat} (hd : depth < maxNestingDepth) (r : List UInt8) :
    Rest.forget (readValue depth (0x7b :: r)) = Rest.forget (readObject (depth + 1) r) := by
  rw [readValue, nextByte_cons (by decide)]
  simp [hd]

theorem readValue_lbracket {depth : Nat} (hd : depth < maxNestingDepth) (r : List UInt8) :
    Rest.forget (readValue depth (0x5b :: r)) = Rest.forget (readArray (depth + 1) r) := by
  rw [readValue, nextByte_cons (by decide)]
  simp [hd]

theorem readValue_quote (depth : Nat) (r : List UInt8) :
    Rest.forget (readValue depth (0x22 :: r)) = (fun x => (Json.string x.1, x.2.1)) <$> readString r := by
  rw [readValue, nextByte_cons (by decide)]
  simp only [show (0x22 : UInt8) ≠ 0x7b by decide, show (0x22 : UInt8) ≠ 0x5b by decide, if_false, if_true]
  cases readString r <;> rfl

theorem readValue_literal {depth : Nat} {b : UInt8} {word : List UInt8} {v : Json}
    (hb : (b = 0x74 ∧ word = [0x72, 0x75, 0x65] ∧ v = .bool true) ∨
      (b = 0x66 ∧ word = [0x61, 0x6c, 0x73, 0x65] ∧ v = .bool false) ∨ (b = 0x6e ∧ word = [0x75, 0x6c, 0x6c] ∧ v = .null))
    (r : List UInt8) :
    Rest.forget (readValue depth (b :: r)) = Rest.forget (@readLiteral (b :: r) word v ⟨r, Nat.lt_succ_self r.length⟩) := by
  rcases hb with ⟨rfl, rfl, rfl⟩ | ⟨rfl, rfl, rfl⟩ | ⟨rfl, rfl, rfl⟩ <;>
    · rw [readValue, nextByte_cons (by decide)]
      simp

theorem readValue_number {depth : Nat} {b : UInt8} {st : NumState} (hst : NumState.start.step b = some st)
    (r : List UInt8) : Rest.forget (readValue depth (b :: r)) =
      Rest.forget (@readNumber (b :: r) b st ⟨r, Nat.lt_succ_self r.length⟩) := by
  obtain ⟨hsp, -, -, h1, h2, h3, h4, h5, h6⟩ := start_step_some (by rw [hst]; rfl)
  rw [readValue, nextByte_cons hsp]
  simp only [h1, h2, h3, h4, h5, h6, hst, if_false]

theorem readArray_close (depth : Nat) (r : List UInt8) :
    Rest.forget (readArray depth (0x5d :: r)) = .ok (.array [], r) := by
  rw [readArray, nextByte_cons (by decide)]
  rfl

theorem readArray_items {depth : Nat} {c : UInt8} (hc : isSpace c = false) (hne : c ≠ 0x5d) (t : List UInt8) :
    Rest.forget (readArray depth (c :: t)) = Rest.forget (readItems depth [] (c :: t)) := by
  rw [readArray, nextByte_cons hc]
  simp [hne]

/-- An item followed by `]` ends the array. -/
theorem readItems_last {depth : Nat} {acc : List Json} {bs r : List UInt8} {v : Json}
    (h : Rest.forget (readValue depth bs) = .ok (v, 0x5d :: r)) :
    Rest.forget (readItems depth acc bs) = .ok (.array (acc ++ [v]), r) := by
  obtain ⟨p, hp⟩ := Rest.forget_eq_ok h
  rw [readItems, hp]
  simp only [nextByte_cons (show isSpace 0x5d = false by decide)]
  rfl

/-- An item followed by `,` goes on to the next. -/
theorem readItems_next {depth : Nat} {acc : List Json} {bs r : List UInt8} {v : Json}
    (h : Rest.forget (readValue depth bs) = .ok (v, 0x2c :: r)) :
    Rest.forget (readItems depth acc bs) = Rest.forget (readItems depth (acc ++ [v]) r) := by
  obtain ⟨p, hp⟩ := Rest.forget_eq_ok h
  rw [readItems, hp]
  simp only [nextByte_cons (show isSpace 0x2c = false by decide), if_true]
  exact Rest.forget_widen _ _

theorem readObject_close (depth : Nat) (r : List UInt8) :
    Rest.forget (readObject depth (0x7d :: r)) = .ok (.object [], r) := by
  rw [readObject, nextByte_cons (by decide)]
  rfl

theorem readObject_members (depth : Nat) (t : List UInt8) :
    Rest.forget (readObject depth (0x22 :: t)) = Rest.forget (readMembers depth [] (0x22 :: t)) := by
  rw [readObject, nextByte_cons (by decide)]
  simp

/-- A key, `:` and a value followed by `}` end the object. -/
theorem readMembers_last {depth : Nat} {acc : List (List UInt8 × Json)} {r r₂ r₄ k : List UInt8} {v : Json}
    (hk : scanString r = .ok (k, 0x3a :: r₂)) (hv : Rest.forget (readValue depth r₂) = .ok (v, 0x7d :: r₄)) :
    Rest.forget (readMembers depth acc (0x22 :: r)) = .ok (.object (acc ++ [(k, v)]), r₄) := by
  obtain ⟨p, hp⟩ := readString_of_scanString hk
  obtain ⟨q, hq⟩ := Rest.forget_eq_ok hv
  rw [readMembers, nextByte_cons (by decide)]
  simp only [if_true, hp, nextByte_cons (show isSpace 0x3a = false by decide), hq,
    nextByte_cons (show isSpace 0x7d = false by decide)]
  rfl

/-- A key, `:` and a value followed by `,` go on to the next member. -/
theorem readMembers_next {depth : Nat} {acc : List (List UInt8 × Json)} {r r₂ r₄ k : List UInt8} {v : Json}
    (hk : scanString r = .ok (k, 0x3a :: r₂)) (hv : Rest.forget (readValue depth r₂) = .ok (v, 0x2c :: r₄)) :
    Rest.forget (readMembers depth acc (0x22 :: r)) = Rest.forget (readMembers depth (acc ++ [(k, v)]) r₄) := by
  obtain ⟨p, hp⟩ := readString_of_scanString hk
  obtain ⟨q, hq⟩ := Rest.forget_eq_ok hv
  rw [readMembers, nextByte_cons (by decide)]
  simp only [if_true, hp, nextByte_cons (show isSpace 0x3a = false by decide), hq,
    nextByte_cons (show isSpace 0x2c = false by decide)]
  exact Rest.forget_widen _ _

/-! ### The round trip -/

mutual
/-- A valid value reads back from its text, inside any depth its nesting fits
under, whatever follows it that a number cannot go on with. -/
theorem readValue_encode : ∀ (v : Json) (depth : Nat) (rest : List UInt8), v.valid = true →
    depth + v.depth ≤ maxNestingDepth → Stops rest → Rest.forget (readValue depth (v.encode ++ rest)) = .ok (v, rest)
  | .null, _, rest, _, _, _ =>
    (readValue_literal (Or.inr (Or.inr ⟨rfl, rfl, rfl⟩)) _).trans (readLiteral_append _ _ rest _)
  | .bool true, _, rest, _, _, _ =>
    (readValue_literal (Or.inl ⟨rfl, rfl, rfl⟩) _).trans (readLiteral_append _ _ rest _)
  | .bool false, _, rest, _, _, _ =>
    (readValue_literal (Or.inr (Or.inl ⟨rfl, rfl, rfl⟩)) _).trans (readLiteral_append _ _ rest _)
  | .number t, depth, rest, hv, _, hrest => by
    have hn := isNumber_spec hv
    match t, hn with
    | [], hn => simp [scanNumber, NumState.final] at hn
    | c :: t, hn =>
      simp only [scanNumber] at hn
      split at hn
      · rename_i st hst
        obtain ⟨⟨t', r'⟩, h', he⟩ := map_eq_ok hn
        simp only [Prod.mk.injEq, List.cons.injEq, true_and] at he
        obtain ⟨rfl, rfl⟩ := he
        rw [encode, List.cons_append, readValue_number hst]
        exact readNumber_of_scanNumber _ (scanNumber_append h' hrest)
      · simp [NumState.final] at hn
  | .string s, depth, rest, _, _, _ => by
    rw [encode, quote, List.cons_append, readValue_quote, List.append_assoc, List.singleton_append]
    obtain ⟨p, hp⟩ := readString_of_scanString (scanString_quote s rest)
    rw [hp]
    rfl
  | .array [], depth, rest, _, hd, _ => by
    rw [encode, List.cons_append, readValue_lbracket (by simp [Json.depth] at hd; omega)]
    exact readArray_close _ _
  | .array (w :: ws), depth, rest, hv, hd, hrest => by
    simp only [valid, validItems, Bool.and_eq_true] at hv
    simp only [Json.depth, depthItems] at hd
    obtain ⟨c, t, hct, hc, hne⟩ := encode_head w hv.1
    rw [encode, List.cons_append, readValue_lbracket (by omega), List.append_assoc, hct, List.cons_append,
      readArray_items hc hne, ← List.cons_append, ← hct]
    exact readItems_encode w ws [] (depth + 1) rest (by simp [validItems, hv.1, hv.2])
      (by simp only [depthItems]; omega) hrest
  | .object [], depth, rest, _, hd, _ => by
    rw [encode, List.cons_append, readValue_lbrace (by simp [Json.depth] at hd; omega)]
    exact readObject_close _ _
  | .object ((k, w) :: ms), depth, rest, hv, hd, hrest => by
    simp only [Json.depth, depthMembers] at hd
    have e : quote k ++ 0x3a :: (w.encode ++ encodeMembers ms) ++ rest =
        0x22 :: (k.flatMap escapeByte ++ 0x22 :: 0x3a :: (w.encode ++ (encodeMembers ms ++ rest))) := by
      simp [quote]
    rw [encode, List.cons_append, readValue_lbrace (by omega), e, readObject_members]
    exact readMembers_encode k w ms [] (depth + 1) rest (by simpa [valid] using hv)
      (by simp only [depthMembers]; omega) hrest
termination_by v => sizeOf v

/-- Items after those in `acc`, as `encode` writes them after `[`, read back. -/
theorem readItems_encode : ∀ (w : Json) (ws acc : List Json) (depth : Nat) (rest : List UInt8),
    validItems (w :: ws) = true → depth + depthItems (w :: ws) ≤ maxNestingDepth → Stops rest →
    Rest.forget (readItems depth acc (w.encode ++ (encodeItems ws ++ rest))) = .ok (.array (acc ++ w :: ws), rest)
  | w, [], acc, depth, rest, hv, hd, _ => by
    simp only [validItems, Bool.and_eq_true] at hv
    simp only [depthItems] at hd
    have hw := readValue_encode w depth (0x5d :: rest) hv.1 (by omega) (stops_cons (by decide) _)
    rw [encodeItems, List.singleton_append]
    exact readItems_last hw
  | w, x :: xs, acc, depth, rest, hv, hd, hrest => by
    simp only [validItems, Bool.and_eq_true] at hv
    simp only [depthItems] at hd
    have hw := readValue_encode w depth (0x2c :: (x.encode ++ (encodeItems xs ++ rest))) hv.1 (by omega)
      (stops_cons (by decide) _)
    rw [encodeItems, List.cons_append, List.append_assoc, readItems_next hw,
      readItems_encode x xs (acc ++ [w]) depth rest (by simp [validItems, hv.2.1, hv.2.2]) (by simp only [depthItems]; omega) hrest]
    simp
termination_by w ws => sizeOf w + sizeOf ws

/-- Members after those in `acc`, as `encode` writes them after `{`, read back. -/
theorem readMembers_encode : ∀ (k : List UInt8) (w : Json) (ms acc : List (List UInt8 × Json)) (depth : Nat)
    (rest : List UInt8), validMembers ((k, w) :: ms) = true → depth + depthMembers ((k, w) :: ms) ≤ maxNestingDepth →
    Stops rest → Rest.forget (readMembers depth acc (0x22 :: (k.flatMap escapeByte ++ 0x22 :: 0x3a ::
      (w.encode ++ (encodeMembers ms ++ rest))))) = .ok (.object (acc ++ (k, w) :: ms), rest)
  | k, w, [], acc, depth, rest, hv, hd, _ => by
    simp only [validMembers, Bool.and_eq_true] at hv
    simp only [depthMembers] at hd
    have hw := readValue_encode w depth (0x7d :: rest) hv.1 (by omega) (stops_cons (by decide) _)
    rw [encodeMembers, List.singleton_append]
    exact readMembers_last (scanString_quote k _) hw
  | k, w, (k', x) :: xs, acc, depth, rest, hv, hd, hrest => by
    simp only [validMembers, Bool.and_eq_true] at hv
    simp only [depthMembers] at hd
    have e : encodeMembers ((k', x) :: xs) ++ rest =
        0x2c :: 0x22 :: (k'.flatMap escapeByte ++ 0x22 :: 0x3a :: (x.encode ++ (encodeMembers xs ++ rest))) := by
      simp [encodeMembers, quote]
    rw [e]
    have hw := readValue_encode w depth
      (0x2c :: 0x22 :: (k'.flatMap escapeByte ++ 0x22 :: 0x3a :: (x.encode ++ (encodeMembers xs ++ rest))))
      hv.1 (by omega) (stops_cons (by decide) _)
    rw [readMembers_next (scanString_quote k _) hw,
      readMembers_encode k' x xs (acc ++ [(k, w)]) depth rest (by simp [validMembers, hv.2.1, hv.2.2])
        (by simp only [depthMembers]; omega) hrest]
    simp
termination_by _ w ms => sizeOf w + sizeOf ms
end

/-- `Decoder.Decode` reads back what `Encoder.Encode` writes, and leaves the
newline after it. -/
theorem read_encode (v : Json) (hv : v.valid = true) (hd : v.depth ≤ maxNestingDepth) :
    read (v.encode ++ [0x0a]) = .ok (v, [0x0a]) :=
  readValue_encode v 0 [0x0a] hv (by omega) (stops_cons (by decide) _)

/-- A number's text, alone, reads as that number. -/
theorem read_number {t : List UInt8} (h : isNumber t = true) : read t = .ok (.number t, []) := by
  have := readValue_encode (.number t) 0 [] h (by simp [depth, maxNestingDepth]) (by simp [Stops])
  rwa [encode, List.append_nil] at this

/-- ` [1 ,"a\u0041"]`, read and written back compact. -/
example : (fun x => x.1.encode) <$> read [0x20, 0x5b, 0x31, 0x20, 0x2c, 0x22, 0x61, 0x5c, 0x75, 0x30, 0x30, 0x34, 0x31,
    0x22, 0x5d] = .ok [0x5b, 0x31, 0x2c, 0x22, 0x61, 0x41, 0x22, 0x5d] := by
  decide +kernel

end Json

end Go
