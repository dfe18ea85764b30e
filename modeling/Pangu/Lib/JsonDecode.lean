import Pangu.Lib.Json

/-!
# Go values to and from encoding/json

How `encoding/json` maps Go values onto `Json`. The encoder writes an integer in
decimal (`strconv.AppendUint`, `AppendInt`), a struct as an object of its
fields in declaration order, a nil pointer, map or slice as `null`, and a map's
entries sorted by the text of their keys.

The decoder stores a value into a Go location of a given type. Most mismatches
are saved and the decoding goes on: a number into a string, an object into an
integer, a number that does not fit. `Decode` then returns the first error it
saved. An error returned by a `json.Unmarshaler` or a map key's decoder stops
it at once. `DecodeM` is that state: the first saved error, and the error that
stops.

* `parseUint_formatUint`, `parseInt_formatInt`: `strconv` reads back the
  decimal it writes;
* `decodeItems_map`, `decodeEntries_map`: slices and maps read back from
  their encoding, a map with its entries in the order of its text;
* `decodeMembers_map`: a struct's members, one per field in order, store each
  field's value into it.
-/

namespace Go

namespace Json

/-! ## strconv -/

/-- `strconv.AppendUint(dst, n, 10)`: the decimal digits of `n`, after `acc`. -/
def formatUint.go (n : Nat) (acc : List UInt8) : List UInt8 :=
  if n < 10 then (n.toUInt8 + 0x30) :: acc else formatUint.go (n / 10) (((n % 10).toUInt8 + 0x30) :: acc)
termination_by n
decreasing_by omega

def formatUint (n : Nat) : List UInt8 := formatUint.go n []

/-- `strconv.AppendInt(dst, i, 10)`. -/
def formatInt (i : Int) : List UInt8 := if i < 0 then 0x2d :: formatUint i.natAbs else formatUint i.toNat

/-- The value of a run of decimal digits. -/
def digitsValue (s : List UInt8) : Nat := s.foldl (fun acc d => acc * 10 + (d.toNat - 0x30)) 0

/-- A non-empty run of decimal digits, and its value. -/
def parseDigits (s : List UInt8) : Option Nat := if s ≠ [] ∧ s.all isDigit then some (digitsValue s) else none

/-- `strconv.ParseUint(s, 10, 64)`, whose error the decoder does not read:
digits whose value is below `2^64`. -/
def parseUint (s : List UInt8) : Option Nat := (parseDigits s).filter (· < 2 ^ 64)

/-- `strconv.ParseInt(s, 10, 64)`: a sign, then digits within `int64`. -/
def parseInt : List UInt8 → Option Int
  | [] => none
  | c :: t =>
    if c = 0x2d then (parseDigits t).bind fun n => if n ≤ 2 ^ 63 then some (-(n : Int)) else none
    else if c = 0x2b then (parseDigits t).bind fun n => if n < 2 ^ 63 then some (n : Int) else none
    else (parseDigits (c :: t)).bind fun n => if n < 2 ^ 63 then some (n : Int) else none

theorem digitsValue_append (s t : List UInt8) :
    digitsValue (s ++ t) = t.foldl (fun acc d => acc * 10 + (d.toNat - 0x30)) (digitsValue s) := by
  simp [digitsValue, List.foldl_append]

theorem digitsValue_cons_foldl (t : List UInt8) (a : Nat) :
    t.foldl (fun acc d => acc * 10 + (d.toNat - 0x30)) a = a * 10 ^ t.length + digitsValue t := by
  induction t generalizing a with
  | nil => simp [digitsValue]
  | cons d t ih =>
    simp only [digitsValue, List.foldl_cons] at ih ⊢
    rw [ih, ih (0 * 10 + (d.toNat - 0x30)), List.length_cons, pow_succ]
    ring

theorem isDigit_digit (n : Nat) (h : n < 10) : isDigit (n.toUInt8 + 0x30) = true := by
  have : ∀ m, m < 10 → isDigit (m.toUInt8 + 0x30) = true := by decide
  exact this n h

theorem digit_toNat (n : Nat) (h : n < 10) : (n.toUInt8 + 0x30).toNat - 0x30 = n := by
  have : ∀ m, m < 10 → (m.toUInt8 + 0x30).toNat - 0x30 = m := by decide
  exact this n h

theorem digit_eq_zero (n : Nat) (h : n < 10) (he : n.toUInt8 + 0x30 = 0x30) : n = 0 := by
  have : ∀ m, m < 10 → m.toUInt8 + 0x30 = 0x30 → m = 0 := by decide
  exact this n h he

/-- What `formatUint.go` writes: digits, whose value is `n` before those of
`acc`, led by a digit other than `0` unless `n` is. -/
theorem formatUint.go_spec (n : Nat) (acc : List UInt8) :
    ∃ d t, formatUint.go n acc = d :: t ∧ (n ≠ 0 → d ≠ 0x30) ∧ ((d :: t).all isDigit = (isDigit d && acc.all isDigit)) ∧
      isDigit d = true ∧ digitsValue (d :: t) = n * 10 ^ acc.length + digitsValue acc := by
  fun_induction formatUint.go n acc with
  | case1 n acc hn =>
    refine ⟨_, acc, rfl, fun h0 he => h0 (digit_eq_zero n hn he), by simp, isDigit_digit n hn, ?_⟩
    rw [show (n.toUInt8 + 0x30) :: acc = [n.toUInt8 + 0x30] ++ acc from rfl, digitsValue_append,
      digitsValue_cons_foldl]
    simp [digitsValue]
    omega
  | case2 n acc hn ih =>
    obtain ⟨d, t, h, hd, hall, hdig, hv⟩ := ih
    refine ⟨d, t, h, fun _ => hd (by omega), ?_, hdig, ?_⟩
    · rw [hall]
      simp [isDigit_digit _ (Nat.mod_lt n (by omega)), hdig]
    · rw [hv, show ((n % 10).toUInt8 + 0x30) :: acc = [(n % 10).toUInt8 + 0x30] ++ acc from rfl, digitsValue_append,
        digitsValue_cons_foldl]
      simp only [digitsValue, List.foldl_cons, List.foldl_nil, List.length_cons, List.length_append,
        List.length_nil, digit_toNat _ (Nat.mod_lt n (by omega))]
      -- the digits of `n / 10`, then the last digit of `n`
      have hn' : n = 10 * (n / 10) + n % 10 := (Nat.div_add_mod n 10).symm
      conv_rhs => rw [hn']
      ring

theorem formatUint_spec (n : Nat) :
    ∃ d t, formatUint n = d :: t ∧ (n ≠ 0 → d ≠ 0x30) ∧ (d :: t).all isDigit = true ∧ digitsValue (d :: t) = n := by
  obtain ⟨d, t, h, hd, hall, hdig, hv⟩ := formatUint.go_spec n []
  exact ⟨d, t, h, hd, by simpa [hdig] using hall, by simpa [digitsValue] using hv⟩

theorem parseDigits_formatUint (n : Nat) : parseDigits (formatUint n) = some n := by
  obtain ⟨d, t, he, -, hall, hv⟩ := formatUint_spec n
  rw [he, parseDigits, if_pos ⟨List.cons_ne_nil d t, hall⟩, hv]

/-- `strconv` reads back the decimal it writes. -/
theorem parseUint_formatUint {n : Nat} (h : n < 2 ^ 64) : parseUint (formatUint n) = some n := by
  simpa [parseUint, parseDigits_formatUint] using h

/-- The first byte of a decimal is a digit, so no sign. -/
theorem formatUint_head_ne_sign (n : Nat) : ∃ d t, formatUint n = d :: t ∧ d ≠ 0x2d ∧ d ≠ 0x2b := by
  obtain ⟨d, t, he, -, hall, -⟩ := formatUint_spec n
  have hdig : isDigit d = true := by simp at hall; exact hall.1
  exact ⟨d, t, he, by rintro rfl; simp [isDigit] at hdig, by rintro rfl; simp [isDigit] at hdig⟩

theorem parseInt_formatInt {i : Int} (h₁ : -2 ^ 63 ≤ i) (h₂ : i < 2 ^ 63) : parseInt (formatInt i) = some i := by
  unfold formatInt
  split_ifs with hi
  · simp only [parseInt, if_true, parseDigits_formatUint, Option.bind_some]
    rw [if_pos (by omega)]
    congr 1
    omega
  · obtain ⟨d, t, he, h1, h2⟩ := formatUint_head_ne_sign i.toNat
    rw [he, parseInt, if_neg h1, if_neg h2, ← he, parseDigits_formatUint, Option.bind_some, if_pos (by omega)]
    congr 1
    omega

/-- A run of digits is a number's text when it has no leading `0`. -/
theorem scanNumber_int_digits (t : List UInt8) (h : t.all isDigit = true) : scanNumber .int t = .ok (t, []) := by
  induction t with
  | nil => rfl
  | cons d t ih =>
    simp only [List.all_cons, Bool.and_eq_true] at h
    simp only [scanNumber, NumState.step, h.1, if_true, ih h.2]
    rfl

/-- A digit other than `0` starts the integer digits, with or without `-`. -/
theorem step_digit {d : UInt8} (hd : isDigit d = true) (h0 : d ≠ 0x30) :
    NumState.start.step d = some .int ∧ NumState.neg.step d = some .int := by
  have hm : d ≠ 0x2d := by rintro rfl; simp [isDigit] at hd
  simp [NumState.step, hd, h0, hm]

theorem isNumber_formatUint (n : Nat) : isNumber (formatUint n) = true := by
  obtain ⟨d, t, he, hd, hall, -⟩ := formatUint_spec n
  simp only [List.all_cons, Bool.and_eq_true] at hall
  by_cases h0 : d = 0x30
  · -- a leading `0` is `0` itself
    have hn : n = 0 := by by_contra hn; exact hd hn h0
    subst hn
    decide +kernel
  · rw [he, isNumber]
    simp only [scanNumber, (step_digit hall.1 h0).1, scanNumber_int_digits t hall.2]
    rfl

theorem isNumber_formatInt (i : Int) : isNumber (formatInt i) = true := by
  unfold formatInt
  split_ifs with hi
  · obtain ⟨d, t, he, hd, hall, -⟩ := formatUint_spec i.natAbs
    simp only [List.all_cons, Bool.and_eq_true] at hall
    have h0 : d ≠ 0x30 := hd (by omega)
    rw [he, isNumber]
    simp only [scanNumber, show NumState.start.step 0x2d = some .neg from rfl, (step_digit hall.1 h0).2,
      scanNumber_int_digits t hall.2]
    rfl
  · exact isNumber_formatUint _

/-! ## math/big -/

/-- The text of bytes, for messages. -/
def bytesText (t : List UInt8) : String := String.ofList (t.map fun b => Char.ofNat b.toNat)

/-- `(*big.Int).SetString(s, 0)` on the text of a JSON value: a sign and
decimal digits, of any size. A JSON number has no base prefix, and no leading
`0` unless it is `0`, so no other base is ever read. -/
def parseBig : List UInt8 → Option Int
  | [] => none
  | c :: t =>
    if c = 0x2d then (fun n => -(n : Int)) <$> parseDigits t
    else if c = 0x2b then (fun n => (n : Int)) <$> parseDigits t
    else (fun n => (n : Int)) <$> parseDigits (c :: t)

/-- `(*big.Int).MarshalJSON()` of a non-nil integer: its decimal text. -/
def bigIntMarshalJSON (i : Int) : List UInt8 := formatInt i

/-- `(*big.Int).UnmarshalJSON(text)` of a text other than `null`, which the
decoder never hands it. -/
def bigIntUnmarshalJSON (text : List UInt8) : Except String Int :=
  match parseBig text with
  | some i => .ok i
  | none => .error ("math/big: cannot unmarshal \"" ++ bytesText text ++ "\" into a *big.Int")

theorem parseBig_formatInt (i : Int) : parseBig (formatInt i) = some i := by
  unfold formatInt
  split_ifs with hi
  · simp only [parseBig, if_true, parseDigits_formatUint]
    exact congrArg some (show -(i.natAbs : Int) = i by omega)
  · obtain ⟨d, t, he, h1, h2⟩ := formatUint_head_ne_sign i.toNat
    rw [he, parseBig, if_neg h1, if_neg h2, ← he, parseDigits_formatUint]
    exact congrArg some (show (i.toNat : Int) = i by omega)

/-- `math/big` reads back the JSON it writes. -/
theorem bigIntUnmarshalJSON_marshalJSON (i : Int) : bigIntUnmarshalJSON (bigIntMarshalJSON i) = .ok i := by
  rw [bigIntUnmarshalJSON, bigIntMarshalJSON, parseBig_formatInt]

/-! ## The decoder's state -/

/-- A decoding: it stops at an error, and keeps the first type error it saves. -/
abbrev DecodeM := StateT (Option String) (Except String)

/-- `d.saveError(err)`: the first saved error stays. -/
def saveError (e : String) : DecodeM Unit := modify fun saved => saved <|> some e

/-- `d.unmarshal`'s end: the value, unless an error stopped the decoding or
one was saved. -/
def DecodeM.finish {α : Type} (m : DecodeM α) : Except String α :=
  match m.run none with
  | .ok (a, none) => .ok a
  | .ok (_, some e) => .error e
  | .error e => .error e

/-- An error that stops the decoding. -/
def stop {α : Type} (e : Except String α) : DecodeM α := StateT.lift e

@[simp] theorem DecodeM.finish_pure {α : Type} (a : α) : (pure a : DecodeM α).finish = .ok a := rfl

/-- How an `UnmarshalTypeError` names a value: its kind, and a number's text. -/
def kind : Json → String
  | .null => "null"
  | .bool _ => "bool"
  | .number t => "number " ++ bytesText t
  | .string _ => "string"
  | .array _ => "array"
  | .object _ => "object"

/-- `UnmarshalTypeError.Error()`: with the field path the decoder's context
adds inside a struct, and without it at the top. -/
def typeError (v : Json) (field goType : String) : String :=
  "json: cannot unmarshal " ++ kind v ++
    (if field = "" then " into Go value of type " else " into Go struct field " ++ field ++ " of type ") ++ goType

/-! ## Stores -/

section Stores

variable {α σ κ ν : Type}

/-- A store of a scalar (`literalStore`): what `read` takes of the value, or a
saved type error; `null` leaves the location as it is. -/
def decodeScalar (read : Json → Option α) (field goType : String) : Json → α → DecodeM α
  | .null, old => pure old
  | v, old =>
    match read v with
    | some a => pure a
    | none => do saveError (typeError v field goType); pure old

/-- What an unsigned integer of `bits` bits takes: a number `strconv.ParseUint`
reads, if it fits. -/
def readUint (bits : Nat) : Json → Option Nat
  | .number t => (parseUint t).bind fun n => if n < 2 ^ bits then some n else none
  | _ => none

/-- What an `int` takes: a number `strconv.ParseInt` reads. -/
def readInt : Json → Option Int
  | .number t => parseInt t
  | _ => none

/-- A struct's field as `encoding/json` sees it: its name, its value's JSON or
the error that stops the encoding, and its store. -/
structure StructField (σ : Type) where
  name : List UInt8
  encode : σ → Except String Json
  store : Json → σ → DecodeM σ

/-- The field of a struct `σ` that holds an `α`, read by `get` and written
by `set`: its JSON by `encode`, and `store` into what it holds. -/
def StructField.ofGet (name : List UInt8) (get : σ → α) (set : σ → α → σ) (encode : α → Except String Json)
    (store : Json → α → DecodeM α) : StructField σ :=
  ⟨name, fun s => encode (get s), fun v s => set s <$> store v (get s)⟩

/-- `structEncoder`: an object of the fields, in order; a field's error stops
it. -/
def encodeStruct (fields : List (StructField σ)) (s : σ) : Except String Json :=
  .object <$> fields.mapM fun f => (fun v => (f.name, v)) <$> f.encode s

/-- `marshalerEncoder`: a `json.Marshaler`'s output, which the encoder checks
to be one JSON value and compacts, or the error that stops the encoding. -/
def marshalerJson (goType : String) (out : List UInt8) : Except String Json :=
  match read out with
  | .ok (v, rest) =>
    if skipSpace rest = [] then .ok v
    else .error ("json: error calling MarshalJSON for type " ++ goType ++ ": invalid character after top-level value")
  | .error e => .error ("json: error calling MarshalJSON for type " ++ goType ++ ": " ++ e)

/-- `foldName`'s ASCII folding: lower-case letters to upper case. -/
def foldName (k : List UInt8) : List UInt8 := k.map fun c => if 0x61 ≤ c ∧ c ≤ 0x7a then c - 0x20 else c

/-- The field a key names: the one of exactly that name, else the first whose
name folds to the key's. -/
def StructField.lookup (fields : List (StructField σ)) (k : List UInt8) : Option (StructField σ) :=
  match fields.find? (fun f => f.name == k) with
  | some f => some f
  | none => fields.find? fun f => foldName f.name == foldName k

/-- `d.object` into a struct: each member stored, in order, into the field its
key names; a key that names no field is skipped. -/
def decodeMembers (fields : List (StructField σ)) : List (List UInt8 × Json) → σ → DecodeM σ
  | [], s => pure s
  | (k, v) :: ms, s => do
    let s ← match StructField.lookup fields k with
      | some f => f.store v s
      | none => pure s
    decodeMembers fields ms s

/-- A store into a struct: an object's members into its fields; `null` leaves
it; anything else is a saved type error. -/
def decodeStruct (fields : List (StructField σ)) (field goType : String) : Json → σ → DecodeM σ
  | .object ms, s => decodeMembers fields ms s
  | .null, s => pure s
  | v, s => do saveError (typeError v field goType); pure s

/-- A store into a pointer: `null` makes it nil; anything else is stored into
what it points to, a zero value allocated first when it is nil. -/
def decodePtr (zero : α) (decode : Json → α → DecodeM α) : Json → Option α → DecodeM (Option α)
  | .null, _ => pure none
  | v, p => some <$> decode v (p.getD zero)

/-- A `json.Unmarshaler`'s store: its `UnmarshalJSON` of the value's text,
whose error stops the decoding. -/
def decodeUnmarshaler (unmarshalJSON : List UInt8 → Except String α) (v : Json) (_ : α) : DecodeM α :=
  stop (unmarshalJSON v.encode)

/-- `d.array` into a slice: item `i` stored into the slice's element `i`, or
into a zero one past its end, and the slice cut to the array's length. -/
def decodeItems (zero : α) (decode : Json → α → DecodeM α) : List Json → List α → DecodeM (List α)
  | [], _ => pure []
  | v :: vs, old => do
    let a ← decode v (old.headD zero)
    let as ← decodeItems zero decode vs old.tail
    pure (a :: as)

/-- A store into a slice: an array's items; `null` makes it nil; anything else
is a saved type error. -/
def decodeSlice (zero : α) (decode : Json → α → DecodeM α) (field goType : String) :
    Json → List α → DecodeM (List α)
  | .array items, old => decodeItems zero decode items old
  | .null, _ => pure []
  | v, old => do saveError (typeError v field goType); pure old

/-- A store into a `[]byte`: a string is base64, whose error is saved; any
other value is stored as into a slice of `uint8`. -/
def decodeBytes (base64Decode : List UInt8 → Except String (List UInt8)) (field goType : String) :
    Json → List UInt8 → DecodeM (List UInt8)
  | .string s, old =>
    match base64Decode s with
    | .ok b => pure b
    | .error e => do saveError e; pure old
  | v, old => decodeSlice 0 (decodeScalar (fun v => (readUint 8 v).map Nat.toUInt8) field "uint8") field goType v old

/-- `d.object` into a map: each member's value stored into a zero element, its
key decoded (an error stops the decoding), and the pair set. -/
def decodeEntries [DecidableEq κ] (decodeKey : List UInt8 → Except String κ) (zero : ν)
    (decode : Json → ν → DecodeM ν) : List (List UInt8 × Json) → GoMap κ ν → DecodeM (GoMap κ ν)
  | [], m => pure m
  | (k, v) :: ms, m => do
    let e ← decode v zero
    let key ← stop (decodeKey k)
    decodeEntries decodeKey zero decode ms (m.set key e)

/-- A store into a map: an object's members, into the map or a new one if it
is nil; `null` makes it nil; anything else is a saved type error. -/
def decodeMap [DecidableEq κ] (decodeKey : List UInt8 → Except String κ) (zero : ν)
    (decode : Json → ν → DecodeM ν) (field goType : String) :
    Json → Option (GoMap κ ν) → DecodeM (Option (GoMap κ ν))
  | .object ms, m => some <$> decodeEntries decodeKey zero decode ms (m.getD ∅)
  | .null, _ => pure none
  | v, m => do saveError (typeError v field goType); pure m

/-- A map as the encoder writes it: its entries' keys as text, sorted by that
text (`strings.Compare`, bytewise). -/
def encodeMap (keyText : κ → List UInt8) (encodeValue : ν → Json) (m : GoMap κ ν) : Json :=
  .object ((m.entries.map fun e => (keyText e.1, encodeValue e.2)).mergeSort fun a b => decide (a.1 ≤ b.1))

/-- A map's entries in the order `encodeMap` writes them. -/
def sortedEntries (keyText : κ → List UInt8) (m : GoMap κ ν) : List (Σ _ : κ, ν) :=
  m.entries.mergeSort fun a b => decide (keyText a.1 ≤ keyText b.1)

/-- The map that reads back from `encodeMap`: its entries set one by one into
an empty map, in the order they are written. It has the entries of the map
written (`find?_normalizeMap`), in another order. -/
def normalizeMap [DecidableEq κ] (keyText : κ → List UInt8) (m : GoMap κ ν) : GoMap κ ν :=
  (sortedEntries keyText m).foldl (fun m e => m.set e.1 e.2) ∅

end Stores

/-! ## Reading back -/

section RoundTrip

variable {α σ κ ν : Type}

theorem decodeScalar_of_read {read : Json → Option α} {field goType : String} {v : Json} {a : α}
    (hv : v ≠ .null) (h : read v = some a) (old : α) : decodeScalar read field goType v old = pure a := by
  unfold decodeScalar
  split
  · exact absurd rfl hv
  · rw [h]

theorem readUint_formatUint {bits n : Nat} (h : n < 2 ^ bits) (hb : bits ≤ 64) :
    readUint bits (.number (formatUint n)) = some n := by
  have h64 : n < 2 ^ 64 := lt_of_lt_of_le h (Nat.pow_le_pow_right (by omega) hb)
  simp [readUint, parseUint_formatUint h64, h]

/-- Items written one by one read back one by one into a nil slice, each as
its own decoding into a zero element gives it. -/
theorem decodeItems_map {zero : α} {decode : Json → α → DecodeM α} {enc : α → Json} {f : α → α} :
    ∀ (as : List α), (∀ a ∈ as, decode (enc a) zero = pure (f a)) →
      decodeItems zero decode (as.map enc) [] = pure (as.map f)
  | [], _ => rfl
  | a :: as, h => by
    simp only [List.map_cons, decodeItems, List.headD_nil, List.tail_nil, h a List.mem_cons_self,
      decodeItems_map as (fun a' ha' => h a' (List.mem_cons_of_mem a ha')), pure_bind]

/-- Entries written one by one, keys as text, read back into the map one by
one, in the order they are written. -/
theorem decodeEntries_map [DecidableEq κ] {decodeKey : List UInt8 → Except String κ} {zero : ν}
    {decode : Json → ν → DecodeM ν} {keyText : κ → List UInt8} {enc : ν → Json} :
    ∀ (l : List (Σ _ : κ, ν)) (m : GoMap κ ν), (∀ e ∈ l, decodeKey (keyText e.1) = .ok e.1) →
      (∀ e ∈ l, decode (enc e.2) zero = pure e.2) →
      decodeEntries decodeKey zero decode (l.map fun e => (keyText e.1, enc e.2)) m =
        pure (l.foldl (fun m e => m.set e.1 e.2) m)
  | [], _, _, _ => rfl
  | e :: l, m, hk, hv => by
    simp only [List.map_cons, decodeEntries, hv e List.mem_cons_self, hk e List.mem_cons_self, stop, pure_bind,
      List.foldl_cons]
    exact decodeEntries_map l _ (fun e' he' => hk e' (List.mem_cons_of_mem e he'))
      (fun e' he' => hv e' (List.mem_cons_of_mem e he'))

theorem encodeMap_eq (keyText : κ → List UInt8) (enc : ν → Json) (m : GoMap κ ν) :
    encodeMap keyText enc m = .object ((sortedEntries keyText m).map fun e => (keyText e.1, enc e.2)) := by
  rw [encodeMap, sortedEntries, List.map_mergeSort]
  intro a _ b _
  rfl

/-- `encodeMap` writes valid JSON when each value it writes is. -/
theorem valid_encodeMap {keyText : κ → List UInt8} {enc : ν → Json} (m : GoMap κ ν)
    (h : ∀ v, (enc v).valid = true) : (encodeMap keyText enc m).valid = true := by
  rw [encodeMap_eq, valid, validMembers_eq_true]
  intro _ hm
  obtain ⟨e, -, rfl⟩ := List.mem_map.mp hm
  exact h e.2

/-- `encodeMap` nests one level deeper than the values it writes. -/
theorem depth_encodeMap {keyText : κ → List UInt8} {enc : ν → Json} {d : Nat} (m : GoMap κ ν)
    (h : ∀ v, (enc v).depth ≤ d) : (encodeMap keyText enc m).depth ≤ d + 1 := by
  rw [encodeMap_eq, depth, Nat.add_le_add_iff_right, depthMembers_le]
  intro _ hm
  obtain ⟨e, -, rfl⟩ := List.mem_map.mp hm
  exact h e.2

/-- A map written by `encodeMap` reads back, into a nil or empty map, as its
normal form. -/
theorem decodeMap_encodeMap [DecidableEq κ] {decodeKey : List UInt8 → Except String κ} {zero : ν}
    {decode : Json → ν → DecodeM ν} {keyText : κ → List UInt8} {enc : ν → Json} {field goType : String}
    {m : GoMap κ ν} (hk : ∀ e ∈ m.entries, decodeKey (keyText e.1) = .ok e.1)
    (hv : ∀ e ∈ m.entries, decode (enc e.2) zero = pure e.2) {old : Option (GoMap κ ν)} (hold : old.getD ∅ = ∅) :
    decodeMap decodeKey zero decode field goType (encodeMap keyText enc m) old =
      pure (some (normalizeMap keyText m)) := by
  have hmem : ∀ e, e ∈ sortedEntries keyText m ↔ e ∈ m.entries := fun e => List.mem_mergeSort
  rw [encodeMap_eq, decodeMap, hold,
    decodeEntries_map _ _ (fun e he => hk e ((hmem e).mp he)) (fun e he => hv e ((hmem e).mp he))]
  rfl

/-- Setting entries with distinct keys one by one: a key reads as its entry,
or as before when none has it. -/
theorem find?_foldl_set [DecidableEq κ] (k : κ) :
    ∀ (l : List (Σ _ : κ, ν)) (m : GoMap κ ν), l.NodupKeys →
      GoMap.find? (l.foldl (fun m e => m.set e.1 e.2) m) k = (l.dlookup k).or (m.find? k)
  | [], _, _ => rfl
  | e :: l, m, hnd => by
    rw [List.nodupKeys_cons] at hnd
    rw [List.foldl_cons, find?_foldl_set k l _ hnd.2]
    by_cases hk : k = e.1
    · subst hk
      rw [List.dlookup_eq_none.mpr hnd.1, GoMap.find?_set_self, List.dlookup_cons_eq]
      rfl
    · rw [GoMap.find?_set_ne _ _ hk, List.dlookup_cons_ne _ _ hk]

/-- A map of one entry is its own normal form. -/
theorem normalizeMap_set_empty [DecidableEq κ] (keyText : κ → List UInt8) (k : κ) (v : ν) :
    normalizeMap keyText ((∅ : GoMap κ ν).set k v) = (∅ : GoMap κ ν).set k v := by
  have he : ((∅ : GoMap κ ν).set k v).entries = [⟨k, v⟩] := by
    simp [GoMap.set]
  rw [normalizeMap, sortedEntries, he, List.mergeSort_singleton]
  rfl

/-- The normal form has the entries of the map. -/
theorem find?_normalizeMap [DecidableEq κ] (keyText : κ → List UInt8) (m : GoMap κ ν) (k : κ) :
    (normalizeMap keyText m).find? k = m.find? k := by
  have hperm : List.Perm (sortedEntries keyText m) m.entries := List.mergeSort_perm _ _
  have hnd : (sortedEntries keyText m).NodupKeys := (List.perm_nodupKeys hperm).mpr m.nodupKeys
  rw [normalizeMap, find?_foldl_set k _ _ hnd, GoMap.find?_empty, Option.or_none, List.perm_dlookup k hnd hperm]
  rfl

/-- A field's JSON, when its encoding does not fail. -/
def StructField.value (f : StructField σ) (s : σ) : Json :=
  match f.encode s with
  | .ok v => v
  | .error _ => .null

theorem StructField.encode_eq_value {f : StructField σ} {s : σ} {v : Json} (h : f.encode s = .ok v) : f.value s = v := by
  rw [StructField.value, h]

@[simp] theorem StructField.ofGet_store {name : List UInt8} {get : σ → α} {set : σ → α → σ}
    {encode : α → Except String Json} {store : Json → α → DecodeM α} (v : Json) (s : σ) :
    (StructField.ofGet name get set encode store).store v s = set s <$> store v (get s) := rfl

@[simp] theorem StructField.ofGet_value {name : List UInt8} {get : σ → α} {set : σ → α → σ}
    {encode : α → Except String Json} {store : Json → α → DecodeM α} (s : σ) :
    (StructField.ofGet name get set encode store).value s =
      match encode (get s) with
      | .ok v => v
      | .error _ => .null := rfl

/-- A struct whose fields all encode is the object of their values. -/
theorem encodeStruct_of_ok {fields : List (StructField σ)} {s : σ} (h : ∀ f ∈ fields, ∃ v, f.encode s = .ok v) :
    encodeStruct fields s = .ok (.object (fields.map fun f => (f.name, f.value s))) := by
  have hmap : ∀ gs : List (StructField σ), (∀ f ∈ gs, ∃ v, f.encode s = .ok v) →
      gs.mapM (fun f => (fun v => (f.name, v)) <$> f.encode s) = .ok (gs.map fun f => (f.name, f.value s)) := by
    intro gs
    induction gs with
    | nil => intro _; rfl
    | cons g gs ih =>
      intro hgs
      obtain ⟨v, hv⟩ := hgs g List.mem_cons_self
      rw [List.mapM_cons, hv, ih (fun f hf => hgs f (List.mem_cons_of_mem g hf)), List.map_cons,
        StructField.encode_eq_value hv]
      rfl
  rw [encodeStruct, hmap fields h]
  rfl

/-- A marshaler that writes a number's text gives that number. -/
theorem marshalerJson_number {goType : String} {t : List UInt8} (h : isNumber t = true) :
    marshalerJson goType t = .ok (.number t) := by
  simp [marshalerJson, read_number h, skipSpace]

/-- The field a key names exactly, when no two fields share a name. -/
theorem StructField.lookup_of_mem {fields : List (StructField σ)} (hnd : (fields.map (·.name)).Nodup) {f : StructField σ}
    (hf : f ∈ fields) : StructField.lookup fields f.name = some f := by
  have hfind : fields.find? (fun g => g.name == f.name) = some f := by
    induction fields with
    | nil => cases hf
    | cons g gs ih =>
      simp only [List.map_cons, List.nodup_cons, List.mem_map] at hnd
      rcases List.mem_cons.mp hf with rfl | hf'
      · simp
      · have hne : g.name ≠ f.name := fun he => hnd.1 ⟨f, hf', he.symm⟩
        simp [hne, ih hnd.2 hf']
  simp [StructField.lookup, hfind]

/-- The members of a struct written one per field, in order, store each
field's value, in order. -/
theorem decodeMembers_map {fields : List (StructField σ)} (hnd : (fields.map (·.name)).Nodup) (enc : StructField σ → Json) :
    ∀ (gs : List (StructField σ)), (∀ g ∈ gs, g ∈ fields) → ∀ s,
      decodeMembers fields (gs.map fun g => (g.name, enc g)) s = gs.foldlM (fun s g => g.store (enc g) s) s
  | [], _, _ => rfl
  | g :: gs, hgs, s => by
    simp only [List.map_cons, decodeMembers, StructField.lookup_of_mem hnd (hgs g List.mem_cons_self), List.foldlM_cons]
    congr 1
    funext s'
    exact decodeMembers_map hnd enc gs (fun g' hg' => hgs g' (List.mem_cons_of_mem g hg')) s'

end RoundTrip

end Json

end Go
