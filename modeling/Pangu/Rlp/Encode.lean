import Pangu.Lib.Rlp
import Pangu.Common.Types

/-!
# The reflective RLP encoder

`rlp.Encode` (`rlp/encode.go`, `rlp/typecache.go`) works from the Go type of
its argument: `makeWriter` builds a writer for the type, failing for a kind RLP
has no encoding for (a map, a signed integer), and the writer then walks the
value. A struct's writer needs one for every field, a pointer's and a slice's
one for the element, so a map anywhere inside a type makes the whole type
unencodable; a writer itself fails only on a negative `*big.Int`.

`GoType` and `GoValue` are the reflected types and values these models pass to
the encoder. A map value carries no entries: the encoder rejects its type
before it could look at them.

* `rlpEncode_eq`: on success the bytes are `Rlp.encode` of the item `writeValue`
  builds;
* `rlpEncode_of_makeWriter_error`: a type with no writer fails before writing.
-/

namespace Pangu

/-- A Go type as the encoder classifies it. `uint` stands for every unsigned
integer kind, `bytes` for `[]byte`, `slice` for slices of anything else. -/
inductive GoType where
  | uint
  | bool
  | bytes
  | byteArray (n : Nat)
  | bigIntPtr
  | ptr (elem : GoType)
  | slice (elem : GoType)
  | struct (fields : List GoType)
  | iface
  | map (key val : GoType)
  | int

/-- A Go value with its type. -/
inductive GoValue where
  | uint (n : Nat)
  | bool (b : Bool)
  | bytes (b : Bytes)
  | byteArray (b : Bytes)
  | bigIntPtr (v : Option Int)
  | ptr (elem : GoType) (v : Option GoValue)
  | slice (elem : GoType) (vs : List GoValue)
  | struct (fields : List GoType) (vs : List GoValue)
  | iface (v : Option GoValue)
  | map (key val : GoType)
  | int (i : Int)

/-- `reflect.Value.Type()`. -/
def GoValue.type : GoValue → GoType
  | .uint _ => .uint
  | .bool _ => .bool
  | .bytes _ => .bytes
  | .byteArray b => .byteArray b.length
  | .bigIntPtr _ => .bigIntPtr
  | .ptr t _ => .ptr t
  | .slice t _ => .slice t
  | .struct ts _ => .struct ts
  | .iface _ => .iface
  | .map k v => .map k v
  | .int _ => .int

/-- `DefaultNilValue`: a nil pointer to an integer, a boolean or a byte
sequence is written as an empty string, any other as an empty list. -/
def GoType.nilIsString : GoType → Bool
  | .uint | .bool | .bytes | .byteArray _ => true
  | _ => false

def errNotSerializable : String := "rlp: type is not RLP-serializable"
def errNegativeBigInt : String := "rlp: cannot encode negative big.Int"

mutual
/-- `makeWriter` (through `cachedWriter`): whether the type has a writer. -/
def makeWriter : GoType → Except String Unit
  | .map _ _ | .int => .error errNotSerializable
  | .ptr t | .slice t => makeWriter t
  | .struct fs => makeWriterFields fs
  | _ => .ok ()
/-- `structFields` with `makeStructWriter`'s check of every field's writer. -/
def makeWriterFields : List GoType → Except String Unit
  | [] => .ok ()
  | t :: ts => do
    makeWriter t
    makeWriterFields ts
end

mutual
/-- The writer of a value's type, applied to it: the item it appends. Integers
are their minimal big-endian bytes; an interface is written by the writer of
the type it holds, built when it is reached. -/
def writeValue : GoValue → Except String Rlp.Item
  | .uint n => .ok (.bytes (Rlp.toBE n))
  | .bool b => .ok (.bytes (if b then [1] else []))
  | .bytes b => .ok (.bytes b)
  | .byteArray b => .ok (.bytes b)
  | .bigIntPtr none => .ok (.bytes [])
  | .bigIntPtr (some v) => if v < 0 then .error errNegativeBigInt else .ok (.bytes (Rlp.toBE v.toNat))
  | .ptr t none => .ok (if t.nilIsString then .bytes [] else .list [])
  | .ptr _ (some v) => writeValue v
  | .slice _ vs => (writeValues vs).map .list
  | .struct _ vs => (writeValues vs).map .list
  | .iface none => .ok (.list [])
  | .iface (some v) => do
    makeWriter v.type
    writeValue v
  | .map _ _ => .error errNotSerializable
  | .int _ => .error errNotSerializable
/-- The items of a slice or the fields of a struct, in order. -/
def writeValues : List GoValue → Except String (List Rlp.Item)
  | [] => .ok []
  | v :: vs => do
    let x ← writeValue v
    let xs ← writeValues vs
    .ok (x :: xs)
end

/-- `rlp.Encode(w, val)` for a writer `w` that is not an encoding buffer: the
bytes written to `w`, or the error, in which case nothing is written. -/
def rlpEncode (v : GoValue) : Except String Bytes := do
  makeWriter v.type
  let item ← writeValue v
  .ok (Rlp.encode item)

/-! ## Struct tags -/

/-- A struct field as `rlpstruct.ProcessFields` checks it: its name, and
whether its tag is `optional` (or `tail`). -/
structure FieldTag where
  name : String
  optional : Bool

/-- `TagError.Error()` for a field without `optional` after one with it. -/
def optionalTagError (structType field first : String) : String :=
  "rlp: invalid struct tag \"\" for " ++ structType ++ "." ++ field ++
    " (must be optional because preceding field \"" ++ first ++ "\" is optional)"

/-- The check that ends `rlpstruct.ProcessFields`: once a field is optional,
every later one must be. `first` is the first optional field seen so far. -/
def checkOptionalFields (structType : String) : Option String → List FieldTag → Except String Unit
  | _, [] => .ok ()
  | first, f :: fs =>
    if f.optional then checkOptionalFields structType (first <|> some f.name) fs
    else match first with
      | some o => .error (optionalTagError structType f.name o)
      | none => checkOptionalFields structType none fs

theorem rlpEncode_eq {v : GoValue} {bs : Bytes} (h : rlpEncode v = .ok bs) :
    ∃ item, writeValue v = .ok item ∧ bs = Rlp.encode item := by
  obtain ⟨_, -, h⟩ := Go.bind_eq_ok h
  obtain ⟨item, hv, h⟩ := Go.bind_eq_ok h
  exact ⟨item, hv, (Except.ok.inj h).symm⟩

theorem rlpEncode_of_makeWriter_error {v : GoValue} {e : String} (h : makeWriter v.type = .error e) :
    rlpEncode v = .error e := by
  simp [rlpEncode, h]

@[simp] theorem makeWriter_uint : makeWriter .uint = .ok () := rfl
@[simp] theorem makeWriter_bool : makeWriter .bool = .ok () := rfl
@[simp] theorem makeWriter_bytes : makeWriter .bytes = .ok () := rfl
@[simp] theorem makeWriter_byteArray (n : Nat) : makeWriter (.byteArray n) = .ok () := rfl
@[simp] theorem makeWriter_bigIntPtr : makeWriter .bigIntPtr = .ok () := rfl
@[simp] theorem makeWriter_iface : makeWriter .iface = .ok () := rfl
@[simp] theorem makeWriter_ptr (t : GoType) : makeWriter (.ptr t) = makeWriter t := by
  simp [makeWriter]

@[simp] theorem writeValue_iface_some (v : GoValue) :
    writeValue (.iface (some v)) = (do makeWriter v.type; writeValue v) := by
  simp [writeValue]

@[simp] theorem writeValues_nil : writeValues [] = .ok [] := by simp [writeValues]

@[simp] theorem writeValues_cons (v : GoValue) (vs : List GoValue) :
    writeValues (v :: vs) = (do let x ← writeValue v; let xs ← writeValues vs; .ok (x :: xs)) := by
  simp [writeValues]

theorem writeValues_map {α : Type} (f : α → GoValue) (g : α → Rlp.Item) (hfg : ∀ a, writeValue (f a) = .ok (g a)) :
    ∀ l : List α, writeValues (l.map f) = .ok (l.map g)
  | [] => writeValues_nil
  | a :: l => by rw [List.map_cons, writeValues_cons, hfg, writeValues_map f g hfg l]; rfl

end Pangu
