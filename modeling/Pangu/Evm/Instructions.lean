import Pangu.Evm.Log

/-!
# The frontier's other operations

The entries of `newFrontierInstructionSet` (`core/evm/jump_table.go`) that
`frontierInstructionSet`, `logInstructionSet` and `jumpInstructionSet` leave to
`others`: the arithmetic, the comparisons and the bitwise operations,
`KECCAK256`, the reads of the environment and of the block, `MLOAD`, `MSTORE`,
`MSTORE8`, `MSIZE` and `GAS` (`instructions.go`), with their gas functions
(`gas_table.go`) and memory sizes (`memory_table.go`, `common.go`).
`restInstructionSet` is the table of them.

The stack items are `uint256.Int`s of `github.com/holiman/uint256`, which is
not part of `src/`: each method the operations call is read as the operation
on 256-bit words its documentation gives, with the library's result for a zero
divisor or modulus (`Word.mod`, `Word.smod`, ...). The EVM is built with
`evm.Config{}`, so `opKeccak256` records no preimage.

* `getData_spec`: `getData` reads the bytes of its source from the offset, and
  zeros past the end, when the range does not wrap;
* `set32_getPtr`: the 32 bytes `Set32` writes are the ones `GetPtr` reads back.
-/

namespace Pangu

open Go

namespace OpCode
def ADD : OpCode := 0x01
def MUL : OpCode := 0x02
def SUB : OpCode := 0x03
def DIV : OpCode := 0x04
def SDIV : OpCode := 0x05
def MOD : OpCode := 0x06
def SMOD : OpCode := 0x07
def ADDMOD : OpCode := 0x08
def MULMOD : OpCode := 0x09
def EXP : OpCode := 0x0a
def SIGNEXTEND : OpCode := 0x0b
def LT : OpCode := 0x10
def GT : OpCode := 0x11
def SLT : OpCode := 0x12
def SGT : OpCode := 0x13
def EQ : OpCode := 0x14
def ISZERO : OpCode := 0x15
def AND : OpCode := 0x16
def OR : OpCode := 0x17
def XOR : OpCode := 0x18
def NOT : OpCode := 0x19
def BYTE : OpCode := 0x1a
def KECCAK256 : OpCode := 0x20
def ADDRESS : OpCode := 0x30
def ORIGIN : OpCode := 0x32
def CALLER : OpCode := 0x33
def CALLVALUE : OpCode := 0x34
def CALLDATALOAD : OpCode := 0x35
def CALLDATASIZE : OpCode := 0x36
def CALLDATACOPY : OpCode := 0x37
def CODESIZE : OpCode := 0x38
def CODECOPY : OpCode := 0x39
def GASPRICE : OpCode := 0x3a
def BLOCKHASH : OpCode := 0x40
def COINBASE : OpCode := 0x41
def TIMESTAMP : OpCode := 0x42
def NUMBER : OpCode := 0x43
def DIFFICULTY : OpCode := 0x44
def GASLIMIT : OpCode := 0x45
def MLOAD : OpCode := 0x51
def MSTORE : OpCode := 0x52
def MSTORE8 : OpCode := 0x53
def MSIZE : OpCode := 0x59
def GAS : OpCode := 0x5a
end OpCode

def Keccak256Gas : UInt64 := 30
def Keccak256WordGas : UInt64 := 6
def ExpGas : UInt64 := 10
def CopyGas : UInt64 := 3
def ExpByteFrontier : UInt64 := 10
def ExtcodeCopyBaseFrontier : UInt64 := 20

/-! ## The methods of `uint256.Int` -/

namespace Word

/-- `Uint64WithOverflow()`: the low 64 bits, and whether the word is wider. -/
def uint64WithOverflow (w : Word) : UInt64 × Bool := (w.toUInt64, decide (2 ^ 64 ≤ w.toNat))

/-- `Mod(x, y)`: zero for a zero modulus. -/
def mod (x y : Word) : Word := if y = 0 then 0 else x % y

/-- `SMod(x, y)`: the remainder with the sign of `x`, zero for a zero modulus. -/
def smod (x y : Word) : Word := if y = 0 then 0 else x.srem y

/-- `AddMod(x, y, m)`: the sum modulo `m`, without wrapping at `2^256`. -/
def addMod (x y m : Word) : Word := if m = 0 then 0 else BitVec.ofNat 256 ((x.toNat + y.toNat) % m.toNat)

/-- `MulMod(x, y, m)`: the product modulo `m`, without wrapping at `2^256`. -/
def mulMod (x y m : Word) : Word := if m = 0 then 0 else BitVec.ofNat 256 (x.toNat * y.toNat % m.toNat)

/-- `ExtendSign(x, byteNum)`: `x` sign-extended from its byte `byteNum`, the
lowest byte `0`; unchanged from byte `31` on. -/
def extendSign (x byteNum : Word) : Word :=
  if byteNum.toNat > 30 then x else (x.setWidth (8 * (byteNum.toNat + 1))).signExtend 256

/-- `x.Byte(n)`: byte `n` of `x`, the highest byte `0`; zero from `32` on. -/
def byte (x n : Word) : Word := if n.toNat < 32 then (x >>> (8 * (31 - n.toNat))) &&& 0xff else 0

end Word

/-! ## Operations on the stack -/

/-- The shape of `opAdd` and the other operations of two items: `x, y :=
stack.pop(), stack.peek()`, and `y` replaced by `f x y`. -/
def binaryOp (f : Word → Word → Word) : ExecFn := fun _ frame vm =>
  let (x, st) := Stack.pop frame.stack
  .ok ({ frame with stack := st.set 0 (f x (Stack.back st 0)) }, vm, [], none)

/-- `opNot` and `opIszero`: the top replaced by `f` of it. -/
def unaryOp (f : Word → Word) : ExecFn := fun _ frame vm =>
  .ok ({ frame with stack := frame.stack.set 0 (f (Stack.back frame.stack 0)) }, vm, [], none)

/-- `opAddmod` and `opMulmod`: `x, y, z := stack.pop(), stack.pop(),
stack.peek()`, and `z` replaced by `f x y z`. -/
def ternaryOp (f : Word → Word → Word → Word) : ExecFn := fun _ frame vm =>
  let (x, st) := Stack.pop frame.stack
  let (y, st) := Stack.pop st
  .ok ({ frame with stack := st.set 0 (f x y (Stack.back st 0)) }, vm, [], none)

/-- The operations that push what they read of the context, the frame or the EVM. -/
def pushOp (f : Context → Frame → Evm → Word) : ExecFn := fun ctx frame vm =>
  .ok ({ frame with stack := f ctx frame vm :: frame.stack }, vm, [], none)

def opAdd : ExecFn := binaryOp fun x y => x + y
def opSub : ExecFn := binaryOp fun x y => x - y
def opMul : ExecFn := binaryOp fun x y => x * y
def opDiv : ExecFn := binaryOp fun x y => x / y
def opSdiv : ExecFn := binaryOp fun x y => x.sdiv y
def opMod : ExecFn := binaryOp Word.mod
def opSmod : ExecFn := binaryOp Word.smod
def opExp : ExecFn := binaryOp fun base exponent => base ^ exponent.toNat
def opSignExtend : ExecFn := binaryOp fun back num => Word.extendSign num back
def opNot : ExecFn := unaryOp fun x => ~~~x
def opLt : ExecFn := binaryOp fun x y => if x < y then 1 else 0
def opGt : ExecFn := binaryOp fun x y => if y < x then 1 else 0
def opSlt : ExecFn := binaryOp fun x y => if x.slt y then 1 else 0
def opSgt : ExecFn := binaryOp fun x y => if y.slt x then 1 else 0
def opEq : ExecFn := binaryOp fun x y => if x = y then 1 else 0
def opIszero : ExecFn := unaryOp fun x => if x = 0 then 1 else 0
def opAnd : ExecFn := binaryOp fun x y => x &&& y
def opOr : ExecFn := binaryOp fun x y => x ||| y
def opXor : ExecFn := binaryOp fun x y => x ^^^ y
def opByte : ExecFn := binaryOp fun th val => Word.byte val th

/-- `opAddmod`: zero for a zero modulus, which it checks before `AddMod`. -/
def opAddmod : ExecFn := ternaryOp fun x y z => if z = 0 then 0 else Word.addMod x y z

def opMulmod : ExecFn := ternaryOp Word.mulMod

/-! ## The environment and the block -/

def opAddress : ExecFn := pushOp fun _ frame _ => frame.contract.address.toWord
def opOrigin : ExecFn := pushOp fun ctx _ _ => ctx.origin.toWord
def opCaller : ExecFn := pushOp fun _ frame _ => frame.contract.callerAddress.toWord
def opCallValue : ExecFn := pushOp fun _ frame _ => BitVec.ofInt 256 frame.contract.value
def opCallDataSize : ExecFn := pushOp fun _ frame _ => (frame.contract.input.length : Word)
def opCodeSize : ExecFn := pushOp fun _ frame _ => (frame.contract.code.length : Word)
def opGasprice : ExecFn := pushOp fun ctx _ _ => BitVec.ofInt 256 ctx.gasPrice
def opCoinbase : ExecFn := pushOp fun ctx _ _ => ctx.coinbase.toWord
def opTimestamp : ExecFn := pushOp fun ctx _ _ => (ctx.time.toNat : Word)
def opNumber : ExecFn := pushOp fun ctx _ _ => BitVec.ofInt 256 ctx.blockNumber

/-- `opDifficulty`: there is no difficulty, and it pushes zero. -/
def opDifficulty : ExecFn := pushOp fun _ _ _ => 0

def opGasLimit : ExecFn := pushOp fun ctx _ _ => (ctx.gasLimit.toNat : Word)
def opMsize : ExecFn := pushOp fun _ frame _ => (frame.memory.len : Word)
def opGas : ExecFn := pushOp fun _ frame _ => (frame.contract.gas.toNat : Word)

/-- `getData(data, start, size)`: `size` bytes of `data` from `start`, cut at
its end and padded with zeros. `start + size` wraps as a `uint64`, and then the
slice ends before it starts, which panics. `int(size)` is `size`: the charges
keep it below `2^63`. -/
def getData (data : Bytes) (start size : UInt64) : Go Bytes :=
  let length := data.length.toUInt64
  let start := if start > length then length else start
  let endIdx := start + size
  let endIdx := if endIdx > length then length else endIdx
  if endIdx < start then Go.panic s!"runtime error: slice bounds out of range [{start}:{endIdx}]"
  else .ok (rightPadBytes ((data.drop start.toNat).take (endIdx - start).toNat) size.toNat)

/-- `opCallDataLoad`: the 32 bytes of the input from the top, zero for an
offset past 64 bits. -/
def opCallDataLoad : ExecFn := fun _ frame vm => do
  let (offset, overflow) := (Stack.back frame.stack 0).uint64WithOverflow
  let v ← if !overflow then do
      let data ← getData frame.contract.input offset 32
      .ok (ofBytes data : Word)
    else .ok 0
  .ok ({ frame with stack := frame.stack.set 0 v }, vm, [], none)

/-- What `opCallDataCopy`, `opCodeCopy` and `opExtCodeCopy` do once they have
popped their arguments: `length` bytes of `data` from `dataOffset`, all ones
past 64 bits, into the memory at `memOffset`. -/
def copyToMemory (data : Bytes) (memOffset dataOffset length : Word) (m : Memory) : Go Memory := do
  let (dataOffset64, overflow) := dataOffset.uint64WithOverflow
  let dataOffset64 := if overflow then maxUint64 else dataOffset64
  let copy ← getData data dataOffset64 length.toUInt64
  m.set memOffset.toUInt64 length.toUInt64 copy

def opCallDataCopy : ExecFn := fun _ frame vm => do
  let (memOffset, st) := Stack.pop frame.stack
  let (dataOffset, st) := Stack.pop st
  let (length, st) := Stack.pop st
  let memory ← copyToMemory frame.contract.input memOffset dataOffset length frame.memory
  .ok ({ frame with stack := st, memory := memory }, vm, [], none)

def opCodeCopy : ExecFn := fun _ frame vm => do
  let (memOffset, st) := Stack.pop frame.stack
  let (codeOffset, st) := Stack.pop st
  let (length, st) := Stack.pop st
  let memory ← copyToMemory frame.contract.code memOffset codeOffset length frame.memory
  .ok ({ frame with stack := st, memory := memory }, vm, [], none)

/-- `opExtCodeCopy`: the code of the account the first item names. -/
def opExtCodeCopy : ExecFn := fun _ frame vm => do
  let (a, st) := Stack.pop frame.stack
  let (memOffset, st) := Stack.pop st
  let (codeOffset, st) := Stack.pop st
  let (length, st) := Stack.pop st
  let memory ← copyToMemory (vm.statedb.getCode a.toAddress) memOffset codeOffset length frame.memory
  .ok ({ frame with stack := st, memory := memory }, vm, [], none)

/-- `opBlockhash`, with `getHash` the block context's `GetHash`: the hash of
one of the 256 blocks before the current one, and zero for any other number. -/
def opBlockhash (getHash : UInt64 → Hash) : ExecFn := fun ctx frame vm =>
  let (num64, overflow) := (Stack.back frame.stack 0).uint64WithOverflow
  let v : Word :=
    if overflow then 0
    else
      let upper := ctx.blockNumber.toNat.toUInt64
      let lower := if upper < 257 then 0 else upper - 256
      if num64 ≥ lower && num64 < upper then getHash num64 else 0
  .ok ({ frame with stack := frame.stack.set 0 v }, vm, [], none)

/-- `opKeccak256`: the top two items, a range of the memory, replaced by its hash. -/
def opKeccak256 : ExecFn := fun ctx frame vm => do
  let (offset, st) := Stack.pop frame.stack
  let data ← frame.memory.getPtr offset.toUInt64 (Stack.back st 0).toUInt64
  .ok ({ frame with stack := st.set 0 (ctx.crypto.keccak256 data) }, vm, [], none)

/-! ## The memory -/

/-- `Set32(offset, val)`: the 32 bytes of `val` at `offset`. The bound is
checked in `uint64`; past it, or when the check wraps, the copy panics. -/
def Memory.set32 (m : Memory) (offset : UInt64) (val : Word) : Go Memory :=
  if offset + 32 > m.len.toUInt64 then panic "invalid memory: store empty"
  else if m.len < offset.toNat then
    let n := m.len
    Go.panic s!"runtime error: slice bounds out of range [{offset}:{n}]"
  else .ok { m with store := m.store.take offset.toNat ++ beBytes val.toNat 32 ++ m.store.drop (offset.toNat + 32) }

def opMload : ExecFn := fun _ frame vm => do
  let v := Stack.back frame.stack 0
  let data ← frame.memory.getPtr v.toUInt64 32
  .ok ({ frame with stack := frame.stack.set 0 (ofBytes data : Word) }, vm, [], none)

def opMstore : ExecFn := fun _ frame vm => do
  let (mStart, st) := Stack.pop frame.stack
  let (val, st) := Stack.pop st
  let memory ← frame.memory.set32 mStart.toUInt64 val
  .ok ({ frame with stack := st, memory := memory }, vm, [], none)

/-- `opMstore8`: `store[off.Uint64()] = byte(val.Uint64())`, a slice write. -/
def opMstore8 : ExecFn := fun _ frame vm => do
  let (off, st) := Stack.pop frame.stack
  let (val, st) := Stack.pop st
  let store ← sliceSet frame.memory.store off.toUInt64.toNat val.toUInt64.toUInt8
  .ok ({ frame with stack := st, memory := { frame.memory with store := store } }, vm, [], none)

/-! ## Reading and writing byte ranges -/

theorem getD_take (l : Bytes) (n i : Nat) : (l.take n).getD i 0 = if i < n then l.getD i 0 else 0 := by
  simp only [List.getD_eq_getElem?_getD, List.getElem?_take]
  split <;> simp

theorem getD_drop (l : Bytes) (n i : Nat) : (l.drop n).getD i 0 = l.getD (n + i) 0 := by
  simp only [List.getD_eq_getElem?_getD, List.getElem?_drop]

/-- Padding adds only zeros. -/
theorem getD_rightPadBytes (s : Bytes) (l i : Nat) : (rightPadBytes s l).getD i 0 = s.getD i 0 := by
  unfold rightPadBytes
  split
  · rfl
  · by_cases hi : i < s.length
    · exact List.getD_append _ _ _ _ hi
    · simp only [List.getD_eq_getElem?_getD, List.getElem?_append_right (Nat.le_of_not_lt hi),
        List.getElem?_replicate, List.getElem?_eq_none (Nat.le_of_not_lt hi)]
      split <;> rfl

theorem length_rightPadBytes {s : Bytes} {l : Nat} (h : s.length ≤ l) : (rightPadBytes s l).length = l := by
  unfold rightPadBytes
  split
  · omega
  · simp only [List.length_append, List.length_replicate]
    omega

/-- `getData` reads `size` bytes of `data` from `start`, zero past its end, when
the end of the range cannot wrap. -/
theorem getData_spec (data : Bytes) (start size : UInt64) (h : data.length + size.toNat < 2 ^ 64) :
    ∃ bs, getData data start size = .ok bs ∧ bs.length = size.toNat ∧
      ∀ i < size.toNat, bs.getD i 0 = data.getD (start.toNat + i) 0 := by
  have hL : data.length.toUInt64.toNat = data.length := by
    rw [Nat.toUInt64_eq, UInt64.toNat_ofNat']
    exact Nat.mod_eq_of_lt (by omega)
  -- the start, cut at the end of `data`, and the end of the range, which does not wrap
  obtain ⟨s, hs, hsv⟩ : ∃ s : UInt64, (if start > data.length.toUInt64 then data.length.toUInt64 else start) = s ∧
      s.toNat = min start.toNat data.length := by
    refine ⟨_, rfl, ?_⟩
    split
    · next hgt =>
      rw [hL]
      have := UInt64.lt_iff_toNat_lt.mp hgt
      omega
    · next hle =>
      have := UInt64.not_lt.mp hle
      rw [UInt64.le_iff_toNat_le, hL] at this
      omega
  have hsum : (s + size).toNat = s.toNat + size.toNat := by
    rw [UInt64.toNat_add, Nat.mod_eq_of_lt (by omega)]
  obtain ⟨e, he, hev⟩ : ∃ e : UInt64, (if s + size > data.length.toUInt64 then data.length.toUInt64 else s + size) = e ∧
      e.toNat = min (s.toNat + size.toNat) data.length := by
    refine ⟨_, rfl, ?_⟩
    split
    · next hgt =>
      rw [hL]
      have := UInt64.lt_iff_toNat_lt.mp hgt
      omega
    · next hle =>
      have := UInt64.not_lt.mp hle
      rw [UInt64.le_iff_toNat_le, hL, hsum] at this
      omega
  have hse : ¬ e < s := fun hlt => by
    have := UInt64.lt_iff_toNat_lt.mp hlt
    omega
  have hsub : (e - s).toNat = e.toNat - s.toNat := UInt64.toNat_sub_of_le _ _ (UInt64.not_lt.mp hse)
  refine ⟨rightPadBytes ((data.drop s.toNat).take (e - s).toNat) size.toNat, ?_, ?_, ?_⟩
  · unfold getData
    simp only [hs, he, if_neg hse]
  · refine length_rightPadBytes ?_
    simp only [List.length_take, List.length_drop]
    omega
  · intro i hi
    rw [getD_rightPadBytes, getD_take, getD_drop]
    split
    · congr 1
      omega
    · -- past the end of the range is past the end of `data`
      rw [List.getD_eq_getElem?_getD, List.getElem?_eq_none (by omega)]
      rfl

theorem Memory.set32_eq {m m' : Memory} {offset : UInt64} {val : Word} (h : m.set32 offset val = .ok m') :
    offset.toNat ≤ m.len ∧
      m' = { m with store := m.store.take offset.toNat ++ beBytes val.toNat 32 ++ m.store.drop (offset.toNat + 32) } := by
  unfold Memory.set32 at h
  split at h
  · cases h
  split at h
  · cases h
  · next hle =>
    cases h
    exact ⟨Nat.le_of_not_lt hle, rfl⟩

/-- What `Set32` writes, `GetPtr` reads back. -/
theorem set32_getPtr {m m' : Memory} {offset : UInt64} {val : Word} (h : m.set32 offset val = .ok m') :
    m'.getPtr offset 32 = .ok (beBytes val.toNat 32) := by
  obtain ⟨hle, rfl⟩ := Memory.set32_eq h
  have hlen : (m.store.take offset.toNat ++ beBytes val.toNat 32 ++ m.store.drop (offset.toNat + 32)).length =
      offset.toNat + 32 + (m.len - (offset.toNat + 32)) := by
    simp only [List.length_append, List.length_take, length_beBytes, List.length_drop, Memory.len] at hle ⊢
    omega
  have h32 : (32 : UInt64).toNat = 32 := rfl
  unfold Memory.getPtr Memory.len
  dsimp only
  rw [if_neg (by decide), if_pos (by rw [hlen]; omega), if_neg (by rw [hlen, h32]; omega)]
  congr 1
  rw [List.append_assoc, List.drop_left' (by simp only [List.length_take, Memory.len] at hle ⊢; omega), h32,
    List.take_left' (by simp)]

/-! ## Gas and memory sizes -/

/-- `gasExpFrontier`: ten for each byte of the exponent, and `ExpGas`. -/
def gasExpFrontier : GasFn := fun _ frame vm _ =>
  let expByteLen : UInt64 := ((bitLen (Stack.back frame.stack 1).toNat + 7) / 8).toUInt64
  let gas := expByteLen * ExpByteFrontier
  match safeAdd gas ExpGas with
  | none => .ok (frame, vm, .error .gasUintOverflow)
  | some gas => .ok (frame, vm, .ok gas)

/-- The shape `gasKeccak256` and `memoryCopierGas` share: the memory's growth,
and `wordGas` for each word of the size at `stackpos`; each overflow is
`ErrGasUintOverflow`. -/
def memoryWordGas (stackpos : Nat) (wordGas : UInt64) : GasFn := fun _ frame vm memorySize =>
  match memoryGasCost frame.memory memorySize with
  | .error e => .ok (frame, vm, .error e)
  | .ok (mem, gas) =>
    let frame := { frame with memory := mem }
    let (words, overflow) := (Stack.back frame.stack stackpos).uint64WithOverflow
    if overflow then .ok (frame, vm, .error .gasUintOverflow)
    else
      match safeMul (evmToWordSize words) wordGas with
      | none => .ok (frame, vm, .error .gasUintOverflow)
      | some words =>
        match safeAdd gas words with
        | none => .ok (frame, vm, .error .gasUintOverflow)
        | some gas => .ok (frame, vm, .ok gas)

def gasKeccak256 : GasFn := memoryWordGas 1 Keccak256WordGas

/-- `memoryCopierGas(stackpos)`: `CopyGas` for each word copied. -/
def memoryCopierGas (stackpos : Nat) : GasFn := memoryWordGas stackpos CopyGas

def gasCallDataCopy : GasFn := memoryCopierGas 2
def gasCodeCopy : GasFn := memoryCopierGas 2
def gasExtCodeCopy : GasFn := memoryCopierGas 3
def gasMLoad : GasFn := pureMemoryGascost
def gasMStore : GasFn := pureMemoryGascost
def gasMStore8 : GasFn := pureMemoryGascost

/-- `calcMemSize64WithUint(off, length64)`: the end of the range, and whether it
overflowed; zero for an empty range. -/
def calcMemSize64WithUint (off : Word) (length64 : UInt64) : UInt64 × Bool :=
  if length64 = 0 then (0, false)
  else
    let (offset64, overflow) := off.uint64WithOverflow
    if overflow then (0, true)
    else
      let val := offset64 + length64
      (val, val < offset64)

def memoryKeccak256 (st : List Word) : UInt64 × Bool := calcMemSize64 (Stack.back st 0) (Stack.back st 1)
def memoryCallDataCopy (st : List Word) : UInt64 × Bool := calcMemSize64 (Stack.back st 0) (Stack.back st 2)
def memoryCodeCopy (st : List Word) : UInt64 × Bool := calcMemSize64 (Stack.back st 0) (Stack.back st 2)
def memoryExtCodeCopy (st : List Word) : UInt64 × Bool := calcMemSize64 (Stack.back st 1) (Stack.back st 3)
def memoryMLoad (st : List Word) : UInt64 × Bool := calcMemSize64WithUint (Stack.back st 0) 32
def memoryMStore8 (st : List Word) : UInt64 × Bool := calcMemSize64WithUint (Stack.back st 0) 1
def memoryMStore (st : List Word) : UInt64 × Bool := calcMemSize64WithUint (Stack.back st 0) 32

/-! ## The table -/

/-- The entries of `newFrontierInstructionSet` for the operations above, in its
order, and `undefinedOp` for every other opcode. `getHash` is the block
context's `GetHash`. -/
def restInstructionSet (getHash : UInt64 → Hash) (op : OpCode) : Operation :=
  if op = OpCode.ADD then execOp opAdd GasFastestStep none 2 1 none
  else if op = OpCode.MUL then execOp opMul GasFastStep none 2 1 none
  else if op = OpCode.SUB then execOp opSub GasFastestStep none 2 1 none
  else if op = OpCode.DIV then execOp opDiv GasFastStep none 2 1 none
  else if op = OpCode.SDIV then execOp opSdiv GasFastStep none 2 1 none
  else if op = OpCode.MOD then execOp opMod GasFastStep none 2 1 none
  else if op = OpCode.SMOD then execOp opSmod GasFastStep none 2 1 none
  else if op = OpCode.ADDMOD then execOp opAddmod GasMidStep none 3 1 none
  else if op = OpCode.MULMOD then execOp opMulmod GasMidStep none 3 1 none
  else if op = OpCode.EXP then execOp opExp 0 (some gasExpFrontier) 2 1 none
  else if op = OpCode.SIGNEXTEND then execOp opSignExtend GasFastStep none 2 1 none
  else if op = OpCode.LT then execOp opLt GasFastestStep none 2 1 none
  else if op = OpCode.GT then execOp opGt GasFastestStep none 2 1 none
  else if op = OpCode.SLT then execOp opSlt GasFastestStep none 2 1 none
  else if op = OpCode.SGT then execOp opSgt GasFastestStep none 2 1 none
  else if op = OpCode.EQ then execOp opEq GasFastestStep none 2 1 none
  else if op = OpCode.ISZERO then execOp opIszero GasFastestStep none 1 1 none
  else if op = OpCode.AND then execOp opAnd GasFastestStep none 2 1 none
  else if op = OpCode.XOR then execOp opXor GasFastestStep none 2 1 none
  else if op = OpCode.OR then execOp opOr GasFastestStep none 2 1 none
  else if op = OpCode.NOT then execOp opNot GasFastestStep none 1 1 none
  else if op = OpCode.BYTE then execOp opByte GasFastestStep none 2 1 none
  else if op = OpCode.KECCAK256 then execOp opKeccak256 Keccak256Gas (some gasKeccak256) 2 1 (some memoryKeccak256)
  else if op = OpCode.ADDRESS then execOp opAddress GasQuickStep none 0 1 none
  else if op = OpCode.ORIGIN then execOp opOrigin GasQuickStep none 0 1 none
  else if op = OpCode.CALLER then execOp opCaller GasQuickStep none 0 1 none
  else if op = OpCode.CALLVALUE then execOp opCallValue GasQuickStep none 0 1 none
  else if op = OpCode.CALLDATALOAD then execOp opCallDataLoad GasFastestStep none 1 1 none
  else if op = OpCode.CALLDATASIZE then execOp opCallDataSize GasQuickStep none 0 1 none
  else if op = OpCode.CALLDATACOPY then
    execOp opCallDataCopy GasFastestStep (some gasCallDataCopy) 3 0 (some memoryCallDataCopy)
  else if op = OpCode.CODESIZE then execOp opCodeSize GasQuickStep none 0 1 none
  else if op = OpCode.CODECOPY then execOp opCodeCopy GasFastestStep (some gasCodeCopy) 3 0 (some memoryCodeCopy)
  else if op = OpCode.GASPRICE then execOp opGasprice GasQuickStep none 0 1 none
  else if op = OpCode.EXTCODECOPY then
    execOp opExtCodeCopy ExtcodeCopyBaseFrontier (some gasExtCodeCopy) 4 0 (some memoryExtCodeCopy)
  else if op = OpCode.BLOCKHASH then execOp (opBlockhash getHash) GasExtStep none 1 1 none
  else if op = OpCode.COINBASE then execOp opCoinbase GasQuickStep none 0 1 none
  else if op = OpCode.TIMESTAMP then execOp opTimestamp GasQuickStep none 0 1 none
  else if op = OpCode.NUMBER then execOp opNumber GasQuickStep none 0 1 none
  else if op = OpCode.DIFFICULTY then execOp opDifficulty GasQuickStep none 0 1 none
  else if op = OpCode.GASLIMIT then execOp opGasLimit GasQuickStep none 0 1 none
  else if op = OpCode.MLOAD then execOp opMload GasFastestStep (some gasMLoad) 1 1 (some memoryMLoad)
  else if op = OpCode.MSTORE then execOp opMstore GasFastestStep (some gasMStore) 2 0 (some memoryMStore)
  else if op = OpCode.MSTORE8 then execOp opMstore8 GasFastestStep (some gasMStore8) 2 0 (some memoryMStore8)
  else if op = OpCode.MSIZE then execOp opMsize GasQuickStep none 0 1 none
  else if op = OpCode.GAS then execOp opGas GasQuickStep none 0 1 none
  else undefinedOp

end Pangu
