import Pangu.State.StateDB
import Pangu.Types.Transaction

/-!
# The EVM's data: words, errors, stack, memory, contracts and gas

`core/evm`: a stack item is a 256-bit word (`uint256.Int`), the stack a list
with its top first (so `Back(n)` is the `n`-th element), the memory a byte
slice that only grows, with the gas paid for its size so far. A `Contract`
is the code being run, the account it runs as, its caller, value and gas.

The gas of the operations the interpreter charges here is that of
`gas.go`, `gas_table.go` and `memory_table.go`; the constants are those of
`core/evm/params/gas_params.go`.
-/

namespace Pangu

open Go

/-- A stack item, `uint256.Int`. -/
abbrev Word := BitVec 256

/-- `Bytes20()`: the address in the low 20 bytes of a word. -/
def Word.toAddress (w : Word) : Address := w.setWidth 160

/-- An address as a word. -/
def Address.toWord (a : Address) : Word := a.setWidth 256

/-- `OpCode`, a byte. -/
abbrev OpCode := UInt8

namespace OpCode
def STOP : OpCode := 0x00
def BALANCE : OpCode := 0x31
def EXTCODESIZE : OpCode := 0x3b
def EXTCODECOPY : OpCode := 0x3c
def EXTCODEHASH : OpCode := 0x3f
def POP : OpCode := 0x50
def SLOAD : OpCode := 0x54
def SSTORE : OpCode := 0x55
def JUMPDEST : OpCode := 0x5b
def PUSH1 : OpCode := 0x60
def PUSH32 : OpCode := 0x7f
def DUP1 : OpCode := 0x80
def SWAP1 : OpCode := 0x90
def CREATE : OpCode := 0xf0
def CALL : OpCode := 0xf1
def CALLCODE : OpCode := 0xf2
def RETURN : OpCode := 0xf3
def DELEGATECALL : OpCode := 0xf4
def CREATE2 : OpCode := 0xf5
def STATICCALL : OpCode := 0xfa
def SELFDESTRUCT : OpCode := 0xff

/-- The four operations that call another contract. -/
def isCall (op : OpCode) : Bool :=
  op == DELEGATECALL || op == CALL || op == STATICCALL || op == CALLCODE

/-- The two that create one. -/
def isCreate (op : OpCode) : Bool := op == CREATE || op == CREATE2

theorem isCreate_eq_false_of_isCall {op : OpCode} (h : op.isCall = true) : op.isCreate = false := by
  simp only [isCall, Bool.or_eq_true, beq_iff_eq] at h
  rcases h with ((h | h) | h) | h <;> subst h <;> decide

end OpCode

/-- The errors of `core/evm/errors.go`, and those `evm.go` makes in place with
`errors.New`, which compare equal to no other. -/
inductive EvmError where
  | outOfGas
  | codeStoreOutOfGas
  | depth
  | insufficientBalance
  | contractAddressCollision
  | executionReverted
  | maxCodeSizeExceeded
  | invalidJump
  | writeProtection
  | returnDataOutOfBounds
  | gasUintOverflow
  | stopToken
  | stackUnderflow (stackLen required : Nat)
  | stackOverflow (stackLen limit : Nat)
  | invalidOpCode (opcode : OpCode)
  | other (msg : String)
  deriving DecidableEq

/-! ## Gas constants -/

def GasQuickStep : UInt64 := 2
def GasFastestStep : UInt64 := 3
def GasFastStep : UInt64 := 5
def GasMidStep : UInt64 := 8
def GasSlowStep : UInt64 := 10
def GasExtStep : UInt64 := 20
def CallValueTransferGas : UInt64 := 9000
def CallNewAccountGas : UInt64 := 25000
def QuadCoeffDiv : UInt64 := 512
def CallStipend : UInt64 := 2300
def NetSstoreNoopGas : UInt64 := 200
def NetSstoreInitGas : UInt64 := 20000
def NetSstoreCleanGas : UInt64 := 5000
def NetSstoreDirtyGas : UInt64 := 200
def NetSstoreClearRefund : UInt64 := 15000
def NetSstoreResetRefund : UInt64 := 4800
def NetSstoreResetClearRefund : UInt64 := 19800
def JumpdestGas : UInt64 := 1
def CreateDataGas : UInt64 := 200
def CallCreateDepth : UInt64 := 1024
def StackLimit : Nat := 1024
def CreateGas : UInt64 := 32000
def MemoryGas : UInt64 := 3
def CallGasFrontier : UInt64 := 40
def BalanceGasFrontier : UInt64 := 20
def ExtcodeSizeGasFrontier : UInt64 := 20
def SloadGasFrontier : UInt64 := 50

/-- `minStack(pops, push)`. -/
def minStack (pops _push : Nat) : Nat := pops

/-- `maxStack(pop, push)`. -/
def maxStack (pop push : Nat) : Nat := StackLimit + pop - push

/-! ## Stack -/

namespace Stack

/-- `Back(n)`; every caller has checked the stack is deep enough. -/
def back (st : List Word) (n : Nat) : Word := st.getD n 0

/-- `pop()`: the top and the rest. -/
def pop (st : List Word) : Word × List Word := (st.headD 0, st.tail)

/-- `swap(n)`: the top and the `n`-th item from the top exchanged. -/
def swap (st : List Word) (n : Nat) : List Word :=
  (st.set 0 (back st (n - 1))).set (n - 1) (back st 0)

/-- `dup(n)`: the `n`-th item from the top pushed again. -/
def dup (st : List Word) (n : Nat) : List Word := back st (n - 1) :: st

end Stack

/-! ## Memory -/

/-- `Memory`: the bytes, and the gas paid for their size so far. -/
structure Memory where
  store : Bytes
  lastGasCost : UInt64

namespace Memory

def len (m : Memory) : Nat := m.store.length

/-- `Resize(size)`: zeros up to `size`. -/
def resize (m : Memory) (size : UInt64) : Memory :=
  if m.len < size.toNat then { m with store := m.store ++ List.replicate (size.toNat - m.len) 0 } else m

/-- `Set(offset, size, value)`: panics past the end; copies what `value` has. -/
def set (m : Memory) (offset size : UInt64) (value : Bytes) : Go Memory :=
  if size > 0 then
    if offset.toNat + size.toNat > m.len then panic "invalid memory: store empty"
    else
      let n := min size.toNat value.length
      .ok { m with store := m.store.take offset.toNat ++ value.take n ++ m.store.drop (offset.toNat + n) }
  else .ok m

/-- `NewMemory()`. -/
def new : Memory := ⟨[], 0⟩

/-- `GetPtr(offset, size)`: nothing for size zero or an offset past the end; a
slice past the end panics. -/
def getPtr (m : Memory) (offset size : UInt64) : Go Bytes :=
  if size = 0 then .ok []
  else if m.len > offset.toNat then
    if offset.toNat + size.toNat > m.len then
      let hi := offset.toNat + size.toNat
      let cap := m.len
      Go.panic s!"runtime error: slice bounds out of range [:{hi}] with capacity {cap}"
    else .ok ((m.store.drop offset.toNat).take size.toNat)
  else .ok []

/-- `GetCopy(offset, size)`: the bytes `GetPtr` gives, copied. -/
def getCopy (m : Memory) (offset size : UInt64) : Go Bytes := m.getPtr offset size

end Memory

/-! ## Contracts -/

/-- `Contract`. -/
structure Contract where
  callerAddress : Address
  /-- `Address()`: the account the code runs as. -/
  address : Address
  /-- `value`; nil only for a delegate call from outside a contract, which the
  interpreter never makes. -/
  value : Int
  code : Bytes
  codeHash : Hash
  codeAddr : Option Address
  input : Bytes
  gas : UInt64

namespace Contract

/-- `NewContract(caller, object, value, gas)`, with no code yet. -/
def new (caller object : Address) (value : Int) (gas : UInt64) : Contract :=
  ⟨caller, object, value, [], 0, none, [], gas⟩

/-- `GetOp(n)`: `STOP` past the end of the code. -/
def getOp (c : Contract) (n : UInt64) : OpCode :=
  if h : n.toNat < c.code.length then c.code.get ⟨n.toNat, h⟩ else OpCode.STOP

/-- `UseGas(gas)`: the contract with the gas taken, if it has that much. -/
def useGas (c : Contract) (gas : UInt64) : Option Contract :=
  if c.gas < gas then none else some { c with gas := c.gas - gas }

/-- `SetCallCode(addr, hash, code)`. -/
def setCallCode (c : Contract) (addr : Address) (hash : Hash) (code : Bytes) : Contract :=
  { c with code := code, codeHash := hash, codeAddr := some addr }

end Contract

/-! ## Memory sizes and gas -/

/-- `toWordSize(size)` of `core/evm/common.go`, the same as the two in `core`. -/
def evmToWordSize (size : UInt64) : UInt64 := toWordSize size

/-- `calcMemSize64(off, l)`: the end of the range, and whether it overflowed. -/
def calcMemSize64 (off l : Word) : UInt64 × Bool :=
  if l.toNat ≥ 2 ^ 64 then (0, true)
  else if l.toNat = 0 then (0, false)
  else if off.toNat ≥ 2 ^ 64 then (0, true)
  else
    let val := off.toNat + l.toNat
    (val.toUInt64, val ≥ 2 ^ 64)

/-- `memoryCall(stack)`: the larger of the input and the return ranges. -/
def memoryCall (st : List Word) : UInt64 × Bool :=
  let (x, o₁) := calcMemSize64 (Stack.back st 5) (Stack.back st 6)
  if o₁ then (0, true)
  else
    let (y, o₂) := calcMemSize64 (Stack.back st 3) (Stack.back st 4)
    if o₂ then (0, true) else if x > y then (x, false) else (y, false)

/-- `memoryReturn(stack)`. -/
def memoryReturn (st : List Word) : UInt64 × Bool := calcMemSize64 (Stack.back st 0) (Stack.back st 1)

/-- `memoryCreate(stack)`. -/
def memoryCreate (st : List Word) : UInt64 × Bool := calcMemSize64 (Stack.back st 1) (Stack.back st 2)

/-- `memoryGasCost(mem, newMemSize)`: the gas for growing the memory, and the
memory with the new total recorded. -/
def memoryGasCost (m : Memory) (newMemSize : UInt64) : Except EvmError (Memory × UInt64) :=
  if newMemSize = 0 then .ok (m, 0)
  else if newMemSize > 0x1FFFFFFFE0 then .error .gasUintOverflow
  else
    let words := evmToWordSize newMemSize
    if words * 32 > m.len.toUInt64 then
      let newTotalFee := words * MemoryGas + words * words / QuadCoeffDiv
      .ok ({ m with lastGasCost := newTotalFee }, newTotalFee - m.lastGasCost)
    else .ok (m, 0)

/-- `callGas(true, availableGas, base, callCost)`: all but one 64th of what is
left, or less if the caller asked for less. -/
def callGas (availableGas base : UInt64) (callCost : Word) : UInt64 :=
  let availableGas := availableGas - base
  let gas := availableGas - availableGas / 64
  if callCost.toNat ≥ 2 ^ 64 || gas.toNat < callCost.toNat then gas else callCost.toNat.toUInt64

end Pangu
