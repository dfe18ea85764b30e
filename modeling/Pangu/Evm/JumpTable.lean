import Pangu.Evm.Interpreter

/-!
# The frontier jump table and the precompiled contracts

`newFrontierInstructionSet` (`core/evm/jump_table.go`), the only table
`NewEVMInterpreter` builds, with the operations of `instructions.go` and the
gas functions of `gas_table.go` it names for the stack, the storage, the
accounts, `RETURN`, `SELFDESTRUCT`, `CREATE`, `CALL` and `CALLCODE`. The
frontier table has no `DELEGATECALL`, `STATICCALL` or `CREATE2`: those slots,
like every slot it leaves empty, hold `opUndefined` and no `executeAL`, so
the interpreter's call of `executeAL` on them is a call of a nil function.

The operations of the table that only compute on the stack, the memory and the
context (arithmetic, comparisons, hashing, environment reads, jumps, logs) are
the parameter `others`; none of them calls, creates or touches the access
check.
-/

namespace Pangu

open Go

def SelfdestructGasEIP150 : UInt64 := 5000
def CreateBySelfdestructGas : UInt64 := 25000
def SelfdestructRefundGas : UInt64 := 24000
def IdentityBaseGas : UInt64 := 15
def IdentityPerWordGas : UInt64 := 3

/-- `math.SafeAdd(x, y)`: the sum, or nothing on overflow. -/
def safeAdd (x y : UInt64) : Option UInt64 :=
  if x.toNat + y.toNat < 2 ^ 64 then some (x + y) else none

/-- `common.RightPadBytes(slice, l)`. -/
def rightPadBytes (slice : Bytes) (l : Nat) : Bytes :=
  if l ≤ slice.length then slice else slice ++ List.replicate (l - slice.length) 0

/-! ## Operations -/

/-- `opStop`. -/
def opStop : ExecFn := fun _ frame vm => .ok (frame, vm, [], some .stopToken)

/-- `opJumpdest`. -/
def opJumpdest : ExecFn := fun _ frame vm => .ok (frame, vm, [], none)

/-- `opPop`. -/
def opPop : ExecFn := fun _ frame vm => .ok ({ frame with stack := (Stack.pop frame.stack).2 }, vm, [], none)

/-- `opPush1`: the byte after the opcode, or zero past the end of the code. -/
def opPush1 : ExecFn := fun _ frame vm =>
  let code := frame.contract.code
  let pc := frame.pc + 1
  let v : Word := if pc.toNat < code.length then (code.getD pc.toNat 0).toNat else 0
  .ok ({ frame with pc := pc, stack := v :: frame.stack }, vm, [], none)

/-- `makePush(size, pushByteSize)`: the bytes after the opcode that the code
has, padded on the right to `pushByteSize`. -/
def makePush (size : UInt64) (pushByteSize : Nat) : ExecFn := fun _ frame vm =>
  let code := frame.contract.code
  let startMin := min code.length (frame.pc + 1).toNat
  let endMin := min code.length (startMin + pushByteSize)
  let v : Word := ofBytes (rightPadBytes ((code.drop startMin).take (endMin - startMin)) pushByteSize)
  .ok ({ frame with pc := frame.pc + size, stack := v :: frame.stack }, vm, [], none)

/-- `makeDup(size)`. -/
def makeDup (size : Nat) : ExecFn := fun _ frame vm =>
  .ok ({ frame with stack := Stack.dup frame.stack size }, vm, [], none)

/-- `makeSwap(size)`, which swaps the top with the item `size + 1` down. -/
def makeSwap (size : Nat) : ExecFn := fun _ frame vm =>
  .ok ({ frame with stack := Stack.swap frame.stack (size + 1) }, vm, [], none)

/-- `opSload`: the top, a slot of the running contract, replaced by its value. -/
def opSload : ExecFn := fun _ frame vm =>
  let loc := Stack.back frame.stack 0
  let val := vm.statedb.getState frame.contract.address loc
  .ok ({ frame with stack := frame.stack.set 0 val }, vm, [], none)

/-- `opSstore`. -/
def opSstore : ExecFn := fun ctx frame vm =>
  if vm.readOnly then .ok (frame, vm, [], some .writeProtection)
  else
    let (loc, st) := Stack.pop frame.stack
    let (val, st) := Stack.pop st
    let db := vm.statedb.setState ctx.crypto frame.contract.address loc val
    .ok ({ frame with stack := st }, { vm with statedb := db }, [], none)

/-- `opBalance`: the top, an address, replaced by its balance. -/
def opBalance : ExecFn := fun _ frame vm =>
  let address := (Stack.back frame.stack 0).toAddress
  .ok ({ frame with stack := frame.stack.set 0 (BitVec.ofInt 256 (vm.statedb.getBalance address)) },
    vm, [], none)

/-- `opExtCodeSize`. -/
def opExtCodeSize : ExecFn := fun _ frame vm =>
  let address := (Stack.back frame.stack 0).toAddress
  .ok ({ frame with stack := frame.stack.set 0 (vm.statedb.getCodeSize address : Word) }, vm, [], none)

/-- `opReturn`: the output is a range of the memory. -/
def opReturn : ExecFn := fun _ frame vm => do
  let (offset, st) := Stack.pop frame.stack
  let (size, st) := Stack.pop st
  let ret ← frame.memory.getPtr offset.toUInt64 size.toUInt64
  .ok ({ frame with stack := st }, vm, ret, some .stopToken)

/-- `opSelfdestruct`: the balance goes to the beneficiary, and the account is
marked. -/
def opSelfdestruct : ExecFn := fun ctx frame vm =>
  if vm.readOnly then .ok (frame, vm, [], some .writeProtection)
  else
    let (beneficiary, st) := Stack.pop frame.stack
    let self := frame.contract.address
    let balance := vm.statedb.getBalance self
    let db := (vm.statedb.addBalance ctx.crypto beneficiary.toAddress balance).selfDestruct self
    .ok ({ frame with stack := st }, { vm with statedb := db }, [], some .stopToken)

/-- `opUndefined`: the opcode is read back from the code. -/
def opUndefined : ExecFn := fun _ frame vm => do
  let op ← sliceIndex frame.contract.code frame.pc.toNat
  .ok (frame, vm, [], some (.invalidOpCode op))

/-! ## Gas -/

/-- `pureMemoryGascost`: the memory's growth only. -/
def pureMemoryGascost : GasFn := fun _ frame vm memorySize =>
  match memoryGasCost frame.memory memorySize with
  | .ok (mem, gas) => .ok ({ frame with memory := mem }, vm, .ok gas)
  | .error e => .ok (frame, vm, .error e)

def gasReturn : GasFn := pureMemoryGascost
def gasCreate : GasFn := pureMemoryGascost

/-- The end `gasCall` and `gasCallCode` share: add the memory's growth to
`gas`, set `callGasTemp` by the 63/64 rule, and add it. -/
def callGasTail (frame : Frame) (vm : Evm) (gas memoryGas : UInt64) : Frame × Evm × Except EvmError UInt64 :=
  match safeAdd gas memoryGas with
  | none => (frame, vm, .error .gasUintOverflow)
  | some gas =>
    let callGasTemp := callGas frame.contract.gas gas (Stack.back frame.stack 0)
    let vm := { vm with callGasTemp := callGasTemp }
    match safeAdd gas callGasTemp with
    | none => (frame, vm, .error .gasUintOverflow)
    | some gas => (frame, vm, .ok gas)

/-- `gasCall`: a new account, a value transfer, the memory and the gas passed
on. -/
def gasCall : GasFn := fun ctx frame vm memorySize =>
  let transfersValue := Stack.back frame.stack 2 != 0
  let address := (Stack.back frame.stack 1).toAddress
  let gas : UInt64 :=
    if transfersValue && vm.statedb.empty ctx.crypto address then CallNewAccountGas
    else if !vm.statedb.exist address then CallNewAccountGas else 0
  let gas := if transfersValue then gas + CallValueTransferGas else gas
  match memoryGasCost frame.memory memorySize with
  | .error e => .ok (frame, vm, .error e)
  | .ok (mem, memoryGas) => .ok (callGasTail { frame with memory := mem } vm gas memoryGas)

/-- `gasCallCode`: the memory, a value transfer and the gas passed on. -/
def gasCallCode : GasFn := fun _ frame vm memorySize =>
  match memoryGasCost frame.memory memorySize with
  | .error e => .ok (frame, vm, .error e)
  | .ok (mem, memoryGas) =>
    let gas : UInt64 := if Stack.back frame.stack 2 != 0 then CallValueTransferGas else 0
    .ok (callGasTail { frame with memory := mem } vm gas memoryGas)

/-- `gasSelfdestruct`: more for a beneficiary that does not exist, and a refund
the first time. -/
def gasSelfdestruct : GasFn := fun ctx frame vm _ =>
  let address := (Stack.back frame.stack 0).toAddress
  let self := frame.contract.address
  let db := vm.statedb
  let gas := if db.empty ctx.crypto address && db.getBalance self != 0 then
      SelfdestructGasEIP150 + CreateBySelfdestructGas
    else if !db.exist address then SelfdestructGasEIP150 + CreateBySelfdestructGas
    else SelfdestructGasEIP150
  let db := if !db.hasSelfDestructed self then db.addRefund SelfdestructRefundGas else db
  .ok (frame, { vm with statedb := db }, .ok gas)

/-- `gasSStore`, the net metering of EIP-1283: by the current, the committed and
the new value of the slot, with the refunds it adds and takes back. -/
def gasSStore : GasFn := fun _ frame vm _ => do
  let self := frame.contract.address
  let x := Stack.back frame.stack 0
  let value : Hash := Stack.back frame.stack 1
  let db := vm.statedb
  let current := db.getState self x
  if current = value then .ok (frame, vm, .ok NetSstoreNoopGas)
  else
    let original := db.getCommittedState self x
    if original = current then
      if original = 0 then .ok (frame, vm, .ok NetSstoreInitGas)
      else
        let db := if value = 0 then db.addRefund NetSstoreClearRefund else db
        .ok (frame, { vm with statedb := db }, .ok NetSstoreCleanGas)
    else do
      let db ← if original ≠ 0 then
          if current = 0 then db.subRefund NetSstoreClearRefund
          else if value = 0 then .ok (db.addRefund NetSstoreClearRefund) else .ok db
        else .ok db
      let db := if original = value then
          if original = 0 then db.addRefund NetSstoreResetClearRefund else db.addRefund NetSstoreResetRefund
        else db
      .ok (frame, { vm with statedb := db }, .ok NetSstoreDirtyGas)

/-! ## The table -/

/-- An entry with an `execute` function. -/
def execOp (execute : ExecFn) (constantGas : UInt64) (dynamicGas : Option GasFn) (pops push : Nat)
    (memorySize : Option MemorySizeFn) : Operation :=
  ⟨some execute, none, constantGas, dynamicGas, minStack pops push, maxStack pops push, memorySize⟩

/-- An entry with an `executeAL` function. -/
def alOp (executeAL : ExecuteAL) (constantGas : UInt64) (dynamicGas : GasFn) (pops push : Nat)
    (memorySize : MemorySizeFn) : Operation :=
  ⟨none, some executeAL, constantGas, some dynamicGas, minStack pops push, maxStack pops push, some memorySize⟩

/-- The slots `newFrontierInstructionSet` fills with `opUndefined`. -/
def undefinedOp : Operation := ⟨some opUndefined, none, 0, none, 0, maxStack 0 0, none⟩

/-- The opcodes the frontier table defines. -/
def frontierDefined (op : OpCode) : Bool :=
  op ≤ 0x0b || (0x10 ≤ op && op ≤ 0x1a) || op == 0x20 || (0x30 ≤ op && op ≤ 0x3c) ||
    (0x40 ≤ op && op ≤ 0x45) || (0x50 ≤ op && op ≤ 0x5b) || (0x60 ≤ op && op ≤ 0xa4) ||
    (0xf0 ≤ op && op ≤ 0xf3) || op == 0xff

/-- `frontierInstructionSet`, with `others` the entries not modelled here. -/
def frontierInstructionSet (others : OpCode → Operation) : JumpTable := fun op =>
  if op = OpCode.STOP then execOp opStop 0 none 0 0 none
  else if op = OpCode.BALANCE then execOp opBalance BalanceGasFrontier none 1 1 none
  else if op = OpCode.EXTCODESIZE then execOp opExtCodeSize ExtcodeSizeGasFrontier none 1 1 none
  else if op = OpCode.POP then execOp opPop GasQuickStep none 1 0 none
  else if op = OpCode.SLOAD then execOp opSload SloadGasFrontier none 1 1 none
  else if op = OpCode.SSTORE then execOp opSstore 0 (some gasSStore) 2 0 none
  else if op = OpCode.JUMPDEST then execOp opJumpdest JumpdestGas none 0 0 none
  else if op = OpCode.PUSH1 then execOp opPush1 GasFastestStep none 0 1 none
  else if OpCode.PUSH1 < op && op ≤ OpCode.PUSH32 then
    let n := (op - OpCode.PUSH1 + 1).toNat
    execOp (makePush n.toUInt64 n) GasFastestStep none 0 1 none
  else if OpCode.DUP1 ≤ op && op < OpCode.SWAP1 then
    let n := (op - OpCode.DUP1 + 1).toNat
    execOp (makeDup n) GasFastestStep none n (n + 1) none
  else if OpCode.SWAP1 ≤ op && op < OpCode.SWAP1 + 16 then
    let n := (op - OpCode.SWAP1 + 1).toNat
    execOp (makeSwap n) GasFastestStep none (n + 1) (n + 1) none
  else if op = OpCode.CREATE then alOp .opCreate CreateGas gasCreate 3 1 memoryCreate
  else if op = OpCode.CALL then alOp .opCall CallGasFrontier gasCall 7 1 memoryCall
  else if op = OpCode.CALLCODE then alOp .opCallCode CallGasFrontier gasCallCode 7 1 memoryCall
  else if op = OpCode.RETURN then execOp opReturn 0 (some gasReturn) 2 0 (some memoryReturn)
  else if op = OpCode.SELFDESTRUCT then execOp opSelfdestruct 0 (some gasSelfdestruct) 1 0 none
  else if frontierDefined op then others op
  else undefinedOp

/-- The opcodes with an entry of their own in `frontierInstructionSet`, the
pushes after `PUSH1`, the duplications and the swaps apart. -/
def frontierNamed : List OpCode :=
  [OpCode.STOP, OpCode.BALANCE, OpCode.EXTCODESIZE, OpCode.POP, OpCode.SLOAD, OpCode.SSTORE, OpCode.JUMPDEST,
    OpCode.PUSH1, OpCode.CREATE, OpCode.CALL, OpCode.CALLCODE, OpCode.RETURN, OpCode.SELFDESTRUCT]

/-- Outside its named entries and the range `0x60`..`0x9f` of the pushes,
duplications and swaps, the table holds `others` where the frontier defines
the opcode, and `undefinedOp` elsewhere. -/
theorem frontierInstructionSet_of_unnamed (others : OpCode → Operation) {op : OpCode}
    (hnamed : op ∉ frontierNamed) (hrange : op.toNat < 0x60 ∨ 0xa0 ≤ op.toNat) :
    frontierInstructionSet others op = if frontierDefined op then others op else undefinedOp := by
  have hne : ∀ x ∈ frontierNamed, op ≠ x := by
    rintro x hx rfl
    exact hnamed hx
  have hpush : ¬ (OpCode.PUSH1 < op && op ≤ OpCode.PUSH32) = true := by
    simp only [OpCode.PUSH1, OpCode.PUSH32, Bool.and_eq_true, decide_eq_true_eq, UInt8.lt_iff_toNat_lt,
      UInt8.le_iff_toNat_le, UInt8.reduceToNat]
    omega
  have hdup : ¬ (OpCode.DUP1 ≤ op && op < OpCode.SWAP1) = true := by
    simp only [OpCode.DUP1, OpCode.SWAP1, Bool.and_eq_true, decide_eq_true_eq, UInt8.lt_iff_toNat_lt,
      UInt8.le_iff_toNat_le, UInt8.reduceToNat]
    omega
  have hswap : ¬ (OpCode.SWAP1 ≤ op && op < OpCode.SWAP1 + 16) = true := by
    simp only [OpCode.SWAP1, Bool.and_eq_true, decide_eq_true_eq, UInt8.lt_iff_toNat_lt,
      UInt8.le_iff_toNat_le, UInt8.reduceAdd, UInt8.reduceToNat]
    omega
  unfold frontierInstructionSet
  rw [if_neg (hne _ (by decide)), if_neg (hne _ (by decide)), if_neg (hne _ (by decide)),
    if_neg (hne _ (by decide)), if_neg (hne _ (by decide)), if_neg (hne _ (by decide)), if_neg (hne _ (by decide)),
    if_neg (hne _ (by decide)), if_neg hpush, if_neg hdup, if_neg hswap, if_neg (hne _ (by decide)),
    if_neg (hne _ (by decide)), if_neg (hne _ (by decide)), if_neg (hne _ (by decide)), if_neg (hne _ (by decide))]

/-! ## Precompiled contracts -/

/-- `dataCopy`, the identity contract. -/
def dataCopy : PrecompiledContract where
  requiredGas input := (input.length.toUInt64 + 31) / 32 * IdentityPerWordGas + IdentityBaseGas
  run input := .ok input

/-- `PrecompiledContractsHomestead`: the contracts at the addresses 1 to 18,
the data copy at 4 and `impl` (hashes, signature recovery, curve and pairing
arithmetic) at the others. -/
def precompiledContractsHomestead (impl : Address → PrecompiledContract) (a : Address) :
    Option PrecompiledContract :=
  if a = 4 then some dataCopy
  else if 1 ≤ a.toNat && a.toNat ≤ 18 then some (impl a)
  else none

end Pangu
