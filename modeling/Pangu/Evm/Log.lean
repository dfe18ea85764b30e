import Pangu.Evm.JumpTable

/-!
# The log operations

`LOG0` to `LOG4` of `newFrontierInstructionSet` (`core/evm/jump_table.go`),
among the entries `frontierInstructionSet` leaves to `others`:
`logInstructionSet others` is `others` with them. `makeLog(size)`
(`instructions.go`) pops a range of memory and `size` topics and hands the log
to `AddLog`, which files it under the state's current transaction hash, the
`thash` that `SetTxContext` last wrote; `makeGasLog(n)` (`gas_table.go`)
charges the memory's growth, `LogGas`, `n` topics and the bytes of the range.

* `frontierInstructionSet_log`: the table's entry for `LOGn`;
* `makeGasLog_eq`: the charge, when no sum overflows;
* `getLogs_addLog_self`, `getLogs_addLog_ne`: `AddLog` appends to the logs of
  the current hash and of no other;
* `makeLog_getLogs`: a `LOGn` that runs adds one log, the contract's, with
  the popped topics and the range's bytes, to the logs of the state's `thash`.
-/

namespace Pangu

open Go

def LogGas : UInt64 := 375
def LogTopicGas : UInt64 := 375
def LogDataGas : UInt64 := 8

def OpCode.LOG0 : OpCode := 0xa0

/-- `math.SafeMul(x, y)`: the product, or nothing on overflow. -/
def safeMul (x y : UInt64) : Option UInt64 :=
  if x.toNat * y.toNat < 2 ^ 64 then some (x * y) else none

/-- `size` calls of `stack.pop()`: the values in the order they come off, and
the stack left. -/
def Stack.popN : Nat → List Word → List Word × List Word
  | 0, st => ([], st)
  | n + 1, st =>
    let (x, st) := Stack.pop st
    let (xs, st) := Stack.popN n st
    (x :: xs, st)

/-- `memoryLog(stack)`. -/
def memoryLog (st : List Word) : UInt64 × Bool := calcMemSize64 (Stack.back st 0) (Stack.back st 1)

/-- `makeLog(size)`: the range's bytes and `size` topics, with the contract's
address and the block's number; `AddLog` adds the hash and the indices. -/
def makeLog (size : Nat) : ExecFn := fun ctx frame vm =>
  if vm.readOnly then .ok (frame, vm, [], some .writeProtection)
  else do
    let (mStart, st) := Stack.pop frame.stack
    let (mSize, st) := Stack.pop st
    let (topics, st) := Stack.popN size st
    let d ← frame.memory.getCopy mStart.toUInt64 mSize.toUInt64
    let db := vm.statedb.addLog
      { address := frame.contract.address, topics := topics, data := d,
        blockNumber := ctx.blockNumber.toNat.toUInt64, txHash := 0, txIndex := 0, blockHash := 0, index := 0 }
    .ok ({ frame with stack := st }, { vm with statedb := db }, [], none)

/-- The sums of `makeGasLog(n)` after the memory's growth `gas`, for a range
of `requestedSize` bytes; each overflow is the same error. -/
def logGasSum (gas n requestedSize : UInt64) : Except EvmError UInt64 :=
  let sum : Option UInt64 := do
    let gas ← safeAdd gas LogGas
    let gas ← safeAdd gas (n * LogTopicGas)
    let memorySizeGas ← safeMul requestedSize LogDataGas
    safeAdd gas memorySizeGas
  match sum with
  | some gas => .ok gas
  | none => .error .gasUintOverflow

/-- `makeGasLog(n)`: a range's size that does not fit 64 bits overflows before
the memory is charged. -/
def makeGasLog (n : UInt64) : GasFn := fun _ frame vm memorySize =>
  let requestedSize := Stack.back frame.stack 1
  if requestedSize.toNat ≥ 2 ^ 64 then .ok (frame, vm, .error .gasUintOverflow)
  else
    match memoryGasCost frame.memory memorySize with
    | .error e => .ok (frame, vm, .error e)
    | .ok (mem, gas) => .ok ({ frame with memory := mem }, vm, logGasSum gas n requestedSize.toUInt64)

/-- The entries `LOG0` to `LOG4` over `others`: `LOGn` pops the range and `n`
topics and pushes nothing. -/
def logInstructionSet (others : OpCode → Operation) (op : OpCode) : Operation :=
  if OpCode.LOG0 ≤ op && op ≤ OpCode.LOG0 + 4 then
    let n := (op - OpCode.LOG0).toNat
    execOp (makeLog n) 0 (some (makeGasLog n.toUInt64)) (2 + n) 0 (some memoryLog)
  else others op

/-! ## The table's entries -/

/-- `LOG0`..`LOG4` as numbers. -/
theorem toNat_of_log {op : OpCode} (h : OpCode.LOG0 ≤ op ∧ op ≤ OpCode.LOG0 + 4) :
    0xa0 ≤ op.toNat ∧ op.toNat ≤ 0xa4 := by
  simpa only [OpCode.LOG0, UInt8.le_iff_toNat_le, UInt8.reduceAdd, UInt8.reduceToNat] using h

/-- `LOGn`, `n = op - LOG0`, is an entry of the frontier table with `others`
extended by `logInstructionSet`. -/
theorem frontierInstructionSet_log (others : OpCode → Operation) {op : OpCode}
    (h : OpCode.LOG0 ≤ op ∧ op ≤ OpCode.LOG0 + 4) :
    frontierInstructionSet (logInstructionSet others) op =
      execOp (makeLog (op - OpCode.LOG0).toNat) 0 (some (makeGasLog (op - OpCode.LOG0).toNat.toUInt64))
        (2 + (op - OpCode.LOG0).toNat) 0 (some memoryLog) := by
  obtain ⟨hlo, hhi⟩ := toNat_of_log h
  have hnamed : op ∉ frontierNamed := by
    intro hop
    have hout : ∀ x ∈ frontierNamed, x.toNat < 0xa0 ∨ 0xa4 < x.toNat := by decide +kernel
    have := hout op hop
    omega
  have hdef : frontierDefined op = true := by
    simp [frontierDefined, UInt8.le_iff_toNat_le, show 0x60 ≤ op.toNat by omega, hhi]
  rw [frontierInstructionSet_of_unnamed (logInstructionSet others) hnamed (.inr hlo), if_pos hdef, logInstructionSet,
    if_pos (by simpa using h)]

/-! ## Gas -/

theorem safeAdd_of_lt {x y : UInt64} (h : x.toNat + y.toNat < 2 ^ 64) : safeAdd x y = some (x + y) :=
  if_pos h

theorem safeMul_of_lt {x y : UInt64} (h : x.toNat * y.toNat < 2 ^ 64) : safeMul x y = some (x * y) :=
  if_pos h

/-- With the memory's growth `gas`, `n` topics and a range of `size` bytes,
the charge is `gas + 375 + 375 n + 8 size` when that sum fits 64 bits. -/
theorem logGasSum_eq {gas n size : UInt64}
    (h : gas.toNat + 375 + 375 * n.toNat + 8 * size.toNat < 2 ^ 64) :
    ∃ g, logGasSum gas n size = .ok g ∧ g.toNat = gas.toNat + 375 + 375 * n.toNat + 8 * size.toNat := by
  have hl : LogGas.toNat = 375 := rfl
  have ht : LogTopicGas.toNat = 375 := rfl
  have hd : LogDataGas.toNat = 8 := rfl
  have h₁ : (gas + LogGas).toNat = gas.toNat + 375 := by
    rw [UInt64.toNat_add, hl, Nat.mod_eq_of_lt (by omega)]
  have h₂ : (n * LogTopicGas).toNat = 375 * n.toNat := by
    rw [UInt64.toNat_mul, ht, Nat.mod_eq_of_lt (by omega), Nat.mul_comm]
  have h₃ : (gas + LogGas + n * LogTopicGas).toNat = gas.toNat + 375 + 375 * n.toNat := by
    rw [UInt64.toNat_add, h₁, h₂, Nat.mod_eq_of_lt (by omega)]
  have h₄ : (size * LogDataGas).toNat = 8 * size.toNat := by
    rw [UInt64.toNat_mul, hd, Nat.mod_eq_of_lt (by omega), Nat.mul_comm]
  refine ⟨gas + LogGas + n * LogTopicGas + size * LogDataGas, ?_, ?_⟩
  · simp only [logGasSum, safeAdd_of_lt (show gas.toNat + LogGas.toNat < 2 ^ 64 by omega), Option.bind_eq_bind,
      Option.bind_some, safeAdd_of_lt (show (gas + LogGas).toNat + (n * LogTopicGas).toNat < 2 ^ 64 by omega),
      safeMul_of_lt (show size.toNat * LogDataGas.toNat < 2 ^ 64 by rw [hd]; omega),
      safeAdd_of_lt (show (gas + LogGas + n * LogTopicGas).toNat + (size * LogDataGas).toNat < 2 ^ 64 by omega)]
  · rw [UInt64.toNat_add, h₃, h₄, Nat.mod_eq_of_lt (by omega)]

/-- `makeGasLog(n)` on a range whose size fits 64 bits: the memory's growth
is recorded and the charge is `logGasSum`. -/
theorem makeGasLog_eq {n memorySize gas : UInt64} {ctx : Context} {frame : Frame} {vm : Evm} {mem : Memory}
    (hsize : (Stack.back frame.stack 1).toNat < 2 ^ 64)
    (hmem : memoryGasCost frame.memory memorySize = .ok (mem, gas)) :
    makeGasLog n ctx frame vm memorySize =
      .ok ({ frame with memory := mem }, vm, logGasSum gas n (Stack.back frame.stack 1).toUInt64) := by
  rw [makeGasLog, if_neg (Nat.not_le.mpr hsize), hmem]

/-! ## Where `AddLog` files a log -/

namespace StateDB

/-- `GetLogs` of the current hash after `AddLog` is the list before it and
the new log, with the hash and the index `AddLog` gives it. -/
theorem getLogs_addLog_self (s : StateDB) (l : Log) (blockNumber : UInt64) (blockHash : Hash) :
    (s.addLog l).getLogs s.thash blockNumber blockHash = s.getLogs s.thash blockNumber blockHash ++
      [{ l with
          txHash := s.thash
          txIndex := 0
          index := s.logSize
          blockNumber := blockNumber
          blockHash := blockHash }] := by
  simp [addLog, getLogs, append, GoMap.get_set_self]

theorem getLogs_addLog_ne (s : StateDB) (l : Log) {hash : Hash} (h : hash ≠ s.thash) (blockNumber : UInt64)
    (blockHash : Hash) :
    (s.addLog l).getLogs hash blockNumber blockHash = s.getLogs hash blockNumber blockHash := by
  simp only [addLog, getLogs, append]
  rw [GoMap.get_set_ne _ _ _ h]

@[simp] theorem thash_addLog (s : StateDB) (l : Log) : (s.addLog l).thash = s.thash := rfl

end StateDB

/-- A `LOGn` on a writable frame whose range is in memory adds one log to the
logs of the state's `thash`: the contract's, with the `n` topics under the
range and the range's bytes; the logs of every other hash stay. -/
theorem makeLog_getLogs (n : Nat) (ctx : Context) {frame : Frame} {vm : Evm} {d : Bytes}
    (hro : vm.readOnly = false)
    (hcopy : frame.memory.getCopy (Stack.back frame.stack 0).toUInt64 (Stack.back frame.stack 1).toUInt64 = .ok d) :
    ∃ frame' vm', makeLog n ctx frame vm = .ok (frame', vm', [], none) ∧ vm'.statedb.thash = vm.statedb.thash ∧
      (∀ blockNumber blockHash, vm'.statedb.getLogs vm.statedb.thash blockNumber blockHash =
        vm.statedb.getLogs vm.statedb.thash blockNumber blockHash ++
          [{ address := frame.contract.address, topics := (Stack.popN n frame.stack.tail.tail).1, data := d,
              blockNumber := blockNumber, txHash := vm.statedb.thash, txIndex := 0, blockHash := blockHash,
              index := vm.statedb.logSize }]) ∧
      ∀ hash, hash ≠ vm.statedb.thash → ∀ blockNumber blockHash,
        vm'.statedb.getLogs hash blockNumber blockHash = vm.statedb.getLogs hash blockNumber blockHash := by
  have h₀ : frame.stack.headD 0 = Stack.back frame.stack 0 := by
    cases frame.stack <;> rfl
  have h₁ : frame.stack.tail.headD 0 = Stack.back frame.stack 1 := by
    rcases frame.stack with _ | ⟨a, _ | ⟨b, st⟩⟩ <;> rfl
  have hrun : makeLog n ctx frame vm = .ok ({ frame with stack := (Stack.popN n frame.stack.tail.tail).2 },
      { vm with
        statedb := vm.statedb.addLog
          { address := frame.contract.address, topics := (Stack.popN n frame.stack.tail.tail).1, data := d,
            blockNumber := ctx.blockNumber.toNat.toUInt64, txHash := 0, txIndex := 0, blockHash := 0, index := 0 } },
      [], none) := by
    rw [makeLog, if_neg (by simp [hro])]
    simp only [Stack.pop]
    rw [h₀, h₁, hcopy, ok_bind]
  refine ⟨_, _, hrun, rfl, fun blockNumber blockHash => ?_, fun hash hne blockNumber blockHash => ?_⟩
  · exact StateDB.getLogs_addLog_self _ _ _ _
  · exact StateDB.getLogs_addLog_ne _ _ hne _ _

end Pangu
