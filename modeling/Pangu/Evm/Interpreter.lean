import Pangu.Evm.Basic
import Pangu.Rlp.Encode

/-!
# The interpreter and the calls between contracts

`EVMInterpreter.Run` (`core/evm/interpreter.go`) and the methods of `EVM` that
start a frame (`Call`, `CallCode`, `DelegateCall`, `StaticCall`, `create`, in
`core/evm/evm.go`), with the operations that call them (`opCall`, ...,
`opCreate2`, `instructions.go`). They call each other, so they are one mutual
recursion, bounded by fuel: every call of one by another takes one unit, and so
does every turn of the interpreter's loop.

Each turn of the loop checks the stack, charges the gas, and then, in a
parallel group, collects what the operation is about to touch
(`GetTrueAccessList`) and checks it against the state's access list: a conflict
clears `CanParallel` and ends the loop after the operation. A `CREATE` clears
it too, and runs only in the serial group. A call's operation sets
`CanParallel` to what the callee returned, over whatever the check found.

The interpreter runs over any jump table; `JumpTable.lean` gives the one it is
built with. Operations that neither call nor create are functions of the
frame, the EVM and the context (`ExecFn`).
-/

namespace Pangu

open Go

/-- A `PrecompiledContract`: its gas and its result. -/
structure PrecompiledContract where
  requiredGas : Bytes → UInt64
  run : Bytes → Except EvmError Bytes

/-- `BlockContext` and `TxContext`, the cryptography and the precompiled
contracts: what a transaction's run reads and never changes. -/
structure Context where
  crypto : Crypto
  coinbase : Address
  gasLimit : UInt64
  blockNumber : Int
  time : UInt64
  baseFee : Option Int
  origin : Address
  gasPrice : Int
  precompiles : Address → Option PrecompiledContract

/-- The parts of an `EVM` and its interpreter that a run changes: the state,
the call depth, the gas of the pending call, the read-only flag, the last
call's return data, and the access list `TrueAccessList` points to. -/
structure Evm where
  statedb : StateDB
  depth : Int
  callGasTemp : UInt64
  readOnly : Bool
  returnData : Bytes
  trueAccessList : Option AccessList

/-- A frame of the interpreter: `pc` and the `ScopeContext`. -/
structure Frame where
  pc : UInt64
  memory : Memory
  stack : List Word
  contract : Contract

/-- `executionFunc`: the frame, the EVM, the returned bytes and the error. -/
abbrev ExecFn := Context → Frame → Evm → Go (Frame × Evm × Bytes × Option EvmError)

/-- `gasFunc`, given the memory size: it may change the EVM (`callGasTemp`,
the refund counter) and the memory's gas record. -/
abbrev GasFn := Context → Frame → Evm → UInt64 → Go (Frame × Evm × Except EvmError UInt64)

/-- `memorySizeFunc`. -/
abbrev MemorySizeFn := List Word → UInt64 × Bool

/-- The operations behind `executeAL`, which call into `EVM`. -/
inductive ExecuteAL where
  | opCreate
  | opCall
  | opCallCode
  | opDelegateCall
  | opStaticCall
  | opCreate2

/-- `operation`; a nil function is `none`. -/
structure Operation where
  execute : Option ExecFn
  executeAL : Option ExecuteAL
  constantGas : UInt64
  dynamicGas : Option GasFn
  minStack : Nat
  maxStack : Nat
  memorySize : Option MemorySizeFn

/-- `JumpTable`. -/
abbrev JumpTable := OpCode → Operation

/-- `CanTransfer(db, addr, amount)`. -/
def canTransfer (db : StateDB) (addr : Address) (amount : Int) : Bool := db.getBalance addr ≥ amount

/-- `Transfer(db, sender, recipient, amount)`. -/
def transfer (crypto : Crypto) (db : StateDB) (sender recipient : Address) (amount : Int) : StateDB :=
  (db.subBalance crypto sender amount).addBalance crypto recipient amount

/-- `RunPrecompiledContract(p, input, suppliedGas)`. -/
def runPrecompiledContract (p : PrecompiledContract) (input : Bytes) (suppliedGas : UInt64) :
    Bytes × UInt64 × Option EvmError :=
  let gasCost := p.requiredGas input
  if suppliedGas < gasCost then ([], 0, some .outOfGas)
  else
    match p.run input with
    | .ok out => (out, suppliedGas - gasCost, none)
    | .error e => ([], suppliedGas - gasCost, some e)

/-- `GetTrueAccessList(op, scope, NewAL)`: the slot an `SLOAD` or `SSTORE`
reads, the account a `BALANCE`, `EXTCODE*` or `SELFDESTRUCT` reads, and the
account a call goes to, added to `al`. -/
def getTrueAccessList (op : OpCode) (stack : List Word) (self : Address) (al : AccessList) :
    Go AccessList := do
  let n := stack.length
  let addAddr (al : AccessList) (a : Address) : Go AccessList :=
    if al.accessListIsAddressExce a then .ok al else do
      let (al, _) ← al.accessListAddAddress a
      .ok al
  if (op == OpCode.SLOAD || op == OpCode.SSTORE) && n ≥ 1 then do
    let (al, _) ← al.accessListAddSlot self (Stack.back stack 0)
    .ok al
  else if (op == OpCode.EXTCODECOPY || op == OpCode.EXTCODEHASH || op == OpCode.EXTCODESIZE ||
      op == OpCode.BALANCE || op == OpCode.SELFDESTRUCT) && n ≥ 1 then
    addAddr al (Stack.back stack 0).toAddress
  else if op.isCall && n ≥ 5 then addAddr al (Stack.back stack 1).toAddress
  else .ok al

/-! ## One turn of the loop, before and around the operation -/

/-- The checks and charges before an operation runs: the stack's depth, the
constant gas, then the memory size, the dynamic gas and the memory's growth.
An error here ends the run; the contract keeps what was charged before it. -/
def prepare (ctx : Context) (operation : Operation) (frame : Frame) (vm : Evm) :
    Go (Frame × Evm × Option EvmError) :=
  let sLen := frame.stack.length
  if sLen < operation.minStack then .ok (frame, vm, some (.stackUnderflow sLen operation.minStack))
  else if sLen > operation.maxStack then .ok (frame, vm, some (.stackOverflow sLen operation.maxStack))
  else
    match frame.contract.useGas operation.constantGas with
    | none => .ok (frame, vm, some .outOfGas)
    | some contract =>
      let frame := { frame with contract := contract }
      match operation.dynamicGas with
      | none => .ok (frame, vm, none)
      | some dynamicGas =>
        let size : Except EvmError UInt64 := match operation.memorySize with
          | none => .ok 0
          | some memorySize =>
            let (memSize, overflow) := memorySize frame.stack
            if overflow then .error .gasUintOverflow
            else
              let words := evmToWordSize memSize
              if words.toNat * 32 ≥ 2 ^ 64 then .error .gasUintOverflow else .ok (words * 32)
        match size with
        | .error e => .ok (frame, vm, some e)
        | .ok memorySize => do
          let (frame, vm, dynamicCost) ← dynamicGas ctx frame vm memorySize
          match dynamicCost with
          | .error _ => .ok (frame, vm, some .outOfGas)
          | .ok cost =>
            match frame.contract.useGas cost with
            | none => .ok (frame, vm, some .outOfGas)
            | some contract =>
              let memory := if memorySize > 0 then frame.memory.resize memorySize else frame.memory
              .ok ({ frame with contract := contract, memory := memory }, vm, none)

/-- The access check of one turn: in a parallel group, a conflict with the
state's access list clears `CanParallel`; in the serial group, what the
operation touches is added to `*TrueAccessList`. -/
def accessCheck (op : OpCode) (frame : Frame) (vm : Evm) (isParallel canParallel : Bool) :
    Go (Evm × Bool) := do
  let part ← getTrueAccessList op frame.stack frame.contract.address AccessList.newAccessList
  if isParallel then do
    let (result, _) ← part.conflictDetection vm.statedb.getAccessList
    .ok (vm, if result then canParallel else false)
  else do
    let (trueAL, _) ← AccessList.combineTrueAccessList vm.trueAccessList part
    .ok ({ vm with trueAccessList := trueAL }, canParallel)

/-- A plain operation's `execute`; a nil one is a call of a nil function. -/
def execute (operation : Operation) (ctx : Context) (frame : Frame) (vm : Evm) :
    Go (Frame × Evm × Bytes × Option EvmError) :=
  match operation.execute with
  | some f => f ctx frame vm
  | none => nilDereference

/-- `stack.pop()` of the arguments of a call: the gas, the address, the value
if the call has one, and the input and output ranges. -/
structure CallArgs where
  temp : Word
  addr : Word
  value : Word
  inOffset : Word
  inSize : Word
  retOffset : Word
  retSize : Word

/-- The arguments popped, `withValue` for `CALL` and `CALLCODE`, and the stack left. -/
def popCallArgs (withValue : Bool) (st : List Word) : CallArgs × List Word :=
  let (temp, st) := Stack.pop st
  let (addr, st) := Stack.pop st
  let (value, st) := if withValue then Stack.pop st else (0, st)
  let (inOffset, st) := Stack.pop st
  let (inSize, st) := Stack.pop st
  let (retOffset, st) := Stack.pop st
  let (retSize, st) := Stack.pop st
  (⟨temp, addr, value, inOffset, inSize, retOffset, retSize⟩, st)

/-- A word's low 64 bits, `Uint64()`. -/
def Word.toUInt64 (w : Word) : UInt64 := w.toNat.toUInt64

/-- What every call operation does after the call returns: one on the stack
for success, the output copied to memory unless the call failed otherwise than
by reverting, the unused gas given back, and the return data kept. -/
def finishCall (args : CallArgs) (st : List Word) (frame : Frame) (vm : Evm) (ret : Bytes)
    (returnGas : UInt64) (err : Option EvmError) : Go (Frame × Evm) := do
  let temp : Word := if err.isSome then 0 else 1
  let memory ← if err = none ∨ err = some .executionReverted then
      frame.memory.set args.retOffset.toUInt64 args.retSize.toUInt64 ret
    else .ok frame.memory
  let contract := { frame.contract with gas := frame.contract.gas + returnGas }
  .ok ({ frame with stack := temp :: st, memory := memory, contract := contract },
    { vm with returnData := ret })

/-! ## Results -/

/-- What `Run` returns: the output, the error and `CanParallel`, with the
contract (its gas) and the EVM it leaves. -/
structure RunResult where
  ret : Bytes
  err : Option EvmError
  canParallel : Bool
  contract : Contract
  vm : Evm

/-- What the loop of `Run` leaves when it stops: the last operation's output. -/
structure LoopResult where
  res : Bytes
  err : Option EvmError
  canParallel : Bool
  frame : Frame
  vm : Evm

/-- What an `executeAL` operation returns, with the frame and the EVM it leaves. -/
structure ALResult where
  frame : Frame
  vm : Evm
  ret : Bytes
  err : Option EvmError
  canParallel : Bool

/-- What `Call`, `CallCode`, `DelegateCall` and `StaticCall` return. -/
structure CallResult where
  ret : Bytes
  gasRemain : UInt64
  canParallel : Bool
  err : Option EvmError
  vm : Evm

/-- What `create`, `Create` and `Create2` return. -/
structure CreateResult where
  ret : Bytes
  addr : Address
  gasRemain : UInt64
  canParallel : Bool
  err : Option EvmError
  vm : Evm

/-! ## What the calls share -/

/-- `evm.depth > int(evmparams.CallCreateDepth)`. -/
def Evm.tooDeep (vm : Evm) : Bool := vm.depth > (CallCreateDepth.toNat : Int)

/-- The error `Call` makes for a missing account called with no value. -/
def errContractNotExist : EvmError := .other "contract address is not exist"

/-- `if err != nil { evm.StateDB.RevertToSnapshot(snapshot) }`. -/
def revertOnError (vm : Evm) (snapshot : Int) (err : Option EvmError) : GoF Evm :=
  match err with
  | some _ => do
    let db ← lift (vm.statedb.revertToSnapshot snapshot)
    .ok { vm with statedb := db }
  | none => .ok vm

/-- `NewContract(caller, AccountRef(caller.Address()), nil, gas).AsDelegate()`:
the caller's caller and value, run as the caller. -/
def Contract.asDelegate (parent : Contract) (gas : UInt64) : Contract :=
  Contract.new parent.callerAddress parent.address parent.value gas

/-- `crypto.CreateAddress(b, nonce)`: the low 20 bytes of the Keccak hash of
the RLP list `[b, nonce]`, which the encoder always writes. -/
def createAddress (crypto : Crypto) (b : Address) (nonce : UInt64) : Address :=
  let data := match rlpEncode (.slice .iface
      [.iface (some (.byteArray b.bytes)), .iface (some (.uint nonce.toNat))]) with
    | .ok bs => bs
    | .error _ => []
  (crypto.keccak256 data).setWidth 160

/-- `crypto.CreateAddress2(b, salt, inithash)`. -/
def createAddress2 (crypto : Crypto) (b : Address) (salt inithash : Hash) : Address :=
  (crypto.keccak256 (0xff :: b.bytes ++ salt.bytes ++ inithash.bytes)).setWidth 160

/-- The body `opCall`, `opCallCode`, `opDelegateCall` and `opStaticCall`
share: pop the arguments (a value only `withValue`), read the input, refuse a
value in a read-only run if `checkWrite`, add the stipend to a call with value,
call, and finish. The callee gets the calling contract, the target, the input,
the gas and the value. -/
def callOp (withValue checkWrite : Bool)
    (callee : Contract → Address → Bytes → UInt64 → Int → Evm → GoF CallResult)
    (frame : Frame) (vm : Evm) : GoF ALResult := do
  let (args, st) := popCallArgs withValue frame.stack
  let input ← lift (frame.memory.getPtr args.inOffset.toUInt64 args.inSize.toUInt64)
  if checkWrite && vm.readOnly && args.value != 0 then
    .ok ⟨{ frame with stack := st }, vm, [], some .writeProtection, true⟩
  else do
    let gas := if args.value != 0 then vm.callGasTemp + CallStipend else vm.callGasTemp
    let r ← callee frame.contract args.addr.toAddress input gas args.value.toNat vm
    let (frame, vm) ← lift (finishCall args st frame r.vm r.ret r.gasRemain r.err)
    .ok ⟨frame, vm, r.ret, none, r.canParallel⟩

/-- The body `opCreate` and `opCreate2` share: pop the value, the code's range
and (`withSalt`) the salt, pass all but a 64th of the gas, push the new address
or zero, take back the unused gas, and keep the output only of a revert. The
callee gets the creator, the code, the gas, the value and the salt. -/
def createOp (withSalt : Bool)
    (callee : Address → Bytes → UInt64 → Int → Word → Evm → GoF CreateResult)
    (frame : Frame) (vm : Evm) : GoF ALResult :=
  if vm.readOnly then .ok ⟨frame, vm, [], some .writeProtection, true⟩
  else do
    let (value, st) := Stack.pop frame.stack
    let (offset, st) := Stack.pop st
    let (size, st) := Stack.pop st
    let (salt, st) := if withSalt then Stack.pop st else (0, st)
    let input ← lift (frame.memory.getCopy offset.toUInt64 size.toUInt64)
    let gas := frame.contract.gas - frame.contract.gas / 64
    -- `UseGas` of less than the contract has: it cannot fail, and is not checked
    let contract := (frame.contract.useGas gas).getD frame.contract
    let r ← callee contract.address input gas value.toNat salt vm
    let stackvalue : Word := if r.err.isSome then 0 else r.addr.toWord
    let contract := { contract with gas := contract.gas + r.gasRemain }
    let frame := { frame with stack := stackvalue :: st, contract := contract }
    if r.err = some .executionReverted then .ok ⟨frame, { r.vm with returnData := r.ret }, r.ret, none, r.canParallel⟩
    else .ok ⟨frame, { r.vm with returnData := [] }, [], none, r.canParallel⟩

/-! ## The interpreter and the calls -/

mutual

/-- `EVMInterpreter.Run(contract, input, readOnly, TrueAccessList, IsParallel)`.
The deferred calls put the depth back, and clear `readOnly` if this run set it. -/
def run (jt : JumpTable) (ctx : Context) (isParallel : Bool) :
    Nat → Contract → Bytes → Bool → Evm → GoF RunResult
  | 0, _, _, _, _ => .error .outOfFuel
  | fuel + 1, contract, input, readOnly, vm =>
    let setReadOnly := readOnly && !vm.readOnly
    let vm := { vm with depth := vm.depth + 1, readOnly := vm.readOnly || setReadOnly }
    let leave (vm : Evm) : Evm :=
      { vm with depth := vm.depth - 1, readOnly := if setReadOnly then false else vm.readOnly }
    if contract.code.length = 0 then .ok ⟨[], none, true, contract, leave vm⟩
    else do
      let frame : Frame := ⟨0, Memory.new, [], { contract with input := input }⟩
      let r ← loop jt ctx isParallel fuel frame vm true []
      -- `errStopToken` is how `STOP` and `RETURN` end a run, and is cleared
      let err := if r.err = some .stopToken then none else r.err
      .ok ⟨r.res, err, r.canParallel, r.frame.contract, leave r.vm⟩

/-- The loop of `Run`, at `pc` with `CanParallel` and the last operation's
output `res`. An error before the operation returns at once with `CanParallel`
set; after it, the loop stops on an error, or in a parallel group once
`CanParallel` is cleared. -/
def loop (jt : JumpTable) (ctx : Context) (isParallel : Bool) :
    Nat → Frame → Evm → Bool → Bytes → GoF LoopResult
  | 0, _, _, _, _ => .error .outOfFuel
  | fuel + 1, frame, vm, canParallel, res => do
    let op := frame.contract.getOp frame.pc
    let operation := jt op
    let (frame, vm, err) ← lift (prepare ctx operation frame vm)
    match err with
    | some e => .ok ⟨[], some e, true, frame, vm⟩
    | none =>
      let (vm, canParallel) ← lift (accessCheck op frame vm isParallel canParallel)
      -- a `CREATE` clears `CanParallel`, and runs in the serial group only
      let (frame, vm, res, err, canParallel) ← if op.isCreate then
          if isParallel then .ok (frame, vm, res, none, false)
          else do
            let r ← executeAL jt ctx isParallel fuel operation frame vm
            .ok (r.frame, r.vm, r.ret, r.err, false)
        else .ok (frame, vm, res, none, canParallel)
      let (frame, vm, res, err, canParallel) ← if isParallel || canParallel then
          -- a call returns the callee's `CanParallel`, over what the check found
          if op.isCall then do
            let r ← executeAL jt ctx isParallel fuel operation frame vm
            .ok (r.frame, r.vm, r.ret, r.err, r.canParallel)
          else do
            let (frame, vm, res, err) ← lift (execute operation ctx frame vm)
            .ok (frame, vm, res, err, canParallel)
        else .ok (frame, vm, res, err, canParallel)
      if err.isSome || (isParallel && !canParallel) then .ok ⟨res, err, canParallel, frame, vm⟩
      else loop jt ctx isParallel fuel { frame with pc := frame.pc + 1 } vm canParallel res

/-- `operation.executeAL(&pc, in, callContext, TrueAccessList, IsParallel)`; a
nil one is a call of a nil function. -/
def executeAL (jt : JumpTable) (ctx : Context) (isParallel : Bool) :
    Nat → Operation → Frame → Evm → GoF ALResult
  | 0, _, _, _ => .error .outOfFuel
  | fuel + 1, operation, frame, vm =>
    match operation.executeAL with
    | none => lift nilDereference
    | some .opCreate => opCreate jt ctx isParallel fuel frame vm
    | some .opCall => opCall jt ctx isParallel fuel frame vm
    | some .opCallCode => opCallCode jt ctx isParallel fuel frame vm
    | some .opDelegateCall => opDelegateCall jt ctx isParallel fuel frame vm
    | some .opStaticCall => opStaticCall jt ctx isParallel fuel frame vm
    | some .opCreate2 => opCreate2 jt ctx isParallel fuel frame vm

/-- `opCall`. -/
def opCall (jt : JumpTable) (ctx : Context) (isParallel : Bool) : Nat → Frame → Evm → GoF ALResult
  | 0, _, _ => .error .outOfFuel
  | fuel + 1, frame, vm =>
    callOp true true (fun caller => call jt ctx isParallel fuel caller.address) frame vm

/-- `opCallCode`. -/
def opCallCode (jt : JumpTable) (ctx : Context) (isParallel : Bool) : Nat → Frame → Evm → GoF ALResult
  | 0, _, _ => .error .outOfFuel
  | fuel + 1, frame, vm =>
    callOp true false (fun caller => callCode jt ctx isParallel fuel caller.address) frame vm

/-- `opDelegateCall`. -/
def opDelegateCall (jt : JumpTable) (ctx : Context) (isParallel : Bool) :
    Nat → Frame → Evm → GoF ALResult
  | 0, _, _ => .error .outOfFuel
  | fuel + 1, frame, vm =>
    callOp false false (fun caller addr input gas _ => delegateCall jt ctx isParallel fuel caller addr input gas)
      frame vm

/-- `opStaticCall`. -/
def opStaticCall (jt : JumpTable) (ctx : Context) (isParallel : Bool) :
    Nat → Frame → Evm → GoF ALResult
  | 0, _, _ => .error .outOfFuel
  | fuel + 1, frame, vm =>
    callOp false false
      (fun caller addr input gas _ => staticCall jt ctx isParallel fuel caller.address addr input gas) frame vm

/-- `opCreate`. -/
def opCreate (jt : JumpTable) (ctx : Context) (isParallel : Bool) : Nat → Frame → Evm → GoF ALResult
  | 0, _, _ => .error .outOfFuel
  | fuel + 1, frame, vm =>
    createOp false (fun caller input gas value _ => Create jt ctx isParallel fuel caller input gas value) frame vm

/-- `opCreate2`. -/
def opCreate2 (jt : JumpTable) (ctx : Context) (isParallel : Bool) : Nat → Frame → Evm → GoF ALResult
  | 0, _, _ => .error .outOfFuel
  | fuel + 1, frame, vm =>
    createOp true (fun caller input gas value salt => Create2 jt ctx isParallel fuel caller input gas value salt)
      frame vm

/-- `EVM.Call(caller, addr, input, gas, value, TrueAccessList, IsParallel)`.
A missing account is called only with a value or as a precompile; otherwise
the call fails, with `CanParallel` set and the snapshot left open. -/
def call (jt : JumpTable) (ctx : Context) (isParallel : Bool) :
    Nat → Address → Address → Bytes → UInt64 → Int → Evm → GoF CallResult
  | 0, _, _, _, _, _, _ => .error .outOfFuel
  | fuel + 1, caller, addr, input, gas, value, vm =>
    if vm.tooDeep then .ok ⟨[], gas, true, some .depth, vm⟩
    else if value != 0 && !canTransfer vm.statedb caller value then
      .ok ⟨[], gas, true, some .insufficientBalance, vm⟩
    else
      let (db, snapshot) := vm.statedb.snapshot
      let p := ctx.precompiles addr
      if !db.exist addr && p.isNone && value == 0 then
        .ok ⟨[], gas, true, some errContractNotExist, { vm with statedb := db }⟩
      else
        let db := if db.exist addr then db else db.createAccount ctx.crypto addr
        let db := transfer ctx.crypto db caller addr value
        match p with
        | some p => do
          -- `CanParallel` is never set on this path: it keeps Go's zero value
          let (ret, gas, err) := runPrecompiledContract p input gas
          let vm ← revertOnError { vm with statedb := db } snapshot err
          .ok ⟨ret, gas, false, err, vm⟩
        | none =>
          let code := db.getCode addr
          if code.length = 0 then .ok ⟨[], gas, true, none, { vm with statedb := db }⟩
          else do
            let contract := (Contract.new caller addr value gas).setCallCode addr (db.getCodeHash addr) code
            let r ← run jt ctx isParallel fuel contract input false { vm with statedb := db }
            let vm ← revertOnError r.vm snapshot r.err
            .ok ⟨r.ret, r.contract.gas, r.canParallel, r.err, vm⟩

/-- `EVM.CallCode(caller, addr, input, gas, value, ...)`: the code of `addr`
run as the caller, with no transfer. -/
def callCode (jt : JumpTable) (ctx : Context) (isParallel : Bool) :
    Nat → Address → Address → Bytes → UInt64 → Int → Evm → GoF CallResult
  | 0, _, _, _, _, _, _ => .error .outOfFuel
  | fuel + 1, caller, addr, input, gas, value, vm =>
    if vm.tooDeep then .ok ⟨[], gas, true, some .depth, vm⟩
    else if !canTransfer vm.statedb caller value then .ok ⟨[], gas, true, some .insufficientBalance, vm⟩
    else
      let (db, snapshot) := vm.statedb.snapshot
      let vm := { vm with statedb := db }
      match ctx.precompiles addr with
      | some p => do
        let (ret, gas, err) := runPrecompiledContract p input gas
        let vm ← revertOnError vm snapshot err
        .ok ⟨ret, gas, true, err, vm⟩
      | none => do
        let contract := (Contract.new caller caller value gas).setCallCode addr (db.getCodeHash addr) (db.getCode addr)
        let r ← run jt ctx isParallel fuel contract input false vm
        let vm ← revertOnError r.vm snapshot r.err
        .ok ⟨r.ret, r.contract.gas, r.canParallel, r.err, vm⟩

/-- `EVM.DelegateCall(caller, addr, input, gas, ...)`: the code of `addr` run as
the calling contract, with its caller and value. -/
def delegateCall (jt : JumpTable) (ctx : Context) (isParallel : Bool) :
    Nat → Contract → Address → Bytes → UInt64 → Evm → GoF CallResult
  | 0, _, _, _, _, _ => .error .outOfFuel
  | fuel + 1, caller, addr, input, gas, vm =>
    if vm.tooDeep then .ok ⟨[], gas, true, some .depth, vm⟩
    else
      let (db, snapshot) := vm.statedb.snapshot
      let vm := { vm with statedb := db }
      match ctx.precompiles addr with
      | some p => do
        let (ret, gas, err) := runPrecompiledContract p input gas
        let vm ← revertOnError vm snapshot err
        .ok ⟨ret, gas, true, err, vm⟩
      | none => do
        let contract := (caller.asDelegate gas).setCallCode addr (db.getCodeHash addr) (db.getCode addr)
        let r ← run jt ctx isParallel fuel contract input false vm
        let vm ← revertOnError r.vm snapshot r.err
        .ok ⟨r.ret, r.contract.gas, r.canParallel, r.err, vm⟩

/-- `EVM.StaticCall(caller, addr, input, gas, ...)`: a read-only run, after
touching `addr` with a zero `AddBalance`. -/
def staticCall (jt : JumpTable) (ctx : Context) (isParallel : Bool) :
    Nat → Address → Address → Bytes → UInt64 → Evm → GoF CallResult
  | 0, _, _, _, _, _ => .error .outOfFuel
  | fuel + 1, caller, addr, input, gas, vm =>
    if vm.tooDeep then .ok ⟨[], gas, true, some .depth, vm⟩
    else
      let (db, snapshot) := vm.statedb.snapshot
      let db := db.addBalance ctx.crypto addr 0
      let vm := { vm with statedb := db }
      match ctx.precompiles addr with
      | some p => do
        let (ret, gas, err) := runPrecompiledContract p input gas
        let vm ← revertOnError vm snapshot err
        .ok ⟨ret, gas, true, err, vm⟩
      | none => do
        let contract := (Contract.new caller addr 0 gas).setCallCode addr (db.getCodeHash addr) (db.getCode addr)
        let r ← run jt ctx isParallel fuel contract input true vm
        let vm ← revertOnError r.vm snapshot r.err
        .ok ⟨r.ret, r.contract.gas, r.canParallel, r.err, vm⟩

/-- `EVM.create(caller, codeAndHash, gas, value, address, ...)`. The checks
before the snapshot fail with `CanParallel` set, and the size and code-storage
checks after the run return without a revert. -/
def create (jt : JumpTable) (ctx : Context) (isParallel : Bool) :
    Nat → Address → Bytes → Hash → UInt64 → Int → Address → Evm → GoF CreateResult
  | 0, _, _, _, _, _, _, _ => .error .outOfFuel
  | fuel + 1, caller, code, codeHash, gas, value, address, vm =>
    let crypto := ctx.crypto
    if vm.tooDeep then .ok ⟨[], address, gas, true, some (.other "max call depth exceeded"), vm⟩
    else if !canTransfer vm.statedb caller value then
      .ok ⟨[], address, gas, true, some (.other "insufficient balance for transfer"), vm⟩
    else
      let nonce := vm.statedb.getNonce caller
      if nonce + 1 < nonce then .ok ⟨[], address, gas, true, some (.other "nonce uint64 overflow"), vm⟩
      else
        let db := vm.statedb.setNonce crypto caller (nonce + 1)
        let contractHash := db.getCodeHash address
        if db.getNonce address != 0 || (contractHash != 0 && contractHash != emptyCodeHash crypto) then
          .ok ⟨[], address, gas, true, some (.other "contract address collision"), { vm with statedb := db }⟩
        else do
          let (db, snapshot) := db.snapshot
          let db := transfer crypto (db.createAccount crypto address) caller address value
          let contract : Contract :=
            { Contract.new caller address value gas with code := code, codeHash := codeHash, codeAddr := some address }
          let r ← run jt ctx isParallel fuel contract [] false { vm with statedb := db }
          match r.err with
          | none =>
            if r.ret.length > MaxCodeSize then
              .ok ⟨[], address, 0, true, some (.other "max code size exceeded"), r.vm⟩
            else match r.contract.useGas (r.ret.length.toUInt64 * CreateDataGas) with
              | some contract =>
                .ok ⟨r.ret, address, contract.gas, r.canParallel, none,
                  { r.vm with statedb := r.vm.statedb.setCode crypto address r.ret }⟩
              | none => .ok ⟨[], address, 0, true, some (.other "contract creation code storage out of gas"), r.vm⟩
          | some e => do
            let vm ← revertOnError r.vm snapshot (some e)
            .ok ⟨r.ret, address, r.contract.gas, r.canParallel, some e, vm⟩

/-- `EVM.Create(caller, code, gas, value, ...)`: at the address made of the
caller and its nonce, with no code hash. -/
def Create (jt : JumpTable) (ctx : Context) (isParallel : Bool) :
    Nat → Address → Bytes → UInt64 → Int → Evm → GoF CreateResult
  | 0, _, _, _, _, _ => .error .outOfFuel
  | fuel + 1, caller, code, gas, value, vm =>
    let contractAddr := createAddress ctx.crypto caller (vm.statedb.getNonce caller)
    create jt ctx isParallel fuel caller code 0 gas value contractAddr vm

/-- `EVM.Create2(caller, code, gas, endowment, salt, ...)`: at the address made
of the caller, the salt and the code's hash. -/
def Create2 (jt : JumpTable) (ctx : Context) (isParallel : Bool) :
    Nat → Address → Bytes → UInt64 → Int → Word → Evm → GoF CreateResult
  | 0, _, _, _, _, _, _ => .error .outOfFuel
  | fuel + 1, caller, code, gas, endowment, salt, vm =>
    let hash := ctx.crypto.keccak256 code
    create jt ctx isParallel fuel caller code hash gas endowment (createAddress2 ctx.crypto caller salt hash) vm

end

/-! ## One turn of the loop -/

/-- In a parallel group a creation clears `CanParallel` and then, the group
executing all the same, calls its entry's `execute`: where it has none, the
loop panics there. -/
theorem loop_parallel_create_nil {jt : JumpTable} {ctx : Context} {fuel : Nat} {frame frame₁ : Frame}
    {vm vm₁ vm₂ : Evm} {canParallel canParallel₁ : Bool} {res : Bytes}
    (hcreate : (frame.contract.getOp frame.pc).isCreate = true)
    (hprep : prepare ctx (jt (frame.contract.getOp frame.pc)) frame vm = .ok (frame₁, vm₁, none))
    (hcheck : accessCheck (frame.contract.getOp frame.pc) frame₁ vm₁ true canParallel = .ok (vm₂, canParallel₁))
    (hnil : (jt (frame.contract.getOp frame.pc)).execute = none) :
    loop jt ctx true (fuel + 1) frame vm canParallel res = lift nilDereference := by
  have hcall : (frame.contract.getOp frame.pc).isCall = false := by
    cases hc : (frame.contract.getOp frame.pc).isCall
    · rfl
    · rw [OpCode.isCreate_eq_false_of_isCall hc] at hcreate
      cases hcreate
  rw [loop]
  simp only [hprep, hcheck, hcreate, hcall, lift_ok, ok_bind, if_true, Bool.true_or, Bool.false_eq_true, if_false]
  simp [execute, hnil, lift, nilDereference, Go.panic]

end Pangu
