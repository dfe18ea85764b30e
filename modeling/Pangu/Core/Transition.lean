import Pangu.Evm.JumpTable
import Pangu.Types.Signer
import Pangu.Lib.Interleave
import Pangu.Types.Receipt

/-!
# Applying a transaction

`core/transition.go`, `process_types.go` and `ExecuteTx` of `process.go`: a
transaction becomes a `TxMessage`, is checked and charged for its gas, runs
as a call or a creation, and is paid for. All the groups of a block run these
at once on one state database, one gas counter and one block header, so each
is a thread (`Interleave.Prog`) over that shared `World`: each method of the
state database it calls is one step, and so is each run of the EVM, whose own
state operations no other thread sees half done here.

`TransactionToMessage` writes the header: `baseFee.Add(baseFee, tipfee)` adds
the tip to the header's base fee in place, and `msg.GasPrice`, which is that
same pointer, gets the tip once more from `msg.GasPrice.Add`; when the fee
cap is larger, the message's price stays that pointer (`GasPriceRef`), and
every later message moves it.

* `buyGas_run` and `preCheck_run_of_valid`: what the two checks do to the
  world, and that a valid message goes through `PreCheck` to `BuyGas`.
* `applyTransaction_value_taken_twice`: `BuyGas` takes the value with the gas,
  and the funds check of the transfer asks for it again of what is left.
-/

namespace Pangu

open Go Interleave

/-- Where `msg.GasPrice` points: the block header's base fee, or the copy of
the fee cap `BigMin` picked. -/
inductive GasPriceRef where
  | headerBaseFee
  | feeCap (v : Int)

/-- `TxMessage`; `BlobHashes` and `SkipAccountChecks` are never read. -/
structure TxMessage where
  toAddr : Option Address
  /-- `From`. -/
  fromAddr : Address
  nonce : UInt64
  value : Int
  gasLimit : UInt64
  gasPrice : GasPriceRef
  gasFeeCap : Int
  gasTipCap : Int
  data : Bytes
  accessList : Option AccessList
  isParallel : Bool
  canParallel : Bool

/-- `TxErrorMessage`. -/
structure TxErrorMessage where
  tx : Transaction
  result : String
  errorMsg : Option EvmError

/-- `TxAccessListMessage`. -/
structure TxAccessListMessage where
  tx : Transaction
  trueAccessList : Option AccessList

/-- `MessageReturn`, what a `TxThread` sends on its channel. -/
structure MessageReturn where
  newReceipt : List Receipt
  newLogs : List Log
  txSerial : List Transaction
  txError : List TxErrorMessage
  txAccessList : List TxAccessListMessage

/-- What the threads of `Process` share: the state database, the gas counter
`UsedGas`, the base fee of the header, and the buffer of the channel they
send their results on. -/
structure World where
  statedb : StateDB
  usedGas : UInt64
  baseFee : Option Int
  chan : List MessageReturn

/-- `ExecutionResult`. -/
structure ExecutionResult where
  usedGas : UInt64
  err : Option EvmError
  returnData : Bytes
  isParallelError : Bool
  trueAccessList : Option AccessList

/-- What every run reads and never changes: the jump table, the block context
with the cryptography and the precompiled contracts, the signer, the block's
number and hash, and the fuel each run of the EVM gets. -/
structure Env where
  table : JumpTable
  block : Context
  signer : PanguSigner
  blockNumber : Int
  blockHash : Hash
  fuel : Nat

/-- A thread of `Process`. -/
abbrev Thread (α : Type) := Prog World Halt α

/-! ## Steps on the shared world -/

/-- A method of the state database, as one step. -/
def dbStep {α : Type} (f : StateDB → StateDB × α) : Thread α :=
  Prog.atomic fun w => let (db, a) := f w.statedb; .ok ({ w with statedb := db }, a)

/-- A method that only reads the state database. -/
def dbRead {α : Type} (f : StateDB → α) : Thread α := Prog.read fun w => f w.statedb

/-- A method that writes the state database. -/
def dbWrite (f : StateDB → StateDB) : Thread Unit := Prog.modify fun w => { w with statedb := f w.statedb }

/-- A method of the state database that may panic. -/
def dbGo (f : StateDB → Go StateDB) : Thread Unit :=
  Prog.atomic fun w => match f w.statedb with
    | .ok db => .ok ({ w with statedb := db }, ())
    | .error p => .error (.panic p)

/-- A computation of the thread's own, which may panic. -/
def goLocal {α : Type} (x : Go α) : Thread α := Prog.ofExcept (lift x)

/-- A read of `msg.GasPrice`. -/
def GasPriceRef.read (r : GasPriceRef) : Thread Int :=
  match r with
  | .headerBaseFee => Prog.atomic fun w => (lift (bigSet w.baseFee)).map (w, ·)
  | .feeCap v => pure v

@[simp] theorem run_dbStep {α : Type} (f : StateDB → StateDB × α) (w : World) :
    (dbStep f).run w = .ok ({ w with statedb := (f w.statedb).1 }, (f w.statedb).2) := by
  simp [dbStep]

@[simp] theorem run_dbRead {α : Type} (f : StateDB → α) (w : World) : (dbRead f).run w = .ok (w, f w.statedb) :=
  Prog.run_read _ _

@[simp] theorem run_dbWrite (f : StateDB → StateDB) (w : World) :
    (dbWrite f).run w = .ok ({ w with statedb := f w.statedb }, ()) :=
  Prog.run_modify _ _

@[simp] theorem run_goLocal {α : Type} (x : Go α) (w : World) : (goLocal x).run w = (lift x).map (w, ·) :=
  Prog.run_ofExcept _ _

/-! ## The channel -/

/-- A read of the price sees the header's base fee only, never the state. -/
theorem GasPriceRef.run_read_of_baseFee {r : GasPriceRef} {w w' : World} {price : Int}
    (h : r.read.run w = .ok (w, price)) (hb : w'.baseFee = w.baseFee) : r.read.run w' = .ok (w', price) := by
  cases r with
  | feeCap v =>
    simp only [GasPriceRef.read, Prog.pure_eq, Prog.run_ret, Except.ok.injEq, Prod.mk.injEq, true_and] at h ⊢
    exact h
  | headerBaseFee =>
    simp only [GasPriceRef.read, Prog.run_atomic, hb] at h ⊢
    cases hw : w.baseFee with
    | none => simp [hw, bigSet, nilDereference, Go.panic, Except.map] at h
    | some b => simp_all [bigSet, Except.map]

/-- A price that is the header's pointer reads the header as it is now. -/
theorem GasPriceRef.run_read_headerBaseFee {w : World} {b : Int} (hb : w.baseFee = some b) :
    GasPriceRef.headerBaseFee.read.run w = .ok (w, b) := by
  simp [GasPriceRef.read, hb, bigSet, Except.map]

/-! ## The message -/

/-- `TransactionToMessage(tx, s, baseFee, IsParallel)` on the header's base
fee: the fee it leaves there, and the message or the sender's error. -/
def transactionToMessage (crypto : Crypto) (tx : Transaction) (s : PanguSigner) (baseFee : Option Int)
    (isParallel : Bool) : Go (Option Int × Except String TxMessage) := do
  let tipfee ← tx.gasTipCap
  -- `baseFee.Add(baseFee, tipfee)` on a nil base fee dereferences it
  let some b := baseFee | nilDereference
  let b := b + tipfee
  let gasFeeCap ← tx.gasFeeCap
  let gasTipCap ← tx.gasTipCap
  let value ← tx.value
  -- `msg.GasPrice.Add(msg.GasTipCap, baseFee)` writes through the header's pointer
  let b := gasTipCap + b
  let gasPrice : GasPriceRef := if b > gasFeeCap then .feeCap gasFeeCap else .headerBaseFee
  let sender ← s.sender crypto tx
  .ok (some b, sender.map fun fromAddr =>
    { toAddr := tx.toAddr, fromAddr := fromAddr, nonce := tx.nonce, value := value, gasLimit := tx.gasLimit,
      gasPrice := gasPrice, gasFeeCap := gasFeeCap, gasTipCap := gasTipCap, data := tx.data,
      accessList := tx.accessList, isParallel := isParallel, canParallel := isParallel })

/-- On a header with base fee `b`, a transaction with tip `t` leaves the header
at `b + 2t`: `baseFee.Add` adds the tip, and the message's price, the same
pointer, gets it once more. The price stays that pointer unless the fee cap is
lower. -/
theorem transactionToMessage_header {crypto : Crypto} {tx : Transaction} {s : PanguSigner} {b t f v : Int}
    {isParallel : Bool} {sender : Except String Address}
    (ht : tx.gasTipCap = .ok t) (hf : tx.gasFeeCap = .ok f) (hv : tx.value = .ok v)
    (hs : s.sender crypto tx = .ok sender) :
    ∃ r, transactionToMessage crypto tx s (some b) isParallel = .ok (some (b + 2 * t), r) ∧
      r.map (·.gasPrice) = sender.map fun _ => if b + 2 * t > f then .feeCap f else .headerBaseFee := by
  have htwice : t + (b + t) = b + 2 * t := by omega
  simp only [transactionToMessage, ht, hf, hv, hs, ok_bind, htwice]
  refine ⟨_, rfl, ?_⟩
  cases sender <;> rfl

/-- `NewExecutionResult(UsedGas, Err, ReturnData, IsParallelError, TrueAccessList)`. -/
def newExecutionResult (usedGas : UInt64) (err : Option EvmError) (returnData : Bytes) (isParallelError : Bool)
    (trueAccessList : Option AccessList) : ExecutionResult :=
  ⟨usedGas, err, returnData, isParallelError, trueAccessList⟩

/-- The result of a check that fails before the EVM runs. -/
def checkFailed (msg : String) : ExecutionResult := newExecutionResult 0 (some (.other msg)) [] false none

/-! ## Intrinsic gas -/

/-- `core.IntrinsicGas(data, accessList, isContractCreation)`: base
`TxGasContractCreation` for a creation, Frontier data prices, and the access
list charged when its map is set; a nil list is dereferenced. -/
def intrinsicGas (data : Bytes) (accessList : Option AccessList) (isContractCreation : Bool) :
    Go (Except String UInt64) :=
  let gas := if isContractCreation then TxGasContractCreation else TxGas
  match dataGas gas data TxDataNonZeroGasFrontier isContractCreation with
  | .error e => .ok (.error e)
  | .ok gas =>
    match accessList with
    | none => nilDereference
    | some al => .ok (.ok (if al.addresses.isSome then accessListGas gas al else gas))

/-! ## Checks and charges -/

/-- `BuyGas(msg, evm)`: the gas limit at the message's price and the value are
taken from the sender, if it has that much. -/
def buyGas (crypto : Crypto) (msg : TxMessage) : Thread (Option EvmError) := do
  let price ← msg.gasPrice.read
  let balanceGas := msg.gasLimit.toNat * price + msg.value
  let balance ← dbRead (·.getBalance msg.fromAddr)
  if balance < balanceGas then
    let fromHex := msg.fromAddr.hex crypto
    pure (some (.other s!"insufficient funds for gas * price + value: address {fromHex} have {balance} want {balanceGas}"))
  else do
    dbWrite (·.subBalance crypto msg.fromAddr balanceGas)
    pure none

/-- `BuyGas` at the price the message reads: the gas at that price and the
value are taken, or the error when the sender holds less. -/
theorem buyGas_run {crypto : Crypto} {msg : TxMessage} {w : World} {price : Int}
    (hprice : msg.gasPrice.read.run w = .ok (w, price)) :
    (buyGas crypto msg).run w =
      let balanceGas := msg.gasLimit.toNat * price + msg.value
      let balance := w.statedb.getBalance msg.fromAddr
      if balance < balanceGas then
        let fromHex := msg.fromAddr.hex crypto
        .ok (w, some (.other s!"insufficient funds for gas * price + value: address {fromHex} have {balance} want {balanceGas}"))
      else .ok ({ w with statedb := w.statedb.subBalance crypto msg.fromAddr balanceGas }, none) := by
  simp only [buyGas, Prog.bind_eq, Prog.run_bind, hprice, run_dbRead]
  split <;> simp [Prog.run_bind]

/-- `PreCheck(msg, evm)`: the nonce, that the sender has no code, the fee caps
against each other and the block's base fee, and then `BuyGas`. The caps are
checked only when one of them is not zero. -/
def preCheck (ctx : Context) (msg : TxMessage) : Thread (Option EvmError) := do
  let txNonce ← dbRead (·.getNonce msg.fromAddr)
  let msgNonce := msg.nonce
  let fromHex := msg.fromAddr.hex ctx.crypto
  if txNonce < msgNonce then
    pure (some (.other s!"nonce too high: address {fromHex}, tx: {msgNonce} state: {txNonce}"))
  else if txNonce > msgNonce then
    pure (some (.other s!"nonce too low: address {fromHex}, tx: {msgNonce} state: {txNonce}"))
  else if txNonce + 1 < txNonce then
    pure (some (.other s!"nonce has max value: address {fromHex}, nonce: {txNonce}"))
  else do
    let codeHash ← dbRead (·.getCodeHash msg.fromAddr)
    if codeHash ≠ 0 ∧ codeHash ≠ emptyCodeHash ctx.crypto then
      let codeHex := codeHash.hex
      pure (some (.other s!"sender not an eoa: address {fromHex}, codehash: {codeHex}"))
    else if msg.gasFeeCap ≠ 0 ∨ msg.gasTipCap ≠ 0 then
      let feeCap := msg.gasFeeCap
      let tipCap := msg.gasTipCap
      if feeCap.natAbs ≥ 2 ^ 256 then
        let l := bitLen feeCap
        pure (some (.other s!"max fee per gas higher than 2^256-1: address {fromHex}, maxFeePerGas bit length: {l}"))
      else if tipCap.natAbs ≥ 2 ^ 256 then
        let l := bitLen tipCap
        pure (some (.other
          s!"max priority fee per gas higher than 2^256-1: address {fromHex}, maxPriorityFeePerGas bit length: {l}"))
      else if feeCap < tipCap then
        pure (some (.other
          s!"max priority fee per gas higher than max fee per gas: address {fromHex}, maxPriorityFeePerGas: {tipCap}, maxFeePerGas: {feeCap}"))
      else match ctx.baseFee with
        -- `Cmp` with a nil base fee dereferences it
        | none => goLocal nilDereference
        | some baseFee =>
          if feeCap < baseFee then
            pure (some (.other
              s!"max fee per gas less than block base fee: address {fromHex}, maxFeePerGas: {feeCap} baseFee: {baseFee}"))
          else buyGas ctx.crypto msg
    else buyGas ctx.crypto msg

/-- The fee caps pass `PreCheck`: both zero, or each within 256 bits, the tip
at most the fee cap, and the fee cap at least the block's base fee. -/
def CapsPass (ctx : Context) (msg : TxMessage) : Prop :=
  (msg.gasFeeCap = 0 ∧ msg.gasTipCap = 0) ∨
    (msg.gasFeeCap.natAbs < 2 ^ 256 ∧ msg.gasTipCap.natAbs < 2 ^ 256 ∧ msg.gasTipCap ≤ msg.gasFeeCap ∧
      ∃ b, ctx.baseFee = some b ∧ b ≤ msg.gasFeeCap)

/-- A message whose nonce is its sender's, whose sender holds no code, and
whose caps pass, goes through `PreCheck` to `BuyGas`. -/
theorem preCheck_run_of_valid {ctx : Context} {msg : TxMessage} {w : World}
    (hnonce : w.statedb.getNonce msg.fromAddr = msg.nonce) (hmax : ¬ msg.nonce + 1 < msg.nonce)
    (heoa : w.statedb.getCodeHash msg.fromAddr = 0 ∨ w.statedb.getCodeHash msg.fromAddr = emptyCodeHash ctx.crypto)
    (hcaps : CapsPass ctx msg) :
    (preCheck ctx msg).run w = (buyGas ctx.crypto msg).run w := by
  have hcode : ¬ (w.statedb.getCodeHash msg.fromAddr ≠ 0 ∧ w.statedb.getCodeHash msg.fromAddr ≠ emptyCodeHash ctx.crypto) := by
    rintro ⟨h₁, h₂⟩
    rcases heoa with h | h
    · exact h₁ h
    · exact h₂ h
  simp only [preCheck, Prog.bind_eq, Prog.run_bind, run_dbRead, hnonce, UInt64.lt_irrefl, gt_iff_lt, if_false, hmax, hcode]
  rcases hcaps with ⟨hf, ht⟩ | ⟨hf, ht, hle, b, hb, hbf⟩
  · simp [hf, ht]
  · by_cases hz : msg.gasFeeCap ≠ 0 ∨ msg.gasTipCap ≠ 0
    · simp only [hz, if_true, not_le.mpr hf, not_le.mpr ht, not_lt.mpr hle, not_lt.mpr hbf, hb, if_false]
    · rw [if_neg hz]

/-- `RefundGas(GasUsed, GasRemain, evm, msg)`: the unused gas, with the refund
counter up to half the gas used, paid back at the message's price. -/
def refundGas (crypto : Crypto) (gasUsed gasRemain : UInt64) (msg : TxMessage) : Thread Unit := do
  let refund ← dbRead StateDB.getRefund
  let gasRemain := gasRemain + min (gasUsed / 2) refund
  let price ← msg.gasPrice.read
  dbWrite (·.addBalance crypto msg.fromAddr (gasRemain.toNat * price))

/-- `evmEvent.Call(Sender, *msg.To, msg.Data, gas, msg.Value, nil, IsParallel)`
as one step: the output, the gas left, `CanParallel`, the error, and the EVM. -/
def callStep (env : Env) (ctx : Context) (msg : TxMessage) (toAddr : Address) (gas : UInt64) (vm : Evm) :
    Thread (Bytes × UInt64 × Bool × Option EvmError × Evm) :=
  Prog.atomic fun w =>
    (call env.table ctx msg.isParallel env.fuel msg.fromAddr toAddr msg.data gas msg.value { vm with statedb := w.statedb }).map
      fun r => ({ w with statedb := r.vm.statedb }, (r.ret, r.gasRemain, r.canParallel, r.err, r.vm))

/-- `evmEvent.Create(Sender, msg.Data, gas, msg.Value, nil, IsParallel)` as one step. -/
def createStep (env : Env) (ctx : Context) (msg : TxMessage) (gas : UInt64) (vm : Evm) :
    Thread (Bytes × UInt64 × Bool × Option EvmError × Evm) :=
  Prog.atomic fun w =>
    (Create env.table ctx msg.isParallel env.fuel msg.fromAddr msg.data gas msg.value { vm with statedb := w.statedb }).map
      fun r => ({ w with statedb := r.vm.statedb }, (r.ret, r.gasRemain, r.canParallel, r.err, r.vm))

/-- `ApplyTransaction(msg, evm)`, with the EVM's context for the transaction;
it returns the result and the EVM, which the thread uses again. A parallel
transaction that cannot run in parallel is reverted to the snapshot taken
first; a failed one keeps what `BuyGas` took and pays the coinbase for all of
it. `TrueAccessList` is never allocated, so the serial group runs with a nil one. -/
def applyTransaction (env : Env) (ctx : Context) (msg : TxMessage) (vm : Evm) : Thread (ExecutionResult × Evm) := do
  let crypto := ctx.crypto
  let snapShot ← dbStep StateDB.snapshot
  match ← preCheck ctx msg with
  | some err => pure (newExecutionResult 0 (some err) [] false none, vm)
  | none =>
    let contractCreation := msg.toAddr.isNone
    match ← goLocal (intrinsicGas msg.data msg.accessList contractCreation) with
    | .error e => pure (checkFailed e, vm)
    | .ok expenseGasBase =>
      if msg.gasLimit < expenseGasBase then pure (checkFailed "gas is not enough in ExpenseGas_Base", vm)
      else do
        let gasRemainBefore := msg.gasLimit - expenseGasBase
        let funded ← dbRead fun db => canTransfer db msg.fromAddr msg.value
        if msg.value > 0 && !funded then pure (checkFailed "insufficient funds for transfer", vm)
        else if contractCreation && msg.data.length > MaxInitCodeSize then
          pure (checkFailed "max init-code size exceeded", vm)
        else do
          let (returnData, gasRemainAfter, canParallel, evmError, vm) ← match msg.toAddr with
            | none => createStep env ctx msg gasRemainBefore vm
            | some toAddr => do
              let nonce ← dbRead (·.getNonce msg.fromAddr)
              dbWrite (·.setNonce crypto msg.fromAddr (nonce + 1))
              callStep env ctx msg toAddr gasRemainBefore vm
          if evmError.isNone && msg.isParallel && !canParallel then do
            dbGo (·.revertToSnapshot snapShot)
            pure (newExecutionResult 0 none [] true none, vm)
          else match evmError with
            | none => do
              let gasUsed := expenseGasBase + gasRemainBefore - gasRemainAfter
              refundGas crypto gasUsed gasRemainAfter msg
              dbWrite (·.addBalance crypto ctx.coinbase (gasUsed.toNat * msg.gasTipCap))
              pure (newExecutionResult gasUsed none returnData false none, vm)
            | some e => do
              let gasUsed := expenseGasBase + gasRemainBefore
              dbWrite (·.addBalance crypto ctx.coinbase (gasUsed.toNat * msg.gasTipCap))
              pure (newExecutionResult gasUsed (some e) [] false none, vm)

/-- `BuyGas` takes the value with the gas, and the funds check of the transfer
asks for the value again of what is left: a message that passes `PreCheck` with
its sender holding the gas at its price and the value, but not the value twice,
fails with the funds error, and the sender is left without what `BuyGas`
took, the value included. -/
theorem applyTransaction_value_taken_twice {env : Env} {ctx : Context} {msg : TxMessage} {vm : Evm}
    {w : World} {price : Int} {gas : UInt64}
    (hnonce : w.statedb.getNonce msg.fromAddr = msg.nonce) (hmax : ¬ msg.nonce + 1 < msg.nonce)
    (heoa : w.statedb.getCodeHash msg.fromAddr = 0 ∨ w.statedb.getCodeHash msg.fromAddr = emptyCodeHash ctx.crypto)
    (hcaps : CapsPass ctx msg) (hprice : msg.gasPrice.read.run w = .ok (w, price))
    (hintr : intrinsicGas msg.data msg.accessList msg.toAddr.isNone = .ok (.ok gas)) (hgas : gas ≤ msg.gasLimit)
    (hv : 0 < msg.value) (hbuy : msg.gasLimit.toNat * price + msg.value ≤ w.statedb.getBalance msg.fromAddr)
    (hshort : w.statedb.getBalance msg.fromAddr < msg.gasLimit.toNat * price + 2 * msg.value) :
    ∃ w', (applyTransaction env ctx msg vm).run w = .ok (w', (checkFailed "insufficient funds for transfer", vm)) ∧
      w'.statedb.getBalance msg.fromAddr =
        w.statedb.getBalance msg.fromAddr - (msg.gasLimit.toNat * price + msg.value) := by
  -- the snapshot leaves every account as it was
  set w₁ : World := { w with statedb := w.statedb.snapshot.1 } with hw₁
  let balanceGas := msg.gasLimit.toNat * price + msg.value
  have hpre : (preCheck ctx msg).run w₁ = (buyGas ctx.crypto msg).run w₁ :=
    preCheck_run_of_valid hnonce hmax heoa hcaps
  have hbought : (buyGas ctx.crypto msg).run w₁ =
      .ok ({ w₁ with statedb := w₁.statedb.subBalance ctx.crypto msg.fromAddr balanceGas }, none) := by
    have hprice₁ : msg.gasPrice.read.run w₁ = .ok (w₁, price) := GasPriceRef.run_read_of_baseFee hprice rfl
    rw [buyGas_run hprice₁]
    exact if_neg (not_lt.mpr hbuy)
  have hleft : (w₁.statedb.subBalance ctx.crypto msg.fromAddr balanceGas).getBalance msg.fromAddr =
      w.statedb.getBalance msg.fromAddr - balanceGas :=
    StateDB.getBalance_subBalance_self _ _ _ _
  have hfunds : canTransfer (w₁.statedb.subBalance ctx.crypto msg.fromAddr balanceGas) msg.fromAddr msg.value =
      false := by
    simp only [canTransfer, hleft, decide_eq_false_iff_not, not_le]
    omega
  refine ⟨{ w₁ with statedb := w₁.statedb.subBalance ctx.crypto msg.fromAddr balanceGas }, ?_, hleft⟩
  simp only [applyTransaction, Prog.bind_eq, Prog.run_bind, run_dbStep, ← hw₁, hpre, hbought, run_goLocal, hintr,
    lift_ok, Except.map, UInt64.not_lt.mpr hgas, if_false, run_dbRead, hfunds, gt_iff_lt, hv, decide_true, Bool.not_false,
    Bool.and_self, if_true, Prog.pure_eq, Prog.run_ret]

/-- A call of value 1 from `0xa3` to `0xb1` at the fee cap 1, with gas 21000. -/
def valueTransfer : TxMessage :=
  ⟨some 0xb1, 0xa3, 0, 1, 21000, .feeCap 1, 1, 1, [], some .newAccessList, true, true⟩

/-- `0xa3` holds 21001 and no code: the gas at the fee cap and the value, once. -/
def unfundedWorld : World :=
  ⟨StateDB.new ((∅ : GoMap Address StateObject).set 0xa3 ⟨0, 21001, 0, [], ∅, ∅, false, false⟩), 0, some 0, []⟩

/-- A block with base fee 0 and no precompiled contracts. -/
def unfundedContext : Context := ⟨byteCrypto, 1, 12345678, 1, 0, some 0, 0xa3, 1, fun _ => none⟩

def unfundedEnv : Env := ⟨frontierInstructionSet fun _ => undefinedOp, unfundedContext, newPanguSigner (some 0), 1, 0, 10⟩

/-- The transfer fails the funds check after `BuyGas` took its 21001: the
sender is left with nothing. -/
theorem applyTransaction_value_taken_twice_unfunded :
    unfundedWorld.statedb.getBalance 0xa3 = 21001 ∧
    ∃ w', (applyTransaction unfundedEnv unfundedContext valueTransfer ⟨unfundedWorld.statedb, 0, 0, false, [], none⟩).run
        unfundedWorld =
        .ok (w', (checkFailed "insufficient funds for transfer", ⟨unfundedWorld.statedb, 0, 0, false, [], none⟩)) ∧
      w'.statedb.getBalance 0xa3 = 0 := by
  have hcaps : CapsPass unfundedContext valueTransfer := Or.inr ⟨by decide, by decide, by decide, 0, rfl, by decide⟩
  obtain ⟨w', hrun, hleft⟩ := @applyTransaction_value_taken_twice unfundedEnv unfundedContext valueTransfer
    ⟨unfundedWorld.statedb, 0, 0, false, [], none⟩ unfundedWorld 1 21000 (by decide) (by decide) (Or.inl (by decide))
    hcaps rfl (by decide) (by decide) (by decide) (by decide) (by decide)
  exact ⟨by decide, w', hrun, hleft.trans (by decide)⟩

/-- `0xa3` holds 60000 and `0xb1` exists, neither with code. -/
def fundedWorld : World :=
  ⟨StateDB.new (((∅ : GoMap Address StateObject).set 0xa3 ⟨0, 60000, 0, [], ∅, ∅, false, false⟩).set 0xb1
    ⟨0, 0, 0, [], ∅, ∅, false, false⟩), 0, some 0, []⟩

/-- The block with base fee 1. -/
def tippedContext : Context := { unfundedContext with baseFee := some 1 }

/-- A call of value 1 from `0xa3` to `0xb1` with gas 21000, fee cap and tip 2:
its price is the fee cap, 2, below the tip and the base fee together. -/
def tippedTransfer : TxMessage :=
  ⟨some 0xb1, 0xa3, 0, 1, 21000, .feeCap 2, 2, 2, [], some .newAccessList, true, true⟩

/-- The call succeeds, using its 21000 gas, and moves 1 to `0xb1`. The sender
pays 42002: the gas at price 2 and the value twice. The coinbase `1` gets
42000, the gas at the tip, though the price less the base fee is 1. -/
theorem applyTransaction_debits_value_twice :
    ((applyTransaction unfundedEnv tippedContext tippedTransfer ⟨fundedWorld.statedb, 0, 0, false, [], none⟩).run
        fundedWorld).toOption.map
      (fun x => (x.2.1.err.isNone, x.2.1.isParallelError, x.2.1.usedGas, x.1.statedb.getNonce 0xa3)) =
      some (true, false, 21000, 1) ∧
    ((applyTransaction unfundedEnv tippedContext tippedTransfer ⟨fundedWorld.statedb, 0, 0, false, [], none⟩).run
        fundedWorld).toOption.map
      (fun x => (x.1.statedb.getBalance 0xa3, x.1.statedb.getBalance 0xb1, x.1.statedb.getBalance 1)) =
      some (60000 - 42002, 1, 42000) :=
  ⟨by decide +kernel, by decide +kernel⟩

/-- `NewEVMTxContext(msg)` over the block context: the sender, and a copy of the
price read now. -/
def txContext (block : Context) (msg : TxMessage) : Thread Context := do
  let price ← msg.gasPrice.read
  pure { block with origin := msg.fromAddr, gasPrice := price }

/-- What `ExecuteTx` returns: the receipt, nil for a transaction that cannot
run in parallel or that failed, the access list, and the error. -/
structure ExecuteTxResult where
  receipt : Option Receipt
  trueAccessList : Option AccessList
  err : Option EvmError

/-- `ExecuteTx(msg, blockNumber, blockHash, tx, usedGas, evm)`: the gas used is
added to the shared counter, and the receipt takes the counter as it is then. -/
def executeTx (env : Env) (msg : TxMessage) (tx : Transaction) (vm : Evm) : Thread (ExecuteTxResult × Evm) := do
  let ctx ← txContext env.block msg
  let txHash ← goLocal (tx.hash env.block.crypto.keccak256)
  dbWrite (·.setTxContext txHash)
  let (r, vm) ← applyTransaction env ctx msg vm
  if r.isParallelError then pure (⟨none, none, none⟩, vm)
  else match r.err with
    | some e => pure (⟨none, none, some e⟩, vm)
    | none => do
      let cumulative ← Prog.atomic fun w =>
        .ok ({ w with usedGas := w.usedGas + r.usedGas }, w.usedGas + r.usedGas)
      let contractAddress := if msg.toAddr.isNone then createAddress env.block.crypto ctx.origin tx.nonce else 0
      let logs ← dbRead fun db => db.getLogs txHash env.blockNumber.toNat.toUInt64 env.blockHash
      let receipt : Receipt := { Receipt.zero with
        type := tx.type, cumulativeGasUsed := cumulative, status := ReceiptStatusSuccessful, txHash := txHash,
        gasUsed := r.usedGas, contractAddress := contractAddress, logs := logs }
      let receipt := { receipt with
        bloom := createBloom env.block.crypto.keccak256 [receipt], blockHash := env.blockHash,
        blockNumber := env.blockNumber }
      pure (⟨some receipt, r.trueAccessList, none⟩, vm)

end Pangu
