import Pangu.Core.Classify
import Pangu.TxPool.Validation
import Pangu.Evm.Conflict
import Pangu.Evm.Log
import Pangu.Types.Json

/-!
# The executor

`ExecutorService` (`executor/executor_server.go`). One pass of `ExecuteLoop`
takes the transactions it has collected, groups them by `ClassifyTx`, and has
`Process` run the groups on the state of the current block, under the header
`initHeader` builds; the groups are the block's `Transactions2D` and the
receipts `Process` returns those `NewBlock` puts in it. Two things in a pass
are left open by the program: the order in which `ClassifyTx` reads its map of
groups, and the interleaving of the group threads of `Process`.

* `executeBlock_schedule_dependent`: on one block with one map order, two
  interleavings of its two groups give receipts that differ in their
  cumulative gas;
* `executeBlock_mapOrder_dependent`: on one block with one schedule, the two
  orders of the map of groups give two orders of its groups and its receipts;
* `executeBlock_log_in_two_receipts`: every transaction of a block has one
  hash, whatever the hash function (`Transaction.hash_eq`), so a receipt
  carries the logs of the transactions before it as well as its own;
* `executeBlock_revert_crosses_threads`: the threads share one journal, and a
  revert of one undoes another's write and forgets its revision
  (`StateDB.revertToSnapshot_later_panics`), whose own revert then panics;
* `refundGas_pays_shared_refund`: they share the refund counter too, and a
  refund one thread's call accrues, before its transaction is reverted, is paid
  to the sender of a transaction another thread runs meanwhile;
* `applyTransaction_declared_sload_parallelError`: a parallel call that reads
  only the slot its access list declares is still sent to the serial list, the
  check reading the state's list, which nothing fills from the declared one;
* `executeBlock_failed_tx_charged`: a call that fails in the EVM has no
  receipt and adds no gas to the block's counter, though its nonce increment
  and its fee stay in the committed state;
* `messageStep_shares_header`: the threads convert their transactions with
  one header, and each conversion adds twice the tip to its base fee, which
  the message's price then reads.
-/

namespace Pangu

open Go Interleave

/-- `COINBASE = BytesToAddress([]byte{1})`. -/
def COINBASE : Address := 1

/-- `pb.TransactionType`. -/
inductive TransactionType where
  | NORMAL
  | UPGRADE
  | TIMEVOTE
  | LOCK
  deriving DecidableEq

/-- `pb.Transaction`: the type and the payload. -/
structure PbTransaction where
  type : TransactionType
  payload : Bytes

/-- `ExecutorService.VerifyTx(ctx, pTx)`: `Success` of the result. A payload
that does not decode, or a transaction the execution pool rejects, fails; the
pool validates every transaction as remote. -/
def verifyTx (decodeJson : JsonDecoder) (executionPool : List LegacyPool) (crypto : Crypto)
    (pTx : PbTransaction) : Go Bool :=
  if pTx.type ≠ .NORMAL ∧ pTx.type ≠ .UPGRADE then .ok false
  else match Transaction.unmarshalBinary decodeJson pTx.payload with
    | .error _ => .ok false
    | .ok tx => do
      match ← txPoolValidateTx executionPool crypto tx false with
      | some _ => .ok false
      | none => .ok true

/-- One pass of `ExecuteLoop` on the collected transactions `txs`: the map of
groups read in the order `order`, the threads of `Process` run by `schedule`,
and the base fee of `initHeader`, zero. A `Process` that ends in an error
panics in `ExecuteLoop`; that is the `err` end here. -/
def executeBlock (env : Env) (sortSlice : SortSlice) (order schedule : List Nat) (txs : List Transaction)
    (statedb : StateDB) : Go (List (List Transaction) × ProcessEnd) := do
  let blockTxs ← classifyTx env.block.crypto sortSlice txs env.signer order
  .ok (blockTxs, process env sortSlice blockTxs schedule statedb (some 0))

/-- The executor's block read through its sort: where no group has two
transactions and nothing goes to the serial list, every `sort.Slice` gives the
same pass. -/
theorem executeBlock_sortSlice_irrel (env : Env) (s₁ s₂ : SortSlice) (order schedule : List Nat)
    (txs : List Transaction) (statedb : StateDB)
    (hclass : (newTxClassList txs).toOption.all
      fun cs => (classGroups (classifyLoop cs)).entries.all fun e => e.2.length < 2)
    (hserial : (classifyTx env.block.crypto s₂ txs env.signer order).toOption.all fun blockTxs =>
      (runSchedule schedule (groupThreads env blockTxs statedb) (initialWorld statedb (some 0))).toOption.all
        fun x => (x.2.chan.flatMap (·.txSerial)).isEmpty) :
    executeBlock env s₁ order schedule txs statedb = executeBlock env s₂ order schedule txs statedb := by
  rw [executeBlock, executeBlock, classifyTx_sortSlice_irrel env.block.crypto s₁ s₂ txs env.signer order hclass]
  cases hc : classifyTx env.block.crypto s₂ txs env.signer order with
  | error p => rfl
  | ok blockTxs =>
    simp only [hc, Except.toOption, Option.all_some] at hserial
    simp only [ok_bind, process, processAfter_sortSlice_irrel env s₁ s₂ _ _ hserial]

/-! ## Two interleavings of one block -/

/-- A call of `recipient` with nonce 0, signed by `sender` for chain 0, with an
empty access list that is not nil. -/
def signedCall (sender recipient : Address) (value feeCap tipCap : Int) (data : Bytes) (gasLimit : UInt64) :
    Transaction :=
  ⟨{ toAddr := some recipient, nonce := 0, value := some value, gasLimit := gasLimit, feeCap := some feeCap,
      tipCap := some tipCap, chainID := some 0, sigAlgo := SIG_ECDSA, signature := byteSignature sender,
      encAlgo := 0, encContent := [], vmType := 0, data := data, accessList := some .newAccessList }, none⟩

/-- A call that moves no value at no price. -/
def payment (sender recipient : Address) (data : Bytes) (gasLimit : UInt64) : Transaction :=
  signedCall sender recipient 0 0 0 data gasLimit

/-- A payment whose gas limit is its intrinsic gas, 21000. -/
def paymentA : Transaction := payment 0xa1 0xb1 [] 21000

/-- A payment with one zero byte of data, whose intrinsic gas is 21004. -/
def paymentB : Transaction := payment 0xa2 0xb2 [0] 21004

/-- The two recipients, which exist and hold no code. -/
def paymentState : StateDB :=
  StateDB.new (((∅ : GoMap Address StateObject).set 0xb1 (fundedAccount 1 [])).set 0xb2 (fundedAccount 1 []))

/-- The block of `initHeader` (coinbase `COINBASE`, gas limit 12345678, base
fee 0) on the frontier table and the homestead precompiles, the chain-0 signer. -/
def paymentEnv : Env :=
  ⟨frontierInstructionSet fun _ => undefinedOp,
    ⟨byteCrypto, COINBASE, 12345678, 1, 0, some 0, 0, 0, precompiledContractsHomestead fun _ => dataCopy⟩,
    newPanguSigner (some 0), 1, 0, 10⟩

/-- A call with a tip of 1 under a fee cap of 10. -/
def tippedCall (sender recipient : Address) : Transaction := signedCall sender recipient 0 10 1 [] 21000

/-- The map of groups has the keys 1 and 0, and Go may range over it either
way. Read in the two orders, with one schedule of the threads, the block's
`Transactions2D` has its groups the other way round, and the receipts come out
in another order with other cumulative gas. -/
theorem executeBlock_mapOrder_dependent (sortSlice : SortSlice) :
    (classIds [paymentA, paymentB]).toOption = some [1, 0] ∧
    (executeBlock paymentEnv sortSlice [0, 1] (List.replicate 30 0 ++ List.replicate 30 1)
        [paymentA, paymentB] paymentState).toOption.map
      (fun r => (r.1.map (·.map Transaction.gasLimit), r.2.receipts.map (·.map fun x => (x.gasUsed, x.cumulativeGasUsed)))) =
      some ([[21000], [21004]], some [(21000, 21000), (21004, 42004)]) ∧
    (executeBlock paymentEnv sortSlice [1, 0] (List.replicate 30 0 ++ List.replicate 30 1)
        [paymentA, paymentB] paymentState).toOption.map
      (fun r => (r.1.map (·.map Transaction.gasLimit), r.2.receipts.map (·.map fun x => (x.gasUsed, x.cumulativeGasUsed)))) =
      some ([[21004], [21000]], some [(21004, 21004), (21000, 42004)]) := by
  refine ⟨by decide +kernel, ?_, ?_⟩
  · rw [executeBlock_sortSlice_irrel _ sortSlice insertionSortSlice _ _ _ _ (by decide +kernel) (by decide +kernel)]
    decide +kernel
  · rw [executeBlock_sortSlice_irrel _ sortSlice insertionSortSlice _ _ _ _ (by decide +kernel) (by decide +kernel)]
    decide +kernel

/-! ## One hash for every transaction -/

/-- The code at `0xc1` and `0xc2`: `PUSH1 0`, `PUSH1 0`, `LOG0`, `STOP`, an
empty log of the contract. -/
def logCode : Bytes := [0x60, 0, 0x60, 0, 0xa0, 0x00]

def logState : StateDB :=
  StateDB.new (((∅ : GoMap Address StateObject).set 0xc1 (fundedAccount 1 logCode)).set 0xc2
    (fundedAccount 1 logCode))

/-- Calls of the two contracts, from `0xa1` and `0xa2`. -/
def logCallA : Transaction := payment 0xa1 0xc1 [] 30000

def logCallB : Transaction := payment 0xa2 0xc2 [] 30000

/-- `paymentEnv` with the log entries in the frontier table. -/
def logEnv : Env := { paymentEnv with table := frontierInstructionSet (logInstructionSet fun _ => undefinedOp) }

-- The two calls touch no common contract: two groups, on two threads.
example : (classIds [logCallA, logCallB]).toOption = some [1, 0] := by decide +kernel

/-- The two calls have one hash under every hash function. Run one group to
its end and then the other: the receipt of the call of `0xc1` has the log of
`0xc1`, and the receipt of the call of `0xc2` has that log again before its
own, so one log is in two receipts and a receipt carries a log its
transaction did not emit. The sort is never called, each group having one
transaction (`executeBlock_sortSlice_irrel`). -/
theorem executeBlock_log_in_two_receipts (sortSlice : SortSlice) :
    (∀ keccak256 : Bytes → Hash, logCallA.hash keccak256 = logCallB.hash keccak256) ∧
    (executeBlock logEnv sortSlice [0, 1] (List.replicate 30 0 ++ List.replicate 30 1) [logCallA, logCallB]
        logState).toOption.map
      (fun r => (r.1.map (·.map Transaction.toAddr),
        r.2.receipts.map (·.map fun x => x.logs.map fun l => (l.address, l.index)))) =
      some ([[some 0xc1], [some 0xc2]], some [[(0xc1, 0)], [(0xc1, 0), (0xc2, 1)]]) := by
  refine ⟨fun keccak256 => ?_, ?_⟩
  · rw [Transaction.hash_eq, Transaction.hash_eq]
    rfl
  · rw [executeBlock_sortSlice_irrel _ sortSlice insertionSortSlice _ _ _ _ (by decide +kernel) (by decide +kernel)]
    decide +kernel

-- Whichever group runs first, its log is in both receipts.
example : (executeBlock logEnv insertionSortSlice [0, 1] (List.replicate 30 1 ++ List.replicate 30 0)
      [logCallA, logCallB] logState).toOption.map
    (fun r => r.2.receipts.map (·.map fun x => x.logs.map fun l => (l.address, l.index))) =
    some (some [[(0xc2, 0)], [(0xc2, 0), (0xc1, 1)]]) := by
  decide +kernel

/-! ## One journal for every thread -/

/-- The code at `0xc1` and `0xc2`: `PUSH1 0`, `SLOAD`, `STOP`. A parallel run
finds the slot outside the access list, and the transaction is reverted to the
snapshot it took first. -/
def sloadCode : Bytes := [0x60, 0, 0x54, 0]

/-- Calls of the two contracts, from `0xa1` and `0xa2`. -/
def sloadA : Transaction := payment 0xa1 0xc1 [] 30000

def sloadB : Transaction := payment 0xa2 0xc2 [] 30000

/-- The two contracts. -/
def sloadState : StateDB :=
  StateDB.new (((∅ : GoMap Address StateObject).set 0xc1 (fundedAccount 1 sloadCode)).set 0xc2
    (fundedAccount 1 sloadCode))

-- The two calls touch no common contract: `ClassifyTx` makes them two groups,
-- which `Process` runs on two threads.
example : (classIds [sloadA, sloadB]).toOption = some [1, 0] := by decide +kernel

/-- Thread 0 runs through its snapshot (revision 0), and thread 1 through its
own (revision 1) and on to the nonce increment of its sender. Thread 0 then
runs to its end: its revert to revision 0 undoes the other thread's increment
and forgets revision 1, so thread 1's revert to revision 1 panics and stops the
block. -/
theorem executeBlock_revert_crosses_threads (sortSlice : SortSlice) :
    (runSchedule (List.replicate 4 0 ++ List.replicate 12 1) (groupThreads paymentEnv [[sloadA], [sloadB]] sloadState)
        (initialWorld sloadState (some 0))).toOption.map
      (fun x => (x.2.statedb.getNonce 0xa2, x.2.statedb.validRevisions.map (·.id))) = some (1, [0, 1]) ∧
    (runSchedule (List.replicate 4 0 ++ List.replicate 12 1 ++ List.replicate 11 0)
        (groupThreads paymentEnv [[sloadA], [sloadB]] sloadState) (initialWorld sloadState (some 0))).toOption.map
      (fun x => (x.2.statedb.getNonce 0xa2, x.2.statedb.validRevisions.map (·.id))) = some (0, []) ∧
    (executeBlock paymentEnv sortSlice [0, 1]
        (List.replicate 4 0 ++ List.replicate 12 1 ++ List.replicate 11 0 ++ List.replicate 3 1)
        [sloadA, sloadB] sloadState).toOption.map
      (fun r => (r.1.map (·.map Transaction.toAddr), match r.2 with
        | .halt h => some h
        | _ => none)) =
      some ([[some 0xc1], [some 0xc2]], some (.panic ⟨"revision id 1 cannot be reverted"⟩)) := by
  refine ⟨by decide +kernel, by decide +kernel, ?_⟩
  rw [executeBlock_sortSlice_irrel _ sortSlice insertionSortSlice _ _ _ _ (by decide +kernel) (by decide +kernel)]
  decide +kernel

/-! ## The refund counter -/

/-- The code at `0xc1`: `PUSH1 0xb9`, `SELFDESTRUCT`. Its gas function adds
`SelfdestructRefundGas` to the counter before the conflict check, which finds
the beneficiary outside the state's access list. -/
def sdCode : Bytes := [0x60, 0xb9, 0xff]

/-- The contract, the sender `0xa2` with the gas of one payment at price 1,
and the recipient `0xb2`. -/
def refundState : StateDB :=
  StateDB.new ((((∅ : GoMap Address StateObject).set 0xc1 (fundedAccount 1 sdCode)).set 0xa2
    (fundedAccount 21000 [])).set 0xb2 (fundedAccount 1 []))

/-- A call of the contract, at price 0. -/
def selfdestructCall : Transaction := payment 0xa1 0xc1 [] 60000

/-- A payment whose gas limit is its intrinsic gas, at price 1: nothing of its
gas is left, and its own execution accrues no refund. -/
def refundedPayment : Transaction := signedCall 0xa2 0xb2 0 1 1 [] 21000

-- The two transactions touch no common account: `ClassifyTx` makes them two
-- groups, which `Process` runs on two threads.
example : (classIds [selfdestructCall, refundedPayment]).toOption = some [1, 0] := by decide +kernel

/-- Thread 0 runs through its call, whose `SELFDESTRUCT` raised the counter to
24000; the revert of its transaction is its next step. Thread 1 then runs its
payment to the end: the counter is 24000 when it starts and when it ends, yet
`RefundGas` pays its sender `min(21000 / 2, 24000)` gas at price 1, where the
payment run alone gets nothing back. -/
theorem refundGas_pays_shared_refund :
    (runSchedule (List.replicate 13 0) (groupThreads paymentEnv [[selfdestructCall], [refundedPayment]] refundState)
        (initialWorld refundState (some 0))).toOption.map
      (fun x => (x.2.statedb.getRefund, x.2.statedb.getBalance 0xa2, x.2.chan.map fun m => m.newReceipt.map (·.gasUsed))) =
      some (24000, 21000, []) ∧
    (runSchedule (List.replicate 13 0 ++ List.replicate 17 1)
        (groupThreads paymentEnv [[selfdestructCall], [refundedPayment]] refundState)
        (initialWorld refundState (some 0))).toOption.map
      (fun x => (x.2.statedb.getRefund, x.2.statedb.getBalance 0xa2, x.2.chan.map fun m => m.newReceipt.map (·.gasUsed))) =
      some (24000, 10500, [[21000]]) ∧
    (runSchedule (List.replicate 17 1) (groupThreads paymentEnv [[selfdestructCall], [refundedPayment]] refundState)
        (initialWorld refundState (some 0))).toOption.map
      (fun x => (x.2.statedb.getRefund, x.2.statedb.getBalance 0xa2, x.2.chan.map fun m => m.newReceipt.map (·.gasUsed))) =
      some (0, 0, [[21000]]) :=
  ⟨by decide +kernel, by decide +kernel, by decide +kernel⟩

/-! ## A declared access list -/

/-- The list that declares slot 0 of `0xc1`, as `AddSlot(0xc1, 0)` makes it. -/
def sloadAccessList : AccessList := ⟨some ((∅ : GoMap Address Int).set 0xc1 0), [AList.singleton 0 ()]⟩

/-- The message of a parallel call of `0xc1` from `0xa1` at no price, with gas
30000, declaring that list. -/
def declaredSloadMessage : TxMessage :=
  ⟨some 0xc1, 0xa1, 0, 0, 30000, .feeCap 0, 0, 0, [], some sloadAccessList, true, true⟩

/-- What the check records at the `SLOAD` of `0xc1` is exactly the list the
message declares. The state's list, which `ApplyTransaction` never fills from
the declared one (it calls no `Prepare`), is the empty one of `New`, and even
the declared list would not pass (`conflictDetection_slot_false`):
`ApplyTransaction` reports that the transaction cannot run in parallel. -/
theorem applyTransaction_declared_sload_parallelError :
    getTrueAccessList OpCode.SLOAD [0] 0xc1 AccessList.newAccessList = .ok sloadAccessList ∧
    sloadState.getAccessList = AccessList.newAccessList ∧
    (sloadAccessList.conflictDetection sloadAccessList).toOption.map (·.1) = some false ∧
    ((applyTransaction paymentEnv paymentEnv.block declaredSloadMessage (newEvm sloadState)).run
        (initialWorld sloadState (some 0))).toOption.map
      (fun x => (x.2.1.isParallelError, x.2.1.err.isNone)) = some (true, true) :=
  ⟨rfl, rfl, by decide +kernel, by decide +kernel⟩

/-! ## What the pool admits and the executor does not run -/

/-- Three senders and a code-less recipient: `0xa3` holds 21001, `0xa4`
21016, `0xa5` 23400. -/
def fundedState : StateDB :=
  StateDB.new (((((∅ : GoMap Address StateObject).set 0xb1 (fundedAccount 1 [])).set 0xa3
    (fundedAccount 21001 [])).set 0xa4 (fundedAccount 21016 [])).set 0xa5 (fundedAccount 23400 []))

/-- The execution pool on that state, for chain 0, with the head's gas limit
of `initHeader` and the default minimum tip, 1. -/
def fundedPool : LegacyPool := ⟨newPanguSigner (some 0), 12345678, 1, fundedState, fun _ => none⟩

-- The pool admits a transfer of nothing from `0xa5`, whose 23400 cover its
-- cost of 21000.
example : fundedPool.ValidateTx byteCrypto (signedCall 0xa5 0xb1 0 1 1 [] 21000) false = .ok none := by
  decide +kernel

/-- A transfer of 1 at a fee cap and tip of 1, whose cost, 21001, is what its
sender holds. -/
def transferAll : Transaction := signedCall 0xa3 0xb1 1 1 1 [] 21000

/-- The pool admits `transferAll`, its sender holding its cost. The executor's
`BuyGas` takes the gas at the price and the value, all the sender has, and the
funds check for the transfer then fails: the value is taken twice. -/
theorem validateTx_admits_unfunded_transfer (sortSlice : SortSlice) :
    fundedPool.ValidateTx byteCrypto transferAll false = .ok none ∧ transferAll.cost = .ok 21001 ∧
    (executeBlock paymentEnv sortSlice [0] (List.replicate 30 0) [transferAll] fundedState).toOption.map
      (fun r => match r.2 with
        | .done m _ => some (m.receipt.length, m.errTx.map fun e => (e.result, e.errorMsg))
        | _ => none) =
      some (some (0, [("function ExecuteTx err", some (.other "insufficient funds for transfer"))])) := by
  refine ⟨by decide +kernel, by decide +kernel, ?_⟩
  rw [executeBlock_sortSlice_irrel _ sortSlice insertionSortSlice _ _ _ _ (by decide +kernel) (by decide +kernel)]
  decide +kernel

/-- A call with one non-zero byte of data and the gas limit the pool charges,
21016. -/
def shortGasCall : Transaction := signedCall 0xa4 0xb1 0 1 1 [1] 21016

/-- The pool charges `shortGasCall` 21016 and admits it; the executor charges it
21068 and fails it before it runs. -/
theorem validateTx_admits_short_gas (sortSlice : SortSlice) :
    fundedPool.ValidateTx byteCrypto shortGasCall false = .ok none ∧ shortGasCall.intrinsicGas = .ok 21016 ∧
    intrinsicGas shortGasCall.data shortGasCall.accessList false = .ok (.ok 21068) ∧
    (executeBlock paymentEnv sortSlice [0] (List.replicate 30 0) [shortGasCall] fundedState).toOption.map
      (fun r => match r.2 with
        | .done m _ => some (m.receipt.length, m.errTx.map fun e => (e.result, e.errorMsg))
        | _ => none) =
      some (some (0, [("function ExecuteTx err", some (.other "gas is not enough in ExpenseGas_Base"))])) := by
  refine ⟨by decide +kernel, by decide +kernel, by decide +kernel, ?_⟩
  rw [executeBlock_sortSlice_irrel _ sortSlice insertionSortSlice _ _ _ _ (by decide +kernel) (by decide +kernel)]
  decide +kernel

/-! ## Receipts and the state they account for -/

/-- `0xa6` holds 40000, and `0xd1` holds the code `0xfe`, which the frontier
table leaves undefined. -/
def invalidState : StateDB :=
  StateDB.new (((∅ : GoMap Address StateObject).set 0xa6 (fundedAccount 40000 [])).set 0xd1
    (fundedAccount 1 [0xfe]))

/-- A call of `0xd1` at a fee cap and tip of 1, with gas 30000. -/
def invalidCall : Transaction := signedCall 0xa6 0xd1 0 1 1 [] 30000

/-- The call fails in the EVM, so `ExecuteTx` gives it no receipt and adds none
of its gas to the counter; but its nonce increment and the 30000 `BuyGas`
took stay in the committed state, and the coinbase is paid for all of it. -/
theorem executeBlock_failed_tx_charged (sortSlice : SortSlice) :
    (executeBlock paymentEnv sortSlice [0] (List.replicate 30 0) [invalidCall] invalidState).toOption.map
      (fun r => match r.2 with
        | .done m db => some (m.receipt.length, m.errTx.length, m.usedGas, db.getNonce 0xa6)
        | _ => none) =
      some (some (0, 1, 0, 1)) ∧
    (executeBlock paymentEnv sortSlice [0] (List.replicate 30 0) [invalidCall] invalidState).toOption.map
      (fun r => match r.2 with
        | .done _ db => some (db.getBalance 0xa6, db.getBalance COINBASE)
        | _ => none) =
      some (some (10000, 30000)) := by
  rw [executeBlock_sortSlice_irrel _ sortSlice insertionSortSlice _ _ _ _ (by decide +kernel) (by decide +kernel)]
  exact ⟨by decide +kernel, by decide +kernel⟩

/-- The payload of the type byte and the JSON `{}`: an empty object leaves the
transaction it decodes into as it was, zero, and the first check that reads a
pointer, `Value().Sign()`, dereferences a nil one. -/
theorem verifyTx_emptyObject_panics (decodeJson : JsonDecoder)
    (hjson : decodeJson [0x7b, 0x7d] PanguTransaction.zero = .ok PanguTransaction.zero) :
    verifyTx decodeJson [fundedPool] byteCrypto ⟨.NORMAL, [PanguTxType, 0x7b, 0x7d]⟩ = nilDereference := by
  simp only [verifyTx, Transaction.unmarshalBinary_eq (List.cons_ne_nil _ _) hjson]
  decide +kernel

theorem verifyTx_emptyObject_panics_of_identity :
    (fun _ v => .ok v : JsonDecoder) [0x7b, 0x7d] PanguTransaction.zero = .ok PanguTransaction.zero ∧
      verifyTx (fun _ v => .ok v) [fundedPool] byteCrypto ⟨.NORMAL, [PanguTxType, 0x7b, 0x7d]⟩ =
        nilDereference :=
  ⟨rfl, verifyTx_emptyObject_panics (fun _ v => .ok v) rfl⟩

-- A payload that decodes to that transfer passes `VerifyTx`.
example : verifyTx (fun _ _ => .ok (signedCall 0xa5 0xb1 0 1 1 [] 21000).inner) [fundedPool] byteCrypto
    ⟨.NORMAL, [PanguTxType, 0x7b, 0x7d]⟩ = .ok true := by
  decide +kernel

/-! ## The header's base fee -/

/-- Two conversions on the header one `TxThread` shares with the block, as it
makes them for two transactions in a row. The first message's price is the
header's pointer when its fee cap is at least `b + 2t₁`: it reads `b + 2t₁`
when made, against an effective price of `min (t₁ + b) f₁`, and
`b + 2t₁ + 2t₂` once the second conversion has moved the header on. -/
theorem messageStep_shares_header {env : Env} {tx₁ tx₂ : Transaction} {isParallel : Bool} {w : World}
    {b t₁ f₁ v₁ t₂ f₂ v₂ : Int} {a₁ a₂ : Address} (hb : w.baseFee = some b)
    (hf₁ : tx₁.inner.feeCap = some f₁) (ht₁ : tx₁.inner.tipCap = some t₁) (hv₁ : tx₁.inner.value = some v₁)
    (hs₁ : env.signer.sender env.block.crypto tx₁ = .ok (.ok a₁))
    (hf₂ : tx₂.inner.feeCap = some f₂) (ht₂ : tx₂.inner.tipCap = some t₂) (hv₂ : tx₂.inner.value = some v₂)
    (hs₂ : env.signer.sender env.block.crypto tx₂ = .ok (.ok a₂)) (hcap : b + 2 * t₁ ≤ f₁) :
    ∃ m₁ r₂, (messageStep env tx₁ isParallel).run w = .ok ({ w with baseFee := some (b + 2 * t₁) }, .ok m₁) ∧
      (messageStep env tx₂ isParallel).run { w with baseFee := some (b + 2 * t₁) } =
        .ok ({ w with baseFee := some (b + 2 * t₁ + 2 * t₂) }, r₂) ∧
      m₁.gasPrice.read.run { w with baseFee := some (b + 2 * t₁) } =
        .ok ({ w with baseFee := some (b + 2 * t₁) }, b + 2 * t₁) ∧
      m₁.gasPrice.read.run { w with baseFee := some (b + 2 * t₁ + 2 * t₂) } =
        .ok ({ w with baseFee := some (b + 2 * t₁ + 2 * t₂) }, b + 2 * t₁ + 2 * t₂) ∧
      tx₁.inner.effectiveGasPrice (some b) = .ok (min (t₁ + b) f₁) := by
  obtain ⟨r₁, hrun₁, hprice₁⟩ := @messageStep_run env tx₁ isParallel w b t₁ f₁ v₁ _ hb
    (by simp [Transaction.gasTipCap, bigSet, ht₁]) (by simp [Transaction.gasFeeCap, bigSet, hf₁])
    (by simp [Transaction.value, bigSet, hv₁]) hs₁
  obtain ⟨r₂, hrun₂, -⟩ := @messageStep_run env tx₂ isParallel { w with baseFee := some (b + 2 * t₁) }
    (b + 2 * t₁) t₂ f₂ v₂ _ rfl (by simp [Transaction.gasTipCap, bigSet, ht₂])
    (by simp [Transaction.gasFeeCap, bigSet, hf₂]) (by simp [Transaction.value, bigSet, hv₂]) hs₂
  cases r₁ with
  | error e => simp [Except.map] at hprice₁
  | ok m₁ =>
    -- the fee cap is not below the header, so the price is the header's pointer
    have hm₁ : m₁.gasPrice = .headerBaseFee := by
      simpa [Except.map, not_lt.mpr hcap] using hprice₁
    refine ⟨m₁, r₂, hrun₁, hrun₂, ?_, ?_, PanguTransaction.effectiveGasPrice_eq_min hf₁ ht₁⟩
    · rw [hm₁]
      exact GasPriceRef.run_read_headerBaseFee rfl
    · rw [hm₁]
      exact GasPriceRef.run_read_headerBaseFee rfl

/-- On the executor's header, base fee 0: the first message is priced 2, not
its effective price 1, the header is left at 4, and the first message then
reads 4. -/
theorem messageStep_shares_header_tipped :
    paymentEnv.signer.sender paymentEnv.block.crypto (tippedCall 0xa1 0xb1) = .ok (.ok 0xa1) ∧
      paymentEnv.signer.sender paymentEnv.block.crypto (tippedCall 0xa2 0xb2) = .ok (.ok 0xa2) ∧
      ∃ m₁ r₂, (messageStep paymentEnv (tippedCall 0xa1 0xb1) true).run (initialWorld paymentState (some 0)) =
          .ok ({ initialWorld paymentState (some 0) with baseFee := some 2 }, .ok m₁) ∧
        (messageStep paymentEnv (tippedCall 0xa2 0xb2) true).run
            { initialWorld paymentState (some 0) with baseFee := some 2 } =
          .ok ({ initialWorld paymentState (some 0) with baseFee := some 4 }, r₂) ∧
        m₁.gasPrice.read.run { initialWorld paymentState (some 0) with baseFee := some 2 } =
          .ok ({ initialWorld paymentState (some 0) with baseFee := some 2 }, 2) ∧
        m₁.gasPrice.read.run { initialWorld paymentState (some 0) with baseFee := some 4 } =
          .ok ({ initialWorld paymentState (some 0) with baseFee := some 4 }, 4) ∧
        (tippedCall 0xa1 0xb1).inner.effectiveGasPrice (some 0) = .ok 1 := by
  have hs₁ : paymentEnv.signer.sender paymentEnv.block.crypto (tippedCall 0xa1 0xb1) = .ok (.ok 0xa1) := by
    decide +kernel
  have hs₂ : paymentEnv.signer.sender paymentEnv.block.crypto (tippedCall 0xa2 0xb2) = .ok (.ok 0xa2) := by
    decide +kernel
  exact ⟨hs₁, hs₂,
    messageStep_shares_header rfl rfl rfl rfl hs₁ rfl rfl rfl hs₂ (show (0 : Int) + 2 * 1 ≤ 10 by decide)⟩

/-- The access list `{"Addresses": {"0x…b1": 5}, "Slots": []}`: an address at
the index 5 of an empty `Slots`. -/
def malformedAccessList : AccessList := ⟨some ((∅ : GoMap Address Int).set 0xb1 5), []⟩

/-- A creation by `0xa5` with that access list, carrying the signature
`byteSignature 0xa5`. -/
def malformedInner : PanguTransaction :=
  { toAddr := none, nonce := 0, value := some 0, gasLimit := 23400, feeCap := some 1, tipCap := some 1,
    chainID := some 0, sigAlgo := SIG_ECDSA, signature := byteSignature 0xa5, encAlgo := 0, encContent := [],
    vmType := 0, data := [], accessList := some malformedAccessList }

/-- Its one address map is in normal form already. -/
theorem normalize_malformedInner : malformedInner.normalize = malformedInner := by
  simp only [PanguTransaction.normalize, malformedInner, malformedAccessList, Option.map_some, AccessList.normalize,
    Json.normalizeMap_set_empty, List.map_nil]

/-- The list's one index, 5, fits an `int`. -/
theorem intsFit_malformedAccessList : malformedAccessList.IntsFit := by
  intro m hm e he
  simp only [malformedAccessList, Option.mem_def, Option.some.injEq] at hm
  subst hm
  simp [GoMap.set] at he
  subst he
  decide

/-- What `MarshalBinary` writes of `malformedInner`, read back by `UnmarshalBinary`
through any `*big.Int` JSON and base64 that read back what they write, is
admitted by the executor's pool, as long as it fits the pool's size: no check
reads the access list but to charge for it. Its access list breaks the
representation invariant, and grouping it panics. -/
theorem verifyTx_admits_malformed_accessList {codecs : JsonCodecs} (hcodecs : codecs.RoundTrip)
    (hlen : ((⟨malformedInner, none⟩ : Transaction).marshalBinary (encodeJson codecs)).1.length ≤ txMaxSize.toNat) :
    verifyTx (decodeJson codecs) [fundedPool] byteCrypto
        ⟨.NORMAL, ((⟨malformedInner, none⟩ : Transaction).marshalBinary (encodeJson codecs)).1⟩ = .ok true ∧
      ¬ malformedAccessList.WellFormed ∧
      mergeAccessList malformedInner.accessList = panic "runtime error: index out of range [5] with length 0" := by
  have hfit : ∀ al ∈ malformedInner.accessList, al.IntsFit := by
    intro al hal
    simp only [malformedInner, Option.mem_def, Option.some.injEq] at hal
    exact hal ▸ intsFit_malformedAccessList
  obtain ⟨json, henc, hdec⟩ := decodeJson_encodeJson hcodecs malformedInner hfit
  rw [normalize_malformedInner] at hdec
  rw [Transaction.marshalBinary_of_ok henc] at hlen ⊢
  have hsize : ((json ++ [0x0a]).length + 1).toUInt64 ≤ txMaxSize := by
    have hmax : txMaxSize.toNat < 2 ^ 64 := UInt64.toNat_lt_size txMaxSize
    simp only [List.length_cons] at hlen
    rw [UInt64.le_iff_toNat_le, Nat.toUInt64_eq, UInt64.toNat_ofNat', Nat.mod_eq_of_lt (by omega)]
    exact hlen
  refine ⟨?_, ?_, by decide +kernel⟩
  · simp only [verifyTx, Transaction.unmarshalBinary_eq (by simp) hdec, txPoolValidateTx, txPoolValidateTx.go,
      LegacyPool.ValidateTx_cachedSize fundedPool byteCrypto malformedInner false hsize (UInt64.le_refl txMaxSize)]
    decide +kernel
  · intro h
    have := h.index_valid 0xb1 5 (by decide)
    simp only [malformedAccessList, List.length_nil] at this
    omega

/-- The payload: the type byte, then
`{"To":null,"Nonce":0,"Value":0,"GasLimit":23400,"FeeCap":1,"TipCap":1,"ChainID":0,"SigAlgo":0,`
`"Signature":"AAAAAAAAAAAAAAAAAAAAAAAAAAAAAAAAAAAAAAAAAAEAAAAAAAAAAAAAAAAAAAAAAAAAAAAAAAAAAAAAAAAApQA=",`
`"EncAlgo":0,"EncContent":null,"VmType":0,"Data":null,`
`"AccessList":{"Addresses":{"0x00000000000000000000000000000000000000b1":5},"Slots":null}}`
and a newline. -/
def malformedPayload : Bytes :=
  [0x01, 0x7b, 0x22, 0x54, 0x6f, 0x22, 0x3a, 0x6e, 0x75, 0x6c, 0x6c, 0x2c, 0x22, 0x4e, 0x6f, 0x6e, 0x63,
   0x65, 0x22, 0x3a, 0x30, 0x2c, 0x22, 0x56, 0x61, 0x6c, 0x75, 0x65, 0x22, 0x3a, 0x30, 0x2c, 0x22, 0x47,
   0x61, 0x73, 0x4c, 0x69, 0x6d, 0x69, 0x74, 0x22, 0x3a, 0x32, 0x33, 0x34, 0x30, 0x30, 0x2c, 0x22, 0x46,
   0x65, 0x65, 0x43, 0x61, 0x70, 0x22, 0x3a, 0x31, 0x2c, 0x22, 0x54, 0x69, 0x70, 0x43, 0x61, 0x70, 0x22,
   0x3a, 0x31, 0x2c, 0x22, 0x43, 0x68, 0x61, 0x69, 0x6e, 0x49, 0x44, 0x22, 0x3a, 0x30, 0x2c, 0x22, 0x53,
   0x69, 0x67, 0x41, 0x6c, 0x67, 0x6f, 0x22, 0x3a, 0x30, 0x2c, 0x22, 0x53, 0x69, 0x67, 0x6e, 0x61, 0x74,
   0x75, 0x72, 0x65, 0x22, 0x3a, 0x22, 0x41, 0x41, 0x41, 0x41, 0x41, 0x41, 0x41, 0x41, 0x41, 0x41, 0x41,
   0x41, 0x41, 0x41, 0x41, 0x41, 0x41, 0x41, 0x41, 0x41, 0x41, 0x41, 0x41, 0x41, 0x41, 0x41, 0x41, 0x41,
   0x41, 0x41, 0x41, 0x41, 0x41, 0x41, 0x41, 0x41, 0x41, 0x41, 0x41, 0x41, 0x41, 0x41, 0x45, 0x41, 0x41,
   0x41, 0x41, 0x41, 0x41, 0x41, 0x41, 0x41, 0x41, 0x41, 0x41, 0x41, 0x41, 0x41, 0x41, 0x41, 0x41, 0x41,
   0x41, 0x41, 0x41, 0x41, 0x41, 0x41, 0x41, 0x41, 0x41, 0x41, 0x41, 0x41, 0x41, 0x41, 0x41, 0x41, 0x41,
   0x41, 0x41, 0x41, 0x41, 0x41, 0x70, 0x51, 0x41, 0x3d, 0x22, 0x2c, 0x22, 0x45, 0x6e, 0x63, 0x41, 0x6c,
   0x67, 0x6f, 0x22, 0x3a, 0x30, 0x2c, 0x22, 0x45, 0x6e, 0x63, 0x43, 0x6f, 0x6e, 0x74, 0x65, 0x6e, 0x74,
   0x22, 0x3a, 0x6e, 0x75, 0x6c, 0x6c, 0x2c, 0x22, 0x56, 0x6d, 0x54, 0x79, 0x70, 0x65, 0x22, 0x3a, 0x30,
   0x2c, 0x22, 0x44, 0x61, 0x74, 0x61, 0x22, 0x3a, 0x6e, 0x75, 0x6c, 0x6c, 0x2c, 0x22, 0x41, 0x63, 0x63,
   0x65, 0x73, 0x73, 0x4c, 0x69, 0x73, 0x74, 0x22, 0x3a, 0x7b, 0x22, 0x41, 0x64, 0x64, 0x72, 0x65, 0x73,
   0x73, 0x65, 0x73, 0x22, 0x3a, 0x7b, 0x22, 0x30, 0x78, 0x30, 0x30, 0x30, 0x30, 0x30, 0x30, 0x30, 0x30,
   0x30, 0x30, 0x30, 0x30, 0x30, 0x30, 0x30, 0x30, 0x30, 0x30, 0x30, 0x30, 0x30, 0x30, 0x30, 0x30, 0x30,
   0x30, 0x30, 0x30, 0x30, 0x30, 0x30, 0x30, 0x30, 0x30, 0x30, 0x30, 0x30, 0x30, 0x62, 0x31, 0x22, 0x3a,
   0x35, 0x7d, 0x2c, 0x22, 0x53, 0x6c, 0x6f, 0x74, 0x73, 0x22, 0x3a, 0x6e, 0x75, 0x6c, 0x6c, 0x7d, 0x7d,
   0x0a]

/-- Through `math/big`'s JSON and `StdEncoding`, `MarshalBinary` writes that
payload, which the pool admits. -/
theorem verifyTx_admits_malformed_accessList_std :
    stdCodecs.RoundTrip ∧
      ((⟨malformedInner, none⟩ : Transaction).marshalBinary (encodeJson stdCodecs)).1 = malformedPayload ∧
      malformedPayload.length ≤ txMaxSize.toNat ∧
      verifyTx (decodeJson stdCodecs) [fundedPool] byteCrypto ⟨.NORMAL, malformedPayload⟩ = .ok true ∧
      ¬ malformedAccessList.WellFormed ∧
      mergeAccessList malformedInner.accessList = panic "runtime error: index out of range [5] with length 0" := by
  have hpayload : ((⟨malformedInner, none⟩ : Transaction).marshalBinary (encodeJson stdCodecs)).1 = malformedPayload := by
    decide +kernel
  have hlen : malformedPayload.length ≤ txMaxSize.toNat := by decide +kernel
  have h := verifyTx_admits_malformed_accessList stdCodecs_roundTrip (hpayload ▸ hlen)
  rw [hpayload] at h
  exact ⟨stdCodecs_roundTrip, hpayload, hlen, h⟩

end Pangu
