import Pangu.Core.Transition

/-!
# Processing a block

`Processor.Process` and `TxThread` (`core/process.go`), with `SortSerialTX`
(`process_types.go`). Every group of the block is a `TxThread` started at
once, each with an EVM of its own but all on one state database, one gas
counter and one header; a run of the parallel phase is a schedule of their
steps (`Interleave.runSchedule`) after which every thread has returned, as
`wg1.Wait()` waits for. The results come off the channel in the order the
threads sent them. The transactions that could not run in parallel are then
sorted and run by one serial thread.

* `process_blocks`: the parallel phase run by the schedule that runs each group
  to its end in turn is the groups run one after another.
-/

namespace Pangu

open Go Interleave

/-- `trMessage.Signer.Sender(tx)` with its error dropped, which leaves the zero
address. -/
def senderOrZero (crypto : Crypto) (s : PanguSigner) (tx : Transaction) : Go Address := do
  match ← s.sender crypto tx with
  | .ok a => .ok a
  | .error _ => .ok 0

/-- A `TransactionToMessage` on the shared header, as one step. -/
def messageStep (env : Env) (tx : Transaction) (isParallel : Bool) : Thread (Except String TxMessage) :=
  Prog.atomic fun w =>
    match transactionToMessage env.block.crypto tx env.signer w.baseFee isParallel with
    | .ok (baseFee, m) => .ok ({ w with baseFee := baseFee }, m)
    | .error p => .error (.panic p)

/-- A conversion as `TxThread` makes it, on the header the threads share: the
header moves by twice the tip, and the message's price is the header's pointer
unless the fee cap is lower. -/
theorem messageStep_run {env : Env} {tx : Transaction} {isParallel : Bool} {w : World} {b t f v : Int}
    {sender : Except String Address} (hb : w.baseFee = some b)
    (ht : tx.gasTipCap = .ok t) (hf : tx.gasFeeCap = .ok f) (hv : tx.value = .ok v)
    (hs : env.signer.sender env.block.crypto tx = .ok sender) :
    ∃ r, (messageStep env tx isParallel).run w = .ok ({ w with baseFee := some (b + 2 * t) }, r) ∧
      r.map (·.gasPrice) = sender.map fun _ => if b + 2 * t > f then .feeCap f else .headerBaseFee := by
  obtain ⟨r, hr, hprice⟩ :=
    @transactionToMessage_header env.block.crypto tx env.signer b t f v isParallel sender ht hf hv hs
  refine ⟨r, ?_, hprice⟩
  simp only [messageStep, Prog.run_atomic, hb, hr]

/-- One turn of the loop of `TxThread` on `tx`; `k` goes on with the rest, and
is given the sender whose next transactions follow `tx` to the serial list. -/
def txTurn (env : Env) (isParallel : Bool) (tx : Transaction) (acc : MessageReturn) (vm : Evm)
    (k : Option Address → MessageReturn → Evm → Thread MessageReturn) : Thread MessageReturn := do
  match ← messageStep env tx isParallel with
  | .error e =>
    k none { acc with txError := acc.txError ++ [⟨tx, "function TransactionToMessage err", some (.other e)⟩] } vm
  | .ok msg => do
    let (r, vm) ← executeTx env msg tx vm
    match r.err, r.receipt with
    | some e, _ => k none { acc with txError := acc.txError ++ [⟨tx, "function ExecuteTx err", some e⟩] } vm
    | none, none => do
      -- a transaction that cannot run in parallel goes to the serial list
      let sender ← goLocal (senderOrZero env.block.crypto env.signer tx)
      k (some sender)
        { acc with
          txError := acc.txError ++ [⟨tx, "TX can not execute in parallel thread", none⟩]
          txSerial := acc.txSerial ++ [tx] } vm
    | none, some receipt =>
      let acc := { acc with newReceipt := acc.newReceipt ++ [receipt], newLogs := acc.newLogs ++ receipt.logs }
      k none (if !msg.isParallel then { acc with txAccessList := acc.txAccessList ++ [⟨tx, r.trueAccessList⟩] } else acc) vm

/-- The loop of `TxThread`. After a transaction goes to the serial list, the
ones right after it from the same sender follow it without running (`skip` is
that sender), and the loop starts again (`i = -1`) at the first from another. -/
def txLoop (env : Env) (isParallel : Bool) : List Transaction → Option Address → MessageReturn → Evm → Thread MessageReturn
  | [], _, acc, _ => pure acc
  | tx :: rest, none, acc, vm => txTurn env isParallel tx acc vm (txLoop env isParallel rest)
  | tx :: rest, some s, acc, vm => do
    let next ← goLocal (senderOrZero env.block.crypto env.signer tx)
    if next = s then txLoop env isParallel rest (some s) { acc with txSerial := acc.txSerial ++ [tx] } vm
    else txTurn env isParallel tx acc vm (txLoop env isParallel rest)

/-- `TxThread(id, txs, wg, msgReturn, trMessage, IsParallel)`: the loop, and its
result sent on the channel. -/
def txThread (env : Env) (isParallel : Bool) (txs : List Transaction) (vm : Evm) : Thread Unit := do
  let r ← txLoop env isParallel txs none ⟨[], [], [], [], []⟩ vm
  Prog.modify fun w => { w with chan := w.chan ++ [r] }

/-! ## The serial list -/

/-- What `SortSerialTX` compares: the nonce, the price and the hash. -/
def serialKey (keccak256 : Bytes → Hash) (tx : Transaction) : Go (UInt64 × Int × Hash) := do
  let price ← tx.gasPrice
  let h ← tx.hash keccak256
  .ok (tx.nonce, price, h)

/-- The order of `SortSerialTX`: the lower nonce first, then the higher price,
then the smaller hash. -/
def serialLess (a b : UInt64 × Int × Hash) : Bool :=
  a.1 < b.1 || (a.1 == b.1 && (a.2.1 > b.2.1 || (a.2.1 == b.2.1 && a.2.2 < b.2.2)))

/-- `SortSerialTX(SingleTxList)`. A list of two or more has each element
compared, so a price or a hash that panics panics the sort. -/
def sortSerialTX (sortSlice : SortSlice) (keccak256 : Bytes → Hash) (txs : List Transaction) :
    Go (List Transaction) :=
  if txs.length < 2 then .ok txs
  else do
    let keyed ← txs.mapM fun tx => do
      let k ← serialKey keccak256 tx
      .ok (k, tx)
    .ok ((sortSlice (fun a b => serialLess a.1 b.1) keyed).map Prod.snd)

/-! ## `Process` -/

/-- `ProcessReturnMsg`; the state it leaves is returned beside it, in place of
the root `Commit` computes from it. -/
structure ProcessReturnMsg where
  receipt : List Receipt
  logs : List Log
  errTx : List TxErrorMessage
  alTx : List TxAccessListMessage
  usedGas : UInt64

/-- How a run of `Process` ends. `unfinished` is a schedule that stops with a
thread still running, which is no run of `Process`: it waits for them all. -/
inductive ProcessEnd where
  | unfinished
  | halt (h : Halt)
  | err (msg : String)
  | done (r : ProcessReturnMsg) (statedb : StateDB)

/-- The receipts of a run that ends. -/
def ProcessEnd.receipts : ProcessEnd → Option (List Receipt)
  | .done r _ => some r.receipt
  | _ => none

/-- `evm.NewEVM(EvmContext, evm.TxContext{}, statedb, ...)`. -/
def newEvm (statedb : StateDB) : Evm := ⟨statedb, 0, 0, false, [], none⟩

/-- The threads of the parallel groups. -/
def groupThreads (env : Env) (txs : List (List Transaction)) (statedb : StateDB) : List (Thread Unit) :=
  txs.map fun group => txThread env true group (newEvm statedb)

/-- The shared world at the start of `Process`. -/
def initialWorld (statedb : StateDB) (baseFee : Option Int) : World := ⟨statedb, 0, baseFee, []⟩

/-- The serial phase: sorted, run by one thread alone, and finalised. -/
def serialPhase (env : Env) (sortSlice : SortSlice) (w : World) (acc : ProcessReturnMsg)
    (serial : List Transaction) : ProcessEnd :=
  match sortSerialTX sortSlice env.block.crypto.keccak256 serial with
  | .error p => .halt (.panic p)
  | .ok sorted =>
    match (txThread env false sorted (newEvm w.statedb)).run { w with chan := [] } with
    | .error h => .halt h
    | .ok (w', ()) =>
      match w'.chan with
      | [] => .err "no Return Message in Serial Channel"
      | value :: _ =>
        .done { acc with
            receipt := acc.receipt ++ value.newReceipt, logs := acc.logs ++ value.newLogs
            errTx := acc.errTx ++ value.txError, alTx := acc.alTx ++ value.txAccessList
            usedGas := w'.usedGas }
          (w'.statedb.finalise env.block.crypto true)

/-- `Process` from where the parallel threads leave it: every EVM's state
finalised (all are the one state), the channel read in order, and the serial
phase run if it has transactions. -/
def processAfter (env : Env) (sortSlice : SortSlice) (groups : Nat)
    (r : Except Halt (List (Thread Unit) × World)) : ProcessEnd :=
  match r with
  | .error h => .halt h
  | .ok (ps, w) =>
    if !ps.all Prog.returned then .unfinished
    else
      let w := { w with statedb := (fun db : StateDB => db.finalise env.block.crypto true)^[groups] w.statedb }
      if w.chan.isEmpty then .err "no Return Message in Parallel Channel"
      else
        let acc : ProcessReturnMsg :=
          ⟨w.chan.flatMap (·.newReceipt), w.chan.flatMap (·.newLogs), w.chan.flatMap (·.txError), [],
            w.usedGas⟩
        let serial := w.chan.flatMap (·.txSerial)
        if serial.isEmpty then .done acc w.statedb else serialPhase env sortSlice w acc serial

/-- The serial phase runs only when some transaction went to the serial list:
otherwise the sort is never called. -/
theorem processAfter_sortSlice_irrel (env : Env) (s₁ s₂ : SortSlice) (groups : Nat)
    (r : Except Halt (List (Thread Unit) × World))
    (h : r.toOption.all fun x => (x.2.chan.flatMap (·.txSerial)).isEmpty) :
    processAfter env s₁ groups r = processAfter env s₂ groups r := by
  cases r with
  | error e => rfl
  | ok x =>
    simp only [Except.toOption, Option.all_some] at h
    simp only [processAfter, h, if_true]

/-- `Process(block, statedb, cfg)` on the groups `txs` of the block, with the
parallel threads run by `schedule`, from the state and the header's base fee. -/
def process (env : Env) (sortSlice : SortSlice) (txs : List (List Transaction)) (schedule : List Nat)
    (statedb : StateDB) (baseFee : Option Int) : ProcessEnd :=
  processAfter env sortSlice txs.length
    (runSchedule schedule (groupThreads env txs statedb) (initialWorld statedb baseFee))

/-- The parallel phase run by the schedule that runs each group to its end, one
after another, is the groups run in order. -/
theorem process_blocks (env : Env) (sortSlice : SortSlice) (txs : List (List Transaction)) (statedb : StateDB)
    (baseFee : Option Int) :
    process env sortSlice txs (blocks 0 (seqSteps (groupThreads env txs statedb) (initialWorld statedb baseFee)))
        statedb baseFee =
      processAfter env sortSlice txs.length
        ((runSeq (groupThreads env txs statedb) (initialWorld statedb baseFee)).map
          fun r => (r.1.map .ret, r.2)) := by
  rw [process, runSchedule_blocks]
  cases runSeq (groupThreads env txs statedb) (initialWorld statedb baseFee) with
  | ok r => rfl
  | error e => rfl

end Pangu
