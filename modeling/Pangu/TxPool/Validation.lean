import Pangu.Core.Transition

/-!
# Admission to the pool

`ValidateTransaction` and `ValidateTransactionWithState`
(`core/txpool/validation.go`), as `LegacyPool.ValidateTx` calls them
(`legacypool/legacypool.go`) and `TxPool.ValidateTx` tries each subpool. The
checks run in the source's order, the first that fails giving its error. The
getters that copy a `*big.Int` dereference it, so a transaction whose value or
caps are nil panics at the first check that reads one, and `Sender` panics on
a signature that is not 65 bytes long.

The pool charges `Transaction.IntrinsicGas` and prices a transaction by
`Cost()`, its fee cap times its gas limit plus its value; the executor charges
`core.IntrinsicGas`, with other data prices, and takes the value twice, once
in `BuyGas` and once in the transfer its funds check guards.

* `validateTransactionWithState_spec`: an admitted transaction's nonce is not
  below the state's, and its sender can pay its cost;
* `intrinsicGas_executor_eq_pool`: the executor's intrinsic gas is the pool's,
  52 more per non-zero byte of data and 32000 more for a creation.
-/

namespace Pangu

open Go

/-! ## Errors -/

def errOversizedData : String := "oversized data"
def errMaxInitCodeSizeExceeded : String := "max init code size exceeded"
def errNegativeValue : String := "negative value"
def errGasLimit : String := "exceeds block gas limit"
def errFeeCapVeryHigh : String := "fee cap too high"
def errTipVeryHigh : String := "tip too high"
def errTipAboveFeeCap : String := "tip above fee cap"
def errInvalidSender : String := "invalid sender"
def errIntrinsicGas : String := "intrinsic gas too low"
def errUnderpriced : String := "transaction underpriced"
def errNonceTooLow : String := "nonce too low"
def errNonceTooHigh : String := "nonce too high"
def errInsufficientFunds : String := "insufficient funds for gas * price + value"

/-! ## The checks without state -/

/-- `ValidationOptions`; `Config` is read by no check. -/
structure ValidationOptions where
  accept : UInt8
  maxSize : UInt64
  minTip : Option Int

/-- `x.BitLen() > 256`. -/
def bitLenGt256 (x : Int) : Bool := x.natAbs ≥ 2 ^ 256

/-- `ValidateTransaction(tx, head, signer, opts)`: `none` when every check
passes, else the first error. The header is read for its gas limit only. The
fee cap and the tip are read once each before they are compared, so their
later reads cannot panic. -/
def validateTransaction (crypto : Crypto) (tx : Transaction) (headGasLimit : UInt64) (signer : PanguSigner)
    (opts : ValidationOptions) : Go (Option String) :=
  let t := tx.type
  let size := tx.size
  let maxSize := opts.maxSize
  -- `opts.Accept & (1 << tx.Type())` is a `uint8`, so a type of 8 or more is never accepted
  if !opts.accept.toNat.testBit t.toNat then
    .ok (some s!"{errTxTypeNotSupported}: tx type {t} not supported by this pool")
  else if size > maxSize then
    .ok (some s!"{errOversizedData}: transaction size {size}, limit {maxSize}")
  else if t ≠ PanguTxType then
    .ok (some s!"{errTxTypeNotSupported}: type {t} rejected, pool not yet in Berlin")
  else if tx.toAddr.isNone ∧ tx.data.length > MaxInitCodeSize then
    let len := tx.data.length
    let limit := MaxInitCodeSize
    .ok (some s!"{errMaxInitCodeSizeExceeded}: code size {len}, limit {limit}")
  else do
    let value ← tx.value
    if value < 0 then .ok (some errNegativeValue)
    else if headGasLimit < tx.gasLimit then .ok (some errGasLimit)
    else do
      let feeCap ← tx.gasFeeCap
      if bitLenGt256 feeCap then .ok (some errFeeCapVeryHigh)
      else do
        let tip ← tx.gasTipCap
        if bitLenGt256 tip then .ok (some errTipVeryHigh)
        else if feeCap < tip then .ok (some errTipAboveFeeCap)
        else do
          match ← signer.sender crypto tx with
          | .error _ => .ok (some errInvalidSender)
          | .ok _ =>
            match tx.intrinsicGas with
            | .error e => .ok (some e)
            | .ok intrGas =>
              let gasLimit := tx.gasLimit
              if gasLimit < intrGas then
                .ok (some s!"{errIntrinsicGas}: needed {intrGas}, allowed {gasLimit}")
              else do
                -- `GasTipCapIntCmp(opts.MinTip)` dereferences the minimum tip
                let minTip ← bigSet opts.minTip
                if tip < minTip then
                  .ok (some s!"{errUnderpriced}: tip needed {minTip}, tip permitted {tip}")
                else .ok none

/-! ## The checks against the state -/

/-- `ValidationOptionsWithState`, its callbacks as functions. -/
structure ValidationOptionsWithState where
  state : StateDB
  firstNonceGap : Option (Address → UInt64)
  existingExpenditure : Address → Int
  existingCost : Address → UInt64 → Option Int

/-- `ValidateTransactionWithState(tx, signer, opts)`: the sender, its nonce
against the state's, and its balance against the cost of the transaction and
of those it already has in the pool. -/
def validateTransactionWithState (crypto : Crypto) (tx : Transaction) (signer : PanguSigner)
    (opts : ValidationOptionsWithState) : Go (Option String) := do
  match ← signer.sender crypto tx with
  | .error e => .ok (some e)
  | .ok fromAddr =>
    let next := opts.state.getNonce fromAddr
    let nonce := tx.nonce
    if next > nonce then .ok (some s!"{errNonceTooLow}: next nonce {next}, tx nonce {nonce}")
    else
      let gapError := match opts.firstNonceGap with
        | some firstNonceGap =>
          let gap := firstNonceGap fromAddr
          if gap < nonce then some s!"{errNonceTooHigh}: tx nonce {nonce}, gapped nonce {gap}" else none
        | none => none
      match gapError with
      | some e => .ok (some e)
      | none => do
        let balance := opts.state.getBalance fromAddr
        let cost ← tx.cost
        if balance < cost then
          let overshot := cost - balance
          .ok (some s!"{errInsufficientFunds}: balance {balance}, tx cost {cost}, overshot {overshot}")
        else
          let spent := opts.existingExpenditure fromAddr
          match opts.existingCost fromAddr nonce with
          | some prev =>
            let bump := cost - prev
            let need := spent + bump
            let overshot := need - balance
            if balance < need then
              .ok (some s!"{errInsufficientFunds}: balance {balance}, queued cost {spent}, tx bumped {bump}, overshot {overshot}")
            else .ok none
          | none =>
            let need := spent + cost
            let overshot := need - balance
            if balance < need then
              .ok (some s!"{errInsufficientFunds}: balance {balance}, queued cost {spent}, tx cost {cost}, overshot {overshot}")
            else .ok none

/-- An admitted transaction's nonce is not below the state's, and its sender
holds at least its cost. -/
theorem validateTransactionWithState_spec {crypto : Crypto} {tx : Transaction} {signer : PanguSigner}
    {opts : ValidationOptionsWithState} (h : validateTransactionWithState crypto tx signer opts = .ok none) :
    ∃ fromAddr cost, signer.sender crypto tx = .ok (.ok fromAddr) ∧ tx.cost = .ok cost ∧
      opts.state.getNonce fromAddr ≤ tx.nonce ∧ cost ≤ opts.state.getBalance fromAddr := by
  unfold validateTransactionWithState at h
  obtain ⟨r, hr, h⟩ := bind_eq_ok h
  cases r with
  | error e => cases h
  | ok fromAddr =>
    simp only at h
    split at h
    · cases h
    · next hnonce =>
      split at h
      · cases h
      · obtain ⟨cost, hcost, h⟩ := bind_eq_ok h
        split at h
        · cases h
        · next hbal => exact ⟨fromAddr, cost, hr, hcost, UInt64.not_lt.mp hnonce, not_lt.mp hbal⟩

/-! ## The legacy pool -/

/-- The transactions of one sender that the pool has pending: their total
cost, and the cost of the one at each nonce. -/
structure PendingList where
  totalcost : Int
  costAt : UInt64 → Option Int

/-- What `LegacyPool.ValidateTx` reads of the pool: the signer, the gas limit
of the current head, the minimum tip, the current state, and the pending
lists. -/
structure LegacyPool where
  signer : PanguSigner
  headGasLimit : UInt64
  gasTip : Int
  currentState : StateDB
  pending : Address → Option PendingList

def txSlotSize : UInt64 := 32 * 1024
def txMaxSize : UInt64 := 4 * txSlotSize

namespace LegacyPool

/-- `pool.validateTxBasics(tx, local)`: only the Pangu type is accepted, and a
local transaction needs no tip. -/
def validateTxBasics (pool : LegacyPool) (crypto : Crypto) (tx : Transaction) (isLocal : Bool) :
    Go (Option String) :=
  let opts : ValidationOptions :=
    ⟨1 <<< PanguTxType, txMaxSize, some (if isLocal then 0 else pool.gasTip)⟩
  validateTransaction crypto tx pool.headGasLimit pool.signer opts

/-- `pool.validateTx(tx, local)`: no nonce gaps are checked, and the costs
already queued come from the pending lists. -/
def validateTx (pool : LegacyPool) (crypto : Crypto) (tx : Transaction) (_isLocal : Bool) :
    Go (Option String) :=
  let opts : ValidationOptionsWithState :=
    ⟨pool.currentState, none, fun a => ((pool.pending a).map (·.totalcost)).getD 0,
      fun a nonce => (pool.pending a).bind fun list => list.costAt nonce⟩
  validateTransactionWithState crypto tx pool.signer opts

/-- `pool.ValidateTx(tx, local)`: the basic checks, then those against the state. -/
def ValidateTx (pool : LegacyPool) (crypto : Crypto) (tx : Transaction) (isLocal : Bool) :
    Go (Option String) := do
  match ← pool.validateTxBasics crypto tx isLocal with
  | some e => .ok (some e)
  | none => pool.validateTx crypto tx isLocal

/-- The pool reads a transaction's size cache only to bound it: two sizes
within the bound are admitted alike. -/
theorem ValidateTx_cachedSize (pool : LegacyPool) (crypto : Crypto) (inner : PanguTransaction) {n m : UInt64}
    (isLocal : Bool) (hn : n ≤ txMaxSize) (hm : m ≤ txMaxSize) :
    pool.ValidateTx crypto ⟨inner, some n⟩ isLocal = pool.ValidateTx crypto ⟨inner, some m⟩ isLocal := by
  simp only [ValidateTx, validateTxBasics, validateTransaction, Transaction.size, gt_iff_lt,
    UInt64.not_lt.mpr hn, UInt64.not_lt.mpr hm, if_false]
  rfl

end LegacyPool

/-- `TxPool.ValidateTx(tx, islocal)`: the first subpool that admits the
transaction, or the last error; no subpool is an admission. -/
def txPoolValidateTx (subpools : List LegacyPool) (crypto : Crypto) (tx : Transaction) (isLocal : Bool) :
    Go (Option String) :=
  go subpools none
where
  go : List LegacyPool → Option String → Go (Option String)
    | [], err => .ok err
    | p :: ps, _ => do
      match ← p.ValidateTx crypto tx isLocal with
      | none => .ok none
      | some e => go ps (some e)

/-! ## The two intrinsic gas functions -/

/-- The executor charges what the pool charges, 52 more per non-zero byte of
data (68 against 16), and 32000 more for a creation (a base of 53000 against
21000), once the access list's map is set. -/
theorem intrinsicGas_executor_eq_pool {tx : Transaction} {al : AccessList} {gp gc : UInt64}
    (hlen : tx.data.length < 2 ^ 64) (hal : tx.accessList = some al) (hmap : al.addresses.isSome)
    (hp : tx.intrinsicGas = .ok gp) (hc : intrinsicGas tx.data tx.accessList tx.toAddr.isNone = .ok (.ok gc)) :
    gc = gp + (tx.data.filter (· != 0)).length.toUInt64 * 52 + (if tx.toAddr.isNone then 32000 else 0) := by
  obtain ⟨gpd, hpd, hp⟩ := bind_eq_ok hp
  simp only [hal] at hp
  cases hp
  simp only [intrinsicGas, hal, hmap, if_true] at hc
  split at hc
  · cases hc
  · next gcd hcd =>
    cases hc
    have hpd := dataGas_eq_ok hlen hpd
    have hcd := dataGas_eq_ok hlen hcd
    subst hpd hcd
    simp only [accessListGas, TxGas, TxGasContractCreation, TxDataNonZeroGasEIP2028, TxDataNonZeroGasFrontier]
    cases tx.toAddr.isNone <;> grind

end Pangu
