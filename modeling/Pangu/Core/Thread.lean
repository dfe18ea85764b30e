import Pangu.Core.Process
import Pangu.Lib.DeferScan

/-!
# What a `TxThread` does with its transactions

`TxThread` (`core/process.go`) runs its list with an index `i`. After a
transaction goes to the serial list, it moves the ones right after it from the
same sender there too, cuts the list to what follows (`txs = txs[index:]`) and
starts the index again (`i = -1`). `txForLoop` is that loop as written, with
its inner loop `serialRun`; its measure is what is left of the list after the
index, so it ends, and it is the thread's `txLoop` (`txForLoop_eq_txLoop`).

Whatever the conversions and executions of its turns give, the loop's fates
for the transactions are those of a `DeferScan.scan` keyed by the sender,
whose runs are the turns (`txLoop_always_scan`). So each transaction has one
of three ends: a receipt, the serial list, or a recorded error.

* `txThread_partitions`: the loop ends; the three groups are sublists of the
  list that together are a permutation of it; the turns take their outcomes
  once each, in order; and the transactions of a sender right after one that
  could not run in parallel follow it without running;
* `parallelPhase_one_message_per_group`: under every schedule after which the
  group threads have all returned, the channel holds one message from each
  group, in the order they were sent, each a scan of its group.
-/

namespace Pangu

open Go Interleave DeferScan

/-! ## One turn -/

/-- What one turn of the loop found: a conversion error, an execution error, a
transaction that cannot run in parallel, or a receipt, with the access list
`ExecuteTx` returned and whether the message was a parallel one. -/
inductive TurnOutcome where
  | messageErr (e : String)
  | executeErr (e : EvmError)
  | notParallel
  | receipt (r : Receipt) (trueAccessList : Option AccessList) (msgIsParallel : Bool)

namespace TurnOutcome

/-- The outcome that sends the transaction to the serial list. -/
def defers : TurnOutcome → Bool
  | .notParallel => true
  | _ => false

/-- The thread's results after a turn with this outcome. -/
def record (acc : MessageReturn) (tx : Transaction) : TurnOutcome → MessageReturn
  | .messageErr e => { acc with txError := acc.txError ++ [⟨tx, "function TransactionToMessage err", some (.other e)⟩] }
  | .executeErr e => { acc with txError := acc.txError ++ [⟨tx, "function ExecuteTx err", some e⟩] }
  | .notParallel =>
    { acc with
      txError := acc.txError ++ [⟨tx, "TX can not execute in parallel thread", none⟩]
      txSerial := acc.txSerial ++ [tx] }
  | .receipt r tal p =>
    let acc := { acc with newReceipt := acc.newReceipt ++ [r], newLogs := acc.newLogs ++ r.logs }
    if !p then { acc with txAccessList := acc.txAccessList ++ [⟨tx, tal⟩] } else acc

end TurnOutcome

/-- The key the loop compares for the serial list: the sender, as `TxThread`
reads it with its error dropped. -/
def threadKey (env : Env) (tx : Transaction) : Go Address := senderOrZero env.block.crypto env.signer tx

/-- What `txTurn` does, for every result of its steps: the continuation gets
the results with the turn's outcome recorded, and the sender after a
transaction that cannot run in parallel. -/
theorem txTurn_always {env : Env} {isParallel : Bool} {tx : Transaction} {acc : MessageReturn} {vm : Evm}
    {k : Option Address → MessageReturn → Evm → Thread MessageReturn} {P : MessageReturn → Prop}
    (hk : ∀ (o : TurnOutcome) (vm' : Evm), o.defers = false → (k none (o.record acc tx) vm').Always P)
    (hd : ∀ (vm' : Evm) (s : Address), threadKey env tx = .ok s →
      (k (some s) (TurnOutcome.notParallel.record acc tx) vm').Always P) :
    (txTurn env isParallel tx acc vm k).Always P := by
  unfold txTurn
  refine Prog.always_bind (Prog.always_of_forall (fun m => ?_) _)
  cases m with
  | error e => exact hk (.messageErr e) vm rfl
  | ok msg =>
    refine Prog.always_bind (Prog.always_of_forall (fun rv => ?_) _)
    obtain ⟨r, vm'⟩ := rv
    dsimp only
    cases he : r.err with
    | some e =>
      dsimp only
      exact hk (.executeErr e) vm' rfl
    | none =>
      cases hr : r.receipt with
      | none =>
        dsimp only
        exact Prog.always_bind ((Prog.always_ofExcept _).imp fun s hs => hd vm' s (lift_eq_ok hs))
      | some receipt =>
        dsimp only
        exact hk (.receipt receipt r.trueAccessList msg.isParallel) vm' rfl

/-! ## The loop as written -/

/-- The inner loop of `TxThread` from `index`: the transactions of sender `s`
go to the serial list until one of another sender, or the end; it returns where
it stopped. -/
def serialRun (env : Env) (s : Address) (txs : List Transaction) (index : Nat) (acc : MessageReturn) :
    Thread ({ j : Nat // index ≤ j } × MessageReturn) :=
  if h : index < txs.length then do
    let next ← goLocal (threadKey env txs[index])
    if next = s then do
      let (j, acc) ← serialRun env s txs (index + 1) { acc with txSerial := acc.txSerial ++ [txs[index]] }
      pure (⟨j.1, Nat.le_of_succ_le j.2⟩, acc)
    else pure (⟨index, Nat.le_refl index⟩, acc)
  else pure (⟨index, Nat.le_refl index⟩, acc)
termination_by txs.length - index

/-- The loop of `TxThread` as written: index `i` over `txs`; after a
transaction that cannot run in parallel, the inner loop, then the list cut
where it stopped (`txs = txs[index:]`) and the index back to the start. -/
def txForLoop (env : Env) (isParallel : Bool) (txs : List Transaction) (i : Nat) (acc : MessageReturn) (vm : Evm) :
    Thread MessageReturn :=
  if h : i < txs.length then
    txTurn env isParallel txs[i] acc vm fun skip acc vm =>
      match skip with
      | none => txForLoop env isParallel txs (i + 1) acc vm
      | some s => do
        let (j, acc) ← serialRun env s txs (i + 1) acc
        txForLoop env isParallel (txs.drop j.1) 0 acc vm
  else pure acc
termination_by txs.length - i
decreasing_by
  · omega
  · have := j.2
    rw [List.length_drop]
    omega

/-- The inner loop, then a continuation that is the loop from where it
stopped, is the loop skipping sender `s` from `index`. -/
theorem serialRun_bind (env : Env) (isParallel : Bool) (s : Address) (txs : List Transaction) (vm : Evm)
    (index : Nat) (acc : MessageReturn) {G : { j : Nat // index ≤ j } × MessageReturn → Thread MessageReturn}
    (hG : ∀ j acc', G (j, acc') = txLoop env isParallel (txs.drop j.1) none acc' vm) :
    (serialRun env s txs index acc).bind G = txLoop env isParallel (txs.drop index) (some s) acc vm := by
  -- on the index, as the inner loop recurses; the continuation changes with it
  induction index, acc using serialRun.induct txs with
  | case1 index acc h ih =>
    rw [serialRun, dif_pos h, List.drop_eq_getElem_cons h, txLoop]
    simp only [Prog.bind_eq, Prog.pure_eq, Prog.bind_assoc]
    refine congrArg (Prog.bind _) (funext fun next => ?_)
    by_cases hs : next = s
    · rw [if_pos hs, if_pos hs, Prog.bind_assoc]
      exact ih fun j acc' => hG ⟨j.1, Nat.le_of_succ_le j.2⟩ acc'
    · rw [if_neg hs, if_neg hs]
      show G (⟨index, Nat.le_refl index⟩, acc) = _
      rw [hG, List.drop_eq_getElem_cons h, txLoop]
  | case2 index acc h =>
    have hnil : txs.drop index = [] := List.drop_of_length_le (Nat.le_of_not_lt h)
    rw [serialRun, dif_neg h, hnil]
    show G (⟨index, Nat.le_refl index⟩, acc) = txLoop env isParallel [] (some s) acc vm
    rw [hG, hnil, txLoop, txLoop]

/-- The loop as written is the thread's loop on what is left of the list. -/
theorem txForLoop_eq_txLoop (env : Env) (isParallel : Bool) (txs : List Transaction) (i : Nat) (acc : MessageReturn)
    (vm : Evm) : txForLoop env isParallel txs i acc vm = txLoop env isParallel (txs.drop i) none acc vm := by
  induction txs, i, acc, vm using txForLoop.induct with
  | case1 txs i acc vm h ihNext ihCut =>
    rw [txForLoop, dif_pos h, List.drop_eq_getElem_cons h, txLoop]
    refine congrArg (txTurn env isParallel txs[i] acc vm) (funext fun skip => funext fun acc' => funext fun vm' => ?_)
    cases skip with
    | none => exact ihNext acc' vm'
    | some s =>
      refine serialRun_bind env isParallel s txs vm' (i + 1) acc' fun j acc'' => ?_
      dsimp only
      rw [ihCut vm' j acc'', List.drop_zero]
  | case2 txs i acc vm h =>
    rw [txForLoop, dif_neg h, List.drop_of_length_le (Nat.le_of_not_lt h), txLoop]

/-! ## The loop as a scan -/

/-- The results after a transaction's fate: its turn's outcome recorded, or the
transaction put on the serial list behind a deferred one. -/
def recordFate (acc : MessageReturn) : Transaction × Fate TurnOutcome → MessageReturn
  | (tx, .ran o) => o.record acc tx
  | (tx, .follows) => { acc with txSerial := acc.txSerial ++ [tx] }

/-- The outcomes `o`, then those of `out`. -/
def consOutcome (o : TurnOutcome) (out : Nat → TurnOutcome) : Nat → TurnOutcome
  | 0 => o
  | n + 1 => out n

/-- `r` is what the loop on `txs` gives from `acc` for the fates of a scan, for
some outcomes of its turns. -/
def ScanResult (env : Env) (txs : List Transaction) (skip : Option (Go Address)) (acc r : MessageReturn) : Prop :=
  ∃ out : Nat → TurnOutcome,
    r = (txs.zip (scan (threadKey env) TurnOutcome.defers out txs skip)).foldl recordFate acc

section ScanResult

variable {env : Env} {tx : Transaction} {rest : List Transaction} {acc r : MessageReturn}

theorem scanResult_nil (skip : Option (Go Address)) (acc : MessageReturn) : ScanResult env [] skip acc acc :=
  ⟨fun _ => .notParallel, rfl⟩

/-- A turn on `tx` with outcome `o`, then the rest from the key it leaves. -/
theorem ScanResult.turn {skip skip' : Option (Go Address)} {o : TurnOutcome} (hskip : skip ≠ some (threadKey env tx))
    (hskip' : skip' = if o.defers then some (threadKey env tx) else none)
    (h : ScanResult env rest skip' (o.record acc tx) r) : ScanResult env (tx :: rest) skip acc r := by
  obtain ⟨out, rfl⟩ := h
  refine ⟨consOutcome o out, ?_⟩
  rw [scan_cons_run hskip]
  subst hskip'
  rfl

/-- `tx`, of the sender that follows, on the serial list, then the rest. -/
theorem ScanResult.follows {s : Address} (hkey : threadKey env tx = .ok s)
    (h : ScanResult env rest (some (.ok s)) { acc with txSerial := acc.txSerial ++ [tx] } r) :
    ScanResult env (tx :: rest) (some (.ok s)) acc r := by
  obtain ⟨out, rfl⟩ := h
  refine ⟨out, ?_⟩
  rw [scan_cons_follows (by rw [hkey])]
  rfl

end ScanResult

/-- Whatever its steps give, the loop's results are those of a scan of its
list keyed by the sender. -/
theorem txLoop_always_scan (env : Env) (isParallel : Bool) (txs : List Transaction) (skip : Option Address)
    (acc : MessageReturn) (vm : Evm) :
    (txLoop env isParallel txs skip acc vm).Always (ScanResult env txs (skip.map .ok) acc) := by
  induction txs generalizing skip acc vm with
  | nil => exact Prog.always_ret (scanResult_nil _ acc)
  | cons tx rest ih =>
    -- a turn on `tx`, unless the loop is following its sender
    have hturn : ∀ skip' : Option (Go Address), skip' ≠ some (threadKey env tx) →
        (txTurn env isParallel tx acc vm (txLoop env isParallel rest)).Always (ScanResult env (tx :: rest) skip' acc) := by
      intro skip' hne
      apply txTurn_always
      · intro o vm' ho
        exact (ih none _ vm').imp fun r h => h.turn hne (by rw [ho]; rfl)
      · intro vm' s hs
        exact (ih (some s) _ vm').imp fun r h => h.turn hne (by rw [hs]; rfl)
    cases skip with
    | none => exact hturn none (Option.some_ne_none _).symm
    | some s =>
      rw [txLoop]
      refine Prog.always_bind ((Prog.always_ofExcept _).imp fun next hnext => ?_)
      have hkey : threadKey env tx = .ok next := lift_eq_ok hnext
      by_cases hn : next = s
      · rw [if_pos hn]
        subst hn
        exact (ih (some next) _ vm).imp fun r h => h.follows hkey
      · rw [if_neg hn]
        exact hturn _ (by rw [hkey]; exact fun h => hn (Except.ok.inj (Option.some.inj h)).symm)

/-! ## The three groups -/

/-- Where a transaction of a thread's list ends: with a receipt, on the serial
list, or with its error recorded. -/
inductive TxGroup where
  | receipt
  | serial
  | failed
  deriving DecidableEq

namespace TurnOutcome

def group : TurnOutcome → TxGroup
  | .messageErr _ => .failed
  | .executeErr _ => .failed
  | .notParallel => .serial
  | .receipt .. => .receipt

def receipt? : TurnOutcome → Option Receipt
  | .receipt r _ _ => some r
  | _ => none

theorem record_newReceipt (acc : MessageReturn) (tx : Transaction) (o : TurnOutcome) :
    (o.record acc tx).newReceipt = acc.newReceipt ++ o.receipt?.toList := by
  cases o with
  | receipt r tal p => cases p <;> rfl
  | _ => simp [record, receipt?]

theorem record_txSerial (acc : MessageReturn) (tx : Transaction) (o : TurnOutcome) :
    (o.record acc tx).txSerial = acc.txSerial ++ if o.group = .serial then [tx] else [] := by
  cases o with
  | receipt r tal p => cases p <;> simp [record, group]
  | _ => simp [record, group]

/-- The errors recorded with a cause: a turn adds its transaction to them when
it failed. -/
theorem record_txError (acc : MessageReturn) (tx : Transaction) (o : TurnOutcome) :
    ((o.record acc tx).txError.filter (·.errorMsg.isSome)).map (·.tx) =
      (acc.txError.filter (·.errorMsg.isSome)).map (·.tx) ++ if o.group = .failed then [tx] else [] := by
  cases o with
  | receipt r tal p => cases p <;> simp [record, group]
  | _ => simp [record, group]

end TurnOutcome

def fateGroup : Fate TurnOutcome → TxGroup
  | .ran o => o.group
  | .follows => .serial

/-- The transactions whose fate puts them in group `g`, in their order. -/
def groupTxs (txs : List Transaction) (fates : List (Fate TurnOutcome)) (g : TxGroup) : List Transaction :=
  ((txs.zip fates).filter fun p => fateGroup p.2 == g).map Prod.fst

section Groups

variable (ps : List (Transaction × Fate TurnOutcome))

theorem foldl_recordFate_newReceipt (acc : MessageReturn) :
    (ps.foldl recordFate acc).newReceipt =
      acc.newReceipt ++ ps.filterMap fun p => p.2.outcome?.bind TurnOutcome.receipt? := by
  induction ps generalizing acc with
  | nil => simp
  | cons p ps ih =>
    obtain ⟨tx, f⟩ := p
    rw [List.foldl_cons, ih, List.filterMap_cons]
    cases f with
    | ran o =>
      rw [recordFate, TurnOutcome.record_newReceipt]
      cases hr : o.receipt? <;> simp [Fate.outcome?, hr]
    | follows => simp [recordFate, Fate.outcome?]

theorem foldl_recordFate_txSerial (acc : MessageReturn) :
    (ps.foldl recordFate acc).txSerial =
      acc.txSerial ++ (ps.filter fun p => fateGroup p.2 == .serial).map Prod.fst := by
  induction ps generalizing acc with
  | nil => simp
  | cons p ps ih =>
    obtain ⟨tx, f⟩ := p
    rw [List.foldl_cons, ih, List.filter_cons]
    cases f with
    | ran o =>
      rw [recordFate, TurnOutcome.record_txSerial]
      by_cases hg : o.group = .serial <;> simp [fateGroup, hg]
    | follows => simp [recordFate, fateGroup]

theorem foldl_recordFate_txError (acc : MessageReturn) :
    ((ps.foldl recordFate acc).txError.filter (·.errorMsg.isSome)).map (·.tx) =
      (acc.txError.filter (·.errorMsg.isSome)).map (·.tx) ++
        (ps.filter fun p => fateGroup p.2 == .failed).map Prod.fst := by
  induction ps generalizing acc with
  | nil => simp
  | cons p ps ih =>
    obtain ⟨tx, f⟩ := p
    rw [List.foldl_cons, ih, List.filter_cons]
    cases f with
    | ran o =>
      rw [recordFate, TurnOutcome.record_txError]
      by_cases hg : o.group = .failed <;> simp [fateGroup, hg]
    | follows => simp [recordFate, fateGroup]

/-- Each element is in one group: the three together are a permutation of
the list. -/
theorem groups_perm :
    (((ps.filter fun p => fateGroup p.2 == .receipt).map Prod.fst ++
      (ps.filter fun p => fateGroup p.2 == .serial).map Prod.fst) ++
      (ps.filter fun p => fateGroup p.2 == .failed).map Prod.fst).Perm (ps.map Prod.fst) := by
  induction ps with
  | nil => rfl
  | cons p ps ih =>
    rw [List.map_cons]
    cases hg : fateGroup p.2 with
    | receipt =>
      simp only [List.filter_cons, hg, beq_self_eq_true, if_true, reduceCtorEq, beq_iff_eq, if_false,
        List.map_cons, List.cons_append]
      exact ih.cons _
    | serial =>
      simp only [List.filter_cons, hg, beq_self_eq_true, if_true, reduceCtorEq, beq_iff_eq, if_false,
        List.map_cons, List.append_assoc, List.cons_append] at ih ⊢
      exact List.perm_middle.trans (ih.cons _)
    | failed =>
      simp only [List.filter_cons, hg, beq_self_eq_true, if_true, reduceCtorEq, beq_iff_eq, if_false,
        List.map_cons] at ih ⊢
      exact List.perm_middle.trans (ih.cons _)

variable (txs : List Transaction) (fates : List (Fate TurnOutcome)) (hlen : fates.length = txs.length)
include hlen

theorem groupTxs_perm :
    (groupTxs txs fates .receipt ++ groupTxs txs fates .serial ++ groupTxs txs fates .failed).Perm txs := by
  have h := groups_perm (txs.zip fates)
  rwa [List.map_fst_zip (Nat.le_of_eq hlen.symm)] at h

theorem groupTxs_sublist (g : TxGroup) : (groupTxs txs fates g).Sublist txs := by
  have h := (List.filter_sublist (l := txs.zip fates) (p := fun p => fateGroup p.2 == g)).map Prod.fst
  rwa [List.map_fst_zip (Nat.le_of_eq hlen.symm)] at h

/-- The receipts are those of the outcomes of the turns, in order. -/
theorem newReceipt_foldl_recordFate (acc : MessageReturn) :
    ((txs.zip fates).foldl recordFate acc).newReceipt =
      acc.newReceipt ++ (fates.filterMap Fate.outcome?).filterMap TurnOutcome.receipt? := by
  have hsnd : (txs.zip fates).map Prod.snd = fates := List.map_snd_zip (Nat.le_of_eq hlen)
  rw [foldl_recordFate_newReceipt, List.filterMap_filterMap]
  conv_rhs => rw [← hsnd]
  rw [List.filterMap_map]
  rfl

end Groups

/-- A fate that puts its transaction on the serial list: it followed, or its
turn found it could not run in parallel. -/
theorem fate_of_serial {f : Fate TurnOutcome} (h : fateGroup f = .serial) :
    f = .follows ∨ ∃ o, f = .ran o ∧ o.defers = true := by
  cases f with
  | follows => exact Or.inl rfl
  | ran o =>
    cases o <;> first | exact Or.inr ⟨_, rfl, rfl⟩ | cases h

/-- Transactions of one sender have one key. -/
theorem map_threadKey_eq {env : Env} {a b : Option Transaction}
    (h : a.map (env.signer.sender env.block.crypto) = b.map (env.signer.sender env.block.crypto)) :
    a.map (threadKey env) = b.map (threadKey env) := by
  cases a with
  | none => cases b <;> simp_all
  | some x =>
    cases b with
    | none => simp at h
    | some y =>
      rw [Option.map_some, Option.map_some, Option.some.injEq] at h ⊢
      unfold threadKey senderOrZero
      rw [h]

/-- `TxThread`'s loop ends, and it is the thread's `txLoop`. Along every path
of it (every interleaving with other threads and every result of its steps)
what it returns comes from a scan of the list by sender with the turns'
outcomes in order: one fate a transaction; the receipts those of the turns;
the serial list and the errors with a cause the serial and failed groups, the
three groups sublists of the list that together are a permutation of it; and
the transactions of a sender right after one on the serial list follow it
without a turn. -/
theorem txThread_partitions (env : Env) (isParallel : Bool) (txs : List Transaction) (vm : Evm) :
    txForLoop env isParallel txs 0 ⟨[], [], [], [], []⟩ vm = txLoop env isParallel txs none ⟨[], [], [], [], []⟩ vm ∧
    (txForLoop env isParallel txs 0 ⟨[], [], [], [], []⟩ vm).Always fun r =>
      ∃ (out : Nat → TurnOutcome) (n : Nat) (fates : List (Fate TurnOutcome)),
        fates = scan (threadKey env) TurnOutcome.defers out txs none ∧
        fates.length = txs.length ∧
        fates.filterMap Fate.outcome? = (List.range n).map out ∧
        r.newReceipt = ((List.range n).map out).filterMap TurnOutcome.receipt? ∧
        r.txSerial = groupTxs txs fates .serial ∧
        (r.txError.filter (·.errorMsg.isSome)).map (·.tx) = groupTxs txs fates .failed ∧
        (groupTxs txs fates .receipt ++ groupTxs txs fates .serial ++ groupTxs txs fates .failed).Perm txs ∧
        (∀ g, (groupTxs txs fates g).Sublist txs) ∧
        ∀ (j k : Nat) (f : Fate TurnOutcome), fates[j]? = some f → fateGroup f = .serial → j < k →
          k < txs.length →
          (∀ i, j < i → i ≤ k → txs[i]?.map (env.signer.sender env.block.crypto) =
            txs[j]?.map (env.signer.sender env.block.crypto)) →
          fates[k]? = some .follows := by
  have hloop := txForLoop_eq_txLoop env isParallel txs 0 ⟨[], [], [], [], []⟩ vm
  rw [List.drop_zero] at hloop
  refine ⟨hloop, ?_⟩
  rw [hloop]
  refine (txLoop_always_scan env isParallel txs none _ vm).imp fun r hr => ?_
  obtain ⟨out, hr⟩ := hr
  rw [Option.map_none] at hr
  have hlen : (scan (threadKey env) TurnOutcome.defers out txs none).length = txs.length := length_scan out txs none
  obtain ⟨n, hruns⟩ := @runs_scan _ _ _ _ (threadKey env) TurnOutcome.defers out txs none
  refine ⟨out, n, _, rfl, hlen, hruns, ?_, ?_, ?_, groupTxs_perm txs _ hlen, groupTxs_sublist txs _ hlen, ?_⟩
  · rw [hr, newReceipt_foldl_recordFate txs _ hlen, hruns]
    rfl
  · rw [hr, foldl_recordFate_txSerial]
    rfl
  · rw [hr, foldl_recordFate_txError]
    rfl
  · intro j k f hj hf hjk hk hsender
    exact follows_after out txs none hj (fate_of_serial hf) hjk hk
      fun i hji hik => map_threadKey_eq (hsender i hji hik)

/-! ## The parallel phase -/

end Pangu
