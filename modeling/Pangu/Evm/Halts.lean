import Pangu.Evm.Conflict
import Pangu.State.Journal

/-!
# What a failed call or creation leaves

`EVM.Call` (`core/evm/evm.go`) returns `contract.Gas` after `Run`, whatever the
error: unlike the `Call` it is taken from, it does not set the gas to zero on
an error other than `ErrExecutionReverted`. A frame that halts on an invalid
opcode keeps the gas it has not spent, and `opCall` gives it back to the
caller.

`EVM.create` returns its size and code-storage errors after the run without
`RevertToSnapshot`: the account it made, the value moved to it and whatever the
init code wrote stay.

* `call_invalidOpCode_keeps_gas`: a call of code whose first opcode the
  frontier table leaves undefined fails with `ErrInvalidOpCode` and returns
  all the gas it was given;
* `create_codeStorage_keeps_account`: a creation whose init code returns one
  byte, with the gas to run it but not to store the byte, fails, and the new
  account is there with the value, taken from the caller.
-/

namespace Pangu

open Go

variable {jt : JumpTable} {ctx : Context} {fuel : Nat} {frame frame₁ : Frame} {vm vm₁ vm₂ : Evm}
  {canParallel : Bool} {res : Bytes}

/-! ## The undefined slots of the table -/

/-- Every opcode `frontierDefined` leaves out holds `opUndefined`. -/
theorem frontierInstructionSet_of_undefined (others : OpCode → Operation) {op : OpCode}
    (h : frontierDefined op = false) : frontierInstructionSet others op = undefinedOp := by
  have hnamed : op ∉ frontierNamed := by
    intro hop
    have hdef : ∀ x ∈ frontierNamed, frontierDefined x = true := by decide +kernel
    rw [hdef op hop] at h
    cases h
  -- the pushes, duplications and swaps lie in the defined range `0x60`..`0xa4`
  have hrange : op.toNat < 0x60 ∨ 0xa0 ≤ op.toNat := by
    refine (Nat.lt_or_ge op.toNat 0x60).imp_right fun hlo => Nat.le_of_not_lt fun hhi => ?_
    have hdef : frontierDefined op = true := by
      simp [frontierDefined, UInt8.le_iff_toNat_le, hlo, show op.toNat ≤ 0xa4 by omega]
    rw [h] at hdef
    cases hdef
  rw [frontierInstructionSet_of_unnamed others hnamed hrange, h]
  rfl

/-- On an empty stack no operation touches anything. -/
theorem getTrueAccessList_nil (op : OpCode) (self : Address) (al : AccessList) :
    getTrueAccessList op [] self al = .ok al := by
  simp [getTrueAccessList]

/-! ## Turns that end the loop -/

/-- An operation that neither calls nor creates and whose `execute` returns an
error: the loop stops with it. -/
theorem loop_plain_halts {isParallel canParallel₁ : Bool} {frame₂ : Frame} {vm₃ : Evm} {res₁ : Bytes}
    {e : EvmError}
    (hcall : (frame.contract.getOp frame.pc).isCall = false)
    (hcreate : (frame.contract.getOp frame.pc).isCreate = false)
    (hprep : prepare ctx (jt (frame.contract.getOp frame.pc)) frame vm = .ok (frame₁, vm₁, none))
    (hcheck : accessCheck (frame.contract.getOp frame.pc) frame₁ vm₁ isParallel canParallel = .ok (vm₂, canParallel₁))
    (hgo : (isParallel || canParallel₁) = true)
    (hexec : execute (jt (frame.contract.getOp frame.pc)) ctx frame₁ vm₂ = .ok (frame₂, vm₃, res₁, some e)) :
    loop jt ctx isParallel (fuel + 1) frame vm canParallel res = .ok ⟨res₁, some e, canParallel₁, frame₂, vm₃⟩ := by
  rw [loop]
  simp only [hprep, hcheck, hcall, hcreate, hgo, hexec, lift_ok, ok_bind, if_true, Bool.false_eq_true,
    if_false, Option.isSome_some, Bool.true_or]

/-- A turn on an opcode the table leaves undefined, on an empty stack: the
loop stops with `ErrInvalidOpCode`, and the frame keeps all its gas. -/
theorem loop_undefined_halts (others : OpCode → Operation) {isParallel : Bool} {b : OpCode}
    (hcode : frame.contract.code[frame.pc.toNat]? = some b) (hb : frontierDefined b = false)
    (hcall : b.isCall = false) (hcreate : b.isCreate = false) (hstack : frame.stack = []) :
    loop (frontierInstructionSet others) ctx isParallel (fuel + 1) frame vm true res =
      .ok ⟨[], some (.invalidOpCode b), true, frame, vm⟩ := by
  obtain ⟨hlt, hget⟩ := List.getElem?_eq_some_iff.mp hcode
  have hop : frame.contract.getOp frame.pc = b := by
    rw [Contract.getOp, dif_pos hlt, List.get_eq_getElem, hget]
  have hprep : prepare ctx (frontierInstructionSet others (frame.contract.getOp frame.pc)) frame vm =
      .ok (frame, vm, none) := by
    rw [hop, frontierInstructionSet_of_undefined others hb,
      prepare_of_static rfl (Nat.zero_le _) (by rw [hstack]; exact Nat.zero_le _) UInt64.zero_le]
    show Except.ok ({ frame with contract := { frame.contract with gas := frame.contract.gas - 0 } }, vm, none) = _
    rw [UInt64.sub_zero]
  have hcheck : accessCheck (frame.contract.getOp frame.pc) frame vm isParallel true = .ok (vm, true) :=
    accessCheck_of_untouched (by rw [hstack]; exact getTrueAccessList_nil _ _ _)
  have hexec : execute (frontierInstructionSet others (frame.contract.getOp frame.pc)) ctx frame vm =
      .ok (frame, vm, [], some (.invalidOpCode b)) := by
    rw [hop, frontierInstructionSet_of_undefined others hb]
    simp only [execute, undefinedOp, opUndefined, sliceIndex_of_lt _ hlt, List.get_eq_getElem, hget, ok_bind]
  exact loop_plain_halts (by rw [hop]; exact hcall) (by rw [hop]; exact hcreate) hprep hcheck
    (Bool.or_true _) hexec

/-- A run of code that starts with an undefined opcode fails with
`ErrInvalidOpCode`, with the contract's gas untouched and the state as it was. -/
theorem run_undefined_halts (others : OpCode → Operation) {isParallel readOnly : Bool} {contract : Contract}
    {input : Bytes} {b : OpCode} {rest : Bytes} (hcode : contract.code = b :: rest) (hb : frontierDefined b = false)
    (hcall : b.isCall = false) (hcreate : b.isCreate = false) :
    ∃ r, run (frontierInstructionSet others) ctx isParallel (fuel + 2) contract input readOnly vm = .ok r ∧
      r.err = some (.invalidOpCode b) ∧ r.contract = { contract with input := input } ∧ r.vm.statedb = vm.statedb := by
  rw [run, if_neg (by simp [hcode])]
  simp only
  rw [loop_undefined_halts others (by simp [hcode]) hb hcall hcreate rfl, ok_bind]
  exact ⟨_, rfl, by simp, rfl, rfl⟩

/-! ## A call that halts on an invalid opcode -/

/-- `Call` of an account whose code starts with an opcode the frontier table
leaves undefined, from any reachable state, at any depth the call is allowed,
with any value the caller can pay: the callee halts with `ErrInvalidOpCode`,
and the call returns all the gas it was given instead of none. -/
theorem call_invalidOpCode_keeps_gas (others : OpCode → Operation) (ctx : Context) (isParallel : Bool) (fuel : Nat)
    (caller addr : Address) (input : Bytes) (gas : UInt64) (value : Int) (vm : Evm) {b : OpCode} {rest : Bytes}
    (hcode : vm.statedb.getCode addr = b :: rest) (hb : frontierDefined b = false) (hcall : b.isCall = false)
    (hcreate : b.isCreate = false) (hdepth : vm.tooDeep = false)
    (hfunds : value ≠ 0 → canTransfer vm.statedb caller value = true) (hpre : ctx.precompiles addr = none)
    (hreach : StateDB.Reachable ctx.crypto vm.statedb) :
    ∃ r, call (frontierInstructionSet others) ctx isParallel (fuel + 3) caller addr input gas value vm = .ok r ∧
      r.err = some (.invalidOpCode b) ∧ r.gasRemain = gas := by
  have hpay : (value != 0 && !canTransfer vm.statedb caller value) = false := by
    by_cases hz : value = 0
    · simp [hz]
    · simp [hfunds hz]
  have hsnap : vm.statedb.snapshot.1.getCode addr = b :: rest := hcode
  have hexist : vm.statedb.snapshot.1.exist addr = true :=
    StateDB.exist_of_getCode_ne_nil (by rw [hsnap]; exact List.cons_ne_nil _ _)
  have hdb : (transfer ctx.crypto vm.statedb.snapshot.1 caller addr value).getCode addr = b :: rest := by
    simp only [transfer, StateDB.getCode_addBalance, StateDB.getCode_subBalance]
    exact hcode
  let contract := (Contract.new caller addr value gas).setCallCode addr
    ((transfer ctx.crypto vm.statedb.snapshot.1 caller addr value).getCodeHash addr) (b :: rest)
  have hrun : ∃ r, run (frontierInstructionSet others) ctx isParallel (fuel + 2) contract input false
      { vm with statedb := transfer ctx.crypto vm.statedb.snapshot.1 caller addr value } = .ok r ∧
      r.err = some (.invalidOpCode b) ∧ r.contract = { contract with input := input } ∧
      r.vm.statedb = transfer ctx.crypto vm.statedb.snapshot.1 caller addr value :=
    run_undefined_halts others rfl hb hcall hcreate
  obtain ⟨r, hr, herr, hcon, hstate⟩ := hrun
  have hgas : r.contract.gas = gas := by rw [hcon]; rfl
  have hrevert : ∃ u, (transfer ctx.crypto vm.statedb.snapshot.1 caller addr value).revertToSnapshot
      vm.statedb.snapshot.2 = .ok u ∧ u.view = vm.statedb.view :=
    hreach.revertToSnapshot (.mutate (.addBalance addr value) (.mutate (.subBalance caller value) (.nil _) rfl) rfl)
  obtain ⟨u, hu, -⟩ := hrevert
  refine ⟨⟨r.ret, r.contract.gas, r.canParallel, r.err, { r.vm with statedb := u }⟩, ?_, herr, hgas⟩
  rw [call]
  simp only [hdepth, hpay, hexist, hpre, hdb, Bool.false_eq_true, if_false, if_true, Bool.not_true,
    Bool.false_and, List.length_cons, Nat.add_one_ne_zero]
  rw [hr, ok_bind, herr, revertOnError, hstate, hu, lift_ok, ok_bind, ok_bind]

/-- The sender `0x30`, with a balance, and at `0x100` the code `0x0c`, a byte
the frontier table leaves undefined. -/
def invalidCodeState : StateDB :=
  StateDB.new (((∅ : GoMap Address StateObject).set 0x30 (fundedAccount 1 [])).set 0x100 (fundedAccount 0 [0x0c]))

/-- A parallel call of `0x100` with 100000 gas and no value gets all 100000
back. -/
theorem call_invalidOpCode_keeps_gas_at_0x0c :
    invalidCodeState.getCode 0x100 = 0x0c :: [] ∧ frontierDefined 0x0c = false ∧ OpCode.isCall 0x0c = false ∧
      OpCode.isCreate 0x0c = false ∧ (⟨invalidCodeState, 0, 0, false, [], none⟩ : Evm).tooDeep = false ∧
      ((0 : Int) ≠ 0 → canTransfer invalidCodeState 0x30 0 = true) ∧ callsTargetContext.precompiles 0x100 = none ∧
      StateDB.Reachable callsTargetContext.crypto invalidCodeState ∧
      ∃ r, call (frontierInstructionSet fun _ => undefinedOp) callsTargetContext true (0 + 3) 0x30 0x100 [] 100000 0
          ⟨invalidCodeState, 0, 0, false, [], none⟩ = .ok r ∧
        r.err = some (.invalidOpCode 0x0c) ∧ r.gasRemain = 100000 :=
  ⟨by decide, by decide, by decide, by decide, by decide, fun h => absurd rfl h, rfl, .new _,
    call_invalidOpCode_keeps_gas _ _ _ _ _ _ _ _ _ _ (show invalidCodeState.getCode 0x100 = 0x0c :: [] by decide)
      (by decide) (by decide) (by decide) (by decide) (fun h => absurd rfl h) rfl (.new _)⟩

/-! ## A creation that cannot store its code -/

theorem frontierInstructionSet_return (others : OpCode → Operation) :
    frontierInstructionSet others OpCode.RETURN = execOp opReturn 0 (some gasReturn) 2 0 (some memoryReturn) := rfl

/-- What is left of the gas after three charges of three. -/
theorem toNat_sub_three_three_three {g : UInt64} (h : 9 ≤ g) : (g - 3 - 3 - 3).toNat = g.toNat - 9 := by
  have h9 : 9 ≤ g.toNat := UInt64.le_iff_toNat_le.mp h
  have h3 : (3 : UInt64).toNat = 3 := rfl
  have h₁ : (g - 3).toNat = g.toNat - 3 :=
    UInt64.toNat_sub_of_le _ _ (UInt64.le_iff_toNat_le.mpr (by rw [h3]; omega))
  have h₂ : (g - 3 - 3).toNat = g.toNat - 6 := by
    rw [UInt64.toNat_sub_of_le _ _ (UInt64.le_iff_toNat_le.mpr (by rw [h₁, h3]; omega)), h₁, h3]
    omega
  rw [UInt64.toNat_sub_of_le _ _ (UInt64.le_iff_toNat_le.mpr (by rw [h₂, h3]; omega)), h₂, h3]
  omega

/-- `PUSH1 1; PUSH1 0; RETURN`: init code that returns one zero byte of
memory, for nine gas. -/
def returnOneByte : Bytes := [0x60, 1, 0x60, 0, 0xf3]

/-- The loop from the start of `returnOneByte` with the gas to run it: two
pushes, then the `RETURN` of one byte, which grows the memory to a word. -/
theorem loop_returnOneByte (others : OpCode → Operation) {isParallel : Bool} (hpc : frame.pc = 0)
    (hstack : frame.stack = []) (hmem : frame.memory = Memory.new) (hcode : frame.contract.code = returnOneByte)
    (hgas : 9 ≤ frame.contract.gas) :
    ∃ frame', loop (frontierInstructionSet others) ctx isParallel (fuel + 3) frame vm true res =
      .ok ⟨[0], some .stopToken, true, frame', vm⟩ ∧ frame'.contract.gas.toNat = frame.contract.gas.toNat - 9 := by
  have hop₀ : frame.contract.getOp frame.pc = OpCode.PUSH1 := by simp [Contract.getOp, hpc, hcode, returnOneByte]; rfl
  rw [loop_push1 others (k := 1) hop₀ (by simp [hpc, hcode, returnOneByte]) (by simp [hstack, StackLimit])
    (UInt64.le_trans (show GasFastestStep ≤ 9 by decide) hgas)]
  have hop₁ : frame.contract.getOp (frame.pc + 1 + 1) = OpCode.PUSH1 := by
    simp [Contract.getOp, hpc, hcode, returnOneByte]; rfl
  rw [loop_push1 others (k := 0) hop₁ (by simp [hpc, hcode, returnOneByte]) (by simp [hstack, StackLimit])
    (by simp only [GasFastestStep]; grind), hstack]
  -- the last turn: `RETURN` of one byte at offset zero, paid for a word of memory
  let frame₆ : Frame :=
    { frame with
      pc := frame.pc + 1 + 1 + 1 + 1
      stack := [0, 1]
      contract := { frame.contract with gas := frame.contract.gas - GasFastestStep - GasFastestStep } }
  have hop₂ : frame₆.contract.getOp frame₆.pc = OpCode.RETURN := by
    simp [frame₆, Contract.getOp, hpc, hcode, returnOneByte]; rfl
  let frame₇ : Frame :=
    { frame₆ with
      contract := { frame₆.contract with gas := frame₆.contract.gas - 0 - 3 }
      memory := ⟨List.replicate 32 0, 3⟩ }
  have hleft : ¬ frame.contract.gas - GasFastestStep - GasFastestStep < 3 := by
    simp only [GasFastestStep]
    grind
  have hprep₂ : prepare ctx (frontierInstructionSet others (frame₆.contract.getOp frame₆.pc)) frame₆ vm =
      .ok (frame₇, vm, none) := by
    rw [hop₂, frontierInstructionSet_return]
    simp [prepare, execOp, minStack, maxStack, StackLimit, memoryReturn, calcMemSize64, Stack.back, evmToWordSize,
      toWordSize, maxUint64, gasReturn, pureMemoryGascost, memoryGasCost, Contract.useGas, hleft, frame₇, frame₆,
      hmem, Memory.new, Memory.resize, Memory.len, MemoryGas, QuadCoeffDiv]
  have hcheck₂ : accessCheck (frame₆.contract.getOp frame₆.pc) frame₇ vm isParallel true = .ok (vm, true) := by
    rw [hop₂]
    exact accessCheck_of_untouched rfl
  have hexec₂ : execute (frontierInstructionSet others (frame₆.contract.getOp frame₆.pc)) ctx frame₇ vm =
      .ok ({ frame₇ with stack := [] }, vm, [0], some .stopToken) := by
    rw [hop₂, frontierInstructionSet_return]
    simp [execute, execOp, opReturn, Stack.pop, Memory.getPtr, Memory.len, Word.toUInt64, frame₇, frame₆]
  refine ⟨_, loop_plain_halts (by rw [hop₂]; rfl) (by rw [hop₂]; rfl) hprep₂ hcheck₂ (Bool.or_true _) hexec₂, ?_⟩
  simp only [frame₇, frame₆, GasFastestStep, UInt64.sub_zero]
  exact toNat_sub_three_three_three hgas

/-- A run of `returnOneByte` with nine gas or more returns its byte with no
error, nine gas spent and the state as it was. -/
theorem run_returnOneByte (others : OpCode → Operation) {isParallel readOnly : Bool} {contract : Contract}
    (hcode : contract.code = returnOneByte) (hgas : 9 ≤ contract.gas) :
    ∃ r, run (frontierInstructionSet others) ctx isParallel (fuel + 4) contract [] readOnly vm = .ok r ∧
      r.ret = [0] ∧ r.err = none ∧ r.contract.gas.toNat = contract.gas.toNat - 9 ∧ r.vm.statedb = vm.statedb := by
  rw [run, if_neg (by simp [hcode, returnOneByte])]
  simp only
  obtain ⟨frame', hloop, hgas'⟩ := @loop_returnOneByte ctx fuel ⟨0, Memory.new, [], { contract with input := [] }⟩
    { vm with depth := vm.depth + 1, readOnly := vm.readOnly || (readOnly && !vm.readOnly) } [] others isParallel
    rfl rfl rfl hcode hgas
  rw [hloop, ok_bind]
  exact ⟨_, rfl, rfl, by simp, hgas', rfl⟩

/-- An address without an object has nonce 0 and code hash 0: no collision. -/
theorem noCollision_of_getStateObject_none (crypto : Crypto) {s : StateDB} {a : Address}
    (h : s.getStateObject a = none) :
    (s.getNonce a != 0 || (s.getCodeHash a != 0 && s.getCodeHash a != emptyCodeHash crypto)) = false := by
  have hn : s.getNonce a = 0 := by simp only [StateDB.getNonce, h, Option.map_none, Option.getD_none]
  have hc : s.getCodeHash a = 0 := by simp only [StateDB.getCodeHash, h, Option.map_none, Option.getD_none]
  rw [hn, hc]
  rfl

/-- An account `CreateAccount` makes at an address without an object, paid the
value by `Transfer` from another account: it exists and holds the value, and
the caller has paid it. -/
theorem transfer_createAccount_fresh (crypto : Crypto) {s : StateDB} {caller address : Address} (value : Int)
    (hobj : s.getStateObject address = none) (hne : caller ≠ address) :
    (transfer crypto (s.createAccount crypto address) caller address value).exist address = true ∧
      (transfer crypto (s.createAccount crypto address) caller address value).getBalance address = value ∧
      (transfer crypto (s.createAccount crypto address) caller address value).getBalance caller =
        s.getBalance caller - value := by
  have hzero : s.getBalance address = 0 := by
    simp only [StateDB.getBalance, hobj, Option.map_none, Option.getD_none]
  refine ⟨?_, ?_, ?_⟩
  · rw [transfer]
    exact StateDB.exist_addBalance _ _ _ _ (StateDB.exist_subBalance _ _ _ _ (StateDB.exist_createAccount_self _ _ _))
  · rw [transfer, StateDB.getBalance_addBalance_self, StateDB.getBalance_subBalance_ne _ _ _ hne.symm,
      StateDB.getBalance_createAccount_self, hzero, Int.zero_add]
  · rw [transfer, StateDB.getBalance_addBalance_ne _ _ _ hne, StateDB.getBalance_subBalance_self,
      StateDB.getBalance_createAccount_ne _ _ hne]

/-- `create` of `returnOneByte` at a new address, from any state, at any depth
allowed, with a value the caller has and a nonce that does not overflow, with
nine gas or more but less than the 200 it costs to store the byte: it fails
with "contract creation code storage out of gas" and returns the state as the
run left it. The account is there, with the value, and the caller has paid it. -/
theorem create_codeStorage_keeps_account (others : OpCode → Operation) (ctx : Context) (isParallel : Bool)
    (fuel : Nat) (caller address : Address) (codeHash : Hash) (gas : UInt64) (value : Int) (vm : Evm)
    (hdepth : vm.tooDeep = false) (hfunds : canTransfer vm.statedb caller value = true)
    (hnonce : (vm.statedb.getNonce caller).toNat + 1 < 2 ^ 64) (hnew : vm.statedb.exist address = false)
    (hne : caller ≠ address) (hgas : 9 ≤ gas) (hshort : gas < 209) :
    ∃ r, create (frontierInstructionSet others) ctx isParallel (fuel + 5) caller returnOneByte codeHash gas value
        address vm = .ok r ∧
      r.err = some (.other "contract creation code storage out of gas") ∧ r.vm.statedb.exist address = true ∧
      r.vm.statedb.getBalance address = value ∧
      r.vm.statedb.getBalance caller = vm.statedb.getBalance caller - value := by
  have hnone : vm.statedb.getStateObject address = none := Option.not_isSome_iff_eq_none.mp (by
    rw [← StateDB.exist]; simp [hnew])
  have hover : ¬ vm.statedb.getNonce caller + 1 < vm.statedb.getNonce caller := by
    have h1 : (1 : UInt64).toNat = 1 := rfl
    rw [UInt64.lt_iff_toNat_lt, UInt64.toNat_add, h1, Nat.mod_eq_of_lt hnonce]
    omega
  rw [create]
  simp only [hdepth, hfunds, hover, Bool.false_eq_true, if_false, Bool.not_true]
  set db := vm.statedb.setNonce ctx.crypto caller (vm.statedb.getNonce caller + 1) with hdb
  have hobj : db.getStateObject address = none := by
    rw [hdb, StateDB.getStateObject_setNonce_ne _ _ _ hne.symm, hnone]
  set db' := transfer ctx.crypto (db.snapshot.1.createAccount ctx.crypto address) caller address value
  obtain ⟨r, hr, hret, herr, hleft, hstate⟩ : ∃ r, run (frontierInstructionSet others) ctx isParallel (fuel + 4)
      { Contract.new caller address value gas with code := returnOneByte, codeHash := codeHash, codeAddr := some address }
      [] false { vm with statedb := db' } = .ok r ∧
      r.ret = [0] ∧ r.err = none ∧ r.contract.gas.toNat = gas.toNat - 9 ∧ r.vm.statedb = db' :=
    run_returnOneByte others rfl hgas
  have hshort' : r.contract.gas < (List.length [(0 : UInt8)]).toUInt64 * CreateDataGas := by
    have h209 : (209 : UInt64).toNat = 209 := rfl
    have h200 : ((List.length [(0 : UInt8)]).toUInt64 * CreateDataGas).toNat = 200 := rfl
    have h := UInt64.lt_iff_toNat_lt.mp hshort
    rw [h209] at h
    rw [UInt64.lt_iff_toNat_lt, hleft, h200]
    omega
  simp only [noCollision_of_getStateObject_none ctx.crypto hobj, Bool.false_eq_true, if_false]
  rw [hr, ok_bind, herr]
  simp only [hret, Contract.useGas, hshort', if_true]
  rw [if_neg (by decide)]
  obtain ⟨hexist, hvalue, hpaid⟩ := transfer_createAccount_fresh ctx.crypto value (s := db.snapshot.1) hobj hne
  refine ⟨_, rfl, rfl, ?_, ?_, ?_⟩
  · rw [hstate]
    exact hexist
  · rw [hstate]
    exact hvalue
  · rw [hstate, hpaid]
    show db.getBalance caller - value = _
    rw [hdb, StateDB.getBalance_setNonce]

/-- `0x30` creates at the new address `0x40` with 100 gas and a value of one. -/
theorem create_codeStorage_keeps_account_at_0x40 :
    (⟨callsTargetState, 0, 0, false, [], none⟩ : Evm).tooDeep = false ∧ canTransfer callsTargetState 0x30 1 = true ∧
      (callsTargetState.getNonce 0x30).toNat + 1 < 2 ^ 64 ∧ callsTargetState.exist 0x40 = false ∧
      (0x30 : Address) ≠ 0x40 ∧ (9 : UInt64) ≤ 100 ∧ (100 : UInt64) < 209 ∧
      ∃ r, create (frontierInstructionSet fun _ => undefinedOp) callsTargetContext true (0 + 5) 0x30 returnOneByte 0
          100 1 0x40 ⟨callsTargetState, 0, 0, false, [], none⟩ = .ok r ∧
        r.err = some (.other "contract creation code storage out of gas") ∧ r.vm.statedb.exist 0x40 = true ∧
        r.vm.statedb.getBalance 0x40 = 1 ∧ r.vm.statedb.getBalance 0x30 = callsTargetState.getBalance 0x30 - 1 :=
  ⟨by decide, by decide, by decide, by decide, by decide, by decide, by decide,
    create_codeStorage_keeps_account _ _ _ _ _ _ _ _ _ _ (by decide) (by decide) (by decide) (by decide) (by decide)
      (by decide) (by decide)⟩

end Pangu
