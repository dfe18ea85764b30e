import Pangu.Evm.JumpTable
import Pangu.Types.Signer

/-!
# The conflict check of a parallel run

In a parallel group, each turn of `Run`'s loop collects what the operation is
about to touch and checks it against the state's access list; a conflict clears
`CanParallel`, and the loop stops after the operation. A call's operation then
sets `CanParallel` to what the callee returned, so the check's finding on the
call's own target is overwritten (`loop_call_overrides`), while any other
operation keeps it (`loop_conflict_stops`).

* `call_unchecked_target`: a parallel `Call` into a contract that calls an
  account outside the access list, which holds no code, returns
  `CanParallel = true` and no error.
* `run_frontier_nil_panics`: on the frontier table a run panics on the byte of
  `DELEGATECALL`, whose slot has no `executeAL`, in either group; and a run of
  the serial group, whose `TrueAccessList` `ApplyTransaction` leaves nil,
  panics at its first `SLOAD`, when the check adds the slot to that list.
-/

namespace Pangu

open Go

variable {jt : JumpTable} {ctx : Context} {fuel : Nat} {frame frame₁ : Frame} {vm vm₁ vm₂ : Evm}
  {canParallel : Bool} {res : Bytes}

/-- An operation of a parallel run that is neither a call nor a creation, whose
access the check finds in conflict: the loop stops after it with `CanParallel`
cleared. -/
theorem loop_conflict_stops {frame₂ : Frame} {vm₃ : Evm} {res₁ : Bytes} {err : Option EvmError}
    (hcall : (frame.contract.getOp frame.pc).isCall = false)
    (hcreate : (frame.contract.getOp frame.pc).isCreate = false)
    (hprep : prepare ctx (jt (frame.contract.getOp frame.pc)) frame vm = .ok (frame₁, vm₁, none))
    (hcheck : accessCheck (frame.contract.getOp frame.pc) frame₁ vm₁ true canParallel = .ok (vm₂, false))
    (hexec : execute (jt (frame.contract.getOp frame.pc)) ctx frame₁ vm₂ = .ok (frame₂, vm₃, res₁, err)) :
    loop jt ctx true (fuel + 1) frame vm canParallel res = .ok ⟨res₁, err, false, frame₂, vm₃⟩ := by
  rw [loop]
  simp only [hprep, hcheck, hcall, hcreate, hexec, lift_ok, ok_bind, Bool.true_or, if_true, if_false,
    Bool.false_eq_true, Bool.not_false, Bool.and_true, Bool.or_true]

/-- A call of a parallel run whose callee returns `CanParallel = true` and no
error: the loop goes on to the next operation with `CanParallel` set, whatever
the check found on the call. -/
theorem loop_call_overrides {r : ALResult}
    (hcall : (frame.contract.getOp frame.pc).isCall = true)
    (hprep : prepare ctx (jt (frame.contract.getOp frame.pc)) frame vm = .ok (frame₁, vm₁, none))
    (hcheck : accessCheck (frame.contract.getOp frame.pc) frame₁ vm₁ true canParallel = .ok (vm₂, false))
    (hal : executeAL jt ctx true fuel (jt (frame.contract.getOp frame.pc)) frame₁ vm₂ = .ok r)
    (herr : r.err = none) (hcp : r.canParallel = true) :
    loop jt ctx true (fuel + 1) frame vm canParallel res =
      loop jt ctx true fuel { r.frame with pc := r.frame.pc + 1 } r.vm true r.ret := by
  have hcreate := OpCode.isCreate_eq_false_of_isCall hcall
  rw [loop]
  simp only [hprep, hcheck, hcall, hcreate, hal, herr, hcp, lift_ok, ok_bind, Bool.true_or, if_true,
    if_false, Bool.false_eq_true, Option.isSome_none, Bool.not_true, Bool.and_false, Bool.or_false]

/-! ## Turns that panic -/

/-- A call whose entry in the table has no `executeAL`, reached with the
operation to be run: the loop calls a nil function. -/
theorem loop_nilExecuteAL_panics {isParallel canParallel₁ : Bool}
    (hcall : (frame.contract.getOp frame.pc).isCall = true)
    (hprep : prepare ctx (jt (frame.contract.getOp frame.pc)) frame vm = .ok (frame₁, vm₁, none))
    (hcheck : accessCheck (frame.contract.getOp frame.pc) frame₁ vm₁ isParallel canParallel = .ok (vm₂, canParallel₁))
    (hgo : (isParallel || canParallel₁) = true) (hnil : (jt (frame.contract.getOp frame.pc)).executeAL = none) :
    loop jt ctx isParallel (fuel + 2) frame vm canParallel res = lift nilDereference := by
  have hcreate := OpCode.isCreate_eq_false_of_isCall hcall
  rw [loop]
  simp only [hprep, hcheck, hcall, hcreate, hgo, lift_ok, ok_bind, if_true, Bool.false_eq_true, if_false]
  rw [executeAL]
  simp [hnil, lift, nilDereference, Go.panic]

/-- A check that panics ends the run with that panic. -/
theorem loop_accessCheck_panics {isParallel : Bool} {p : Panic}
    (hprep : prepare ctx (jt (frame.contract.getOp frame.pc)) frame vm = .ok (frame₁, vm₁, none))
    (hcheck : accessCheck (frame.contract.getOp frame.pc) frame₁ vm₁ isParallel canParallel = .error p) :
    loop jt ctx isParallel (fuel + 1) frame vm canParallel res = .error (.panic p) := by
  rw [loop]
  simp only [hprep, hcheck, lift_ok, ok_bind, lift_error, error_bind]

/-- An operation that neither calls nor creates, run without an error: the loop
goes on at the next `pc`. -/
theorem loop_plain_continues {isParallel canParallel₁ : Bool} {frame₂ : Frame} {vm₃ : Evm} {res₁ : Bytes}
    (hcall : (frame.contract.getOp frame.pc).isCall = false)
    (hcreate : (frame.contract.getOp frame.pc).isCreate = false)
    (hprep : prepare ctx (jt (frame.contract.getOp frame.pc)) frame vm = .ok (frame₁, vm₁, none))
    (hcheck : accessCheck (frame.contract.getOp frame.pc) frame₁ vm₁ isParallel canParallel = .ok (vm₂, canParallel₁))
    (hgo : (isParallel || canParallel₁) = true) (hkeep : (isParallel && !canParallel₁) = false)
    (hexec : execute (jt (frame.contract.getOp frame.pc)) ctx frame₁ vm₂ = .ok (frame₂, vm₃, res₁, none)) :
    loop jt ctx isParallel (fuel + 1) frame vm canParallel res =
      loop jt ctx isParallel fuel { frame₂ with pc := frame₂.pc + 1 } vm₃ canParallel₁ res₁ := by
  rw [loop]
  simp only [hprep, hcheck, hcall, hcreate, hgo, hkeep, hexec, lift_ok, ok_bind, if_true, Bool.false_eq_true,
    if_false, Option.isSome_none, Bool.false_or]

/-- An operation that touches nothing passes the check in either group and
leaves the EVM as it was. -/
theorem accessCheck_of_untouched {op : OpCode} {isParallel : Bool}
    (h : getTrueAccessList op frame.stack frame.contract.address AccessList.newAccessList =
      .ok AccessList.newAccessList) :
    accessCheck op frame vm isParallel canParallel = .ok (vm, canParallel) := by
  cases isParallel with
  | true =>
    simp only [accessCheck, h, ok_bind, if_true]
    rfl
  | false =>
    simp only [accessCheck, h, ok_bind, Bool.false_eq_true, if_false]
    rfl

/-- The charges of an operation with no dynamic gas, on a stack within its bounds
and with the constant gas at hand: only that gas is taken. -/
theorem prepare_of_static {operation : Operation} (hdyn : operation.dynamicGas = none)
    (hmin : operation.minStack ≤ frame.stack.length) (hmax : frame.stack.length ≤ operation.maxStack)
    (hgas : operation.constantGas ≤ frame.contract.gas) :
    prepare ctx operation frame vm =
      .ok ({ frame with contract := { frame.contract with gas := frame.contract.gas - operation.constantGas } }, vm,
        none) := by
  have hlt : ¬ frame.contract.gas < operation.constantGas := UInt64.not_lt.mpr hgas
  simp only [prepare, not_lt.mpr hmin, not_lt.mpr hmax, if_false, Contract.useGas, hlt, hdyn]

theorem frontierInstructionSet_delegateCall (others : OpCode → Operation) :
    frontierInstructionSet others OpCode.DELEGATECALL = undefinedOp := rfl

theorem frontierInstructionSet_push1 (others : OpCode → Operation) :
    frontierInstructionSet others OpCode.PUSH1 = execOp opPush1 GasFastestStep none 0 1 none := rfl

theorem frontierInstructionSet_sload (others : OpCode → Operation) :
    frontierInstructionSet others OpCode.SLOAD = execOp opSload SloadGasFrontier none 1 1 none := rfl

/-- A turn of `PUSH1` followed by the byte `k`, with its gas at hand and room on
the stack, in either group: `k` is pushed, the constant gas is charged, and the
loop goes on past the byte. -/
theorem loop_push1 (others : OpCode → Operation) {isParallel : Bool} {k : UInt8}
    (hop : frame.contract.getOp frame.pc = OpCode.PUSH1) (hk : frame.contract.code[(frame.pc + 1).toNat]? = some k)
    (hstack : frame.stack.length < StackLimit) (hgas : GasFastestStep ≤ frame.contract.gas) :
    loop (frontierInstructionSet others) ctx isParallel (fuel + 1) frame vm true res =
      loop (frontierInstructionSet others) ctx isParallel fuel
        { frame with
          pc := frame.pc + 1 + 1
          stack := (k.toNat : Word) :: frame.stack
          contract := { frame.contract with gas := frame.contract.gas - GasFastestStep } } vm true [] := by
  obtain ⟨hlt, hget⟩ := List.getElem?_eq_some_iff.mp hk
  have hbyte : frame.contract.code.getD (frame.pc + 1).toNat 0 = k := by
    rw [List.getD_eq_getElem?_getD, hk, Option.getD_some]
  let frame₁ : Frame := { frame with contract := { frame.contract with gas := frame.contract.gas - GasFastestStep } }
  have hprep : prepare ctx (frontierInstructionSet others (frame.contract.getOp frame.pc)) frame vm =
      .ok (frame₁, vm, none) := by
    rw [hop, frontierInstructionSet_push1]
    exact prepare_of_static rfl (by simp [execOp, minStack]) (by simp only [execOp, maxStack]; omega) hgas
  have hcheck : accessCheck (frame.contract.getOp frame.pc) frame₁ vm isParallel true = .ok (vm, true) := by
    rw [hop]
    exact accessCheck_of_untouched rfl
  have hexec : execute (frontierInstructionSet others (frame.contract.getOp frame.pc)) ctx frame₁ vm =
      .ok ({ frame₁ with pc := frame.pc + 1, stack := (k.toNat : Word) :: frame.stack }, vm, [], none) := by
    rw [hop, frontierInstructionSet_push1]
    simp only [execute, execOp, opPush1, frame₁, hlt, if_true, hbyte]
  rw [loop_plain_continues (by rw [hop]; rfl) (by rw [hop]; rfl) hprep hcheck (Bool.or_true _) (by simp) hexec]

/-- The serial loop from the start of a code `PUSH1 k; SLOAD`, with gas for
both and a nil `TrueAccessList`: the push touches nothing, and the check of the
load adds its slot to the nil list. -/
theorem loop_serial_sload_panics (others : OpCode → Operation) {k : UInt8} {rest : Bytes}
    (hpc : frame.pc = 0) (hstack : frame.stack = [])
    (hcode : frame.contract.code = OpCode.PUSH1 :: k :: OpCode.SLOAD :: rest)
    (hgas : 53 ≤ frame.contract.gas) (hnil : vm.trueAccessList = none) :
    loop (frontierInstructionSet others) ctx false (fuel + 2) frame vm true res = lift nilDereference := by
  have hop₀ : frame.contract.getOp frame.pc = OpCode.PUSH1 := by simp [Contract.getOp, hpc, hcode]
  rw [loop_push1 others (k := k) hop₀ (by simp [hpc, hcode]) (by simp [hstack, StackLimit])
    (UInt64.le_trans (show GasFastestStep ≤ 53 by decide) hgas), hstack]
  -- the second turn: `SLOAD`, whose slot the check adds to the nil list
  let frame₃ : Frame :=
    { frame with
      pc := frame.pc + 1 + 1
      stack := [(k.toNat : Word)]
      contract := { frame.contract with gas := frame.contract.gas - GasFastestStep } }
  have hop₁ : frame₃.contract.getOp frame₃.pc = OpCode.SLOAD := by
    simp [frame₃, Contract.getOp, hpc, hcode]
  let frame₄ : Frame :=
    { frame₃ with contract := { frame₃.contract with gas := frame₃.contract.gas - SloadGasFrontier } }
  have hprep₁ : prepare ctx (frontierInstructionSet others (frame₃.contract.getOp frame₃.pc)) frame₃ vm =
      .ok (frame₄, vm, none) := by
    rw [hop₁, frontierInstructionSet_sload]
    exact prepare_of_static rfl (by simp [frame₃, execOp, minStack])
      (by simp [frame₃, execOp, maxStack, StackLimit])
      (by simp only [execOp, SloadGasFrontier, frame₃, GasFastestStep]; grind)
  have hcheck₁ : accessCheck (frame₃.contract.getOp frame₃.pc) frame₄ vm false true = nilDereference := by
    rw [hop₁]
    simp only [accessCheck, hnil]
    rfl
  rw [loop_accessCheck_panics hprep₁ hcheck₁]
  rfl

/-! ## A call the check does not see -/

/-- The code at `0x100`: `CALL` of `0x20` with no gas, value or data, then `STOP`. -/
def callsTarget : Bytes := [0x60, 0, 0x60, 0, 0x60, 0, 0x60, 0, 0x60, 0, 0x60, 0x20, 0x60, 0, 0xf1, 0x00]

/-- An account with a balance and code, as the database holds it. -/
def fundedAccount (balance : Int) (code : Bytes) : StateObject := ⟨0, balance, 0, code, ∅, ∅, false, false⟩

/-- The sender `0x30`, the contract `0x100` and the account `0x20`, which has no
code, each with a balance; the access list is the empty one of `New`. -/
def callsTargetState : StateDB :=
  StateDB.new ((((∅ : GoMap Address StateObject).set 0x30 (fundedAccount 1 [])).set 0x100
    (fundedAccount 1 callsTarget)).set 0x20 (fundedAccount 1 []))

/-- A block with the homestead precompiles, the data copy at each. -/
def callsTargetContext : Context :=
  ⟨byteCrypto, 0, 0, 0, 0, none, 0x30, 0, precompiledContractsHomestead fun _ => dataCopy⟩

/-- The parallel `Call` of `0x100` returns `CanParallel = true` and no error,
after the inner call took its snapshot (revision ids 0 and 1 are used), though
the check at the `CALL` finds `0x20` outside the access list, which does not
hold it. -/
theorem call_unchecked_target :
    ((call (frontierInstructionSet fun _ => undefinedOp) callsTargetContext true 30 0x30 0x100 [] 100000 0
        ⟨callsTargetState, 0, 0, false, [], none⟩).toOption.map
      fun r => (r.canParallel, r.err.isNone, r.vm.statedb.nextRevisionId)) = some (true, true, 2) ∧
    ((getTrueAccessList OpCode.CALL [0, 0x20, 0, 0, 0, 0, 0] 0x100 AccessList.newAccessList).bind
      fun part => part.conflictDetection callsTargetState.getAccessList).toOption.map (·.1) = some false ∧
    callsTargetState.getAccessList.containsAddress 0x20 = false := by
  decide +kernel

/-! ## A run on the frontier table -/

/-- Two runs that panic, on the only table the interpreter builds. A code that
starts with the byte of `DELEGATECALL` panics in either group: the loop takes
it for a call and calls the `executeAL` of `opUndefined`, which is nil. A
serial run with the nil `TrueAccessList` of `ApplyTransaction` panics at its
first `SLOAD`. -/
theorem run_frontier_nil_panics (others : OpCode → Operation) (ctx : Context) (fuel : Nat) (input : Bytes)
    (readOnly : Bool) (vm : Evm) :
    (∀ (isParallel : Bool) (contract : Contract) (rest : Bytes), contract.code = OpCode.DELEGATECALL :: rest →
      run (frontierInstructionSet others) ctx isParallel (fuel + 3) contract input readOnly vm =
        lift nilDereference) ∧
    (∀ (contract : Contract) (k : UInt8) (rest : Bytes), contract.code = OpCode.PUSH1 :: k :: OpCode.SLOAD :: rest →
      53 ≤ contract.gas → vm.trueAccessList = none →
      run (frontierInstructionSet others) ctx false (fuel + 3) contract input readOnly vm = lift nilDereference) := by
  have hlen : ∀ {contract : Contract} {b : UInt8} {rest : Bytes}, contract.code = b :: rest →
      contract.code.length ≠ 0 := by
    intro contract b rest h
    simp [h]
  constructor
  · intro isParallel contract rest hcode
    have hop : ({ contract with input := input } : Contract).getOp 0 = OpCode.DELEGATECALL := by
      simp [Contract.getOp, hcode]
    rw [run]
    simp only [hlen hcode, if_false]
    rw [loop_nilExecuteAL_panics]
    · rfl
    · rw [hop]; rfl
    · rw [hop, frontierInstructionSet_delegateCall]
      exact prepare_of_static rfl (Nat.zero_le _) (Nat.zero_le _) UInt64.zero_le
    · exact accessCheck_of_untouched (by rw [hop]; rfl)
    · simp
    · rw [hop, frontierInstructionSet_delegateCall]; rfl
  · intro contract k rest hcode hgas hnil
    rw [run]
    simp only [hlen hcode, if_false]
    rw [loop_serial_sload_panics others rfl rfl]
    · rfl
    · exact hcode
    · exact hgas
    · exact hnil

/-- A contract at `0x100` with the gas of a transaction's default limit. -/
def frontierContract (code : Bytes) : Contract := ⟨0x30, 0x100, 0, code, 0, none, [], 21000⟩

/-- The byte `0xf4` alone, run in a parallel group, and `PUSH1 0; SLOAD` run
serially with a nil `TrueAccessList`: both panic. -/
theorem run_frontier_nil_panics_at_two_codes :
    (frontierContract [0xf4]).code = OpCode.DELEGATECALL :: [] ∧
      (frontierContract [0x60, 0, 0x54]).code = OpCode.PUSH1 :: 0 :: OpCode.SLOAD :: [] ∧
      53 ≤ (frontierContract [0x60, 0, 0x54]).gas ∧
      (⟨callsTargetState, 0, 0, false, [], none⟩ : Evm).trueAccessList = none ∧
      run (frontierInstructionSet fun _ => undefinedOp) callsTargetContext true 3 (frontierContract [0xf4]) [] false
          ⟨callsTargetState, 0, 0, false, [], none⟩ = lift nilDereference ∧
      run (frontierInstructionSet fun _ => undefinedOp) callsTargetContext false 3 (frontierContract [0x60, 0, 0x54]) []
          false ⟨callsTargetState, 0, 0, false, [], none⟩ = lift nilDereference :=
  have h := run_frontier_nil_panics (fun _ => undefinedOp) callsTargetContext 0 [] false
    ⟨callsTargetState, 0, 0, false, [], none⟩
  ⟨rfl, rfl, by decide, rfl, h.1 true (frontierContract [0xf4]) [] rfl,
    h.2 (frontierContract [0x60, 0, 0x54]) 0 [] rfl (by decide) rfl⟩

end Pangu
