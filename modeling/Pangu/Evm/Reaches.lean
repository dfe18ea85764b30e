import Pangu.Evm.Gas

/-!
# The states the loop of Run passes through, and the serial group after a creation

The states the loop of `Run` passes through are `LoopReaches`: one step is a
turn whose charges pass and after which the loop goes on, and the loop from a
state is the loop from every state it reaches (`LoopReaches.loop_eq`).

A turn runs its operation only while `IsParallel || CanParallel`, and in the
serial group a `CREATE` clears `CanParallel` for good: the access check never
sets it (`accessCheck_canParallel`), and a call, which could, no longer runs.
Every later turn is still charged and moves `pc` on, but runs nothing but a
further creation; past the end of the code `GetOp` reads `STOP`, whose entry
costs nothing. On the frontier table such a loop therefore ends only with an
error of the charges or of a creation, never with `errStopToken`
(`loop_fails_after_cleared`), and a serial `Run` whose loop has cleared
`CanParallel` never returns without an error (`run_fails_after_cleared`).
-/

namespace Pangu

open Go

/-! ## The states the loop passes through -/

/-- The state of the loop of `Run` between two turns: the frame, the EVM,
`CanParallel` and the last operation's output. -/
structure LoopState where
  frame : Frame
  vm : Evm
  canParallel : Bool
  res : Bytes

/-- Where a turn that goes on leaves the loop: its outcome, at the next `pc`. -/
def LoopState.next (t : Frame × Evm × Bytes × Option EvmError × Bool) : LoopState :=
  ⟨{ t.1 with pc := t.1.pc + 1 }, t.2.1, t.2.2.2.2, t.2.2.1⟩

/-- The states the loop, at fuel `n` in state `s`, comes to at fuel `m`: each
step is a turn whose charges pass and after which the loop goes on. -/
inductive LoopReaches (jt : JumpTable) (ctx : Context) (isParallel : Bool) :
    Nat → LoopState → Nat → LoopState → Prop
  | refl (n : Nat) (s : LoopState) : LoopReaches jt ctx isParallel n s n s
  | step {n m : Nat} {s t : LoopState} {frame₁ : Frame} {vm₁ vm₂ : Evm} {canParallel₂ : Bool}
      {turn : Frame × Evm × Bytes × Option EvmError × Bool}
      (hprepare : prepare ctx (jt (s.frame.contract.getOp s.frame.pc)) s.frame s.vm = .ok (frame₁, vm₁, none))
      (hcheck : accessCheck (s.frame.contract.getOp s.frame.pc) frame₁ vm₁ isParallel s.canParallel =
        .ok (vm₂, canParallel₂))
      (hturn : LoopTurn jt ctx isParallel n (s.frame.contract.getOp s.frame.pc) frame₁ vm₂ canParallel₂ s.res
        turn)
      (hgo : (turn.2.2.2.1.isSome || (isParallel && !turn.2.2.2.2)) = false)
      (hrest : LoopReaches jt ctx isParallel n (LoopState.next turn) m t) :
      LoopReaches jt ctx isParallel (n + 1) s m t

section Reaches

variable {jt : JumpTable} {ctx : Context} {isParallel : Bool}

/-- A turn that goes on: the loop is the loop from the state it leaves. The
converse of `loop_succ_inv`, one case for each way the turn ran. -/
theorem loop_succ_of_turn {n : Nat} {s : LoopState} {frame₁ : Frame} {vm₁ vm₂ : Evm} {canParallel₂ : Bool}
    {turn : Frame × Evm × Bytes × Option EvmError × Bool}
    (hprepare : prepare ctx (jt (s.frame.contract.getOp s.frame.pc)) s.frame s.vm = .ok (frame₁, vm₁, none))
    (hcheck : accessCheck (s.frame.contract.getOp s.frame.pc) frame₁ vm₁ isParallel s.canParallel =
      .ok (vm₂, canParallel₂))
    (hturn : LoopTurn jt ctx isParallel n (s.frame.contract.getOp s.frame.pc) frame₁ vm₂ canParallel₂ s.res turn)
    (hgo : (turn.2.2.2.1.isSome || (isParallel && !turn.2.2.2.2)) = false) :
    loop jt ctx isParallel (n + 1) s.frame s.vm s.canParallel s.res =
      loop jt ctx isParallel n (LoopState.next turn).frame (LoopState.next turn).vm
        (LoopState.next turn).canParallel (LoopState.next turn).res := by
  rw [loop]
  generalize s.frame.contract.getOp s.frame.pc = op at hprepare hcheck hturn ⊢
  cases hturn with
  | parallelCreate hcreate hpar hexec =>
    simp [hpar] at hgo
  | serialCreate hcreate hpar hal =>
    subst hpar
    simp only [hprepare, hcheck, hcreate, hal, lift_ok, ok_bind, if_true, Bool.or_false, hgo,
      Bool.false_eq_true, if_false]
    rfl
  | call hcreate hgo' hcall hal =>
    simp only at hgo
    simp only [hprepare, hcheck, hcreate, hcall, hgo', hal, lift_ok, ok_bind, if_true, hgo, Bool.false_eq_true,
      if_false]
    rfl
  | plain hcreate hgo' hcall hexec =>
    simp only at hgo
    simp only [hprepare, hcheck, hcreate, hcall, hgo', hexec, lift_ok, ok_bind, if_true, hgo, Bool.false_eq_true,
      if_false]
    rfl
  | skip hcreate hgo' =>
    simp only at hgo
    simp only [hprepare, hcheck, hcreate, hgo', lift_ok, ok_bind, hgo, Bool.false_eq_true, if_false]
    rfl

/-- The loop from a state is the loop from every state it reaches. -/
theorem LoopReaches.loop_eq {n m : Nat} {s t : LoopState} (h : LoopReaches jt ctx isParallel n s m t) :
    loop jt ctx isParallel n s.frame s.vm s.canParallel s.res =
      loop jt ctx isParallel m t.frame t.vm t.canParallel t.res := by
  induction h with
  | refl => rfl
  | step hprepare hcheck hturn hgo _ ih => exact (loop_succ_of_turn hprepare hcheck hturn hgo).trans ih


/-! ## Turns computed -/

/-- An operation's turn as the loop computes it once its charges and access
check pass: the cases of `LoopTurn`, as a function that can be run. -/
def turnOutcome (jt : JumpTable) (ctx : Context) (isParallel : Bool) (fuel : Nat) (op : OpCode) (frame : Frame)
    (vm : Evm) (canParallel : Bool) (res : Bytes) : GoF (Frame × Evm × Bytes × Option EvmError × Bool) :=
  if op.isCreate then
    if isParallel then do
      let (frame', vm', res', err) ← lift (execute (jt op) ctx frame vm)
      .ok (frame', vm', res', err, false)
    else do
      let r ← executeAL jt ctx isParallel fuel (jt op) frame vm
      .ok (r.frame, r.vm, r.ret, r.err, false)
  else if isParallel || canParallel then
    if op.isCall then do
      let r ← executeAL jt ctx isParallel fuel (jt op) frame vm
      .ok (r.frame, r.vm, r.ret, r.err, r.canParallel)
    else do
      let (frame', vm', res', err) ← lift (execute (jt op) ctx frame vm)
      .ok (frame', vm', res', err, canParallel)
  else .ok (frame, vm, res, none, canParallel)

theorem loopTurn_of_turnOutcome {fuel : Nat} {op : OpCode} {frame : Frame} {vm : Evm} {canParallel : Bool}
    {res : Bytes} {t : Frame × Evm × Bytes × Option EvmError × Bool}
    (h : turnOutcome jt ctx isParallel fuel op frame vm canParallel res = .ok t) :
    LoopTurn jt ctx isParallel fuel op frame vm canParallel res t := by
  unfold turnOutcome at h
  split at h
  · next hcr =>
    split at h
    · next hpar =>
      obtain ⟨⟨frame', vm', res', err⟩, hx, h⟩ := bind_eq_ok h
      cases h
      exact .parallelCreate hcr hpar (lift_eq_ok hx)
    · next hpar =>
      obtain ⟨r, hx, h⟩ := bind_eq_ok h
      cases h
      exact .serialCreate hcr (Bool.eq_false_iff.mpr hpar) hx
  · next hcr =>
    split at h
    · next hgo =>
      split at h
      · next hcall =>
        obtain ⟨r, hx, h⟩ := bind_eq_ok h
        cases h
        exact .call (Bool.eq_false_iff.mpr hcr) hgo hcall hx
      · next hcall =>
        obtain ⟨⟨frame', vm', res', err⟩, hx, h⟩ := bind_eq_ok h
        cases h
        exact .plain (Bool.eq_false_iff.mpr hcr) hgo (Bool.eq_false_iff.mpr hcall) (lift_eq_ok hx)
    · next hgo =>
      cases h
      exact .skip (Bool.eq_false_iff.mpr hcr) (Bool.eq_false_iff.mpr hgo)

/-- One turn computed: the state the loop goes on from, when the turn's
charges pass and the loop does not stop after it. -/
def LoopState.turn? (jt : JumpTable) (ctx : Context) (isParallel : Bool) (fuel : Nat) (s : LoopState) :
    Option LoopState :=
  match prepare ctx (jt (s.frame.contract.getOp s.frame.pc)) s.frame s.vm with
  | .ok (frame₁, vm₁, none) =>
    match accessCheck (s.frame.contract.getOp s.frame.pc) frame₁ vm₁ isParallel s.canParallel with
    | .ok (vm₂, canParallel₂) =>
      match turnOutcome jt ctx isParallel fuel (s.frame.contract.getOp s.frame.pc) frame₁ vm₂ canParallel₂ s.res with
      | .ok t => if (t.2.2.2.1.isSome || (isParallel && !t.2.2.2.2)) = true then none else some (LoopState.next t)
      | .error _ => none
    | .error _ => none
  | _ => none

/-- `k` turns computed, the first at fuel `fuel + k`. -/
def LoopState.reach? (jt : JumpTable) (ctx : Context) (isParallel : Bool) (fuel : Nat) :
    Nat → LoopState → Option LoopState
  | 0, s => some s
  | k + 1, s => (s.turn? jt ctx isParallel (fuel + k)).bind (LoopState.reach? jt ctx isParallel fuel k)

theorem LoopReaches.of_turn? {fuel m : Nat} {s t u : LoopState} (h : s.turn? jt ctx isParallel fuel = some t)
    (hrest : LoopReaches jt ctx isParallel fuel t m u) : LoopReaches jt ctx isParallel (fuel + 1) s m u := by
  unfold LoopState.turn? at h
  split at h
  · next frame₁ vm₁ hprepare =>
    split at h
    · next vm₂ canParallel₂ hcheck =>
      split at h
      · next turn hturn =>
        split at h
        · cases h
        · next hgo =>
          cases h
          exact .step hprepare hcheck (loopTurn_of_turnOutcome hturn) (Bool.eq_false_iff.mpr hgo) hrest
      · cases h
    · cases h
  · cases h

/-- The states `reach?` computes are reached. -/
theorem LoopReaches.of_reach? {fuel k : Nat} {s t : LoopState} (h : s.reach? jt ctx isParallel fuel k = some t) :
    LoopReaches jt ctx isParallel (fuel + k) s fuel t := by
  induction k generalizing s with
  | zero =>
    cases h
    exact .refl _ _
  | succ k ih =>
    obtain ⟨s₁, h₁, h₂⟩ := Option.bind_eq_some_iff.mp h
    exact .of_turn? h₁ (ih h₂)

end Reaches

/-- The access check never sets `CanParallel`. -/
theorem accessCheck_canParallel {op : OpCode} {frame : Frame} {vm vm' : Evm} {isParallel canParallel canParallel' : Bool}
    (h : accessCheck op frame vm isParallel canParallel = .ok (vm', canParallel')) (h' : canParallel' = true) :
    canParallel = true := by
  unfold accessCheck at h
  obtain ⟨part, -, h⟩ := bind_eq_ok h
  split at h
  · obtain ⟨⟨result, _⟩, -, h⟩ := bind_eq_ok h
    cases h
    split at h' <;> simp_all
  · obtain ⟨⟨trueAL, _⟩, -, h⟩ := bind_eq_ok h
    cases h
    exact h'


/-- The serial group's access check keeps `CanParallel`. -/
theorem accessCheck_serial {op : OpCode} {frame : Frame} {vm vm' : Evm} {canParallel canParallel' : Bool}
    (h : accessCheck op frame vm false canParallel = .ok (vm', canParallel')) : canParallel' = canParallel := by
  unfold accessCheck at h
  obtain ⟨part, -, h⟩ := bind_eq_ok h
  obtain ⟨⟨trueAL, _⟩, -, h⟩ := bind_eq_ok h
  cases h
  rfl

/-! ## What the charges and a creation end with -/

/-- The errors of the charges: the stack's depth, the gas, and an overflow of
the memory size. -/
theorem prepare_err {ctx : Context} {o : Operation} {frame frame' : Frame} {vm vm' : Evm} {e : EvmError}
    (h : prepare ctx o frame vm = .ok (frame', vm', some e)) :
    e = .outOfGas ∨ e = .gasUintOverflow ∨ (∃ n m, e = .stackUnderflow n m) ∨ ∃ n m, e = .stackOverflow n m := by
  unfold prepare at h
  by_cases h₁ : frame.stack.length < o.minStack
  · rw [if_pos h₁] at h
    cases h
    exact .inr (.inr (.inl ⟨_, _, rfl⟩))
  rw [if_neg h₁] at h
  by_cases h₂ : frame.stack.length > o.maxStack
  · rw [if_pos h₂] at h
    cases h
    exact .inr (.inr (.inr ⟨_, _, rfl⟩))
  rw [if_neg h₂] at h
  cases hc : frame.contract.useGas o.constantGas with
  | none =>
    rw [hc] at h
    cases h
    exact .inl rfl
  | some c =>
    rw [hc] at h
    dsimp only at h
    cases hd : o.dynamicGas with
    | none =>
      rw [hd] at h
      cases h
    | some g =>
      rw [hd] at h
      dsimp only at h
      split at h
      · next e' hsize =>
        -- the memory size fails only on an overflow
        cases h
        refine .inr (.inl ?_)
        split at hsize
        · cases hsize
        · split at hsize
          · cases hsize
            rfl
          · split at hsize
            · cases hsize
              rfl
            · cases hsize
      · obtain ⟨⟨frame₂, vm₂, cost⟩, -, h⟩ := bind_eq_ok h
        dsimp only at h
        split at h
        · cases h
          exact .inl rfl
        · split at h
          · cases h
            exact .inl rfl
          · cases h

theorem prepare_err_ne_stopToken {ctx : Context} {o : Operation} {frame frame' : Frame} {vm vm' : Evm}
    {e : EvmError} (h : prepare ctx o frame vm = .ok (frame', vm', some e)) : e ≠ .stopToken := by
  rcases prepare_err h with rfl | rfl | ⟨_, _, rfl⟩ | ⟨_, _, rfl⟩ <;> exact fun h => EvmError.noConfusion h

/-- A creation returns no error but `ErrWriteProtection`: a failure of the
creation itself is only a zero on the stack. -/
theorem createOp_err {withSalt : Bool} {callee : Address → Bytes → UInt64 → Int → Word → Evm → GoF CreateResult}
    {frame : Frame} {vm : Evm} {r : ALResult} (h : createOp withSalt callee frame vm = .ok r) :
    r.err = none ∨ r.err = some .writeProtection := by
  unfold createOp at h
  split at h
  · cases h
    exact .inr rfl
  · obtain ⟨input, -, h⟩ := bind_eq_ok h
    dsimp only at h
    obtain ⟨rc, -, h⟩ := bind_eq_ok h
    split at h <;>
    · cases h
      exact .inl rfl

theorem frontierInstructionSet_create (others : OpCode → Operation) :
    frontierInstructionSet others OpCode.CREATE = alOp .opCreate CreateGas gasCreate 3 1 memoryCreate := rfl

theorem frontierInstructionSet_create2 (others : OpCode → Operation) :
    frontierInstructionSet others OpCode.CREATE2 = undefinedOp := rfl

/-- A creation on the frontier table returns no error but
`ErrWriteProtection`: `CREATE2` has no entry there, and the call of its nil
`executeAL` panics. -/
theorem executeAL_create_err {others : OpCode → Operation} {ctx : Context} {isParallel : Bool} {fuel : Nat}
    {op : OpCode} (hop : op.isCreate = true) {frame : Frame} {vm : Evm} {r : ALResult}
    (h : executeAL (frontierInstructionSet others) ctx isParallel fuel (frontierInstructionSet others op) frame vm =
      .ok r) :
    r.err = none ∨ r.err = some .writeProtection := by
  simp only [OpCode.isCreate, Bool.or_eq_true, beq_iff_eq] at hop
  cases fuel with
  | zero => cases h
  | succ fuel =>
    rw [executeAL] at h
    rcases hop with rfl | rfl
    · rw [frontierInstructionSet_create] at h
      cases fuel with
      | zero => cases h
      | succ fuel =>
        rw [alOp, opCreate] at h
        exact createOp_err h
    · rw [frontierInstructionSet_create2] at h
      cases h

/-! ## The serial group after `CanParallel` is cleared -/

section Serial

variable {others : OpCode → Operation} {ctx : Context}

/-- In the serial group, from a state whose `CanParallel` is cleared, the loop
on the frontier table ends only with an error that is not `errStopToken`:
each turn either fails its charges, or is a creation, which runs and ends the
loop only on `ErrWriteProtection`, or runs nothing and goes on. By induction
on the fuel, one turn at a time. -/
theorem loop_cleared_err {fuel : Nat} {frame : Frame} {vm : Evm} {res : Bytes} {r : LoopResult}
    (h : loop (frontierInstructionSet others) ctx false fuel frame vm false res = .ok r) :
    ∃ e, r.err = some e ∧ e ≠ .stopToken := by
  induction fuel generalizing frame vm res with
  | zero => cases h
  | succ fuel ih =>
    obtain ⟨frame₁, vm₁, e, hprepare, ⟨e', rfl, rfl⟩ | ⟨rfl, vm₂, canParallel₂, hcheck, t, hturn, hend⟩⟩ :=
      loop_succ_inv h
    · exact ⟨e', rfl, prepare_err_ne_stopToken hprepare⟩
    obtain rfl : canParallel₂ = false := accessCheck_serial hcheck
    cases hturn with
    | parallelCreate _ hpar _ => cases hpar
    | serialCreate hcreate _ hal =>
      rcases hend with ⟨hstop, rfl⟩ | ⟨-, hloop⟩
      · rcases executeAL_create_err hcreate hal with herr | herr
        · rw [herr] at hstop
          cases hstop
        · exact ⟨_, herr, fun h => EvmError.noConfusion h⟩
      · exact ih hloop
    | call _ hgo _ _ => cases hgo
    | plain _ hgo _ _ => cases hgo
    | skip _ _ =>
      rcases hend with ⟨hstop, -⟩ | ⟨-, hloop⟩
      · cases hstop
      · exact ih hloop

/-- In the serial group, once the loop has passed through a state whose
`CanParallel` is cleared, as a `CREATE` leaves it, the loop on the frontier
table ends only with an error that is not `errStopToken`. -/
theorem loop_fails_after_cleared {n m : Nat} {s t : LoopState} {r : LoopResult}
    (hreach : LoopReaches (frontierInstructionSet others) ctx false n s m t) (ht : t.canParallel = false)
    (h : loop (frontierInstructionSet others) ctx false n s.frame s.vm s.canParallel s.res = .ok r) :
    ∃ e, r.err = some e ∧ e ≠ .stopToken := by
  rw [hreach.loop_eq, ht] at h
  exact loop_cleared_err h

/-- The serial group at a `CREATE` of nothing, then a `SWAP1`, with the gas to
pay for both. -/
def serialCreateState : LoopState :=
  ⟨⟨0, Memory.new, [0, 0, 0], ⟨0x30, 0x100, 0, [OpCode.CREATE, OpCode.SWAP1], 0, none, [], 100000⟩⟩,
    ⟨callsTargetState, 0, 0, false, [], none⟩, true, []⟩

/-- The serial `CREATE` runs and clears `CanParallel`; the `SWAP1` after it then
finds one item on the stack, and the loop ends with the stack's error. -/
theorem loop_fails_after_cleared_create :
    ∃ t r, LoopReaches (frontierInstructionSet fun _ => undefinedOp) callsTargetContext false 10
        serialCreateState 9 t ∧
      t.canParallel = false ∧
      loop (frontierInstructionSet fun _ => undefinedOp) callsTargetContext false 10 serialCreateState.frame
        serialCreateState.vm serialCreateState.canParallel serialCreateState.res = .ok r ∧
      ∃ e, r.err = some e ∧ e ≠ .stopToken := by
  obtain ⟨t, ht⟩ : ∃ t, serialCreateState.reach? (frontierInstructionSet fun _ => undefinedOp) callsTargetContext
      false 9 1 = some t := Option.isSome_iff_exists.mp (by decide +kernel)
  have hcleared : (serialCreateState.reach? (frontierInstructionSet fun _ => undefinedOp) callsTargetContext
      false 9 1).map (·.canParallel) = some false := by decide +kernel
  obtain ⟨r, hr⟩ : ∃ r, loop (frontierInstructionSet fun _ => undefinedOp) callsTargetContext false 10
      serialCreateState.frame serialCreateState.vm serialCreateState.canParallel serialCreateState.res = .ok r := by
    have hok : (loop (frontierInstructionSet fun _ => undefinedOp) callsTargetContext false 10
        serialCreateState.frame serialCreateState.vm serialCreateState.canParallel
        serialCreateState.res).toOption.isSome = true := by decide +kernel
    cases h : loop (frontierInstructionSet fun _ => undefinedOp) callsTargetContext false 10 serialCreateState.frame
        serialCreateState.vm serialCreateState.canParallel serialCreateState.res with
    | ok r => exact ⟨r, rfl⟩
    | error e =>
      rw [h] at hok
      cases hok
  rw [ht] at hcleared
  have hreach := LoopReaches.of_reach? ht
  exact ⟨t, r, hreach, Option.some.inj hcleared, hr, loop_fails_after_cleared hreach (Option.some.inj hcleared) hr⟩

/-- The loop's first state in a run of a code, with the EVM `Run` gives it. -/
theorem run_eq_loop {fuel : Nat} {contract : Contract} {input : Bytes} {readOnly : Bool} {vm : Evm} {r : RunResult}
    (h : run (frontierInstructionSet others) ctx false (fuel + 1) contract input readOnly vm = .ok r)
    (hcode : contract.code.length ≠ 0) :
    ∃ lr, loop (frontierInstructionSet others) ctx false fuel ⟨0, Memory.new, [], { contract with input := input }⟩
        { vm with depth := vm.depth + 1, readOnly := vm.readOnly || (readOnly && !vm.readOnly) } true [] = .ok lr ∧
      r.err = if lr.err = some .stopToken then none else lr.err := by
  rw [run] at h
  dsimp only at h
  rw [if_neg hcode] at h
  obtain ⟨lr, hlr, h⟩ := bind_eq_ok h
  cases h
  exact ⟨lr, hlr, rfl⟩

/-- The first turn of a run of the empty code is a `STOP`, which ends the loop. -/
theorem LoopReaches.of_empty {n m : Nat} {s t : LoopState}
    (hreach : LoopReaches (frontierInstructionSet others) ctx false n s m t) (hcode : s.frame.contract.code = [])
    (hs : s.canParallel = true) : t = s := by
  cases hreach with
  | refl => rfl
  | step hprepare hcheck hturn hgo _ =>
    have hop : s.frame.contract.getOp s.frame.pc = OpCode.STOP := by
      unfold Contract.getOp
      rw [dif_neg (by rw [hcode]; exact Nat.not_lt_zero _)]
    rw [hop] at hprepare hcheck hturn
    rw [accessCheck_serial hcheck, hs] at hturn
    cases hturn with
    | parallelCreate _ hpar _ => cases hpar
    | serialCreate hcreate _ _ => cases hcreate
    | call _ _ hcall _ => cases hcall
    | plain _ _ _ hexec =>
      cases hexec
      cases hgo
    | skip _ hgo' => cases hgo'

/-- A serial `Run` on the frontier table whose loop passes through a state
with `CanParallel` cleared, as a `CREATE` leaves it, returns an error. -/
theorem run_fails_after_cleared {fuel m : Nat} {contract : Contract} {input : Bytes} {readOnly : Bool} {vm : Evm}
    {t : LoopState} {r : RunResult}
    (h : run (frontierInstructionSet others) ctx false (fuel + 1) contract input readOnly vm = .ok r)
    (hreach : LoopReaches (frontierInstructionSet others) ctx false fuel
      ⟨⟨0, Memory.new, [], { contract with input := input }⟩,
        { vm with depth := vm.depth + 1, readOnly := vm.readOnly || (readOnly && !vm.readOnly) }, true, []⟩ m t)
    (ht : t.canParallel = false) :
    ∃ e, r.err = some e := by
  by_cases hcode : contract.code.length = 0
  · -- the empty code runs no turn, and the loop never clears `CanParallel`
    have := hreach.of_empty (List.eq_nil_of_length_eq_zero hcode) rfl
    rw [this] at ht
    cases ht
  obtain ⟨lr, hlr, herr⟩ := run_eq_loop h hcode
  obtain ⟨e, he, hne⟩ := loop_fails_after_cleared hreach ht hlr
  refine ⟨e, ?_⟩
  rw [herr, he, if_neg (fun h => hne (Option.some.inj h))]

end Serial

end Pangu
