import Pangu.Evm.Conflict
import Pangu.Evm.Log

/-!
# No frame gets back more gas than it was given

`Call`, `CallCode`, `DelegateCall` and `StaticCall` return the gas their
frame has left when `Run` ends (`contract.Gas`), and `create` what is left
after the code is stored; `opCall` and `opCreate` add it back to the calling
frame (`Contract.Gas += returnGas`). Every turn of the loop charges before its
operation runs, and the dynamic gas of a call includes what the call passes on
(`callGasTemp`) and, with a value, `CallValueTransferGas`, more than the
stipend the callee gets for free.

* `GasSound`: what the bound needs of a jump table: no function of an entry
  raises the frame's gas, and the charge before an `executeAL` entry covers
  what the call may give back;
* `gasBounds`: on a sound table, at every fuel, every function of the
  interpreter leaves at most the gas it was given, and a call's operation at
  most the frame's gas and what it passed on;
* `gasSound_frontierInstructionSet`: the frontier table is sound when the
  entries it leaves to `others` keep the gas and neither call nor create;
* `frontier_gasRemain_le`: on it, no call and no creation returns more gas
  than it was given.
-/

namespace Pangu

open Go

/-! ## What a table's entries keep -/

/-- An operation's function leaves the frame at most the gas it had. -/
def ExecFn.KeepsGas (f : ExecFn) : Prop :=
  ∀ ctx frame vm frame' vm' ret err, f ctx frame vm = .ok (frame', vm', ret, err) →
    frame'.contract.gas.toNat ≤ frame.contract.gas.toNat

/-- A gas function leaves the frame at most the gas it had; `prepare` takes
the charge after it. -/
def GasFn.KeepsGas (g : GasFn) : Prop :=
  ∀ ctx frame vm size frame' vm' cost, g ctx frame vm size = .ok (frame', vm', cost) →
    frame'.contract.gas.toNat ≤ frame.contract.gas.toNat

/-- An entry whose functions keep the gas. -/
structure Operation.KeepsGas (o : Operation) : Prop where
  execute : ∀ f, o.execute = some f → ExecFn.KeepsGas f
  dynamicGas : ∀ g, o.dynamicGas = some g → GasFn.KeepsGas g

/-- The gas a call's operation passes on: `callGasTemp`, with the stipend for
a value. -/
def callOpGas (withValue : Bool) (frame : Frame) (vm : Evm) : Nat :=
  if (popCallArgs withValue frame.stack).1.value != 0 then vm.callGasTemp.toNat + CallStipend.toNat
  else vm.callGasTemp.toNat

/-- What an `executeAL` operation may add to its frame's gas: what a call
passes on; a creation passes on the frame's own gas. -/
def ExecuteAL.credit : ExecuteAL → Frame → Evm → Nat
  | .opCall, frame, vm => callOpGas true frame vm
  | .opCallCode, frame, vm => callOpGas true frame vm
  | .opDelegateCall, frame, vm => callOpGas false frame vm
  | .opStaticCall, frame, vm => callOpGas false frame vm
  | .opCreate, _, _ => 0
  | .opCreate2, _, _ => 0

/-- The credit of an entry's `executeAL`, none without one. -/
def alCredit (o : Operation) (frame : Frame) (vm : Evm) : Nat :=
  match o.executeAL with
  | some a => a.credit frame vm
  | none => 0

/-- What the bound needs of a jump table: its entries keep the gas, and the
charges before an entry with an `executeAL` leave room for its credit. -/
structure GasSound (jt : JumpTable) : Prop where
  keepsGas : ∀ op, (jt op).KeepsGas
  prepare_credit : ∀ op ctx frame vm frame' vm', prepare ctx (jt op) frame vm = .ok (frame', vm', none) →
    frame'.contract.gas.toNat + alCredit (jt op) frame' vm' ≤ frame.contract.gas.toNat

/-! ## The charges of a turn -/

/-- `UseGas` takes what it charges. -/
theorem Contract.useGas_toNat {c c' : Contract} {g : UInt64} (h : c.useGas g = some c') :
    c'.gas.toNat + g.toNat = c.gas.toNat := by
  unfold Contract.useGas at h
  split at h
  · cases h
  · next hlt =>
    cases h
    have hle := UInt64.not_lt.mp hlt
    rw [UInt64.toNat_sub_of_le _ _ hle]
    have := UInt64.le_iff_toNat_le.mp hle
    omega

/-- The charges of a turn, whatever error they end with, leave the frame at
most the gas it had. -/
theorem prepare_le {ctx : Context} {o : Operation} {frame frame' : Frame} {vm vm' : Evm}
    {e : Option EvmError} (ho : o.KeepsGas) (h : prepare ctx o frame vm = .ok (frame', vm', e)) :
    frame'.contract.gas.toNat ≤ frame.contract.gas.toNat := by
  unfold prepare at h
  by_cases h₁ : frame.stack.length < o.minStack
  · rw [if_pos h₁] at h
    cases h
    exact le_refl _
  rw [if_neg h₁] at h
  by_cases h₂ : frame.stack.length > o.maxStack
  · rw [if_pos h₂] at h
    cases h
    exact le_refl _
  rw [if_neg h₂] at h
  cases hc : frame.contract.useGas o.constantGas with
  | none =>
    rw [hc] at h
    cases h
    exact le_refl _
  | some c =>
    have hc₁ := Contract.useGas_toNat hc
    rw [hc] at h
    dsimp only at h
    cases hd : o.dynamicGas with
    | none =>
      rw [hd] at h
      cases h
      show c.gas.toNat ≤ _
      omega
    | some g =>
      rw [hd] at h
      dsimp only at h
      split at h
      · cases h
        show c.gas.toNat ≤ _
        omega
      · obtain ⟨⟨frame₂, vm₂, cost⟩, hg, h⟩ := bind_eq_ok h
        have h₂ : frame₂.contract.gas.toNat ≤ c.gas.toNat := ho.dynamicGas g hd _ _ _ _ _ _ _ hg
        dsimp only at h
        cases cost with
        | error _ =>
          cases h
          omega
        | ok cost =>
          dsimp only at h
          cases hc₂ : frame₂.contract.useGas cost with
          | none =>
            rw [hc₂] at h
            cases h
            omega
          | some c₂ =>
            rw [hc₂] at h
            cases h
            have := Contract.useGas_toNat hc₂
            show c₂.gas.toNat ≤ _
            omega

/-- Charges that end with no error: the constant gas, and, for an entry with
a gas function, the dynamic gas taken from the frame it leaves, whose memory
then grows. -/
theorem prepare_none_inv {ctx : Context} {o : Operation} {frame frame' : Frame} {vm vm' : Evm}
    (h : prepare ctx o frame vm = .ok (frame', vm', none)) :
    ∃ c₁, frame.contract.useGas o.constantGas = some c₁ ∧
      (o.dynamicGas = none ∧ frame' = { frame with contract := c₁ } ∧ vm' = vm ∨
       ∃ g size frame₂ cost c₂, o.dynamicGas = some g ∧
         g ctx { frame with contract := c₁ } vm size = .ok (frame₂, vm', .ok cost) ∧
         frame₂.contract.useGas cost = some c₂ ∧
         frame' = { frame₂ with
           contract := c₂
           memory := if size > 0 then frame₂.memory.resize size else frame₂.memory }) := by
  unfold prepare at h
  by_cases h₁ : frame.stack.length < o.minStack
  · rw [if_pos h₁] at h
    cases h
  rw [if_neg h₁] at h
  by_cases h₂ : frame.stack.length > o.maxStack
  · rw [if_pos h₂] at h
    cases h
  rw [if_neg h₂] at h
  cases hc : frame.contract.useGas o.constantGas with
  | none =>
    rw [hc] at h
    cases h
  | some c₁ =>
    refine ⟨c₁, rfl, ?_⟩
    rw [hc] at h
    dsimp only at h
    cases hd : o.dynamicGas with
    | none =>
      rw [hd] at h
      cases h
      exact .inl ⟨rfl, rfl, rfl⟩
    | some g =>
      rw [hd] at h
      dsimp only at h
      split at h
      · cases h
      · next size _ =>
        obtain ⟨⟨frame₂, vm₂, cost⟩, hg, h⟩ := bind_eq_ok h
        dsimp only at h
        cases cost with
        | error _ => cases h
        | ok cost =>
          dsimp only at h
          cases hc₂ : frame₂.contract.useGas cost with
          | none =>
            rw [hc₂] at h
            cases h
          | some c₂ =>
            rw [hc₂] at h
            cases h
            exact .inr ⟨g, size, frame₂, cost, c₂, rfl, hg, hc₂, rfl⟩

/-- A gas function that keeps the frame's gas and charges at least `credit`
of the frame and the EVM it leaves, a credit that reads neither the contract
nor the memory: with no error, the charges leave room for it. -/
theorem prepare_credit_le {ctx : Context} {o : Operation} {g : GasFn} (credit : Frame → Evm → Nat)
    (hcredit : ∀ frame vm c m, credit { frame with contract := c, memory := m } vm = credit frame vm)
    (hg : o.dynamicGas = some g)
    (hcover : ∀ frame vm size frame' vm' cost, g ctx frame vm size = .ok (frame', vm', .ok cost) →
      frame'.contract.gas.toNat ≤ frame.contract.gas.toNat ∧ credit frame' vm' ≤ cost.toNat)
    {frame frame' : Frame} {vm vm' : Evm} (h : prepare ctx o frame vm = .ok (frame', vm', none)) :
    frame'.contract.gas.toNat + credit frame' vm' ≤ frame.contract.gas.toNat := by
  obtain ⟨c₁, hc₁, ⟨hnone, -, -⟩ | ⟨g', size, frame₂, cost, c₂, hg', hgc, hc₂, rfl⟩⟩ := prepare_none_inv h
  · rw [hg] at hnone
    cases hnone
  · rw [hg] at hg'
    cases hg'
    obtain ⟨hkeep, hcost⟩ := hcover _ _ _ _ _ _ hgc
    have h₁ := Contract.useGas_toNat hc₁
    have h₂ := Contract.useGas_toNat hc₂
    rw [hcredit]
    show c₂.gas.toNat + credit frame₂ vm' ≤ _
    change frame₂.contract.gas.toNat ≤ c₁.gas.toNat at hkeep
    omega

/-- An entry's `execute` that keeps the gas. -/
theorem execute_le {ctx : Context} {o : Operation} {frame frame' : Frame} {vm vm' : Evm} {ret : Bytes}
    {err : Option EvmError} (ho : o.KeepsGas) (h : execute o ctx frame vm = .ok (frame', vm', ret, err)) :
    frame'.contract.gas.toNat ≤ frame.contract.gas.toNat := by
  unfold execute at h
  split at h
  · next f hf => exact ho.execute f hf _ _ _ _ _ _ _ h
  · cases h

/-- The access check changes the access list and `CanParallel`, never
`callGasTemp`. -/
theorem accessCheck_callGasTemp {op : OpCode} {frame : Frame} {vm vm' : Evm} {isParallel canParallel canParallel' : Bool}
    (h : accessCheck op frame vm isParallel canParallel = .ok (vm', canParallel')) :
    vm'.callGasTemp = vm.callGasTemp := by
  unfold accessCheck at h
  obtain ⟨part, -, h⟩ := bind_eq_ok h
  cases isParallel with
  | true =>
    obtain ⟨_, -, h⟩ := bind_eq_ok h
    cases h
    rfl
  | false =>
    obtain ⟨_, -, h⟩ := bind_eq_ok h
    cases h
    rfl

theorem alCredit_congr (o : Operation) (frame : Frame) {vm vm' : Evm} (h : vm'.callGasTemp = vm.callGasTemp) :
    alCredit o frame vm' = alCredit o frame vm := by
  unfold alCredit
  split
  · next a _ => cases a <;> simp only [ExecuteAL.credit, callOpGas, h]
  · rfl

/-! ## One turn of the loop -/

section Turn

variable {jt : JumpTable} {ctx : Context} {isParallel : Bool} {fuel : Nat}

/-- What a turn of the loop does after its charges and its access check: the
frame, the EVM, the output, the error and `CanParallel` it goes on with. -/
inductive LoopTurn (jt : JumpTable) (ctx : Context) (isParallel : Bool) (fuel : Nat) (op : OpCode) (frame : Frame)
    (vm : Evm) (canParallel : Bool) (res : Bytes) : Frame × Evm × Bytes × Option EvmError × Bool → Prop
  /-- a creation in a parallel group clears `CanParallel`, and then its `execute` runs -/
  | parallelCreate {frame' vm' res' err} (hcreate : op.isCreate = true) (hpar : isParallel = true)
      (hexec : execute (jt op) ctx frame vm = .ok (frame', vm', res', err)) :
      LoopTurn jt ctx isParallel fuel op frame vm canParallel res (frame', vm', res', err, false)
  /-- a creation in the serial group runs its `executeAL`, and clears `CanParallel` -/
  | serialCreate {r : ALResult} (hcreate : op.isCreate = true) (hpar : isParallel = false)
      (hal : executeAL jt ctx isParallel fuel (jt op) frame vm = .ok r) :
      LoopTurn jt ctx isParallel fuel op frame vm canParallel res (r.frame, r.vm, r.ret, r.err, false)
  | call {r : ALResult} (hcreate : op.isCreate = false) (hgo : (isParallel || canParallel) = true)
      (hcall : op.isCall = true) (hal : executeAL jt ctx isParallel fuel (jt op) frame vm = .ok r) :
      LoopTurn jt ctx isParallel fuel op frame vm canParallel res (r.frame, r.vm, r.ret, r.err, r.canParallel)
  | plain {frame' vm' res' err} (hcreate : op.isCreate = false) (hgo : (isParallel || canParallel) = true)
      (hcall : op.isCall = false) (hexec : execute (jt op) ctx frame vm = .ok (frame', vm', res', err)) :
      LoopTurn jt ctx isParallel fuel op frame vm canParallel res (frame', vm', res', err, canParallel)
  /-- the serial group after a conflict runs nothing more -/
  | skip (hcreate : op.isCreate = false) (hgo : (isParallel || canParallel) = false) :
      LoopTurn jt ctx isParallel fuel op frame vm canParallel res (frame, vm, res, none, canParallel)

/-- The end of a turn: the loop stops on an error, or in a parallel group once
`CanParallel` is cleared, and goes on at the next `pc` otherwise. -/
theorem loop_end_cases {t : Frame × Evm × Bytes × Option EvmError × Bool} {r : LoopResult}
    (h : (if (t.2.2.2.1.isSome || (isParallel && !t.2.2.2.2)) = true then
        Except.ok (⟨t.2.2.1, t.2.2.2.1, t.2.2.2.2, t.1, t.2.1⟩ : LoopResult)
      else loop jt ctx isParallel fuel { t.1 with pc := t.1.pc + 1 } t.2.1 t.2.2.2.2 t.2.2.1) = .ok r) :
    (t.2.2.2.1.isSome || (isParallel && !t.2.2.2.2)) = true ∧ r = ⟨t.2.2.1, t.2.2.2.1, t.2.2.2.2, t.1, t.2.1⟩ ∨
      (t.2.2.2.1.isSome || (isParallel && !t.2.2.2.2)) = false ∧
        loop jt ctx isParallel fuel { t.1 with pc := t.1.pc + 1 } t.2.1 t.2.2.2.2 t.2.2.1 = .ok r := by
  split at h
  · next hstop =>
    cases h
    exact .inl ⟨hstop, rfl⟩
  · next hgo =>
    exact .inr ⟨Bool.eq_false_iff.mpr hgo, h⟩

/-- Everything a turn of the loop can do: the charges, and either their error
or the access check, the operation's turn and the loop's end or its next turn. -/
theorem loop_succ_inv {frame : Frame} {vm : Evm} {canParallel : Bool} {res : Bytes} {r : LoopResult}
    (h : loop jt ctx isParallel (fuel + 1) frame vm canParallel res = .ok r) :
    ∃ frame₁ vm₁ e, prepare ctx (jt (frame.contract.getOp frame.pc)) frame vm = .ok (frame₁, vm₁, e) ∧
      ((∃ e', e = some e' ∧ r = ⟨[], some e', true, frame₁, vm₁⟩) ∨
       (e = none ∧ ∃ vm₂ canParallel₂, accessCheck (frame.contract.getOp frame.pc) frame₁ vm₁ isParallel canParallel =
          .ok (vm₂, canParallel₂) ∧ ∃ t, LoopTurn jt ctx isParallel fuel (frame.contract.getOp frame.pc) frame₁ vm₂
            canParallel₂ res t ∧
          ((t.2.2.2.1.isSome || (isParallel && !t.2.2.2.2)) = true ∧ r = ⟨t.2.2.1, t.2.2.2.1, t.2.2.2.2, t.1, t.2.1⟩ ∨
           (t.2.2.2.1.isSome || (isParallel && !t.2.2.2.2)) = false ∧
             loop jt ctx isParallel fuel { t.1 with pc := t.1.pc + 1 } t.2.1 t.2.2.2.2 t.2.2.1 = .ok r))) := by
  rw [loop] at h
  generalize frame.contract.getOp frame.pc = op at h ⊢
  obtain ⟨⟨frame₁, vm₁, e⟩, hp, h⟩ := bind_eq_ok h
  refine ⟨frame₁, vm₁, e, lift_eq_ok hp, ?_⟩
  cases e with
  | some e' =>
    cases h
    exact .inl ⟨e', rfl, rfl⟩
  | none =>
    refine .inr ⟨rfl, ?_⟩
    obtain ⟨⟨vm₂, cp₂⟩, hc, h⟩ := bind_eq_ok h
    refine ⟨vm₂, cp₂, lift_eq_ok hc, ?_⟩
    dsimp only at h
    split at h
    · next hcr =>
      have hcall : op.isCall = false := by
        cases hc' : op.isCall
        · rfl
        · rw [OpCode.isCreate_eq_false_of_isCall hc'] at hcr
          cases hcr
      split at h
      · next hpar =>
        -- the creation in a parallel group goes on to the plain branch
        rw [ok_bind] at h
        dsimp only at h
        rw [if_pos (by simp [hpar]), if_neg (by simp [hcall])] at h
        obtain ⟨⟨frame', vm', res', err⟩, hx, h⟩ := bind_eq_ok h
        exact ⟨_, .parallelCreate hcr hpar (lift_eq_ok hx), loop_end_cases h⟩
      · next hpar =>
        obtain ⟨ra, hx, h⟩ := bind_eq_ok h
        rw [ok_bind] at h
        dsimp only at h
        rw [if_neg (by simp [Bool.eq_false_iff.mpr hpar])] at h
        exact ⟨_, .serialCreate hcr (Bool.eq_false_iff.mpr hpar) hx, loop_end_cases h⟩
    · next hcr =>
      rw [ok_bind] at h
      dsimp only at h
      split at h
      · next hgo =>
        split at h
        · next hcall =>
          obtain ⟨ra, hx, h⟩ := bind_eq_ok h
          exact ⟨_, .call (Bool.eq_false_iff.mpr hcr) hgo hcall hx, loop_end_cases h⟩
        · next hcall =>
          obtain ⟨⟨frame', vm', res', err⟩, hx, h⟩ := bind_eq_ok h
          exact ⟨_, .plain (Bool.eq_false_iff.mpr hcr) hgo (Bool.eq_false_iff.mpr hcall) (lift_eq_ok hx),
            loop_end_cases h⟩
      · next hgo =>
        exact ⟨_, .skip (Bool.eq_false_iff.mpr hcr) (Bool.eq_false_iff.mpr hgo), loop_end_cases h⟩

end Turn

/-! ## What a call passes on and gets back -/

theorem UInt64.toNat_add_le (a b : UInt64) : (a + b).toNat ≤ a.toNat + b.toNat := by
  rw [UInt64.toNat_add]
  exact Nat.mod_le _ _

theorem Contract.useGas_le {c c' : Contract} {g : UInt64} (h : c.useGas g = some c') :
    c'.gas.toNat ≤ c.gas.toNat := by
  have := Contract.useGas_toNat h
  omega

/-- `createOp` passes on all but a 64th of the frame's gas, and `UseGas` of it
takes it. -/
theorem Contract.useGas_allButOne64th (c : Contract) :
    ∃ c', c.useGas (c.gas - c.gas / 64) = some c' ∧ c'.gas.toNat + (c.gas - c.gas / 64).toNat = c.gas.toNat := by
  have hle : c.gas / 64 ≤ c.gas := by
    rw [UInt64.le_iff_toNat_le, UInt64.toNat_div]
    exact Nat.div_le_self _ _
  have hsome : c.useGas (c.gas - c.gas / 64) = some { c with gas := c.gas - (c.gas - c.gas / 64) } :=
    if_neg (UInt64.not_lt.mpr (UInt64.sub_le hle))
  exact ⟨_, hsome, Contract.useGas_toNat hsome⟩

theorem popCallArgs_value (withValue : Bool) (st : List Word) :
    (popCallArgs withValue st).1.value = if withValue then Stack.back st 2 else 0 := by
  cases withValue with
  | false => rfl
  | true =>
    match st with
    | [] | [_] | [_, _] | _ :: _ :: _ :: _ => rfl

/-- The gas a call's operation gives its callee is at most what `callOpGas`
counts, which does not wrap around. -/
theorem callOp_gas_toNat (withValue : Bool) (frame : Frame) (vm : Evm) :
    (if (popCallArgs withValue frame.stack).1.value != 0 then vm.callGasTemp + CallStipend
      else vm.callGasTemp).toNat ≤ callOpGas withValue frame vm := by
  unfold callOpGas
  split
  · exact UInt64.toNat_add_le _ _
  · exact le_refl _

theorem finishCall_contract {args : CallArgs} {st : List Word} {frame frame' : Frame} {vm vm' : Evm} {ret : Bytes}
    {returnGas : UInt64} {err : Option EvmError} (h : finishCall args st frame vm ret returnGas err = .ok (frame', vm')) :
    frame'.contract = { frame.contract with gas := frame.contract.gas + returnGas } := by
  unfold finishCall at h
  dsimp only at h
  split at h
  · obtain ⟨memory, -, h⟩ := bind_eq_ok h
    cases h
    rfl
  · cases h
    rfl

/-- A call's operation over a callee that returns at most the gas it is
given leaves the frame at most its gas and what it passed on. -/
theorem callOp_gas_le {withValue checkWrite : Bool}
    {callee : Contract → Address → Bytes → UInt64 → Int → Evm → GoF CallResult}
    (hcallee : ∀ {caller addr input gas value vm r}, callee caller addr input gas value vm = .ok r →
      r.gasRemain.toNat ≤ gas.toNat)
    {frame : Frame} {vm : Evm} {r : ALResult} (h : callOp withValue checkWrite callee frame vm = .ok r) :
    r.frame.contract.gas.toNat ≤ frame.contract.gas.toNat + callOpGas withValue frame vm := by
  have hpass := callOp_gas_toNat withValue frame vm
  unfold callOp at h
  generalize popCallArgs withValue frame.stack = pa at h hpass
  obtain ⟨args, st⟩ := pa
  dsimp only at hpass
  obtain ⟨input, -, h⟩ := bind_eq_ok h
  split at h
  · cases h
    exact Nat.le_add_right _ _
  · obtain ⟨rc, hrc, h⟩ := bind_eq_ok h
    obtain ⟨⟨frame', vm'⟩, hfin, h⟩ := bind_eq_ok h
    cases h
    have hret := hcallee hrc
    rw [finishCall_contract (lift_eq_ok hfin)]
    calc (frame.contract.gas + rc.gasRemain).toNat
        ≤ frame.contract.gas.toNat + rc.gasRemain.toNat := UInt64.toNat_add_le _ _
      _ ≤ frame.contract.gas.toNat + callOpGas withValue frame vm := by omega

/-- A creation's operation over a callee that returns at most the gas it is
given leaves the frame at most its gas. -/
theorem createOp_gas_le {withSalt : Bool} {callee : Address → Bytes → UInt64 → Int → Word → Evm → GoF CreateResult}
    (hcallee : ∀ {caller input gas value salt vm r}, callee caller input gas value salt vm = .ok r →
      r.gasRemain.toNat ≤ gas.toNat)
    {frame : Frame} {vm : Evm} {r : ALResult} (h : createOp withSalt callee frame vm = .ok r) :
    r.frame.contract.gas.toNat ≤ frame.contract.gas.toNat := by
  unfold createOp at h
  split at h
  · cases h
    exact le_refl _
  · obtain ⟨input, -, h⟩ := bind_eq_ok h
    obtain ⟨c', hc', hgas⟩ := Contract.useGas_allButOne64th frame.contract
    dsimp only at h
    obtain ⟨rc, hrc, h⟩ := bind_eq_ok h
    have hret := hcallee hrc
    have hkept : (((frame.contract.useGas (frame.contract.gas - frame.contract.gas / 64)).getD frame.contract).gas +
        rc.gasRemain).toNat ≤ frame.contract.gas.toNat := by
      rw [hc', Option.getD_some]
      calc (c'.gas + rc.gasRemain).toNat ≤ c'.gas.toNat + rc.gasRemain.toNat := UInt64.toNat_add_le _ _
        _ ≤ frame.contract.gas.toNat := by omega
    split at h
    · cases h
      exact hkept
    · cases h
      exact hkept

/-- What `RunPrecompiledContract` leaves of the gas is at most the gas. -/
theorem runPrecompiledContract_gas_le (p : PrecompiledContract) (input : Bytes) (gas : UInt64) :
    (runPrecompiledContract p input gas).2.1.toNat ≤ gas.toNat := by
  unfold runPrecompiledContract
  dsimp only
  split
  · exact Nat.zero_le _
  · next hlt =>
    have hsub : (gas - p.requiredGas input).toNat ≤ gas.toNat := by
      rw [UInt64.toNat_sub_of_le _ _ (UInt64.not_lt.mp hlt)]
      exact Nat.sub_le _ _
    split <;> exact hsub

/-- A call that ends by reverting on an error returns the gas it is given. -/
theorem gasRemain_of_revertOnError {vm : Evm} {snapshot : Int} {err err' : Option EvmError} {ret : Bytes}
    {gas : UInt64} {canParallel : Bool} {r : CallResult}
    (h : (revertOnError vm snapshot err >>= fun vm => .ok ⟨ret, gas, canParallel, err', vm⟩ : GoF CallResult) =
      .ok r) :
    r.gasRemain = gas := by
  obtain ⟨vm', -, h⟩ := bind_eq_ok h
  cases h
  rfl

/-! ## The bounds at one fuel -/

/-- The bounds of the interpreter's functions at one fuel: a run and the loop
leave at most the contract's and the frame's gas, an `executeAL` operation at
most the frame's gas and its credit, and every call and creation returns at
most the gas it was given. -/
structure GasBounds (jt : JumpTable) (ctx : Context) (isParallel : Bool) (fuel : Nat) : Prop where
  run_gas : ∀ {contract input readOnly vm r}, run jt ctx isParallel fuel contract input readOnly vm = .ok r →
    r.contract.gas.toNat ≤ contract.gas.toNat
  loop_gas : ∀ {frame vm canParallel res r}, loop jt ctx isParallel fuel frame vm canParallel res = .ok r →
    r.frame.contract.gas.toNat ≤ frame.contract.gas.toNat
  executeAL_gas : ∀ {operation frame vm r}, executeAL jt ctx isParallel fuel operation frame vm = .ok r →
    r.frame.contract.gas.toNat ≤ frame.contract.gas.toNat + alCredit operation frame vm
  opCall_gas : ∀ {frame vm r}, opCall jt ctx isParallel fuel frame vm = .ok r →
    r.frame.contract.gas.toNat ≤ frame.contract.gas.toNat + callOpGas true frame vm
  opCallCode_gas : ∀ {frame vm r}, opCallCode jt ctx isParallel fuel frame vm = .ok r →
    r.frame.contract.gas.toNat ≤ frame.contract.gas.toNat + callOpGas true frame vm
  opDelegateCall_gas : ∀ {frame vm r}, opDelegateCall jt ctx isParallel fuel frame vm = .ok r →
    r.frame.contract.gas.toNat ≤ frame.contract.gas.toNat + callOpGas false frame vm
  opStaticCall_gas : ∀ {frame vm r}, opStaticCall jt ctx isParallel fuel frame vm = .ok r →
    r.frame.contract.gas.toNat ≤ frame.contract.gas.toNat + callOpGas false frame vm
  opCreate_gas : ∀ {frame vm r}, opCreate jt ctx isParallel fuel frame vm = .ok r →
    r.frame.contract.gas.toNat ≤ frame.contract.gas.toNat
  opCreate2_gas : ∀ {frame vm r}, opCreate2 jt ctx isParallel fuel frame vm = .ok r →
    r.frame.contract.gas.toNat ≤ frame.contract.gas.toNat
  call_gas : ∀ {caller addr input gas value vm r}, call jt ctx isParallel fuel caller addr input gas value vm = .ok r →
    r.gasRemain.toNat ≤ gas.toNat
  callCode_gas : ∀ {caller addr input gas value vm r},
    callCode jt ctx isParallel fuel caller addr input gas value vm = .ok r → r.gasRemain.toNat ≤ gas.toNat
  delegateCall_gas : ∀ {caller addr input gas vm r},
    delegateCall jt ctx isParallel fuel caller addr input gas vm = .ok r → r.gasRemain.toNat ≤ gas.toNat
  staticCall_gas : ∀ {caller addr input gas vm r},
    staticCall jt ctx isParallel fuel caller addr input gas vm = .ok r → r.gasRemain.toNat ≤ gas.toNat
  create_gas : ∀ {caller code codeHash gas value address vm r},
    create jt ctx isParallel fuel caller code codeHash gas value address vm = .ok r → r.gasRemain.toNat ≤ gas.toNat
  Create_gas : ∀ {caller code gas value vm r},
    Create jt ctx isParallel fuel caller code gas value vm = .ok r → r.gasRemain.toNat ≤ gas.toNat
  Create2_gas : ∀ {caller code gas endowment salt vm r},
    Create2 jt ctx isParallel fuel caller code gas endowment salt vm = .ok r → r.gasRemain.toNat ≤ gas.toNat

section Bounds

variable {jt : JumpTable} {ctx : Context} {isParallel : Bool} {fuel : Nat}

/-- With no fuel every function runs out of it. -/
theorem gasBounds_zero : GasBounds jt ctx isParallel 0 where
  run_gas h := by cases h
  loop_gas h := by cases h
  executeAL_gas h := by cases h
  opCall_gas h := by cases h
  opCallCode_gas h := by cases h
  opDelegateCall_gas h := by cases h
  opStaticCall_gas h := by cases h
  opCreate_gas h := by cases h
  opCreate2_gas h := by cases h
  call_gas h := by cases h
  callCode_gas h := by cases h
  delegateCall_gas h := by cases h
  staticCall_gas h := by cases h
  create_gas h := by cases h
  Create_gas h := by cases h
  Create2_gas h := by cases h

namespace GasBounds

variable (ih : GasBounds jt ctx isParallel fuel)
include ih

theorem run_succ {contract : Contract} {input : Bytes} {readOnly : Bool} {vm : Evm} {r : RunResult}
    (h : run jt ctx isParallel (fuel + 1) contract input readOnly vm = .ok r) :
    r.contract.gas.toNat ≤ contract.gas.toNat := by
  rw [run] at h
  dsimp only at h
  split at h
  · cases h
    exact le_refl _
  · obtain ⟨r', hr', h⟩ := bind_eq_ok h
    cases h
    exact ih.loop_gas hr'

/-- A turn leaves the frame at most the gas it had: the charges take at least
what an operation that calls may add. -/
theorem loopTurn_le (hsound : GasSound jt) {op : OpCode} {frame frame₁ : Frame} {vm vm₁ vm₂ : Evm}
    {canParallel canParallel₂ : Bool} {res : Bytes} {t : Frame × Evm × Bytes × Option EvmError × Bool}
    (hp : prepare ctx (jt op) frame vm = .ok (frame₁, vm₁, none))
    (hc : accessCheck op frame₁ vm₁ isParallel canParallel = .ok (vm₂, canParallel₂))
    (ht : LoopTurn jt ctx isParallel fuel op frame₁ vm₂ canParallel₂ res t) :
    t.1.contract.gas.toNat ≤ frame.contract.gas.toNat := by
  have hprep := prepare_le (hsound.keepsGas op) hp
  have hcredit : frame₁.contract.gas.toNat + alCredit (jt op) frame₁ vm₂ ≤ frame.contract.gas.toNat := by
    rw [alCredit_congr (jt op) frame₁ (accessCheck_callGasTemp hc)]
    exact hsound.prepare_credit op ctx frame vm frame₁ vm₁ hp
  cases ht with
  | parallelCreate _ _ hexec => exact le_trans (execute_le (hsound.keepsGas op) hexec) hprep
  | serialCreate _ _ hal => exact le_trans (ih.executeAL_gas hal) hcredit
  | call _ _ _ hal => exact le_trans (ih.executeAL_gas hal) hcredit
  | plain _ _ _ hexec => exact le_trans (execute_le (hsound.keepsGas op) hexec) hprep
  | skip => exact hprep

theorem loop_succ (hsound : GasSound jt) {frame : Frame} {vm : Evm} {canParallel : Bool} {res : Bytes}
    {r : LoopResult} (h : loop jt ctx isParallel (fuel + 1) frame vm canParallel res = .ok r) :
    r.frame.contract.gas.toNat ≤ frame.contract.gas.toNat := by
  obtain ⟨frame₁, vm₁, e, hp, ⟨e', rfl, rfl⟩ | ⟨rfl, vm₂, canParallel₂, hc, t, ht, hend⟩⟩ := loop_succ_inv h
  · exact prepare_le (hsound.keepsGas _) hp
  · have hturn := ih.loopTurn_le hsound hp hc ht
    rcases hend with ⟨-, rfl⟩ | ⟨-, hloop⟩
    · exact hturn
    · exact le_trans (ih.loop_gas hloop) hturn

theorem executeAL_succ {operation : Operation} {frame : Frame} {vm : Evm} {r : ALResult}
    (h : executeAL jt ctx isParallel (fuel + 1) operation frame vm = .ok r) :
    r.frame.contract.gas.toNat ≤ frame.contract.gas.toNat + alCredit operation frame vm := by
  rw [executeAL] at h
  unfold alCredit
  split at h
  · cases h
  · next hal =>
    rw [hal]
    exact Nat.le_add_right_of_le (ih.opCreate_gas h)
  · next hal =>
    rw [hal]
    exact ih.opCall_gas h
  · next hal =>
    rw [hal]
    exact ih.opCallCode_gas h
  · next hal =>
    rw [hal]
    exact ih.opDelegateCall_gas h
  · next hal =>
    rw [hal]
    exact ih.opStaticCall_gas h
  · next hal =>
    rw [hal]
    exact Nat.le_add_right_of_le (ih.opCreate2_gas h)

theorem opCall_succ {frame : Frame} {vm : Evm} {r : ALResult}
    (h : opCall jt ctx isParallel (fuel + 1) frame vm = .ok r) :
    r.frame.contract.gas.toNat ≤ frame.contract.gas.toNat + callOpGas true frame vm := by
  rw [opCall] at h
  exact callOp_gas_le (fun hc => ih.call_gas hc) h

theorem opCallCode_succ {frame : Frame} {vm : Evm} {r : ALResult}
    (h : opCallCode jt ctx isParallel (fuel + 1) frame vm = .ok r) :
    r.frame.contract.gas.toNat ≤ frame.contract.gas.toNat + callOpGas true frame vm := by
  rw [opCallCode] at h
  exact callOp_gas_le (fun hc => ih.callCode_gas hc) h

theorem opDelegateCall_succ {frame : Frame} {vm : Evm} {r : ALResult}
    (h : opDelegateCall jt ctx isParallel (fuel + 1) frame vm = .ok r) :
    r.frame.contract.gas.toNat ≤ frame.contract.gas.toNat + callOpGas false frame vm := by
  rw [opDelegateCall] at h
  exact callOp_gas_le (fun hc => ih.delegateCall_gas hc) h

theorem opStaticCall_succ {frame : Frame} {vm : Evm} {r : ALResult}
    (h : opStaticCall jt ctx isParallel (fuel + 1) frame vm = .ok r) :
    r.frame.contract.gas.toNat ≤ frame.contract.gas.toNat + callOpGas false frame vm := by
  rw [opStaticCall] at h
  exact callOp_gas_le (fun hc => ih.staticCall_gas hc) h

theorem opCreate_succ {frame : Frame} {vm : Evm} {r : ALResult}
    (h : opCreate jt ctx isParallel (fuel + 1) frame vm = .ok r) :
    r.frame.contract.gas.toNat ≤ frame.contract.gas.toNat := by
  rw [opCreate] at h
  exact createOp_gas_le (fun hc => ih.Create_gas hc) h

theorem opCreate2_succ {frame : Frame} {vm : Evm} {r : ALResult}
    (h : opCreate2 jt ctx isParallel (fuel + 1) frame vm = .ok r) :
    r.frame.contract.gas.toNat ≤ frame.contract.gas.toNat := by
  rw [opCreate2] at h
  exact createOp_gas_le (fun hc => ih.Create2_gas hc) h

theorem call_succ {caller addr : Address} {input : Bytes} {gas : UInt64} {value : Int} {vm : Evm} {r : CallResult}
    (h : call jt ctx isParallel (fuel + 1) caller addr input gas value vm = .ok r) :
    r.gasRemain.toNat ≤ gas.toNat := by
  rw [call] at h
  dsimp only at h
  split at h
  · cases h
    exact le_refl _
  split at h
  · cases h
    exact le_refl _
  split at h
  · cases h
    exact le_refl _
  -- whether the account is created does not matter to the gas
  generalize (if vm.statedb.snapshot.1.exist addr then vm.statedb.snapshot.1
    else vm.statedb.snapshot.1.createAccount ctx.crypto addr) = db at h
  split at h
  · next p _ =>
    rw [gasRemain_of_revertOnError h]
    exact runPrecompiledContract_gas_le p input gas
  · split at h
    · cases h
      exact le_refl _
    · obtain ⟨r', hr', h⟩ := bind_eq_ok h
      rw [gasRemain_of_revertOnError h]
      exact ih.run_gas hr'


theorem callCode_succ {caller addr : Address} {input : Bytes} {gas : UInt64} {value : Int} {vm : Evm}
    {r : CallResult} (h : callCode jt ctx isParallel (fuel + 1) caller addr input gas value vm = .ok r) :
    r.gasRemain.toNat ≤ gas.toNat := by
  rw [callCode] at h
  dsimp only at h
  split at h
  · cases h
    exact le_refl _
  split at h
  · cases h
    exact le_refl _
  split at h
  · next p _ =>
    rw [gasRemain_of_revertOnError h]
    exact runPrecompiledContract_gas_le p input gas
  · obtain ⟨r', hr', h⟩ := bind_eq_ok h
    rw [gasRemain_of_revertOnError h]
    exact ih.run_gas hr'

theorem delegateCall_succ {caller : Contract} {addr : Address} {input : Bytes} {gas : UInt64} {vm : Evm}
    {r : CallResult} (h : delegateCall jt ctx isParallel (fuel + 1) caller addr input gas vm = .ok r) :
    r.gasRemain.toNat ≤ gas.toNat := by
  rw [delegateCall] at h
  dsimp only at h
  split at h
  · cases h
    exact le_refl _
  split at h
  · next p _ =>
    rw [gasRemain_of_revertOnError h]
    exact runPrecompiledContract_gas_le p input gas
  · obtain ⟨r', hr', h⟩ := bind_eq_ok h
    rw [gasRemain_of_revertOnError h]
    exact ih.run_gas hr'

theorem staticCall_succ {caller addr : Address} {input : Bytes} {gas : UInt64} {vm : Evm}
    {r : CallResult} (h : staticCall jt ctx isParallel (fuel + 1) caller addr input gas vm = .ok r) :
    r.gasRemain.toNat ≤ gas.toNat := by
  rw [staticCall] at h
  dsimp only at h
  split at h
  · cases h
    exact le_refl _
  split at h
  · next p _ =>
    rw [gasRemain_of_revertOnError h]
    exact runPrecompiledContract_gas_le p input gas
  · obtain ⟨r', hr', h⟩ := bind_eq_ok h
    rw [gasRemain_of_revertOnError h]
    exact ih.run_gas hr'

/-- A creation returns at most what its run left: nothing on a failure after
the run, and what is left after the code is stored otherwise. -/
theorem create_succ {caller : Address} {code : Bytes} {codeHash : Hash} {gas : UInt64} {value : Int}
    {address : Address} {vm : Evm} {r : CreateResult}
    (h : create jt ctx isParallel (fuel + 1) caller code codeHash gas value address vm = .ok r) :
    r.gasRemain.toNat ≤ gas.toNat := by
  rw [create] at h
  dsimp only at h
  split at h
  · cases h
    exact le_refl _
  split at h
  · cases h
    exact le_refl _
  split at h
  · cases h
    exact le_refl _
  split at h
  · cases h
    exact le_refl _
  obtain ⟨r', hr', h⟩ := bind_eq_ok h
  have hrun : r'.contract.gas.toNat ≤ gas.toNat := ih.run_gas hr'
  split at h
  · split at h
    · cases h
      exact Nat.zero_le _
    · split at h
      · next c hc =>
        cases h
        exact le_trans (Contract.useGas_le hc) hrun
      · cases h
        exact Nat.zero_le _
  · obtain ⟨vm', -, h⟩ := bind_eq_ok h
    cases h
    exact hrun

theorem Create_succ {caller : Address} {code : Bytes} {gas : UInt64} {value : Int} {vm : Evm} {r : CreateResult}
    (h : Create jt ctx isParallel (fuel + 1) caller code gas value vm = .ok r) : r.gasRemain.toNat ≤ gas.toNat := by
  rw [Create] at h
  exact ih.create_gas h

theorem Create2_succ {caller : Address} {code : Bytes} {gas : UInt64} {endowment : Int} {salt : Word} {vm : Evm}
    {r : CreateResult} (h : Create2 jt ctx isParallel (fuel + 1) caller code gas endowment salt vm = .ok r) :
    r.gasRemain.toNat ≤ gas.toNat := by
  rw [Create2] at h
  exact ih.create_gas h

/-- The bounds at one fuel give them at the next. -/
theorem succ (hsound : GasSound jt) : GasBounds jt ctx isParallel (fuel + 1) where
  run_gas := ih.run_succ
  loop_gas := ih.loop_succ hsound
  executeAL_gas := ih.executeAL_succ
  opCall_gas := ih.opCall_succ
  opCallCode_gas := ih.opCallCode_succ
  opDelegateCall_gas := ih.opDelegateCall_succ
  opStaticCall_gas := ih.opStaticCall_succ
  opCreate_gas := ih.opCreate_succ
  opCreate2_gas := ih.opCreate2_succ
  call_gas := ih.call_succ
  callCode_gas := ih.callCode_succ
  delegateCall_gas := ih.delegateCall_succ
  staticCall_gas := ih.staticCall_succ
  create_gas := ih.create_succ
  Create_gas := ih.Create_succ
  Create2_gas := ih.Create2_succ

end GasBounds

/-- On a sound table the bounds hold at every fuel. -/
theorem gasBounds (hsound : GasSound jt) (fuel : Nat) : GasBounds jt ctx isParallel fuel := by
  induction fuel with
  | zero => exact gasBounds_zero
  | succ fuel ih => exact ih.succ hsound

end Bounds

/-! ## The frontier table -/

section Frontier

/-- An operation that cannot fail and keeps the contract keeps the gas. -/
theorem keepsGas_of_pure {g : Context → Frame → Evm → Frame × Evm × Bytes × Option EvmError}
    (hg : ∀ ctx frame vm, (g ctx frame vm).1.contract = frame.contract) :
    ExecFn.KeepsGas fun ctx frame vm => .ok (g ctx frame vm) := by
  intro ctx frame vm frame' vm' ret err h
  rw [← hg ctx frame vm, Except.ok.inj h]

theorem keepsGas_of_contract {f : ExecFn}
    (h : ∀ ctx frame vm frame' vm' ret err, f ctx frame vm = .ok (frame', vm', ret, err) →
      frame'.contract = frame.contract) :
    ExecFn.KeepsGas f := by
  intro ctx frame vm frame' vm' ret err hf
  rw [h ctx frame vm frame' vm' ret err hf]

theorem keepsGas_opStop : ExecFn.KeepsGas opStop := keepsGas_of_pure fun _ _ _ => rfl
theorem keepsGas_opJumpdest : ExecFn.KeepsGas opJumpdest := keepsGas_of_pure fun _ _ _ => rfl
theorem keepsGas_opPop : ExecFn.KeepsGas opPop := keepsGas_of_pure fun _ _ _ => rfl
theorem keepsGas_opPush1 : ExecFn.KeepsGas opPush1 := keepsGas_of_pure fun _ _ _ => rfl
theorem keepsGas_makePush (size : UInt64) (n : Nat) : ExecFn.KeepsGas (makePush size n) :=
  keepsGas_of_pure fun _ _ _ => rfl
theorem keepsGas_makeDup (size : Nat) : ExecFn.KeepsGas (makeDup size) := keepsGas_of_pure fun _ _ _ => rfl
theorem keepsGas_makeSwap (size : Nat) : ExecFn.KeepsGas (makeSwap size) := keepsGas_of_pure fun _ _ _ => rfl
theorem keepsGas_opSload : ExecFn.KeepsGas opSload := keepsGas_of_pure fun _ _ _ => rfl
theorem keepsGas_opBalance : ExecFn.KeepsGas opBalance := keepsGas_of_pure fun _ _ _ => rfl
theorem keepsGas_opExtCodeSize : ExecFn.KeepsGas opExtCodeSize := keepsGas_of_pure fun _ _ _ => rfl

theorem keepsGas_opSstore : ExecFn.KeepsGas opSstore :=
  keepsGas_of_contract fun _ _ _ _ _ _ _ h => by
    unfold opSstore at h
    split at h <;> cases h <;> rfl

theorem keepsGas_opSelfdestruct : ExecFn.KeepsGas opSelfdestruct :=
  keepsGas_of_contract fun _ _ _ _ _ _ _ h => by
    unfold opSelfdestruct at h
    split at h <;> cases h <;> rfl

theorem keepsGas_opReturn : ExecFn.KeepsGas opReturn :=
  keepsGas_of_contract fun _ _ _ _ _ _ _ h => by
    obtain ⟨ret, -, h⟩ := bind_eq_ok h
    cases h
    rfl

theorem keepsGas_opUndefined : ExecFn.KeepsGas opUndefined :=
  keepsGas_of_contract fun _ _ _ _ _ _ _ h => by
    obtain ⟨op, -, h⟩ := bind_eq_ok h
    cases h
    rfl

theorem keepsGas_of_frame {g : GasFn}
    (h : ∀ ctx frame vm size frame' vm' cost, g ctx frame vm size = .ok (frame', vm', cost) →
      frame'.contract = frame.contract) :
    GasFn.KeepsGas g := by
  intro ctx frame vm size frame' vm' cost hg
  rw [h ctx frame vm size frame' vm' cost hg]

theorem keepsGas_pureMemoryGascost : GasFn.KeepsGas pureMemoryGascost :=
  keepsGas_of_frame fun _ _ _ _ _ _ _ h => by
    unfold pureMemoryGascost at h
    split at h <;> cases h <;> rfl

theorem keepsGas_gasSelfdestruct : GasFn.KeepsGas gasSelfdestruct :=
  keepsGas_of_frame fun _ _ _ _ _ _ _ h => by
    cases h
    rfl

theorem keepsGas_gasSStore : GasFn.KeepsGas gasSStore :=
  keepsGas_of_frame fun _ _ _ _ _ _ _ h => by
    unfold gasSStore at h
    dsimp only at h
    split at h
    · cases h
      rfl
    split at h
    · split at h <;> cases h <;> rfl
    -- the refunds of a dirty slot, each a bind over the counter
    split at h
    · split at h
      · obtain ⟨db, -, h⟩ := bind_eq_ok h
        cases h
        rfl
      · split at h <;>
        · obtain ⟨db, -, h⟩ := bind_eq_ok h
          cases h
          rfl
    · obtain ⟨db, -, h⟩ := bind_eq_ok h
      cases h
      rfl

theorem safeAdd_toNat {x y z : UInt64} (h : safeAdd x y = some z) : z.toNat = x.toNat + y.toNat := by
  unfold safeAdd at h
  split at h
  · next hlt =>
    cases h
    rw [UInt64.toNat_add, Nat.mod_eq_of_lt hlt]
  · cases h

/-- `callGasTail` keeps the frame, and what it charges covers the gas it
sets aside for the call and the base it is given. -/
theorem callGasTail_cover {frame frame' : Frame} {vm vm' : Evm} {gas memoryGas : UInt64}
    {cost : Except EvmError UInt64} (h : callGasTail frame vm gas memoryGas = (frame', vm', cost)) :
    frame' = frame ∧ ∀ c, cost = .ok c → vm'.callGasTemp.toNat + gas.toNat ≤ c.toNat := by
  unfold callGasTail at h
  split at h
  · cases h
    exact ⟨rfl, fun _ h => by cases h⟩
  · next gas₁ h₁ =>
    dsimp only at h
    split at h
    · cases h
      exact ⟨rfl, fun _ h => by cases h⟩
    · next gas₂ h₂ =>
      cases h
      refine ⟨rfl, fun c hc => ?_⟩
      cases hc
      have e₁ := safeAdd_toNat h₁
      have e₂ := safeAdd_toNat h₂
      dsimp only
      omega

/-- A credit of `callGasTemp` and, with a value, the stipend, is covered by
`callGasTemp` and a base of at least the stipend when there is a value. -/
theorem callOpGas_le_of_stipend {withValue : Bool} {frame : Frame} {vm : Evm} {g : Nat}
    (h : (popCallArgs withValue frame.stack).1.value != 0 → CallStipend.toNat ≤ g) :
    callOpGas withValue frame vm ≤ vm.callGasTemp.toNat + g := by
  unfold callOpGas
  split
  · next hv =>
    have := h hv
    omega
  · omega

/-- `gasCall` keeps the contract, and charges the gas it sets aside for the
call and, with a value, `CallValueTransferGas`. -/
theorem gasCall_cover {ctx : Context} {frame frame' : Frame} {vm vm' : Evm} {size : UInt64}
    {cost : Except EvmError UInt64} (h : gasCall ctx frame vm size = .ok (frame', vm', cost)) :
    frame'.contract = frame.contract ∧ ∀ c, cost = .ok c → callOpGas true frame' vm' ≤ c.toNat := by
  unfold gasCall at h
  dsimp only at h
  split at h
  · cases h
    exact ⟨rfl, fun _ h => by cases h⟩
  · obtain ⟨rfl, hcover⟩ := callGasTail_cover (Except.ok.inj h)
    refine ⟨rfl, fun c hc => le_trans (callOpGas_le_of_stipend fun hv => ?_) (hcover c hc)⟩
    rw [popCallArgs_value, if_pos rfl] at hv
    dsimp only at hv
    rw [if_pos hv]
    split_ifs <;> decide

/-- `gasCallCode` keeps the contract, and charges the gas it sets aside for
the call and, with a value, `CallValueTransferGas`. -/
theorem gasCallCode_cover {ctx : Context} {frame frame' : Frame} {vm vm' : Evm} {size : UInt64}
    {cost : Except EvmError UInt64} (h : gasCallCode ctx frame vm size = .ok (frame', vm', cost)) :
    frame'.contract = frame.contract ∧ ∀ c, cost = .ok c → callOpGas true frame' vm' ≤ c.toNat := by
  unfold gasCallCode at h
  dsimp only at h
  split at h
  · cases h
    exact ⟨rfl, fun _ h => by cases h⟩
  · obtain ⟨rfl, hcover⟩ := callGasTail_cover (Except.ok.inj h)
    refine ⟨rfl, fun c hc => le_trans (callOpGas_le_of_stipend fun hv => ?_) (hcover c hc)⟩
    rw [popCallArgs_value, if_pos rfl] at hv
    dsimp only at hv
    rw [if_pos hv]
    decide

theorem keepsGas_gasCall : GasFn.KeepsGas gasCall :=
  keepsGas_of_frame fun _ _ _ _ _ _ _ h => (gasCall_cover h).1

theorem keepsGas_gasCallCode : GasFn.KeepsGas gasCallCode :=
  keepsGas_of_frame fun _ _ _ _ _ _ _ h => (gasCallCode_cover h).1

theorem keepsGas_execOp {f : ExecFn} (hf : ExecFn.KeepsGas f) {dynamicGas : Option GasFn}
    (hg : ∀ g, dynamicGas = some g → GasFn.KeepsGas g) (constantGas : UInt64) (pops push : Nat)
    (memorySize : Option MemorySizeFn) : (execOp f constantGas dynamicGas pops push memorySize).KeepsGas where
  execute _ h := by
    cases h
    exact hf
  dynamicGas := hg

theorem keepsGas_alOp (a : ExecuteAL) (constantGas : UInt64) {g : GasFn} (hg : GasFn.KeepsGas g) (pops push : Nat)
    (memorySize : MemorySizeFn) : (alOp a constantGas g pops push memorySize).KeepsGas where
  execute _ h := by cases h
  dynamicGas _ h := by
    cases h
    exact hg

theorem keepsGas_undefinedOp : undefinedOp.KeepsGas where
  execute _ h := by
    cases h
    exact keepsGas_opUndefined
  dynamicGas _ h := by cases h

/-- Every entry of the frontier table keeps the gas, if those it leaves to
`others` do. -/
theorem keepsGas_frontierInstructionSet {others : OpCode → Operation} (hothers : ∀ op, (others op).KeepsGas)
    (op : OpCode) : (frontierInstructionSet others op).KeepsGas := by
  have hnone : ∀ g, (none : Option GasFn) = some g → GasFn.KeepsGas g := fun _ h => by cases h
  have hsome : ∀ {g : GasFn}, GasFn.KeepsGas g → ∀ g', some g = some g' → GasFn.KeepsGas g' := by
    intro g hg g' h
    cases h
    exact hg
  have step : ∀ {c : Prop} [Decidable c] {a b : Operation}, a.KeepsGas → b.KeepsGas →
      (if c then a else b).KeepsGas := fun ha hb => iteInduction (fun _ => ha) fun _ => hb
  -- one entry of the table after another, in its order
  unfold frontierInstructionSet
  refine step (keepsGas_execOp keepsGas_opStop hnone _ _ _ _) ?_
  refine step (keepsGas_execOp keepsGas_opBalance hnone _ _ _ _) ?_
  refine step (keepsGas_execOp keepsGas_opExtCodeSize hnone _ _ _ _) ?_
  refine step (keepsGas_execOp keepsGas_opPop hnone _ _ _ _) ?_
  refine step (keepsGas_execOp keepsGas_opSload hnone _ _ _ _) ?_
  refine step (keepsGas_execOp keepsGas_opSstore (hsome keepsGas_gasSStore) _ _ _ _) ?_
  refine step (keepsGas_execOp keepsGas_opJumpdest hnone _ _ _ _) ?_
  refine step (keepsGas_execOp keepsGas_opPush1 hnone _ _ _ _) ?_
  refine step (keepsGas_execOp (keepsGas_makePush _ _) hnone _ _ _ _) ?_
  refine step (keepsGas_execOp (keepsGas_makeDup _) hnone _ _ _ _) ?_
  refine step (keepsGas_execOp (keepsGas_makeSwap _) hnone _ _ _ _) ?_
  refine step (keepsGas_alOp _ _ keepsGas_pureMemoryGascost _ _ _) ?_
  refine step (keepsGas_alOp _ _ keepsGas_gasCall _ _ _) ?_
  refine step (keepsGas_alOp _ _ keepsGas_gasCallCode _ _ _) ?_
  refine step (keepsGas_execOp keepsGas_opReturn (hsome keepsGas_pureMemoryGascost) _ _ _ _) ?_
  refine step (keepsGas_execOp keepsGas_opSelfdestruct (hsome keepsGas_gasSelfdestruct) _ _ _ _) ?_
  exact step (hothers op) keepsGas_undefinedOp

theorem frontierInstructionSet_call (others : OpCode → Operation) :
    frontierInstructionSet others OpCode.CALL = alOp .opCall CallGasFrontier gasCall 7 1 memoryCall := rfl

theorem frontierInstructionSet_callCode (others : OpCode → Operation) :
    frontierInstructionSet others OpCode.CALLCODE = alOp .opCallCode CallGasFrontier gasCallCode 7 1 memoryCall :=
  rfl

/-- Of the frontier table's entries only `CALL`'s and `CALLCODE`'s have a
credit, if those it leaves to `others` have no `executeAL`: `CREATE` passes
on the frame's own gas. -/
theorem alCredit_frontierInstructionSet {others : OpCode → Operation} (hcall : ∀ op, (others op).executeAL = none)
    {op : OpCode} (hc : op ≠ OpCode.CALL) (hcc : op ≠ OpCode.CALLCODE) (frame : Frame) (vm : Evm) :
    alCredit (frontierInstructionSet others op) frame vm = 0 := by
  have step : ∀ {c : Prop} [Decidable c] {a b : Operation}, (c → alCredit a frame vm = 0) →
      (¬c → alCredit b frame vm = 0) → alCredit (if c then a else b) frame vm = 0 :=
    fun ha hb => iteInduction (motive := fun o => alCredit o frame vm = 0) ha hb
  unfold frontierInstructionSet
  -- `STOP` to the swaps
  refine step (fun _ => rfl) fun _ => step (fun _ => rfl) fun _ => step (fun _ => rfl) fun _ => ?_
  refine step (fun _ => rfl) fun _ => step (fun _ => rfl) fun _ => step (fun _ => rfl) fun _ => ?_
  refine step (fun _ => rfl) fun _ => step (fun _ => rfl) fun _ => step (fun _ => rfl) fun _ => ?_
  refine step (fun _ => rfl) fun _ => step (fun _ => rfl) fun _ => ?_
  -- `CREATE`, `CALL`, `CALLCODE`, `RETURN`, `SELFDESTRUCT`, and the rest
  refine step (fun _ => rfl) fun _ => step (fun h => absurd h hc) fun _ => step (fun h => absurd h hcc) fun _ => ?_
  refine step (fun _ => rfl) fun _ => step (fun _ => rfl) fun _ => ?_
  exact step (fun _ => by simp only [alCredit, hcall]) fun _ => rfl

theorem prepare_credit_frontierInstructionSet {others : OpCode → Operation} (hothers : ∀ op, (others op).KeepsGas)
    (hcall : ∀ op, (others op).executeAL = none) {op : OpCode} {ctx : Context} {frame frame' : Frame} {vm vm' : Evm}
    (h : prepare ctx (frontierInstructionSet others op) frame vm = .ok (frame', vm', none)) :
    frame'.contract.gas.toNat + alCredit (frontierInstructionSet others op) frame' vm' ≤ frame.contract.gas.toNat := by
  by_cases hc : op = OpCode.CALL
  · subst hc
    rw [frontierInstructionSet_call] at h ⊢
    exact prepare_credit_le (callOpGas true) (fun _ _ _ _ => rfl) rfl
      (fun _ _ _ _ _ _ hg => ⟨le_of_eq (congrArg (·.gas.toNat) (gasCall_cover hg).1), (gasCall_cover hg).2 _ rfl⟩) h
  by_cases hcc : op = OpCode.CALLCODE
  · subst hcc
    rw [frontierInstructionSet_callCode] at h ⊢
    exact prepare_credit_le (callOpGas true) (fun _ _ _ _ => rfl) rfl
      (fun _ _ _ _ _ _ hg => ⟨le_of_eq (congrArg (·.gas.toNat) (gasCallCode_cover hg).1),
        (gasCallCode_cover hg).2 _ rfl⟩) h
  · have hle := prepare_le (keepsGas_frontierInstructionSet hothers op) h
    rw [alCredit_frontierInstructionSet hcall hc hcc]
    omega

/-- The frontier table is sound, if the entries it leaves to `others` keep the
gas and neither call nor create. -/
theorem gasSound_frontierInstructionSet {others : OpCode → Operation} (hothers : ∀ op, (others op).KeepsGas)
    (hcall : ∀ op, (others op).executeAL = none) : GasSound (frontierInstructionSet others) where
  keepsGas := keepsGas_frontierInstructionSet hothers
  prepare_credit _ _ _ _ _ _ h := prepare_credit_frontierInstructionSet hothers hcall h

/-- `LOG0` to `LOG4` keep the gas and neither call nor create. -/
theorem keepsGas_makeLog (size : Nat) : ExecFn.KeepsGas (makeLog size) :=
  keepsGas_of_contract fun _ frame _ _ _ _ _ h => by
    unfold makeLog at h
    split at h
    · cases h
      rfl
    · generalize Stack.popN size (Stack.pop (Stack.pop frame.stack).2).2 = tp at h
      obtain ⟨d, -, h⟩ := bind_eq_ok h
      cases h
      rfl

theorem keepsGas_makeGasLog (n : UInt64) : GasFn.KeepsGas (makeGasLog n) :=
  keepsGas_of_frame fun _ _ _ _ _ _ _ h => by
    unfold makeGasLog at h
    dsimp only at h
    split at h
    · cases h
      rfl
    · split at h <;> cases h <;> rfl

theorem keepsGas_logInstructionSet {others : OpCode → Operation} (hothers : ∀ op, (others op).KeepsGas)
    (op : OpCode) : (logInstructionSet others op).KeepsGas := by
  unfold logInstructionSet
  exact iteInduction (fun _ => keepsGas_execOp (keepsGas_makeLog _)
    (fun _ h => by cases h; exact keepsGas_makeGasLog _) _ _ _ _) fun _ => hothers op

theorem executeAL_logInstructionSet {others : OpCode → Operation} (hcall : ∀ op, (others op).executeAL = none)
    (op : OpCode) : (logInstructionSet others op).executeAL = none := by
  unfold logInstructionSet
  exact iteInduction (motive := fun o : Operation => o.executeAL = none) (fun _ => rfl) fun _ => hcall op

end Frontier

/-! ## No call gives back more than it was given -/

/-- On the frontier table, whatever the entries it leaves to `others` do short
of calling, creating or raising the frame's gas, at any fuel and from any
state: a run ends with at most the gas its contract started with, and
`Call`, `CallCode`, `DelegateCall`, `StaticCall` and `create` return at most
the gas they were given. -/
theorem frontier_gasRemain_le (others : OpCode → Operation) (hothers : ∀ op, (others op).KeepsGas)
    (hcall : ∀ op, (others op).executeAL = none) (ctx : Context) (isParallel : Bool) (fuel : Nat) :
    (∀ contract input readOnly vm r,
      run (frontierInstructionSet others) ctx isParallel fuel contract input readOnly vm = .ok r →
        r.contract.gas ≤ contract.gas) ∧
    (∀ caller addr input gas value vm r,
      call (frontierInstructionSet others) ctx isParallel fuel caller addr input gas value vm = .ok r →
        r.gasRemain ≤ gas) ∧
    (∀ caller addr input gas value vm r,
      callCode (frontierInstructionSet others) ctx isParallel fuel caller addr input gas value vm = .ok r →
        r.gasRemain ≤ gas) ∧
    (∀ caller addr input gas vm r,
      delegateCall (frontierInstructionSet others) ctx isParallel fuel caller addr input gas vm = .ok r →
        r.gasRemain ≤ gas) ∧
    (∀ caller addr input gas vm r,
      staticCall (frontierInstructionSet others) ctx isParallel fuel caller addr input gas vm = .ok r →
        r.gasRemain ≤ gas) ∧
    (∀ caller code codeHash gas value address vm r,
      create (frontierInstructionSet others) ctx isParallel fuel caller code codeHash gas value address vm = .ok r →
        r.gasRemain ≤ gas) := by
  have hb : GasBounds (frontierInstructionSet others) ctx isParallel fuel :=
    gasBounds (gasSound_frontierInstructionSet hothers hcall) fuel
  refine ⟨fun _ _ _ _ _ h => ?_, fun _ _ _ _ _ _ _ h => ?_, fun _ _ _ _ _ _ _ h => ?_, fun _ _ _ _ _ _ h => ?_,
    fun _ _ _ _ _ _ h => ?_, fun _ _ _ _ _ _ _ _ h => ?_⟩
  · exact UInt64.le_iff_toNat_le.mpr (hb.run_gas h)
  · exact UInt64.le_iff_toNat_le.mpr (hb.call_gas h)
  · exact UInt64.le_iff_toNat_le.mpr (hb.callCode_gas h)
  · exact UInt64.le_iff_toNat_le.mpr (hb.delegateCall_gas h)
  · exact UInt64.le_iff_toNat_le.mpr (hb.staticCall_gas h)
  · exact UInt64.le_iff_toNat_le.mpr (hb.create_gas h)

/-- The frontier table with the log entries and every other entry it leaves
to `others` undefined, the table the log calls of the executor run on, in a
parallel group. -/
theorem frontier_gasRemain_le_logs :
    (∀ op, (logInstructionSet (fun _ => undefinedOp) op).KeepsGas) ∧
    (∀ op, (logInstructionSet (fun _ => undefinedOp) op).executeAL = none) ∧
    (∀ contract input readOnly vm r,
      run (frontierInstructionSet (logInstructionSet fun _ => undefinedOp)) callsTargetContext true 30 contract input
        readOnly vm = .ok r → r.contract.gas ≤ contract.gas) ∧
    (∀ caller addr input gas value vm r,
      call (frontierInstructionSet (logInstructionSet fun _ => undefinedOp)) callsTargetContext true 30 caller addr
        input gas value vm = .ok r → r.gasRemain ≤ gas) ∧
    (∀ caller addr input gas value vm r,
      callCode (frontierInstructionSet (logInstructionSet fun _ => undefinedOp)) callsTargetContext true 30 caller addr
        input gas value vm = .ok r → r.gasRemain ≤ gas) ∧
    (∀ caller addr input gas vm r,
      delegateCall (frontierInstructionSet (logInstructionSet fun _ => undefinedOp)) callsTargetContext true 30 caller
        addr input gas vm = .ok r → r.gasRemain ≤ gas) ∧
    (∀ caller addr input gas vm r,
      staticCall (frontierInstructionSet (logInstructionSet fun _ => undefinedOp)) callsTargetContext true 30 caller
        addr input gas vm = .ok r → r.gasRemain ≤ gas) ∧
    (∀ caller code codeHash gas value address vm r,
      create (frontierInstructionSet (logInstructionSet fun _ => undefinedOp)) callsTargetContext true 30 caller code
        codeHash gas value address vm = .ok r → r.gasRemain ≤ gas) :=
  ⟨keepsGas_logInstructionSet fun _ => keepsGas_undefinedOp, executeAL_logInstructionSet fun _ => rfl,
    frontier_gasRemain_le _ (keepsGas_logInstructionSet fun _ => keepsGas_undefinedOp)
      (executeAL_logInstructionSet fun _ => rfl) callsTargetContext true 30⟩

end Pangu
