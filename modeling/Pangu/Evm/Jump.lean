import Pangu.Evm.Analysis
import Pangu.Evm.Reaches

/-!
# The jumps, and that the interpreter runs only instructions

`JUMP`, `JUMPI` and `PC` of `newFrontierInstructionSet` (`core/evm/jump_table.go`)
are among the entries `frontierInstructionSet` leaves to `others`:
`jumpInstructionSet others` is `others` with them. `opJump` and `opJumpi`
(`instructions.go`) go to a destination `validJumpdest` accepts, and set `pc`
one before it for the loop's increment; `opPc` pushes `pc`.

On the frontier table with the jumps, where the entries left to `others` keep
`pc` and the code, every state the loop of `Run` reaches (`LoopReaches`) while
it executes is at the start of an instruction (`run_reaches_boundary`): no turn
runs push data as code. What each
entry contributes is `Operation.KeepsBoundary`: a push goes on after its data, a
jump at a `JUMPDEST` that starts an instruction, every other operation at the
next byte.
-/

namespace Pangu

open Go

def OpCode.JUMP : OpCode := 0x56
def OpCode.JUMPI : OpCode := 0x57
def OpCode.PC : OpCode := 0x58

/-! ## The operations -/

/-- `opJump`. `interpreter.evm.abort` is never set: `EVM.Cancel` has no caller.
The frame holds no cache of the analysis, so the check starts from empty ones:
the contract's own `analysis` and the `jumpdests` map of its call tree, as the
code threads them, decide every jump as that check does (`checkJumps_fresh`). -/
def opJump : ExecFn := fun _ frame vm => do
  let (pos, st) := Stack.pop frame.stack
  let (valid, _) ← frame.contract.validJumpdest ⟨none, ∅⟩ pos
  if !valid then .ok ({ frame with stack := st }, vm, [], some .invalidJump)
  else .ok ({ frame with stack := st, pc := pos.toUInt64 - 1 }, vm, [], none)

/-- `opJumpi`: a jump if the condition is not zero. -/
def opJumpi : ExecFn := fun _ frame vm => do
  let (pos, st) := Stack.pop frame.stack
  let (cond, st) := Stack.pop st
  if cond != 0 then do
    let (valid, _) ← frame.contract.validJumpdest ⟨none, ∅⟩ pos
    if !valid then .ok ({ frame with stack := st }, vm, [], some .invalidJump)
    else .ok ({ frame with stack := st, pc := pos.toUInt64 - 1 }, vm, [], none)
  else .ok ({ frame with stack := st }, vm, [], none)

/-- `opPc`. -/
def opPc : ExecFn := fun _ frame vm =>
  .ok ({ frame with stack := (frame.pc.toNat : Word) :: frame.stack }, vm, [], none)

/-- The entries `JUMP`, `JUMPI` and `PC` over `others`. -/
def jumpInstructionSet (others : OpCode → Operation) (op : OpCode) : Operation :=
  if op = OpCode.JUMP then execOp opJump GasMidStep none 1 0 none
  else if op = OpCode.JUMPI then execOp opJumpi GasSlowStep none 2 0 none
  else if op = OpCode.PC then execOp opPc GasQuickStep none 0 1 none
  else others op

theorem frontierInstructionSet_jump (others : OpCode → Operation) :
    frontierInstructionSet (jumpInstructionSet others) OpCode.JUMP = execOp opJump GasMidStep none 1 0 none :=
  rfl

theorem frontierInstructionSet_jumpi (others : OpCode → Operation) :
    frontierInstructionSet (jumpInstructionSet others) OpCode.JUMPI = execOp opJumpi GasSlowStep none 2 0 none :=
  rfl

/-! ## What keeps `pc` and the code -/

/-- A gas function that leaves `pc` and the code as they are. -/
def GasFn.KeepsPlace (g : GasFn) : Prop :=
  ∀ ctx frame vm size frame' vm' cost, g ctx frame vm size = .ok (frame', vm', cost) →
    frame'.pc = frame.pc ∧ frame'.contract.code = frame.contract.code

/-- An operation that leaves `pc` and the code as they are. -/
def ExecFn.KeepsPlace (f : ExecFn) : Prop :=
  ∀ ctx frame vm t, f ctx frame vm = .ok t → t.1.pc = frame.pc ∧ t.1.contract.code = frame.contract.code

/-- An entry whose charges and operation keep `pc` and the code: what the
control-flow proof needs of the entries left to `others`. -/
structure Operation.KeepsPlace (o : Operation) : Prop where
  execute : ∀ f, o.execute = some f → f.KeepsPlace
  dynamicGas : ∀ g, o.dynamicGas = some g → g.KeepsPlace

theorem Contract.useGas_code {c c' : Contract} {g : UInt64} (h : c.useGas g = some c') : c'.code = c.code := by
  unfold Contract.useGas at h
  split at h
  · cases h
  · cases h
    rfl

/-- The charges of a turn keep `pc` and the code, if the dynamic gas does. -/
theorem prepare_place {ctx : Context} {o : Operation} {frame frame' : Frame} {vm vm' : Evm}
    {e : Option EvmError} (hg : ∀ g, o.dynamicGas = some g → g.KeepsPlace)
    (h : prepare ctx o frame vm = .ok (frame', vm', e)) :
    frame'.pc = frame.pc ∧ frame'.contract.code = frame.contract.code := by
  unfold prepare at h
  by_cases h₁ : frame.stack.length < o.minStack
  · rw [if_pos h₁] at h
    cases h
    exact ⟨rfl, rfl⟩
  rw [if_neg h₁] at h
  by_cases h₂ : frame.stack.length > o.maxStack
  · rw [if_pos h₂] at h
    cases h
    exact ⟨rfl, rfl⟩
  rw [if_neg h₂] at h
  cases hc : frame.contract.useGas o.constantGas with
  | none =>
    rw [hc] at h
    cases h
    exact ⟨rfl, rfl⟩
  | some c =>
    have hc₁ := Contract.useGas_code hc
    rw [hc] at h
    dsimp only at h
    cases hd : o.dynamicGas with
    | none =>
      rw [hd] at h
      cases h
      exact ⟨rfl, hc₁⟩
    | some g =>
      rw [hd] at h
      dsimp only at h
      split at h
      · cases h
        exact ⟨rfl, hc₁⟩
      · obtain ⟨⟨frame₂, vm₂, cost⟩, hgas, h⟩ := bind_eq_ok h
        obtain ⟨hpc₂, hcode₂⟩ := hg g hd _ _ _ _ _ _ _ hgas
        dsimp only at h
        cases cost with
        | error _ =>
          cases h
          exact ⟨hpc₂, hcode₂.trans hc₁⟩
        | ok cost =>
          dsimp only at h
          cases hc₂ : frame₂.contract.useGas cost with
          | none =>
            rw [hc₂] at h
            cases h
            exact ⟨hpc₂, hcode₂.trans hc₁⟩
          | some c₂ =>
            rw [hc₂] at h
            cases h
            exact ⟨hpc₂, (Contract.useGas_code hc₂).trans (hcode₂.trans hc₁)⟩

theorem callOp_place {withValue checkWrite : Bool}
    {callee : Contract → Address → Bytes → UInt64 → Int → Evm → GoF CallResult} {frame : Frame} {vm : Evm}
    {r : ALResult} (h : callOp withValue checkWrite callee frame vm = .ok r) :
    r.frame.pc = frame.pc ∧ r.frame.contract.code = frame.contract.code := by
  unfold callOp at h
  obtain ⟨input, -, h⟩ := bind_eq_ok h
  split at h
  · cases h
    exact ⟨rfl, rfl⟩
  · obtain ⟨rc, -, h⟩ := bind_eq_ok h
    obtain ⟨⟨frame', vm'⟩, hfin, h⟩ := bind_eq_ok h
    cases h
    have hfin := lift_eq_ok hfin
    refine ⟨?_, by rw [finishCall_contract hfin]⟩
    unfold finishCall at hfin
    dsimp only at hfin
    split at hfin
    · obtain ⟨memory, -, hfin⟩ := bind_eq_ok hfin
      cases hfin
      rfl
    · cases hfin
      rfl

theorem createOp_place {withSalt : Bool}
    {callee : Address → Bytes → UInt64 → Int → Word → Evm → GoF CreateResult} {frame : Frame} {vm : Evm}
    {r : ALResult} (h : createOp withSalt callee frame vm = .ok r) :
    r.frame.pc = frame.pc ∧ r.frame.contract.code = frame.contract.code := by
  unfold createOp at h
  split at h
  · cases h
    exact ⟨rfl, rfl⟩
  · obtain ⟨input, -, h⟩ := bind_eq_ok h
    dsimp only at h
    obtain ⟨rc, -, h⟩ := bind_eq_ok h
    have hcode : ((frame.contract.useGas (frame.contract.gas - frame.contract.gas / 64)).getD
        frame.contract).code = frame.contract.code := by
      cases hu : frame.contract.useGas (frame.contract.gas - frame.contract.gas / 64) with
      | none => rfl
      | some c => exact Contract.useGas_code hu
    split at h <;>
    · cases h
      exact ⟨rfl, hcode⟩

/-- A call or a creation returns to the frame at its `pc`, in its code. -/
theorem executeAL_place {jt : JumpTable} {ctx : Context} {isParallel : Bool} {fuel : Nat} {o : Operation}
    {frame : Frame} {vm : Evm} {r : ALResult} (h : executeAL jt ctx isParallel fuel o frame vm = .ok r) :
    r.frame.pc = frame.pc ∧ r.frame.contract.code = frame.contract.code := by
  cases fuel with
  | zero => cases h
  | succ fuel =>
    unfold executeAL at h
    split at h
    · cases h
    all_goals
      cases fuel with
      | zero => cases h
      | succ fuel =>
        first
        | (rw [opCall] at h; exact callOp_place h)
        | (rw [opCallCode] at h; exact callOp_place h)
        | (rw [opDelegateCall] at h; exact callOp_place h)
        | (rw [opStaticCall] at h; exact callOp_place h)
        | (rw [opCreate] at h; exact createOp_place h)
        | (rw [opCreate2] at h; exact createOp_place h)

/-! ## The frontier's operations and gas functions keep their place -/

theorem keepsPlace_of_pure {g : Context → Frame → Evm → Frame × Evm × Bytes × Option EvmError}
    (hg : ∀ ctx frame vm, (g ctx frame vm).1.pc = frame.pc ∧ (g ctx frame vm).1.contract = frame.contract) :
    ExecFn.KeepsPlace fun ctx frame vm => .ok (g ctx frame vm) := by
  intro ctx frame vm t h
  cases h
  exact ⟨(hg ctx frame vm).1, by rw [(hg ctx frame vm).2]⟩

theorem keepsPlace_opStop : ExecFn.KeepsPlace opStop := keepsPlace_of_pure fun _ _ _ => ⟨rfl, rfl⟩
theorem keepsPlace_opJumpdest : ExecFn.KeepsPlace opJumpdest := keepsPlace_of_pure fun _ _ _ => ⟨rfl, rfl⟩
theorem keepsPlace_opPop : ExecFn.KeepsPlace opPop := keepsPlace_of_pure fun _ _ _ => ⟨rfl, rfl⟩
theorem keepsPlace_opPc : ExecFn.KeepsPlace opPc := keepsPlace_of_pure fun _ _ _ => ⟨rfl, rfl⟩
theorem keepsPlace_makeDup (size : Nat) : ExecFn.KeepsPlace (makeDup size) :=
  keepsPlace_of_pure fun _ _ _ => ⟨rfl, rfl⟩
theorem keepsPlace_makeSwap (size : Nat) : ExecFn.KeepsPlace (makeSwap size) :=
  keepsPlace_of_pure fun _ _ _ => ⟨rfl, rfl⟩
theorem keepsPlace_opSload : ExecFn.KeepsPlace opSload := keepsPlace_of_pure fun _ _ _ => ⟨rfl, rfl⟩
theorem keepsPlace_opBalance : ExecFn.KeepsPlace opBalance := keepsPlace_of_pure fun _ _ _ => ⟨rfl, rfl⟩
theorem keepsPlace_opExtCodeSize : ExecFn.KeepsPlace opExtCodeSize := keepsPlace_of_pure fun _ _ _ => ⟨rfl, rfl⟩

theorem keepsPlace_opSstore : ExecFn.KeepsPlace opSstore := by
  intro ctx frame vm t h
  unfold opSstore at h
  split at h <;>
  · cases h
    exact ⟨rfl, rfl⟩

theorem keepsPlace_opSelfdestruct : ExecFn.KeepsPlace opSelfdestruct := by
  intro ctx frame vm t h
  unfold opSelfdestruct at h
  split at h <;>
  · cases h
    exact ⟨rfl, rfl⟩

theorem keepsPlace_opReturn : ExecFn.KeepsPlace opReturn := by
  intro ctx frame vm t h
  obtain ⟨ret, -, h⟩ := bind_eq_ok h
  cases h
  exact ⟨rfl, rfl⟩

theorem keepsPlace_opUndefined : ExecFn.KeepsPlace opUndefined := by
  intro ctx frame vm t h
  obtain ⟨op, -, h⟩ := bind_eq_ok h
  cases h
  exact ⟨rfl, rfl⟩

/-- A gas function whose frame is the one it was given, but for the memory. -/
def GasFn.OnlyMemory (g : GasFn) : Prop :=
  ∀ ctx frame vm size frame' vm' cost, g ctx frame vm size = .ok (frame', vm', cost) →
    ∃ memory, frame' = { frame with memory := memory }

theorem GasFn.OnlyMemory.keepsPlace {g : GasFn} (h : g.OnlyMemory) : g.KeepsPlace := by
  intro ctx frame vm size frame' vm' cost hg
  obtain ⟨memory, rfl⟩ := h ctx frame vm size frame' vm' cost hg
  exact ⟨rfl, rfl⟩

theorem callGasTail_frame (frame : Frame) (vm : Evm) (gas memoryGas : UInt64) :
    (callGasTail frame vm gas memoryGas).1 = frame := by
  unfold callGasTail
  split
  · rfl
  · dsimp only
    split <;> rfl

theorem onlyMemory_pureMemoryGascost : pureMemoryGascost.OnlyMemory :=
  fun _ frame _ _ _ _ _ h => by
    unfold pureMemoryGascost at h
    split at h
    · cases h
      exact ⟨_, rfl⟩
    · cases h
      exact ⟨frame.memory, rfl⟩

theorem onlyMemory_gasCall : gasCall.OnlyMemory :=
  fun _ frame _ _ _ _ _ h => by
    unfold gasCall at h
    dsimp only at h
    split at h
    · cases h
      exact ⟨frame.memory, rfl⟩
    · rename_i mem _ _
      refine ⟨mem, ?_⟩
      have := congrArg (fun r => Except.map Prod.fst r) h
      simp only [Except.map, callGasTail_frame] at this
      exact (Except.ok.inj this).symm

theorem onlyMemory_gasCallCode : gasCallCode.OnlyMemory :=
  fun _ frame _ _ _ _ _ h => by
    unfold gasCallCode at h
    split at h
    · cases h
      exact ⟨frame.memory, rfl⟩
    · rename_i mem _ _
      refine ⟨mem, ?_⟩
      have := congrArg (fun r => Except.map Prod.fst r) h
      simp only [Except.map, callGasTail_frame] at this
      exact (Except.ok.inj this).symm

theorem onlyMemory_gasSelfdestruct : gasSelfdestruct.OnlyMemory :=
  fun _ frame _ _ _ _ _ h => by
    cases h
    exact ⟨frame.memory, rfl⟩

theorem onlyMemory_gasSStore : gasSStore.OnlyMemory :=
  fun _ frame _ _ _ _ _ h => by
    refine ⟨frame.memory, ?_⟩
    unfold gasSStore at h
    dsimp only at h
    split at h
    · cases h
      rfl
    split at h
    · split at h <;> cases h <;> rfl
    split at h
    · split at h
      · obtain ⟨db, -, h⟩ := bind_eq_ok h
        cases h
        rfl
      · split at h <;>
        · obtain ⟨db, -, h⟩ := bind_eq_ok h
          cases h
          rfl
    · obtain ⟨db, -, h⟩ := bind_eq_ok h
      cases h
      rfl

/-! ## Each entry goes on at the start of an instruction -/

/-- What the control-flow proof needs of the entry of `op`: its charges keep
`pc` and the code, and its operation, run at the start of an instruction of a
code too short for `pc` to wrap, goes on, if it does, in the same code and one
byte before the start of an instruction, for the loop's increment. -/
structure Operation.KeepsBoundary (op : OpCode) (o : Operation) : Prop where
  dynamicGas : ∀ g, o.dynamicGas = some g → g.KeepsPlace
  execute : ∀ ctx frame vm t, frame.contract.getOp frame.pc = op → Boundary frame.contract.code frame.pc.toNat →
    frame.contract.code.length + 33 ≤ 2 ^ 64 → Pangu.execute o ctx frame vm = .ok t → t.2.2.2 = none →
    t.1.contract.code = frame.contract.code ∧ Boundary frame.contract.code (t.1.pc + 1).toNat

theorem Contract.getOp_of_code {c c' : Contract} (h : c'.code = c.code) (n : UInt64) :
    c'.getOp n = c.getOp n := by
  rcases c' with ⟨_, _, _, code', _, _, _, _⟩
  dsimp only at h
  subst h
  rfl

/-- An opcode other than `STOP` that `GetOp` reads is a byte of the code. -/
theorem Contract.getOp_of_ne_stop {c : Contract} {n : UInt64} {op : OpCode} (h : c.getOp n = op)
    (hop : op ≠ OpCode.STOP) : n.toNat < c.code.length ∧ c.code.getD n.toNat 0 = op := by
  unfold Contract.getOp at h
  split at h
  · next hn =>
    refine ⟨hn, ?_⟩
    rw [List.getD_eq_getElem?_getD, List.getElem?_eq_getElem hn, Option.getD_some, ← h]
    rfl
  · exact absurd h.symm hop

/-- The instruction after the one at `pc`, at `pc + k` for `k` its length,
where `pc + k` does not wrap. -/
theorem Boundary.add_toNat {code : Bytes} {pc k : UInt64} (hb : Boundary code pc.toNat)
    (hpc : pc.toNat < code.length) (hlen : code.length + 33 ≤ 2 ^ 64)
    (hk : k.toNat = 1 + pushDataSize (code.getD pc.toNat 0)) : Boundary code (pc + k).toNat := by
  have hle := pushDataSize_le (code.getD pc.toNat 0)
  rw [UInt64.toNat_add, hk, Nat.mod_eq_of_lt (by omega), ← Nat.add_assoc]
  exact Boundary.next hpc hb

/-- A destination a jump takes, less the one the loop adds back, is the start
of an instruction. -/
theorem boundary_of_jump {c : Contract} {pos : Word} {cache : JumpdestCache} (hlen : c.code.length + 33 ≤ 2 ^ 64)
    (h : c.validJumpdest ⟨none, ∅⟩ pos = .ok (true, cache)) : Boundary c.code (pos.toUInt64 - 1 + 1).toNat := by
  obtain ⟨hin, hb⟩ := boundary_of_validJumpdest (by omega) h
  rw [UInt64.sub_add_cancel, Word.toUInt64, Nat.toUInt64_eq, UInt64.toNat_ofNat', Nat.mod_eq_of_lt (by omega)]
  exact hb

theorem keepsPlace_execOp {f : ExecFn} (hf : f.KeepsPlace) {dynamicGas : Option GasFn}
    (hg : ∀ g, dynamicGas = some g → g.KeepsPlace) (constantGas : UInt64) (pops push : Nat)
    (memorySize : Option MemorySizeFn) : (execOp f constantGas dynamicGas pops push memorySize).KeepsPlace where
  execute _ h := by
    cases h
    exact hf
  dynamicGas := hg

/-- An entry that keeps its place, of an opcode other than `STOP` and without
push data, goes on at the next byte. -/
theorem Operation.KeepsPlace.keepsBoundary {op : OpCode} {o : Operation} (ho : o.KeepsPlace)
    (hop : op ≠ OpCode.STOP) (hsize : pushDataSize op = 0) : o.KeepsBoundary op where
  dynamicGas := ho.dynamicGas
  execute ctx frame vm t hget hb hlen hexec _ := by
    obtain ⟨hpc, hcode⟩ := Contract.getOp_of_ne_stop hget hop
    unfold Pangu.execute at hexec
    split at hexec
    · next f hf =>
      obtain ⟨hpc', hcode'⟩ := ho.execute f hf ctx frame vm t hexec
      refine ⟨hcode', ?_⟩
      rw [hpc']
      exact Boundary.add_toNat hb hpc hlen (by rw [hcode, hsize]; rfl)
    · cases hexec

/-- An entry whose operation always ends the run. -/
theorem keepsBoundary_of_halts {op : OpCode} {o : Operation} (hg : ∀ g, o.dynamicGas = some g → g.KeepsPlace)
    (hhalt : ∀ ctx frame vm t, execute o ctx frame vm = .ok t → t.2.2.2.isSome = true) : o.KeepsBoundary op where
  dynamicGas := hg
  execute ctx frame vm t _ _ _ hexec herr := by
    have := hhalt ctx frame vm t hexec
    rw [herr] at this
    cases this

theorem keepsBoundary_stop : (execOp opStop 0 none 0 0 none).KeepsBoundary OpCode.STOP :=
  keepsBoundary_of_halts (fun _ h => by cases h) fun _ _ _ _ h => by
    cases h
    rfl

theorem keepsBoundary_undefinedOp (op : OpCode) : undefinedOp.KeepsBoundary op :=
  keepsBoundary_of_halts (fun _ h => by cases h) fun ctx frame vm _ h => by
    obtain ⟨b, -, h⟩ := bind_eq_ok (show opUndefined ctx frame vm = _ from h)
    cases h
    rfl

theorem keepsBoundary_alOp {op : OpCode} (a : ExecuteAL) (constantGas : UInt64) {g : GasFn} (hg : g.KeepsPlace)
    (pops push : Nat) (memorySize : MemorySizeFn) : (alOp a constantGas g pops push memorySize).KeepsBoundary op where
  dynamicGas _ h := by
    cases h
    exact hg
  execute _ _ _ _ _ _ _ h _ := by cases h

theorem keepsBoundary_push1 : (execOp opPush1 GasFastestStep none 0 1 none).KeepsBoundary OpCode.PUSH1 where
  dynamicGas _ h := by cases h
  execute ctx frame vm t hget hb hlen hexec _ := by
    obtain ⟨hpc, hcode⟩ := Contract.getOp_of_ne_stop hget (by decide)
    cases hexec
    refine ⟨rfl, ?_⟩
    show Boundary _ (frame.pc + 1 + 1).toNat
    rw [UInt64.add_assoc]
    exact Boundary.add_toNat hb hpc hlen (by rw [hcode]; decide)

/-- `PUSH2` to `PUSH32`: `makePush` goes on after the data. -/
theorem keepsBoundary_makePush {op : OpCode} (hop : (OpCode.PUSH1 < op && op ≤ OpCode.PUSH32) = true) :
    (execOp (makePush (op - OpCode.PUSH1 + 1).toNat.toUInt64 (op - OpCode.PUSH1 + 1).toNat) GasFastestStep none 0 1
      none).KeepsBoundary op where
  dynamicGas _ h := by cases h
  execute ctx frame vm t hget hb hlen hexec _ := by
    obtain ⟨hpc, hcode⟩ := Contract.getOp_of_ne_stop hget (by
      rintro rfl
      revert hop
      decide)
    have hpush : ¬ op.toInt8 < OpCode.PUSH1.toInt8 := by
      rw [toInt8_lt_push1_iff, not_not]
      simp only [OpCode.PUSH1, OpCode.PUSH32, Bool.and_eq_true, decide_eq_true_eq, UInt8.lt_iff_toNat_lt,
        UInt8.le_iff_toNat_le, UInt8.reduceToNat] at hop
      omega
    obtain ⟨hn, hle⟩ := pushDataSize_of_not_lt hpush
    cases hexec
    refine ⟨rfl, ?_⟩
    show Boundary _ (frame.pc + (op - OpCode.PUSH1 + 1).toNat.toUInt64 + 1).toNat
    rw [UInt64.add_assoc]
    refine Boundary.add_toNat hb hpc hlen ?_
    rw [UInt64.toNat_add, Nat.toUInt64_eq, UInt64.toNat_ofNat', UInt64.toNat_one, hcode, hn]
    omega

theorem keepsBoundary_jump : (execOp opJump GasMidStep none 1 0 none).KeepsBoundary OpCode.JUMP where
  dynamicGas _ h := by cases h
  execute ctx frame vm t _ _ hlen hexec herr := by
    replace hexec : opJump ctx frame vm = .ok t := hexec
    unfold opJump at hexec
    obtain ⟨⟨valid, cache⟩, hvalid, hexec⟩ := bind_eq_ok hexec
    cases valid with
    | false =>
      cases hexec
      cases herr
    | true =>
      cases hexec
      exact ⟨rfl, boundary_of_jump hlen hvalid⟩

theorem keepsBoundary_jumpi : (execOp opJumpi GasSlowStep none 2 0 none).KeepsBoundary OpCode.JUMPI where
  dynamicGas _ h := by cases h
  execute ctx frame vm t hget hb hlen hexec herr := by
    replace hexec : opJumpi ctx frame vm = .ok t := hexec
    unfold opJumpi at hexec
    dsimp only at hexec
    split at hexec
    · obtain ⟨⟨valid, cache⟩, hvalid, hexec⟩ := bind_eq_ok hexec
      cases valid with
      | false =>
        cases hexec
        cases herr
      | true =>
        cases hexec
        exact ⟨rfl, boundary_of_jump hlen hvalid⟩
    · -- the condition is zero: the next instruction
      obtain ⟨hpc, hcode⟩ := Contract.getOp_of_ne_stop hget (by decide)
      cases hexec
      exact ⟨rfl, Boundary.add_toNat hb hpc hlen (by rw [hcode]; decide)⟩

theorem keepsPlace_undefinedOp : undefinedOp.KeepsPlace where
  execute _ h := by
    cases h
    exact keepsPlace_opUndefined
  dynamicGas _ h := by cases h

theorem pushDataSize_of_isCall {op : OpCode} (h : op.isCall = true) : pushDataSize op = 0 := by
  simp only [OpCode.isCall, Bool.or_eq_true, beq_iff_eq] at h
  rcases h with ((h | h) | h) | h <;> subst h <;> decide

/-- Every entry of the frontier table with the jumps keeps the boundary, if the
entries it leaves to `others` keep their place. -/
theorem keepsBoundary_frontierInstructionSet {others : OpCode → Operation} (hothers : ∀ op, (others op).KeepsPlace)
    (op : OpCode) : (frontierInstructionSet (jumpInstructionSet others) op).KeepsBoundary op := by
  have hnone : ∀ g, (none : Option GasFn) = some g → g.KeepsPlace := fun _ h => by cases h
  have hsome : ∀ {g : GasFn}, g.KeepsPlace → ∀ g', some g = some g' → g'.KeepsPlace := by
    intro g hg g' h
    cases h
    exact hg
  have step : ∀ {c : Prop} [Decidable c] {a b : Operation}, (c → a.KeepsBoundary op) →
      (¬ c → b.KeepsBoundary op) → (if c then a else b).KeepsBoundary op :=
    fun ha hb => iteInduction ha hb
  have named : ∀ {f : ExecFn} {g : Option GasFn} {x : OpCode}, f.KeepsPlace → (∀ g', g = some g' → g'.KeepsPlace) →
      x ≠ OpCode.STOP → pushDataSize x = 0 → ∀ c pops push ms, op = x → (execOp f c g pops push ms).KeepsBoundary op := by
    rintro f g x hf hg hx hsize c pops push ms rfl
    exact (keepsPlace_execOp hf hg c pops push ms).keepsBoundary hx hsize
  have past : ∀ {o : Operation}, o.KeepsPlace → 0x80 ≤ op.toNat → o.KeepsBoundary op := by
    intro o ho h
    refine ho.keepsBoundary ?_ (pushDataSize_eq_zero (.inr h))
    rintro rfl
    exact absurd h (by decide)
  unfold frontierInstructionSet
  refine step (fun h => h ▸ keepsBoundary_stop) fun hstop => ?_
  refine step (named keepsPlace_opBalance hnone (by decide) (by decide) _ _ _ _) fun _ => ?_
  refine step (named keepsPlace_opExtCodeSize hnone (by decide) (by decide) _ _ _ _) fun _ => ?_
  refine step (named keepsPlace_opPop hnone (by decide) (by decide) _ _ _ _) fun _ => ?_
  refine step (named keepsPlace_opSload hnone (by decide) (by decide) _ _ _ _) fun _ => ?_
  refine step (named keepsPlace_opSstore (hsome onlyMemory_gasSStore.keepsPlace) (by decide) (by decide) _ _ _ _)
    fun _ => ?_
  refine step (named keepsPlace_opJumpdest hnone (by decide) (by decide) _ _ _ _) fun _ => ?_
  refine step (fun h => h ▸ keepsBoundary_push1) fun hpush1 => ?_
  refine step keepsBoundary_makePush fun hpush => ?_
  refine step (fun h => past (keepsPlace_execOp (keepsPlace_makeDup _) hnone _ _ _ _) ?_) fun _ => ?_
  · simp only [OpCode.DUP1, OpCode.SWAP1, Bool.and_eq_true, decide_eq_true_eq, UInt8.le_iff_toNat_le,
      UInt8.reduceToNat] at h
    exact h.1
  refine step (fun h => past (keepsPlace_execOp (keepsPlace_makeSwap _) hnone _ _ _ _) ?_) fun _ => ?_
  · simp only [OpCode.SWAP1, Bool.and_eq_true, decide_eq_true_eq, UInt8.le_iff_toNat_le, UInt8.reduceToNat] at h
    omega
  refine step (fun _ => keepsBoundary_alOp _ _ onlyMemory_pureMemoryGascost.keepsPlace _ _ _) fun _ => ?_
  refine step (fun _ => keepsBoundary_alOp _ _ onlyMemory_gasCall.keepsPlace _ _ _) fun _ => ?_
  refine step (fun _ => keepsBoundary_alOp _ _ onlyMemory_gasCallCode.keepsPlace _ _ _) fun _ => ?_
  refine step
    (named keepsPlace_opReturn (hsome onlyMemory_pureMemoryGascost.keepsPlace) (by decide) (by decide) _ _ _ _)
    fun _ => ?_
  refine step
    (named keepsPlace_opSelfdestruct (hsome onlyMemory_gasSelfdestruct.keepsPlace) (by decide) (by decide) _ _ _ _)
    fun _ => ?_
  refine step (fun _ => ?_) fun _ => keepsBoundary_undefinedOp op
  -- the entries `jumpInstructionSet` adds, and then those of `others`, which are not pushes
  unfold jumpInstructionSet
  refine step (fun h => h ▸ keepsBoundary_jump) fun _ => ?_
  refine step (fun h => h ▸ keepsBoundary_jumpi) fun _ => ?_
  refine step (named keepsPlace_opPc hnone (by decide) (by decide) _ _ _ _) fun _ => ?_
  refine (hothers op).keepsBoundary hstop (pushDataSize_eq_zero ?_)
  have hne : op.toNat ≠ 0x60 := fun h => hpush1 (UInt8.toNat_inj.mp h)
  simp only [OpCode.PUSH1, OpCode.PUSH32, Bool.and_eq_true, decide_eq_true_eq, UInt8.lt_iff_toNat_lt,
    UInt8.le_iff_toNat_le, UInt8.reduceToNat] at hpush
  omega

/-! ## Every state a run reaches is at the start of an instruction -/

/-- The invariant of the loop: the code is the one the run started with, and
while the loop executes (`isParallel || CanParallel`), `pc` is at the start of
an instruction. -/
structure LoopState.AtBoundary (isParallel : Bool) (code : Bytes) (s : LoopState) : Prop where
  code_eq : s.frame.contract.code = code
  boundary : (isParallel || s.canParallel) = true → Boundary code s.frame.pc.toNat

section Boundary

variable {jt : JumpTable} {ctx : Context} {isParallel : Bool} {code : Bytes}

/-- One turn that goes on keeps the invariant, one case for each way it ran. -/
theorem LoopState.AtBoundary.next (hjt : ∀ op, (jt op).KeepsBoundary op) (hlen : code.length + 33 ≤ 2 ^ 64)
    {n : Nat} {s : LoopState} {frame₁ : Frame} {vm₁ vm₂ : Evm} {canParallel₂ : Bool}
    {turn : Frame × Evm × Bytes × Option EvmError × Bool} (hs : s.AtBoundary isParallel code)
    (hprepare : prepare ctx (jt (s.frame.contract.getOp s.frame.pc)) s.frame s.vm = .ok (frame₁, vm₁, none))
    (hcheck : accessCheck (s.frame.contract.getOp s.frame.pc) frame₁ vm₁ isParallel s.canParallel =
      .ok (vm₂, canParallel₂))
    (hturn : LoopTurn jt ctx isParallel n (s.frame.contract.getOp s.frame.pc) frame₁ vm₂ canParallel₂ s.res turn)
    (hgo : (turn.2.2.2.1.isSome || (isParallel && !turn.2.2.2.2)) = false) :
    (LoopState.next turn).AtBoundary isParallel code := by
  generalize hop : s.frame.contract.getOp s.frame.pc = op at hprepare hcheck hturn
  obtain ⟨hpc₁, hcode₁⟩ := prepare_place (hjt op).dynamicGas hprepare
  have hcode : frame₁.contract.code = code := hcode₁.trans hs.code_eq
  have hget : frame₁.contract.getOp frame₁.pc = op := by rw [Contract.getOp_of_code hcode₁, hpc₁, hop]
  -- the access check only clears `CanParallel`, so a turn that executes ran at a boundary
  have hb : (isParallel || canParallel₂) = true → Boundary code frame₁.pc.toNat := by
    intro h
    rw [hpc₁]
    apply hs.boundary
    simp only [Bool.or_eq_true] at h ⊢
    exact h.imp_right (accessCheck_canParallel hcheck)
  cases hturn with
  | parallelCreate _ hpar _ =>
    simp [hpar] at hgo
  | serialCreate _ hpar hal =>
    obtain ⟨-, hcode'⟩ := executeAL_place hal
    refine ⟨hcode'.trans hcode, fun h => ?_⟩
    simp only [LoopState.next, hpar, Bool.or_false, Bool.false_eq_true] at h
  | call _ hgo' hcall hal =>
    obtain ⟨hpc', hcode'⟩ := executeAL_place hal
    refine ⟨hcode'.trans hcode, fun _ => ?_⟩
    obtain ⟨hlt, hbyte⟩ := Contract.getOp_of_ne_stop hget fun h => absurd (h ▸ hcall) (by decide)
    rw [hcode] at hlt hbyte
    dsimp only [LoopState.next]
    rw [hpc']
    exact Boundary.add_toNat (hb hgo') hlt hlen (by rw [hbyte, pushDataSize_of_isCall hcall]; rfl)
  | @plain frame' vm' res' err _ hgo' _ hexec =>
    have herr : err = none := by
      simp only [Bool.or_eq_false_iff, Option.isSome_eq_false_iff, Option.isNone_iff_eq_none] at hgo
      exact hgo.1
    obtain ⟨hcode', hbd⟩ := (hjt op).execute ctx frame₁ vm₂ _ hget (hcode ▸ hb hgo') (hcode ▸ hlen) hexec herr
    exact ⟨hcode'.trans hcode, fun _ => hcode ▸ hbd⟩
  | skip _ hgo' =>
    refine ⟨hcode, fun h => ?_⟩
    dsimp only [LoopState.next] at h
    rw [hgo'] at h
    cases h

/-- The invariant holds at every state a run reaches. -/
theorem LoopReaches.atBoundary (hjt : ∀ op, (jt op).KeepsBoundary op) (hlen : code.length + 33 ≤ 2 ^ 64)
    {n m : Nat} {s t : LoopState} (h : LoopReaches jt ctx isParallel n s m t) (hs : s.AtBoundary isParallel code) :
    t.AtBoundary isParallel code := by
  induction h with
  | refl => exact hs
  | step hprepare hcheck hturn hgo _ ih => exact ih (hs.next hjt hlen hprepare hcheck hturn hgo)

end Boundary

/-- On the frontier table with the jumps, where the entries it leaves to
`others` keep `pc` and the code, every state the loop of `Run` reaches from
its start is in the code it started with and, while the loop executes, at the
start of an instruction: no turn runs push data as code. -/
theorem run_reaches_boundary {others : OpCode → Operation} (hothers : ∀ op, (others op).KeepsPlace)
    {ctx : Context} {isParallel : Bool} {contract : Contract} {input : Bytes} {vm : Evm} {n m : Nat}
    {t : LoopState} (hlen : contract.code.length + 33 ≤ 2 ^ 64)
    (h : LoopReaches (frontierInstructionSet (jumpInstructionSet others)) ctx isParallel n
      ⟨⟨0, Memory.new, [], { contract with input := input }⟩, vm, true, []⟩ m t) :
    t.AtBoundary isParallel contract.code :=
  h.atBoundary (keepsBoundary_frontierInstructionSet hothers) hlen ⟨rfl, fun _ => Boundary.zero⟩

/-- `PUSH1 3`, `JUMP`, `JUMPDEST`. -/
def jumpCode : Bytes := [OpCode.PUSH1, 3, OpCode.JUMP, OpCode.JUMPDEST]

/-- A run of a push and a jump to the `JUMPDEST` after them, in a parallel
group, on the table whose other entries are undefined: two turns later the
loop is at the destination, the start of an instruction. -/
theorem run_reaches_boundary_jump :
    (∀ op, ((fun _ => undefinedOp : OpCode → Operation) op).KeepsPlace) ∧ jumpCode.length + 33 ≤ 2 ^ 64 ∧
    ∃ t, LoopReaches (frontierInstructionSet (jumpInstructionSet fun _ => undefinedOp)) callsTargetContext true 3
        ⟨⟨0, Memory.new, [], { (Contract.new 0 0 0 100).setCallCode 0 0 jumpCode with input := [] }⟩,
          ⟨StateDB.new ∅, 0, 0, false, [], none⟩, true, []⟩ 1 t ∧
      t.frame.pc = 3 ∧ t.AtBoundary true jumpCode := by
  obtain ⟨t, ht⟩ : ∃ t, LoopState.reach? (frontierInstructionSet (jumpInstructionSet fun _ => undefinedOp))
      callsTargetContext true 1 2
        ⟨⟨0, Memory.new, [], { (Contract.new 0 0 0 100).setCallCode 0 0 jumpCode with input := [] }⟩,
          ⟨StateDB.new ∅, 0, 0, false, [], none⟩, true, []⟩ = some t :=
    Option.isSome_iff_exists.mp (by decide +kernel)
  have hpc : (LoopState.reach? (frontierInstructionSet (jumpInstructionSet fun _ => undefinedOp))
      callsTargetContext true 1 2
        ⟨⟨0, Memory.new, [], { (Contract.new 0 0 0 100).setCallCode 0 0 jumpCode with input := [] }⟩,
          ⟨StateDB.new ∅, 0, 0, false, [], none⟩, true, []⟩).map (·.frame.pc) = some 3 := by
    decide +kernel
  rw [ht] at hpc
  have hreach := LoopReaches.of_reach? ht
  exact ⟨fun _ => keepsPlace_undefinedOp, by decide, t, hreach, Option.some.inj hpc,
    @run_reaches_boundary (fun _ => undefinedOp) (fun _ => keepsPlace_undefinedOp) callsTargetContext true
      ((Contract.new 0 0 0 100).setCallCode 0 0 jumpCode) [] ⟨StateDB.new ∅, 0, 0, false, [], none⟩ 3 1 t
      (by decide) hreach⟩

end Pangu
