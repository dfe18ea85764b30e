import Pangu.Evm.Instructions
import Pangu.Evm.Jump

/-!
# The frontier table over whole runs

`newFrontierInstructionSet` (`core/evm/jump_table.go`) is the table the
interpreter runs on: `frontierInstructionSet`, with `jumpInstructionSet`,
`logInstructionSet` and `restInstructionSet` for the entries it leaves to
`others`.

Most entries are plain (`Operation.Plain`): their operation leaves `pc` and the
contract alone and moves the stack by exactly the pops and pushes of the entry,
and their gas function changes only the memory. From that, for every state a
run reaches:

* `run_sound`: the code is the one the run started with, `pc` is at the start
  of an instruction while the loop executes, and the stack holds at most
  `StackLimit` items; the checks of `minStack` and `maxStack` before each
  operation are enough for the last.
* `loop_parallel_create_panics`: in a parallel group a CREATE clears
  `CanParallel`, but the loop still calls the entry's `execute`, which the
  CREATE entry does not have.
* `loopTurn_noPanic`: the memory sizes and the gas functions that refuse sizes
  above `0x1FFFFFFFE0` leave every operation short of calls and creations in
  bounds: once its charges pass, it returns without a panic.
-/

namespace Pangu

open Go

/-- `newFrontierInstructionSet()`, with `getHash` the block context's `GetHash`. -/
def newFrontierInstructionSet (getHash : UInt64 → Hash) : JumpTable :=
  frontierInstructionSet (jumpInstructionSet (logInstructionSet (restInstructionSet getHash)))

/-! ## What an operation does to the stack -/

/-- An operation that pops `pops` items and pushes `push`: when it goes on,
its stack has `push` items in place of `pops`. -/
def ExecFn.StackEffect (pops push : Nat) (f : ExecFn) : Prop :=
  ∀ ctx frame vm t, pops ≤ frame.stack.length → f ctx frame vm = .ok t → t.2.2.2 = none →
    t.1.stack.length + pops = frame.stack.length + push

/-- An operation that leaves `pc` and the contract as they are, and moves the
stack by `pops` and `push`. -/
structure ExecFn.Plain (pops push : Nat) (f : ExecFn) : Prop where
  keepsContract : ∀ ctx frame vm t, f ctx frame vm = .ok t → t.1.pc = frame.pc ∧ t.1.contract = frame.contract
  stackEffect : f.StackEffect pops push

/-- A gas function that leaves the stack as it is. -/
def GasFn.KeepsStack (g : GasFn) : Prop :=
  ∀ ctx frame vm size frame' vm' cost, g ctx frame vm size = .ok (frame', vm', cost) → frame'.stack = frame.stack

theorem GasFn.OnlyMemory.keepsStack {g : GasFn} (h : g.OnlyMemory) : g.KeepsStack := by
  intro ctx frame vm size frame' vm' cost hg
  obtain ⟨memory, rfl⟩ := h ctx frame vm size frame' vm' cost hg
  rfl

/-- The items each `executeAL` operation pops; each pushes one. -/
def ExecuteAL.pops : ExecuteAL → Nat
  | .opCall => 7
  | .opCallCode => 7
  | .opDelegateCall => 6
  | .opStaticCall => 6
  | .opCreate => 3
  | .opCreate2 => 4

/-- An entry whose charges keep the stack, and after which, when the loop goes
on, the stack holds at most `StackLimit` items, if it held between `minStack`
and `maxStack` before. -/
structure Operation.BoundsStack (o : Operation) : Prop where
  dynamicGas : ∀ g, o.dynamicGas = some g → g.KeepsStack
  execute : ∀ ctx frame vm t, o.minStack ≤ frame.stack.length → frame.stack.length ≤ o.maxStack →
    Pangu.execute o ctx frame vm = .ok t → t.2.2.2 = none → t.1.stack.length ≤ StackLimit
  executeAL : ∀ jt ctx isParallel fuel frame vm r, o.minStack ≤ frame.stack.length →
    frame.stack.length ≤ o.maxStack → Pangu.executeAL jt ctx isParallel fuel o frame vm = .ok r → r.err = none →
    r.frame.stack.length ≤ StackLimit

/-- An entry of a plain operation: no `executeAL`, a gas function that changes
only the memory, and an operation that keeps `pc` and the contract and, when
it goes on from a stack between `minStack` and `maxStack`, leaves at most
`StackLimit` items. -/
structure Operation.Plain (o : Operation) : Prop where
  executeAL_eq : o.executeAL = none
  dynamicGas : ∀ g, o.dynamicGas = some g → g.OnlyMemory
  keepsContract : ∀ ctx frame vm t, Pangu.execute o ctx frame vm = .ok t →
    t.1.pc = frame.pc ∧ t.1.contract = frame.contract
  stack_le : ∀ ctx frame vm t, o.minStack ≤ frame.stack.length → frame.stack.length ≤ o.maxStack →
    Pangu.execute o ctx frame vm = .ok t → t.2.2.2 = none → t.1.stack.length ≤ StackLimit

theorem executeAL_ne_ok_of_none {jt : JumpTable} {ctx : Context} {isParallel : Bool} {fuel : Nat} {o : Operation}
    {frame : Frame} {vm : Evm} {r : ALResult} (h : o.executeAL = none) :
    executeAL jt ctx isParallel fuel o frame vm ≠ .ok r := by
  intro hal
  cases fuel with
  | zero => cases hal
  | succ fuel =>
    unfold executeAL at hal
    rw [h] at hal
    cases hal

/-- The entry of an operation that pushes at most one item more than it pops,
as every operation does. -/
theorem boundsStack_execOp {f : ExecFn} {pops push : Nat} (hf : f.StackEffect pops push) (hpush : push ≤ pops + 1)
    {dynamicGas : Option GasFn} (hg : ∀ g, dynamicGas = some g → g.KeepsStack) (constantGas : UInt64)
    (memorySize : Option MemorySizeFn) : (execOp f constantGas dynamicGas pops push memorySize).BoundsStack where
  dynamicGas := hg
  execute ctx frame vm t hmin hmax h herr := by
    have := hf ctx frame vm t hmin h herr
    change pops ≤ frame.stack.length at hmin
    change frame.stack.length ≤ StackLimit + pops - push at hmax
    unfold StackLimit at hmax ⊢
    omega
  executeAL _ _ _ _ _ _ _ _ _ hal _ := absurd hal (executeAL_ne_ok_of_none rfl)

theorem ExecFn.Plain.execOp {f : ExecFn} {pops push : Nat} (hf : f.Plain pops push) (hpush : push ≤ pops + 1)
    {dynamicGas : Option GasFn} (hg : ∀ g, dynamicGas = some g → g.OnlyMemory) (constantGas : UInt64)
    (memorySize : Option MemorySizeFn) : (execOp f constantGas dynamicGas pops push memorySize).Plain where
  executeAL_eq := rfl
  dynamicGas := hg
  keepsContract := hf.keepsContract
  stack_le := (boundsStack_execOp hf.stackEffect hpush (fun g h => (hg g h).keepsStack) constantGas memorySize).execute

theorem Operation.Plain.boundsStack {o : Operation} (ho : o.Plain) : o.BoundsStack where
  dynamicGas g hg := (ho.dynamicGas g hg).keepsStack
  execute := ho.stack_le
  executeAL _ _ _ _ _ _ _ _ _ hal _ := absurd hal (executeAL_ne_ok_of_none ho.executeAL_eq)

theorem Operation.Plain.keepsPlace {o : Operation} (ho : o.Plain) : o.KeepsPlace where
  execute f hf ctx frame vm t h := by
    have hexec : Pangu.execute o ctx frame vm = .ok t := by
      unfold Pangu.execute
      rw [hf]
      exact h
    obtain ⟨hpc, hc⟩ := ho.keepsContract ctx frame vm t hexec
    exact ⟨hpc, by rw [hc]⟩
  dynamicGas g hg := (ho.dynamicGas g hg).keepsPlace

theorem Operation.Plain.keepsGas {o : Operation} (ho : o.Plain) : o.KeepsGas where
  execute f hf := keepsGas_of_contract fun ctx frame vm frame' vm' ret err h => by
    have hexec : Pangu.execute o ctx frame vm = .ok (frame', vm', ret, err) := by
      unfold Pangu.execute
      rw [hf]
      exact h
    exact (ho.keepsContract ctx frame vm _ hexec).2
  dynamicGas g hg := keepsGas_of_frame fun _ _ _ _ _ _ _ h => by
    obtain ⟨memory, rfl⟩ := ho.dynamicGas g hg _ _ _ _ _ _ _ h
    rfl

/-! ## The plain operations -/

/-- An operation that never goes on moves the stack by anything. -/
theorem stackEffect_of_halts {f : ExecFn} (hf : ∀ ctx frame vm t, f ctx frame vm = .ok t → t.2.2.2.isSome = true)
    (pops push : Nat) : f.StackEffect pops push := by
  intro ctx frame vm t _ h herr
  have := hf ctx frame vm t h
  rw [herr] at this
  cases this

theorem plain_binaryOp (f : Word → Word → Word) : (binaryOp f).Plain 2 1 where
  keepsContract _ _ _ _ h := by
    cases h
    exact ⟨rfl, rfl⟩
  stackEffect _ frame _ _ hlen h _ := by
    cases h
    simp only [List.length_set, List.length_tail]
    omega

theorem plain_unaryOp (f : Word → Word) : (unaryOp f).Plain 1 1 where
  keepsContract _ _ _ _ h := by
    cases h
    exact ⟨rfl, rfl⟩
  stackEffect _ frame _ _ _ h _ := by
    cases h
    simp only [List.length_set]

theorem plain_ternaryOp (f : Word → Word → Word → Word) : (ternaryOp f).Plain 3 1 where
  keepsContract _ _ _ _ h := by
    cases h
    exact ⟨rfl, rfl⟩
  stackEffect _ frame _ _ hlen h _ := by
    cases h
    simp only [List.length_set, List.length_tail]
    omega

theorem plain_pushOp (f : Context → Frame → Evm → Word) : (pushOp f).Plain 0 1 where
  keepsContract _ _ _ _ h := by
    cases h
    exact ⟨rfl, rfl⟩
  stackEffect _ frame _ _ _ h _ := by
    cases h
    simp only [List.length_cons]

theorem plain_opStop : opStop.Plain 0 0 where
  keepsContract _ _ _ _ h := by
    cases h
    exact ⟨rfl, rfl⟩
  stackEffect := stackEffect_of_halts (fun _ _ _ _ h => by
    cases h
    rfl) 0 0

theorem plain_opJumpdest : opJumpdest.Plain 0 0 where
  keepsContract _ _ _ _ h := by
    cases h
    exact ⟨rfl, rfl⟩
  stackEffect _ _ _ _ _ h _ := by
    cases h
    rfl

theorem plain_opPop : opPop.Plain 1 0 where
  keepsContract _ _ _ _ h := by
    cases h
    exact ⟨rfl, rfl⟩
  stackEffect _ frame _ _ hlen h _ := by
    cases h
    simp only [Stack.pop, List.length_tail]
    omega

/-- `opSload`, `opBalance` and `opExtCodeSize`: the top replaced. -/
theorem plain_of_set_top {f : ExecFn} (hf : ∀ ctx frame vm, ∃ v, f ctx frame vm = .ok
    ({ frame with stack := frame.stack.set 0 v }, vm, [], none)) : f.Plain 1 1 where
  keepsContract ctx frame vm _ h := by
    obtain ⟨v, hv⟩ := hf ctx frame vm
    rw [hv] at h
    cases h
    exact ⟨rfl, rfl⟩
  stackEffect ctx frame vm _ _ h _ := by
    obtain ⟨v, hv⟩ := hf ctx frame vm
    rw [hv] at h
    cases h
    simp only [List.length_set]

theorem plain_opSload : opSload.Plain 1 1 := plain_of_set_top fun _ _ _ => ⟨_, rfl⟩
theorem plain_opBalance : opBalance.Plain 1 1 := plain_of_set_top fun _ _ _ => ⟨_, rfl⟩
theorem plain_opExtCodeSize : opExtCodeSize.Plain 1 1 := plain_of_set_top fun _ _ _ => ⟨_, rfl⟩

theorem plain_opSstore : opSstore.Plain 2 0 where
  keepsContract _ _ _ _ h := by
    unfold opSstore at h
    split at h <;>
    · cases h
      exact ⟨rfl, rfl⟩
  stackEffect _ frame _ _ hlen h herr := by
    unfold opSstore at h
    split at h
    · cases h
      cases herr
    · cases h
      simp only [List.length_tail]
      omega

theorem plain_makeDup (size : Nat) : (makeDup size).Plain size (size + 1) where
  keepsContract _ _ _ _ h := by
    cases h
    exact ⟨rfl, rfl⟩
  stackEffect _ _ _ _ _ h _ := by
    cases h
    simp only [Stack.dup, List.length_cons]
    omega

theorem plain_makeSwap (size : Nat) : (makeSwap size).Plain (size + 1) (size + 1) where
  keepsContract _ _ _ _ h := by
    cases h
    exact ⟨rfl, rfl⟩
  stackEffect _ _ _ _ _ h _ := by
    cases h
    simp only [Stack.swap, List.length_set]

theorem plain_opReturn : opReturn.Plain 2 0 where
  keepsContract _ _ _ _ h := by
    obtain ⟨ret, -, h⟩ := bind_eq_ok h
    cases h
    exact ⟨rfl, rfl⟩
  stackEffect := stackEffect_of_halts (fun _ _ _ _ h => by
    obtain ⟨ret, -, h⟩ := bind_eq_ok h
    cases h
    rfl) 2 0

theorem plain_opSelfdestruct : opSelfdestruct.Plain 1 0 where
  keepsContract _ _ _ _ h := by
    unfold opSelfdestruct at h
    split at h <;>
    · cases h
      exact ⟨rfl, rfl⟩
  stackEffect := stackEffect_of_halts (fun _ _ _ _ h => by
    unfold opSelfdestruct at h
    split at h <;>
    · cases h
      rfl) 1 0

theorem plain_opUndefined : opUndefined.Plain 0 0 where
  keepsContract _ _ _ _ h := by
    obtain ⟨op, -, h⟩ := bind_eq_ok h
    cases h
    exact ⟨rfl, rfl⟩
  stackEffect := stackEffect_of_halts (fun _ _ _ _ h => by
    obtain ⟨op, -, h⟩ := bind_eq_ok h
    cases h
    rfl) 0 0

theorem plain_undefinedOp : undefinedOp.Plain :=
  plain_opUndefined.execOp (Nat.zero_le _) (fun _ h => by cases h) 0 none

/-- An operation whose frame, when it returns, is the one it was given with
the stack and the memory changed, the stack by `pops` and `push`. -/
theorem ExecFn.Plain.of_frame {f : ExecFn} {pops push : Nat}
    (hf : ∀ ctx frame vm t, f ctx frame vm = .ok t → ∃ stack memory,
      t.1 = { frame with stack := stack, memory := memory } ∧
        (pops ≤ frame.stack.length → stack.length + pops = frame.stack.length + push)) :
    f.Plain pops push where
  keepsContract ctx frame vm t h := by
    obtain ⟨stack, memory, ht, -⟩ := hf ctx frame vm t h
    rw [ht]
    exact ⟨rfl, rfl⟩
  stackEffect ctx frame vm t hlen h _ := by
    obtain ⟨stack, memory, ht, hs⟩ := hf ctx frame vm t h
    rw [ht]
    exact hs hlen

/-! ## Charging for the memory -/

/-- `memoryGasCost` records the cost and keeps the bytes; it gives a cost only
for a size of at most `0x1FFFFFFFE0` bytes. -/
theorem memoryGasCost_ok {m m' : Memory} {size gas : UInt64} (h : memoryGasCost m size = .ok (m', gas)) :
    (∃ lastGasCost, m' = { m with lastGasCost := lastGasCost }) ∧ size.toNat ≤ 0x1FFFFFFFE0 := by
  unfold memoryGasCost at h
  split at h
  · next h0 =>
    cases h
    exact ⟨⟨_, rfl⟩, by rw [h0]; decide⟩
  split at h
  · cases h
  · next hle =>
    have hsize : size.toNat ≤ 0x1FFFFFFFE0 := UInt64.le_iff_toNat_le.mp (UInt64.not_lt.mp hle)
    dsimp only at h
    split at h <;>
    · cases h
      exact ⟨⟨_, rfl⟩, hsize⟩

/-- A gas function that charges for the memory's growth: it leaves the frame,
but for the cost it records, and the EVM, and gives a cost only for a size of
at most `0x1FFFFFFFE0` bytes. -/
structure GasFn.ChargesMemory (g : GasFn) : Prop where
  frame : ∀ ctx frame vm size frame' vm' cost, g ctx frame vm size = .ok (frame', vm', cost) →
    (∃ lastGasCost, frame' = { frame with memory := { frame.memory with lastGasCost := lastGasCost } }) ∧ vm' = vm
  size_le : ∀ ctx frame vm size frame' vm' cost, g ctx frame vm size = .ok (frame', vm', .ok cost) →
    size.toNat ≤ 0x1FFFFFFFE0

theorem GasFn.ChargesMemory.onlyMemory {g : GasFn} (h : g.ChargesMemory) : g.OnlyMemory := by
  intro ctx frame vm size frame' vm' cost hg
  obtain ⟨⟨c, rfl⟩, -⟩ := h.frame ctx frame vm size frame' vm' cost hg
  exact ⟨_, rfl⟩

theorem chargesMemory_pureMemoryGascost : pureMemoryGascost.ChargesMemory where
  frame _ frame _ _ _ _ _ h := by
    unfold pureMemoryGascost at h
    split at h
    · next hm =>
      cases h
      obtain ⟨⟨c, rfl⟩, -⟩ := memoryGasCost_ok hm
      exact ⟨⟨c, rfl⟩, rfl⟩
    · cases h
      exact ⟨⟨_, rfl⟩, rfl⟩
  size_le _ _ _ _ _ _ _ h := by
    unfold pureMemoryGascost at h
    split at h
    · next hm => exact (memoryGasCost_ok hm).2
    · cases h

theorem chargesMemory_makeGasLog (n : UInt64) : (makeGasLog n).ChargesMemory where
  frame _ frame _ _ _ _ _ h := by
    unfold makeGasLog at h
    dsimp only at h
    split at h
    · cases h
      exact ⟨⟨_, rfl⟩, rfl⟩
    split at h
    · cases h
      exact ⟨⟨_, rfl⟩, rfl⟩
    · next hm =>
      cases h
      obtain ⟨⟨c, rfl⟩, -⟩ := memoryGasCost_ok hm
      exact ⟨⟨c, rfl⟩, rfl⟩
  size_le _ _ _ _ _ _ _ h := by
    unfold makeGasLog at h
    dsimp only at h
    split at h
    · cases h
    split at h
    · cases h
    · next hm => exact (memoryGasCost_ok hm).2

theorem chargesMemory_memoryWordGas (stackpos : Nat) (wordGas : UInt64) : (memoryWordGas stackpos wordGas).ChargesMemory where
  frame _ frame _ _ _ _ _ h := by
    unfold memoryWordGas at h
    split at h
    · cases h
      exact ⟨⟨_, rfl⟩, rfl⟩
    -- past the memory's charge, every outcome is the frame with the cost recorded
    · next hm =>
      obtain ⟨⟨c, rfl⟩, -⟩ := memoryGasCost_ok hm
      dsimp only at h
      split at h
      · cases h
        exact ⟨⟨c, rfl⟩, rfl⟩
      split at h
      · cases h
        exact ⟨⟨c, rfl⟩, rfl⟩
      split at h <;>
      · cases h
        exact ⟨⟨c, rfl⟩, rfl⟩
  size_le _ _ _ _ _ _ _ h := by
    unfold memoryWordGas at h
    split at h
    · cases h
    · next hm => exact (memoryGasCost_ok hm).2

/-! ## The logs -/

theorem Stack.length_popN (n : Nat) (st : List Word) : (Stack.popN n st).2.length = st.length - n := by
  induction n generalizing st with
  | zero => rfl
  | succ n ih =>
    simp only [Stack.popN, Stack.pop, ih, List.length_tail]
    omega

theorem plain_makeLog (size : Nat) : (makeLog size).Plain (2 + size) 0 where
  keepsContract _ frame _ _ h := by
    unfold makeLog at h
    split at h
    · cases h
      exact ⟨rfl, rfl⟩
    · obtain ⟨d, -, h⟩ := bind_eq_ok h
      cases h
      exact ⟨rfl, rfl⟩
  stackEffect _ frame _ _ hlen h herr := by
    unfold makeLog at h
    split at h
    · cases h
      cases herr
    · obtain ⟨d, -, h⟩ := bind_eq_ok h
      cases h
      simp only [Stack.length_popN, List.length_tail]
      omega

theorem plain_logInstructionSet {others : OpCode → Operation} (hothers : ∀ op, (others op).Plain) (op : OpCode) :
    (logInstructionSet others op).Plain := by
  unfold logInstructionSet
  refine iteInduction (fun _ => ?_) fun _ => hothers op
  exact (plain_makeLog _).execOp (Nat.zero_le _) (fun _ h => by
    cases h
    exact (chargesMemory_makeGasLog _).onlyMemory) _ _

/-! ## The other operations -/

theorem plain_opCallDataLoad : opCallDataLoad.Plain 1 1 := .of_frame fun _ frame _ _ h => by
  unfold opCallDataLoad Word.uint64WithOverflow at h
  dsimp only at h
  split at h
  · obtain ⟨data, -, h⟩ := bind_eq_ok h
    cases h
    exact ⟨_, frame.memory, rfl, fun _ => by simp only [List.length_set]⟩
  · cases h
    exact ⟨_, frame.memory, rfl, fun _ => by simp only [List.length_set]⟩

theorem plain_opCallDataCopy : opCallDataCopy.Plain 3 0 := .of_frame fun _ frame _ _ h => by
  obtain ⟨memory, -, h⟩ := bind_eq_ok h
  cases h
  refine ⟨_, memory, rfl, fun hlen => ?_⟩
  simp only [List.length_tail]
  omega

theorem plain_opCodeCopy : opCodeCopy.Plain 3 0 := .of_frame fun _ frame _ _ h => by
  obtain ⟨memory, -, h⟩ := bind_eq_ok h
  cases h
  refine ⟨_, memory, rfl, fun hlen => ?_⟩
  simp only [List.length_tail]
  omega

theorem plain_opExtCodeCopy : opExtCodeCopy.Plain 4 0 := .of_frame fun _ frame _ _ h => by
  obtain ⟨memory, -, h⟩ := bind_eq_ok h
  cases h
  refine ⟨_, memory, rfl, fun hlen => ?_⟩
  simp only [List.length_tail]
  omega

theorem plain_opBlockhash (getHash : UInt64 → Hash) : (opBlockhash getHash).Plain 1 1 :=
  .of_frame fun _ frame _ _ h => by
    cases h
    exact ⟨_, frame.memory, rfl, fun _ => by simp only [List.length_set]⟩

theorem plain_opKeccak256 : opKeccak256.Plain 2 1 := .of_frame fun _ frame _ _ h => by
  obtain ⟨data, -, h⟩ := bind_eq_ok h
  cases h
  refine ⟨_, frame.memory, rfl, fun hlen => ?_⟩
  simp only [List.length_set, List.length_tail]
  omega

theorem plain_opMload : opMload.Plain 1 1 := .of_frame fun _ frame _ _ h => by
  obtain ⟨data, -, h⟩ := bind_eq_ok h
  cases h
  exact ⟨_, frame.memory, rfl, fun _ => by simp only [List.length_set]⟩

theorem plain_opMstore : opMstore.Plain 2 0 := .of_frame fun _ frame _ _ h => by
  obtain ⟨memory, -, h⟩ := bind_eq_ok h
  cases h
  refine ⟨_, memory, rfl, fun hlen => ?_⟩
  simp only [List.length_tail]
  omega

theorem plain_opMstore8 : opMstore8.Plain 2 0 := .of_frame fun _ frame _ _ h => by
  obtain ⟨store, -, h⟩ := bind_eq_ok h
  cases h
  refine ⟨_, _, rfl, fun hlen => ?_⟩
  simp only [List.length_tail]
  omega

theorem onlyMemory_gasExpFrontier : gasExpFrontier.OnlyMemory := fun _ frame _ _ _ _ _ h => by
  unfold gasExpFrontier at h
  dsimp only at h
  split at h <;>
  · cases h
    exact ⟨frame.memory, rfl⟩

/-- Every entry of the table of the other operations is plain. -/
theorem plain_restInstructionSet (getHash : UInt64 → Hash) (op : OpCode) : (restInstructionSet getHash op).Plain := by
  have hnone : ∀ g, (none : Option GasFn) = some g → g.OnlyMemory := fun _ h => by cases h
  have hsome : ∀ {g : GasFn}, g.OnlyMemory → ∀ g', some g = some g' → g'.OnlyMemory := by
    intro g hg g' h
    cases h
    exact hg
  have step : ∀ {c : Prop} [Decidable c] {a b : Operation}, a.Plain → b.Plain → (if c then a else b).Plain :=
    fun ha hb => iteInduction (fun _ => ha) fun _ => hb
  have binary : ∀ f c, (execOp (binaryOp f) c none 2 1 none).Plain :=
    fun f c => (plain_binaryOp f).execOp (by decide) hnone c none
  have unary : ∀ f c, (execOp (unaryOp f) c none 1 1 none).Plain :=
    fun f c => (plain_unaryOp f).execOp (by decide) hnone c none
  have ternary : ∀ f c, (execOp (ternaryOp f) c none 3 1 none).Plain :=
    fun f c => (plain_ternaryOp f).execOp (by decide) hnone c none
  have push : ∀ f c, (execOp (pushOp f) c none 0 1 none).Plain :=
    fun f c => (plain_pushOp f).execOp (by decide) hnone c none
  unfold restInstructionSet
  -- `ADD` to `SIGNEXTEND`
  refine step (binary _ _) <| step (binary _ _) <| step (binary _ _) <| step (binary _ _) <| ?_
  refine step (binary _ _) <| step (binary _ _) <| step (binary _ _) <| ?_
  refine step (ternary _ _) <| step (ternary _ _) <| ?_
  refine step ((plain_binaryOp _).execOp (by decide) (hsome onlyMemory_gasExpFrontier) _ none) <| ?_
  refine step (binary _ _) <| ?_
  -- the comparisons and the bitwise operations
  refine step (binary _ _) <| step (binary _ _) <| step (binary _ _) <| step (binary _ _) <| ?_
  refine step (binary _ _) <| step (unary _ _) <| step (binary _ _) <| step (binary _ _) <| ?_
  refine step (binary _ _) <| step (unary _ _) <| step (binary _ _) <| ?_
  refine step (plain_opKeccak256.execOp (by decide) (hsome (chargesMemory_memoryWordGas _ _).onlyMemory) _ _) <| ?_
  -- the environment
  refine step (push _ _) <| step (push _ _) <| step (push _ _) <| step (push _ _) <| ?_
  refine step (plain_opCallDataLoad.execOp (by decide) hnone _ _) <| step (push _ _) <| ?_
  refine step (plain_opCallDataCopy.execOp (by decide) (hsome (chargesMemory_memoryWordGas _ _).onlyMemory) _ _) <| ?_
  refine step (push _ _) <| ?_
  refine step (plain_opCodeCopy.execOp (by decide) (hsome (chargesMemory_memoryWordGas _ _).onlyMemory) _ _) <| ?_
  refine step (push _ _) <| ?_
  refine step (plain_opExtCodeCopy.execOp (by decide) (hsome (chargesMemory_memoryWordGas _ _).onlyMemory) _ _) <| ?_
  -- the block
  refine step ((plain_opBlockhash getHash).execOp (by decide) hnone _ _) <| ?_
  refine step (push _ _) <| step (push _ _) <| step (push _ _) <| step (push _ _) <| step (push _ _) <| ?_
  -- the memory, `MSIZE` and `GAS`
  refine step (plain_opMload.execOp (by decide) (hsome onlyMemory_pureMemoryGascost) _ _) <| ?_
  refine step (plain_opMstore.execOp (by decide) (hsome onlyMemory_pureMemoryGascost) _ _) <| ?_
  refine step (plain_opMstore8.execOp (by decide) (hsome onlyMemory_pureMemoryGascost) _ _) <| ?_
  exact step (push _ _) <| step (push _ _) plain_undefinedOp

/-! ## Calls and creations -/

theorem popCallArgs_length (withValue : Bool) (st : List Word) :
    (popCallArgs withValue st).2.length = st.length - if withValue then 7 else 6 := by
  cases withValue <;>
  · simp only [popCallArgs, Stack.pop, List.length_tail, Bool.false_eq_true, if_false, if_true]
    omega

theorem finishCall_stack {args : CallArgs} {st : List Word} {frame frame' : Frame} {vm vm' : Evm} {ret : Bytes}
    {returnGas : UInt64} {err : Option EvmError} (h : finishCall args st frame vm ret returnGas err = .ok (frame', vm')) :
    frame'.stack.length = st.length + 1 := by
  unfold finishCall at h
  dsimp only at h
  split at h
  · obtain ⟨memory, -, h⟩ := bind_eq_ok h
    cases h
    rfl
  · cases h
    rfl

/-- A call that goes on has popped its arguments and pushed its success. -/
theorem callOp_stack {withValue checkWrite : Bool}
    {callee : Contract → Address → Bytes → UInt64 → Int → Evm → GoF CallResult} {frame : Frame} {vm : Evm}
    {r : ALResult} (h : callOp withValue checkWrite callee frame vm = .ok r) (herr : r.err = none) :
    r.frame.stack.length = frame.stack.length - (if withValue then 7 else 6) + 1 := by
  unfold callOp at h
  generalize hp : popCallArgs withValue frame.stack = p at h
  obtain ⟨args, st⟩ := p
  obtain ⟨input, -, h⟩ := bind_eq_ok h
  split at h
  · cases h
    cases herr
  · obtain ⟨rc, -, h⟩ := bind_eq_ok h
    obtain ⟨⟨frame', vm'⟩, hfin, h⟩ := bind_eq_ok h
    cases h
    rw [finishCall_stack (lift_eq_ok hfin), ← popCallArgs_length, hp]

/-- A creation that goes on has popped its arguments and pushed the address. -/
theorem createOp_stack {withSalt : Bool} {callee : Address → Bytes → UInt64 → Int → Word → Evm → GoF CreateResult}
    {frame : Frame} {vm : Evm} {r : ALResult} (h : createOp withSalt callee frame vm = .ok r) (herr : r.err = none) :
    r.frame.stack.length = frame.stack.length - (if withSalt then 4 else 3) + 1 := by
  -- the salt is a fourth item only for `CREATE2`
  cases withSalt <;>
  · unfold createOp at h
    split at h
    · cases h
      cases herr
    · obtain ⟨input, -, h⟩ := bind_eq_ok h
      dsimp only at h
      obtain ⟨rc, -, h⟩ := bind_eq_ok h
      split at h <;>
      · cases h
        simp only [List.length_cons, List.length_tail, Bool.false_eq_true, if_false, if_true]
        omega

/-- What every `executeAL` leaves on the stack when it goes on. -/
theorem executeAL_stack {jt : JumpTable} {ctx : Context} {isParallel : Bool} {fuel : Nat} {o : Operation}
    {frame : Frame} {vm : Evm} {r : ALResult} (h : executeAL jt ctx isParallel fuel o frame vm = .ok r)
    (herr : r.err = none) : ∃ a, o.executeAL = some a ∧ r.frame.stack.length = frame.stack.length - a.pops + 1 := by
  cases fuel with
  | zero => cases h
  | succ fuel =>
    unfold executeAL at h
    split at h
    · cases h
    all_goals
      rename_i ha
      refine ⟨_, ha, ?_⟩
      cases fuel with
      | zero => cases h
      | succ fuel =>
        first
        | (rw [opCall] at h; exact callOp_stack h herr)
        | (rw [opCallCode] at h; exact callOp_stack h herr)
        | (rw [opDelegateCall] at h; exact callOp_stack h herr)
        | (rw [opStaticCall] at h; exact callOp_stack h herr)
        | (rw [opCreate] at h; exact createOp_stack h herr)
        | (rw [opCreate2] at h; exact createOp_stack h herr)

theorem boundsStack_alOp (a : ExecuteAL) (constantGas : UInt64) {g : GasFn} (hg : g.KeepsStack)
    (memorySize : MemorySizeFn) : (alOp a constantGas g a.pops 1 memorySize).BoundsStack where
  dynamicGas _ h := by
    cases h
    exact hg
  execute _ _ _ _ _ _ h _ := by cases h
  executeAL _ _ _ _ frame _ _ _ hmax hal herr := by
    obtain ⟨a', ha, hlen⟩ := executeAL_stack hal herr
    cases ha
    change frame.stack.length ≤ StackLimit + a.pops - 1 at hmax
    unfold StackLimit at hmax ⊢
    omega

/-! ## The entries that move `pc` -/

theorem stackEffect_opPush1 : opPush1.StackEffect 0 1 := by
  intro _ _ _ _ _ h _
  cases h
  rfl

theorem stackEffect_makePush (size : UInt64) (pushByteSize : Nat) : (makePush size pushByteSize).StackEffect 0 1 := by
  intro _ _ _ _ _ h _
  cases h
  rfl

theorem stackEffect_opPc : opPc.StackEffect 0 1 := by
  intro _ _ _ _ _ h _
  cases h
  rfl

theorem stackEffect_opJump : opJump.StackEffect 1 0 := by
  intro _ frame _ _ hlen h herr
  obtain ⟨⟨valid, cache⟩, -, h⟩ := bind_eq_ok h
  cases valid with
  | false =>
    cases h
    cases herr
  | true =>
    cases h
    simp only [List.length_tail]
    omega

theorem stackEffect_opJumpi : opJumpi.StackEffect 2 0 := by
  intro _ frame _ _ hlen h herr
  unfold opJumpi at h
  dsimp only at h
  split at h
  · obtain ⟨⟨valid, cache⟩, -, h⟩ := bind_eq_ok h
    cases valid with
    | false =>
      cases h
      cases herr
    | true =>
      cases h
      simp only [Stack.pop, List.length_tail]
      omega
  · cases h
    simp only [Stack.pop, List.length_tail]
    omega

theorem boundsStack_jumpInstructionSet {others : OpCode → Operation} (hothers : ∀ op, (others op).BoundsStack)
    (op : OpCode) : (jumpInstructionSet others op).BoundsStack := by
  have hnone : ∀ g, (none : Option GasFn) = some g → g.KeepsStack := fun _ h => by cases h
  unfold jumpInstructionSet
  refine iteInduction (fun _ => boundsStack_execOp stackEffect_opJump (by decide) hnone _ _) fun _ => ?_
  refine iteInduction (fun _ => boundsStack_execOp stackEffect_opJumpi (by decide) hnone _ _) fun _ => ?_
  exact iteInduction (fun _ => boundsStack_execOp stackEffect_opPc (by decide) hnone _ _) fun _ => hothers op

/-- Every entry of the frontier table keeps the stack within `StackLimit`, if
those it leaves to `others` do. -/
theorem boundsStack_frontierInstructionSet {others : OpCode → Operation} (hothers : ∀ op, (others op).BoundsStack)
    (op : OpCode) : (frontierInstructionSet others op).BoundsStack := by
  have hnone : ∀ g, (none : Option GasFn) = some g → g.OnlyMemory := fun _ h => by cases h
  have hsome : ∀ {g : GasFn}, g.OnlyMemory → ∀ g', some g = some g' → g'.OnlyMemory := by
    intro g hg g' h
    cases h
    exact hg
  have step : ∀ {c : Prop} [Decidable c] {a b : Operation}, a.BoundsStack → b.BoundsStack →
      (if c then a else b).BoundsStack := fun ha hb => iteInduction (fun _ => ha) fun _ => hb
  unfold frontierInstructionSet
  refine step (plain_opStop.execOp (by decide) hnone _ _).boundsStack ?_
  refine step (plain_opBalance.execOp (by decide) hnone _ _).boundsStack ?_
  refine step (plain_opExtCodeSize.execOp (by decide) hnone _ _).boundsStack ?_
  refine step (plain_opPop.execOp (by decide) hnone _ _).boundsStack ?_
  refine step (plain_opSload.execOp (by decide) hnone _ _).boundsStack ?_
  refine step (plain_opSstore.execOp (by decide) (hsome onlyMemory_gasSStore) _ _).boundsStack ?_
  refine step (plain_opJumpdest.execOp (by decide) hnone _ _).boundsStack ?_
  refine step (boundsStack_execOp stackEffect_opPush1 (by decide) (fun _ h => by cases h) _ _) ?_
  refine step (boundsStack_execOp (stackEffect_makePush _ _) (by decide) (fun _ h => by cases h) _ _) ?_
  refine step ((plain_makeDup _).execOp (Nat.le_refl _) hnone _ _).boundsStack ?_
  refine step ((plain_makeSwap _).execOp (Nat.le_succ _) hnone _ _).boundsStack ?_
  refine step (boundsStack_alOp .opCreate _ onlyMemory_pureMemoryGascost.keepsStack _) ?_
  refine step (boundsStack_alOp .opCall _ onlyMemory_gasCall.keepsStack _) ?_
  refine step (boundsStack_alOp .opCallCode _ onlyMemory_gasCallCode.keepsStack _) ?_
  refine step (plain_opReturn.execOp (by decide) (hsome onlyMemory_pureMemoryGascost) _ _).boundsStack ?_
  refine step (plain_opSelfdestruct.execOp (by decide) (hsome onlyMemory_gasSelfdestruct) _ _).boundsStack ?_
  exact step (hothers op) plain_undefinedOp.boundsStack

/-! ## Every state a run reaches -/

/-- Charges that pass found the stack between `minStack` and `maxStack`. -/
theorem prepare_none_bounds {ctx : Context} {o : Operation} {frame frame' : Frame} {vm vm' : Evm}
    (h : prepare ctx o frame vm = .ok (frame', vm', none)) :
    o.minStack ≤ frame.stack.length ∧ frame.stack.length ≤ o.maxStack := by
  unfold prepare at h
  by_cases h₁ : frame.stack.length < o.minStack
  · rw [if_pos h₁] at h
    cases h
  by_cases h₂ : frame.stack.length > o.maxStack
  · rw [if_neg h₁, if_pos h₂] at h
    cases h
  exact ⟨Nat.le_of_not_lt h₁, Nat.le_of_not_lt h₂⟩

theorem prepare_none_stack {ctx : Context} {o : Operation} {frame frame' : Frame} {vm vm' : Evm}
    (hg : ∀ g, o.dynamicGas = some g → g.KeepsStack) (h : prepare ctx o frame vm = .ok (frame', vm', none)) :
    frame'.stack = frame.stack := by
  obtain ⟨c₁, -, ⟨-, rfl, -⟩ | ⟨g, size, frame₂, cost, c₂, hg', hgc, -, rfl⟩⟩ := prepare_none_inv h
  · rfl
  · exact hg g hg' _ { frame with contract := c₁ } _ _ frame₂ _ _ hgc

section Stack

variable {jt : JumpTable} {ctx : Context} {isParallel : Bool}

/-- One turn that goes on keeps the stack within `StackLimit`, one case for
each way it ran. -/
theorem LoopState.stack_le_next (hjt : ∀ op, (jt op).BoundsStack) {n : Nat} {s : LoopState} {frame₁ : Frame}
    {vm₁ vm₂ : Evm} {canParallel₂ : Bool} {turn : Frame × Evm × Bytes × Option EvmError × Bool}
    (hs : s.frame.stack.length ≤ StackLimit)
    (hprepare : prepare ctx (jt (s.frame.contract.getOp s.frame.pc)) s.frame s.vm = .ok (frame₁, vm₁, none))
    (hturn : LoopTurn jt ctx isParallel n (s.frame.contract.getOp s.frame.pc) frame₁ vm₂ canParallel₂ s.res turn)
    (hgo : (turn.2.2.2.1.isSome || (isParallel && !turn.2.2.2.2)) = false) :
    (LoopState.next turn).frame.stack.length ≤ StackLimit := by
  generalize s.frame.contract.getOp s.frame.pc = op at hprepare hturn
  have hstack : frame₁.stack = s.frame.stack := prepare_none_stack (hjt op).dynamicGas hprepare
  obtain ⟨hmin, hmax⟩ := prepare_none_bounds hprepare
  rw [← hstack] at hs hmin hmax
  have herr : turn.2.2.2.1 = none := by
    simp only [Bool.or_eq_false_iff, Option.isSome_eq_false_iff, Option.isNone_iff_eq_none] at hgo
    exact hgo.1
  cases hturn with
  | parallelCreate _ hpar _ => simp [hpar] at hgo
  | serialCreate _ _ hal => exact (hjt op).executeAL _ _ _ _ _ _ _ hmin hmax hal herr
  | call _ _ _ hal => exact (hjt op).executeAL _ _ _ _ _ _ _ hmin hmax hal herr
  | plain _ _ _ hexec => exact (hjt op).execute _ _ _ _ hmin hmax hexec herr
  | skip => exact hs

theorem LoopReaches.stack_le (hjt : ∀ op, (jt op).BoundsStack) {n m : Nat} {s t : LoopState}
    (h : LoopReaches jt ctx isParallel n s m t) (hs : s.frame.stack.length ≤ StackLimit) :
    t.frame.stack.length ≤ StackLimit := by
  induction h with
  | refl => exact hs
  | step hprepare _ hturn hgo _ ih => exact ih (LoopState.stack_le_next hjt hs hprepare hturn hgo)

end Stack

theorem boundsStack_newFrontierInstructionSet (getHash : UInt64 → Hash) (op : OpCode) :
    (newFrontierInstructionSet getHash op).BoundsStack :=
  boundsStack_frontierInstructionSet
    (boundsStack_jumpInstructionSet fun op => (plain_logInstructionSet (plain_restInstructionSet getHash) op).boundsStack)
    op

/-- What holds at every state a run reaches: the invariant of
`LoopState.AtBoundary`, and a stack of at most `StackLimit` items. -/
structure LoopState.Sound (isParallel : Bool) (code : Bytes) (s : LoopState) : Prop where
  atBoundary : s.AtBoundary isParallel code
  stack_le : s.frame.stack.length ≤ StackLimit

/-- On the frontier table, every state the loop of `Run` reaches from its start
is in the code it started with, at the start of an instruction while the loop
executes, and with at most `StackLimit` items on the stack. -/
theorem run_sound (getHash : UInt64 → Hash) {ctx : Context} {isParallel : Bool} {contract : Contract}
    {input : Bytes} {vm : Evm} {n m : Nat} {t : LoopState} (hlen : contract.code.length + 33 ≤ 2 ^ 64)
    (h : LoopReaches (newFrontierInstructionSet getHash) ctx isParallel n
      ⟨⟨0, Memory.new, [], { contract with input := input }⟩, vm, true, []⟩ m t) :
    t.Sound isParallel contract.code where
  atBoundary := h.atBoundary
    (keepsBoundary_frontierInstructionSet fun op => (plain_logInstructionSet (plain_restInstructionSet getHash) op).keepsPlace)
    hlen ⟨rfl, fun _ => Boundary.zero⟩
  stack_le := h.stack_le (boundsStack_newFrontierInstructionSet getHash) (Nat.zero_le _)

/-- The push and the jump of `jumpCode`, in a parallel group: two turns later
the loop is at the `JUMPDEST`, with the pushed destination popped again. -/
theorem run_sound_jump :
    jumpCode.length + 33 ≤ 2 ^ 64 ∧
    ∃ t, LoopReaches (newFrontierInstructionSet fun _ => 0) callsTargetContext true 3
        ⟨⟨0, Memory.new, [], { (Contract.new 0 0 0 100).setCallCode 0 0 jumpCode with input := [] }⟩,
          ⟨StateDB.new ∅, 0, 0, false, [], none⟩, true, []⟩ 1 t ∧
      t.frame.pc = 3 ∧ t.frame.stack = [] ∧ t.Sound true jumpCode := by
  obtain ⟨t, ht⟩ : ∃ t, LoopState.reach? (newFrontierInstructionSet fun _ => 0) callsTargetContext true 1 2
        ⟨⟨0, Memory.new, [], { (Contract.new 0 0 0 100).setCallCode 0 0 jumpCode with input := [] }⟩,
          ⟨StateDB.new ∅, 0, 0, false, [], none⟩, true, []⟩ = some t :=
    Option.isSome_iff_exists.mp (by decide +kernel)
  have hpc : (LoopState.reach? (newFrontierInstructionSet fun _ => 0) callsTargetContext true 1 2
        ⟨⟨0, Memory.new, [], { (Contract.new 0 0 0 100).setCallCode 0 0 jumpCode with input := [] }⟩,
          ⟨StateDB.new ∅, 0, 0, false, [], none⟩, true, []⟩).map (fun t => (t.frame.pc, t.frame.stack)) =
      some (3, []) := by
    decide +kernel
  rw [ht] at hpc
  have hreach := LoopReaches.of_reach? ht
  obtain ⟨hpc', hstack⟩ := Prod.mk.inj (Option.some.inj hpc)
  exact ⟨by decide, t, hreach, hpc', hstack,
    @run_sound (fun _ => 0) callsTargetContext true ((Contract.new 0 0 0 100).setCallCode 0 0 jumpCode) []
      ⟨StateDB.new ∅, 0, 0, false, [], none⟩ 3 1 t (by decide) hreach⟩

/-! ## A creation in a parallel group -/

/-- The frontier table's `CREATE` has an `executeAL` only: in a parallel group,
a `CREATE` whose charges and access check pass makes the interpreter panic
with a call of a nil function. -/
theorem loop_parallel_create_panics (others : OpCode → Operation) (ctx : Context) (fuel : Nat)
    {frame frame₁ : Frame} {vm vm₁ vm₂ : Evm} {canParallel canParallel₁ : Bool} {res : Bytes}
    (hop : frame.contract.getOp frame.pc = OpCode.CREATE)
    (hprep : prepare ctx (frontierInstructionSet others OpCode.CREATE) frame vm = .ok (frame₁, vm₁, none))
    (hcheck : accessCheck OpCode.CREATE frame₁ vm₁ true canParallel = .ok (vm₂, canParallel₁)) :
    loop (frontierInstructionSet others) ctx true (fuel + 1) frame vm canParallel res = lift nilDereference :=
  loop_parallel_create_nil (by rw [hop]; rfl) (hop ▸ hprep) (hop ▸ hcheck) (by rw [hop]; rfl)

/-- A frame at a `CREATE` of nothing, with a transaction's gas and more. -/
def parallelCreateFrame : Frame :=
  ⟨0, Memory.new, [0, 0, 0], ⟨0x30, 0x100, 0, [OpCode.CREATE], 0, none, [], 100000⟩⟩

-- `CREATE` of nothing, run in a parallel group with the gas to pay for it.
example : loop (frontierInstructionSet fun _ => undefinedOp) callsTargetContext true 1 parallelCreateFrame
    ⟨callsTargetState, 0, 0, false, [], none⟩ true [] = lift nilDereference := by
  have hprep : prepare callsTargetContext ((frontierInstructionSet fun _ => undefinedOp) OpCode.CREATE)
      parallelCreateFrame ⟨callsTargetState, 0, 0, false, [], none⟩ =
      .ok ({ parallelCreateFrame with contract := { parallelCreateFrame.contract with gas := 68000 } },
        ⟨callsTargetState, 0, 0, false, [], none⟩, none) := rfl
  have hcheck : accessCheck OpCode.CREATE
      { parallelCreateFrame with contract := { parallelCreateFrame.contract with gas := 68000 } }
      ⟨callsTargetState, 0, 0, false, [], none⟩ true true = .ok (⟨callsTargetState, 0, 0, false, [], none⟩, true) :=
    accessCheck_of_untouched rfl
  exact loop_parallel_create_panics (fun _ => undefinedOp) callsTargetContext 0 rfl hprep hcheck

/-! ## No panic once the charges pass -/

theorem Memory.len_resize (m : Memory) (size : UInt64) : (m.resize size).len = max m.len size.toNat := by
  unfold Memory.resize
  split
  · simp only [Memory.len, List.length_append, List.length_replicate] at *
    omega
  · simp only [Memory.len] at *
    omega

/-- The words a size rounds up to cover it, where their bytes fit 64 bits. -/
theorem le_evmToWordSize_mul {s : UInt64} (h : (evmToWordSize s).toNat * 32 < 2 ^ 64) :
    s.toNat ≤ (evmToWordSize s).toNat * 32 := by
  unfold evmToWordSize toWordSize at *
  by_cases hs : s > maxUint64 - 31
  · -- so close to the top, the size rounds to `2^59` words, whose bytes do not fit
    rw [if_pos hs] at h
    exact absurd h (by decide)
  · rw [if_neg hs] at h ⊢
    have hle : s.toNat ≤ 2 ^ 64 - 32 := by
      have h31 : (maxUint64 - 31).toNat = 2 ^ 64 - 32 := by decide
      have := UInt64.le_iff_toNat_le.mp (UInt64.not_lt.mp hs)
      omega
    rw [UInt64.toNat_div, UInt64.toNat_add, Nat.mod_eq_of_lt (by simp; omega)]
    simp only [UInt64.reduceToNat]
    omega

/-- Charges that pass for an entry with a memory size: the size did not
overflow, its words' bytes fit 64 bits, the gas function was given them, and
the memory grew to them. -/
theorem prepare_none_size {ctx : Context} {o : Operation} {g : GasFn} {ms : MemorySizeFn} {frame frame₁ : Frame}
    {vm vm₁ : Evm} (hg : o.dynamicGas = some g) (hms : o.memorySize = some ms)
    (h : prepare ctx o frame vm = .ok (frame₁, vm₁, none)) :
    (ms frame.stack).2 = false ∧ (evmToWordSize (ms frame.stack).1).toNat * 32 < 2 ^ 64 ∧
      ∃ c₁ frame₂ cost c₂, frame.contract.useGas o.constantGas = some c₁ ∧
        g ctx { frame with contract := c₁ } vm (evmToWordSize (ms frame.stack).1 * 32) = .ok (frame₂, vm₁, .ok cost) ∧
        frame₂.contract.useGas cost = some c₂ ∧
        frame₁ = { frame₂ with
          contract := c₂
          memory := if evmToWordSize (ms frame.stack).1 * 32 > 0 then
            frame₂.memory.resize (evmToWordSize (ms frame.stack).1 * 32) else frame₂.memory } := by
  unfold prepare at h
  by_cases h₁ : frame.stack.length < o.minStack
  · rw [if_pos h₁] at h
    cases h
  rw [if_neg h₁] at h
  by_cases h₂ : frame.stack.length > o.maxStack
  · rw [if_pos h₂] at h
    cases h
  rw [if_neg h₂] at h
  cases hc : frame.contract.useGas o.constantGas with
  | none =>
    rw [hc] at h
    cases h
  | some c₁ =>
    rw [hc] at h
    dsimp only at h
    rw [hg, hms] at h
    dsimp only at h
    generalize hp : ms frame.stack = p at h
    obtain ⟨s, ov⟩ := p
    cases ov with
    | true => cases h
    | false =>
      dsimp only at h
      by_cases hw : (evmToWordSize s).toNat * 32 ≥ 2 ^ 64
      · rw [if_pos hw] at h
        cases h
      rw [if_neg hw] at h
      obtain ⟨⟨frame₂, vm₂, cost⟩, hgas, h⟩ := bind_eq_ok h
      cases cost with
      | error _ => cases h
      | ok cost =>
        dsimp only at h
        cases hc₂ : frame₂.contract.useGas cost with
        | none =>
          rw [hc₂] at h
          cases h
        | some c₂ =>
          rw [hc₂] at h
          cases h
          exact ⟨rfl, Nat.lt_of_not_le hw, c₁, frame₂, cost, c₂, rfl, hgas, hc₂, rfl⟩

theorem Contract.useGas_input {c c' : Contract} {g : UInt64} (h : c.useGas g = some c') : c'.input = c.input := by
  unfold Contract.useGas at h
  split at h
  · cases h
  · cases h
    rfl

/-- What the charges of an entry with the memory size `size` leave, from
`frame`: the size did not overflow and is at most `0x1FFFFFFFE0`, the memory
covers it and grew no further than that bound, and the stack, the code and the
input are as they were. -/
structure MemoryCharged (size : UInt64 × Bool) (frame frame₁ : Frame) : Prop where
  no_overflow : size.2 = false
  le_bound : size.1.toNat ≤ 0x1FFFFFFFE0
  le_len : size.1.toNat ≤ frame₁.memory.len
  len_le : frame₁.memory.len ≤ max frame.memory.len 0x1FFFFFFFE0
  stack : frame₁.stack = frame.stack
  code : frame₁.contract.code = frame.contract.code
  input : frame₁.contract.input = frame.contract.input

theorem prepare_memoryCharged {ctx : Context} {o : Operation} {g : GasFn} {ms : MemorySizeFn}
    {frame frame₁ : Frame} {vm vm₁ : Evm} (hg : o.dynamicGas = some g) (hms : o.memorySize = some ms)
    (hc : g.ChargesMemory) (h : prepare ctx o frame vm = .ok (frame₁, vm₁, none)) :
    MemoryCharged (ms frame.stack) frame frame₁ ∧ vm₁ = vm := by
  obtain ⟨hov, hw, c₁, frame₂, cost, c₂, hc₁, hgas, hc₂, rfl⟩ := prepare_none_size hg hms h
  obtain ⟨⟨lastGasCost, rfl⟩, rfl⟩ := hc.frame _ _ _ _ _ _ _ hgas
  have hsize := hc.size_le _ _ _ _ _ _ _ hgas
  have hcover := le_evmToWordSize_mul hw
  -- the size the gas function was given: the words' bytes, which do not wrap
  have hbytes : (evmToWordSize (ms frame.stack).1 * 32).toNat = (evmToWordSize (ms frame.stack).1).toNat * 32 := by
    have h32 : (32 : UInt64).toNat = 32 := rfl
    rw [UInt64.toNat_mul, h32, Nat.mod_eq_of_lt hw]
  rw [hbytes] at hsize
  refine ⟨⟨hov, by omega, ?_, ?_, rfl, ?_, ?_⟩, rfl⟩
  · dsimp only
    split
    · rw [Memory.len_resize, hbytes]
      omega
    · next hz =>
      have : (evmToWordSize (ms frame.stack).1 * 32).toNat = 0 := by
        have := UInt64.lt_iff_toNat_lt.not.mp hz
        simp only [UInt64.reduceToNat] at this
        omega
      omega
  · dsimp only
    split
    · rw [Memory.len_resize, hbytes]
      exact max_le_max (le_refl _) hsize
    · exact le_max_left _ _
  · exact (Contract.useGas_code hc₂).trans (Contract.useGas_code hc₁)
  · exact (Contract.useGas_input hc₂).trans (Contract.useGas_input hc₁)

theorem Stack.pop_fst (st : List Word) : (Stack.pop st).1 = Stack.back st 0 := by
  cases st <;> rfl

theorem Stack.back_tail (st : List Word) (n : Nat) : Stack.back st.tail n = Stack.back st (n + 1) := by
  cases st <;> rfl

theorem Word.toUInt64_toNat {w : Word} (h : w.toNat < 2 ^ 64) : w.toUInt64.toNat = w.toNat := by
  rw [Word.toUInt64, Nat.toUInt64_eq, UInt64.toNat_ofNat', Nat.mod_eq_of_lt h]

/-- A range whose end does not overflow: its length fits 64 bits and, unless it
is empty, so does its end. -/
theorem calcMemSize64_of_no_overflow {off l : Word} (h : (calcMemSize64 off l).2 = false) :
    l.toNat < 2 ^ 64 ∧ (l.toNat = 0 ∨
      off.toNat + l.toNat < 2 ^ 64 ∧ (calcMemSize64 off l).1.toNat = off.toNat + l.toNat) := by
  unfold calcMemSize64 at h ⊢
  by_cases hl : l.toNat ≥ 2 ^ 64
  · rw [if_pos hl] at h
    cases h
  rw [if_neg hl] at h ⊢
  refine ⟨Nat.lt_of_not_le hl, ?_⟩
  by_cases h0 : l.toNat = 0
  · exact .inl h0
  rw [if_neg h0] at h ⊢
  by_cases ho : off.toNat ≥ 2 ^ 64
  · rw [if_pos ho] at h
    cases h
  rw [if_neg ho] at h ⊢
  have hlt : off.toNat + l.toNat < 2 ^ 64 := by simpa using h
  refine .inr ⟨hlt, ?_⟩
  dsimp only
  rw [Nat.toUInt64_eq, UInt64.toNat_ofNat', Nat.mod_eq_of_lt hlt]

/-- A range of a fixed length whose end does not overflow. -/
theorem calcMemSize64WithUint_of_no_overflow {off : Word} {length64 : UInt64} (hl : length64 ≠ 0)
    (h : (calcMemSize64WithUint off length64).2 = false) :
    off.toNat < 2 ^ 64 ∧ (calcMemSize64WithUint off length64).1.toNat = off.toNat + length64.toNat := by
  unfold calcMemSize64WithUint Word.uint64WithOverflow at h ⊢
  rw [if_neg hl] at h ⊢
  dsimp only at h ⊢
  by_cases ho : 2 ^ 64 ≤ off.toNat
  · simp only [ho, decide_true, if_true] at h
    cases h
  simp only [ho, decide_false, Bool.false_eq_true, if_false] at h ⊢
  have hoff : off.toUInt64.toNat = off.toNat := Word.toUInt64_toNat (by omega)
  -- the sum did not wrap, or it would be below the offset
  have hnw := UInt64.lt_iff_toNat_lt.not.mp (by simpa using h)
  rw [UInt64.toNat_add] at hnw ⊢
  have := length64.toNat_lt
  refine ⟨by omega, ?_⟩
  rw [hoff] at hnw ⊢
  omega

/-- `GetPtr` of a range within the memory, or empty, returns. -/
theorem Memory.getPtr_ok (m : Memory) {offset size : UInt64} (h : size = 0 ∨ offset.toNat + size.toNat ≤ m.len) :
    ∃ bs, m.getPtr offset size = .ok bs := by
  unfold Memory.getPtr
  split
  · exact ⟨_, rfl⟩
  · next hs =>
    have hle := h.resolve_left hs
    split
    · rw [if_neg (by omega)]
      exact ⟨_, rfl⟩
    · exact ⟨_, rfl⟩

/-- `Set(offset, size, value)` of a range within the memory, or empty, returns. -/
theorem Memory.set_ok (m : Memory) {offset size : UInt64} (value : Bytes)
    (h : size = 0 ∨ offset.toNat + size.toNat ≤ m.len) : ∃ m', m.set offset size value = .ok m' := by
  unfold Memory.set
  split
  · next hs =>
    have hle := h.resolve_left fun h0 => absurd (h0 ▸ hs) (by decide)
    rw [if_neg (by omega)]
    exact ⟨_, rfl⟩
  · exact ⟨_, rfl⟩

/-- `Set32` within a memory whose length fits 64 bits returns. -/
theorem Memory.set32_ok (m : Memory) {offset : UInt64} (val : Word) (h : offset.toNat + 32 ≤ m.len)
    (hlen : m.len < 2 ^ 64) : ∃ m', m.set32 offset val = .ok m' := by
  unfold Memory.set32
  -- neither side of the bound check wraps
  have hgt : ¬ offset + 32 > m.len.toUInt64 := by
    rw [gt_iff_lt, UInt64.lt_iff_toNat_lt, UInt64.toNat_add, Nat.toUInt64_eq, UInt64.toNat_ofNat',
      Nat.mod_eq_of_lt hlen]
    have h32 : (32 : UInt64).toNat = 32 := rfl
    rw [h32, Nat.mod_eq_of_lt (by omega)]
    omega
  rw [if_neg hgt, if_neg (by omega)]
  exact ⟨_, rfl⟩

/-- A range of a memory that covers the size `calcMemSize64` gives it: `GetPtr`
returns. -/
theorem Memory.getPtr_of_calcMemSize64 (m : Memory) {off l : Word} (h : (calcMemSize64 off l).2 = false)
    (hle : (calcMemSize64 off l).1.toNat ≤ m.len) : ∃ bs, m.getPtr off.toUInt64 l.toUInt64 = .ok bs := by
  obtain ⟨hl, h0 | ⟨hsum, hsize⟩⟩ := calcMemSize64_of_no_overflow h
  · refine m.getPtr_ok (.inl ?_)
    rw [← UInt64.toNat_inj, Word.toUInt64_toNat hl, h0]
    rfl
  · refine m.getPtr_ok (.inr ?_)
    rw [Word.toUInt64_toNat hl, Word.toUInt64_toNat (by omega)]
    omega

/-- The copy of `CALLDATACOPY`, `CODECOPY` and `EXTCODECOPY` into a memory that
covers its range, of at most `0x1FFFFFFFE0` bytes, from data shorter than
`2^63` bytes: it returns. -/
theorem copyToMemory_ok (data : Bytes) (memOffset dataOffset length : Word) (m : Memory)
    (h : (calcMemSize64 memOffset length).2 = false) (hle : (calcMemSize64 memOffset length).1.toNat ≤ m.len)
    (hbound : (calcMemSize64 memOffset length).1.toNat ≤ 0x1FFFFFFFE0) (hdata : data.length < 2 ^ 63) :
    ∃ m', copyToMemory data memOffset dataOffset length m = .ok m' := by
  obtain ⟨hl, hrange⟩ := calcMemSize64_of_no_overflow h
  have hsize : length.toUInt64.toNat = length.toNat := Word.toUInt64_toNat hl
  -- the copy is at most the range, far from wrapping past the data
  have hshort : data.length + length.toUInt64.toNat < 2 ^ 64 := by
    rw [hsize]
    rcases hrange with h0 | ⟨-, hs⟩ <;> omega
  unfold copyToMemory Word.uint64WithOverflow
  dsimp only
  obtain ⟨copy, hcopy, -⟩ := getData_spec data _ _ hshort
  rw [hcopy, ok_bind]
  refine m.set_ok copy ?_
  rcases hrange with h0 | ⟨hsum, hs⟩
  · refine .inl ?_
    rw [← UInt64.toNat_inj, hsize, h0]
    rfl
  · refine .inr ?_
    rw [hsize, Word.toUInt64_toNat (by omega)]
    omega

theorem Stack.pop_eq (st : List Word) : Stack.pop st = (Stack.back st 0, st.tail) := by
  cases st <;> rfl

/-- The byte strings an operation reads are shorter than `2^63` bytes, and the
memory's length fits 64 bits. -/
structure Frame.Sized (frame : Frame) (vm : Evm) : Prop where
  memory : frame.memory.len < 2 ^ 64
  code : frame.contract.code.length < 2 ^ 63
  input : frame.contract.input.length < 2 ^ 63
  extCode : ∀ a, (vm.statedb.getCode a).length < 2 ^ 63

/-- The entry of `op`, if it has no `executeAL`, runs its operation without a
panic once its charges pass: from a sized frame at `op`, on the frame the
charges leave and on any EVM with the state they leave, as the access check
leaves it. -/
def Operation.NoPanic (op : OpCode) (o : Operation) : Prop :=
  ∀ ctx frame vm frame₁ vm₁ vm₂, frame.contract.getOp frame.pc = op → frame.Sized vm →
    prepare ctx o frame vm = .ok (frame₁, vm₁, none) → vm₂.statedb = vm₁.statedb → o.executeAL = none →
    ∃ t, Pangu.execute o ctx frame₁ vm₂ = .ok t

theorem noPanic_of_total {op : OpCode} {f : ExecFn} (hf : ∀ ctx frame vm, ∃ t, f ctx frame vm = .ok t)
    (constantGas : UInt64) (dynamicGas : Option GasFn) (pops push : Nat) (memorySize : Option MemorySizeFn) :
    (execOp f constantGas dynamicGas pops push memorySize).NoPanic op :=
  fun ctx _ _ frame₁ _ vm₂ _ _ _ _ _ => hf ctx frame₁ vm₂

theorem noPanic_alOp {op : OpCode} (a : ExecuteAL) (constantGas : UInt64) (g : GasFn) (pops push : Nat)
    (memorySize : MemorySizeFn) : (alOp a constantGas g pops push memorySize).NoPanic op :=
  fun _ _ _ _ _ _ _ _ _ _ h => by cases h

/-- An entry with no gas function, whose charges take only the constant gas. -/
theorem noPanic_of_static {op : OpCode} {f : ExecFn}
    (hf : ∀ ctx frame vm vm', frame.contract.getOp frame.pc = op → frame.Sized vm → vm'.statedb = vm.statedb →
      ∃ t, f ctx frame vm' = .ok t) (constantGas : UInt64) (pops push : Nat) :
    (execOp f constantGas none pops push none).NoPanic op := by
  intro ctx frame vm frame₁ vm₁ vm₂ hop hsized hprep hdb _
  obtain ⟨c₁, hc₁, ⟨-, rfl, rfl⟩ | ⟨g, -, -, -, -, hg, -⟩⟩ := prepare_none_inv hprep
  · refine hf ctx _ _ vm₂ ?_ ⟨hsized.memory, ?_, ?_, hsized.extCode⟩ hdb
    · show c₁.getOp frame.pc = op
      rw [Contract.getOp_of_code (Contract.useGas_code hc₁)]
      exact hop
    · show c₁.code.length < _
      rw [Contract.useGas_code hc₁]
      exact hsized.code
    · show c₁.input.length < _
      rw [Contract.useGas_input hc₁]
      exact hsized.input
  · cases hg

/-- An entry that charges for its memory, whose charges leave the memory
covering the operation's range. -/
theorem noPanic_of_memory {op : OpCode} {f : ExecFn} {g : GasFn} {ms : MemorySizeFn} (hg : g.ChargesMemory)
    (hf : ∀ ctx frame frame₁ vm vm', MemoryCharged (ms frame.stack) frame frame₁ → frame.Sized vm →
      vm'.statedb = vm.statedb → ∃ t, f ctx frame₁ vm' = .ok t) (constantGas : UInt64) (pops push : Nat) :
    (execOp f constantGas (some g) pops push (some ms)).NoPanic op := by
  intro ctx frame vm frame₁ vm₁ vm₂ _ hsized hprep hdb _
  obtain ⟨hcharged, rfl⟩ := prepare_memoryCharged rfl rfl hg hprep
  exact hf ctx frame frame₁ _ vm₂ hcharged hsized hdb

/-- The memory's range of `length64` bytes from the top of the stack. -/
theorem MemoryCharged.withUint {frame frame₁ : Frame} {length64 : UInt64} (hl : length64 ≠ 0)
    (hc : MemoryCharged (calcMemSize64WithUint (Stack.back frame.stack 0) length64) frame frame₁) :
    (Stack.back frame₁.stack 0).toUInt64.toNat = (Stack.back frame₁.stack 0).toNat ∧
      (Stack.back frame₁.stack 0).toNat + length64.toNat ≤ frame₁.memory.len := by
  obtain ⟨hoff, hsize⟩ := calcMemSize64WithUint_of_no_overflow hl hc.no_overflow
  have hle := hc.le_len
  rw [hsize] at hle
  rw [hc.stack]
  exact ⟨Word.toUInt64_toNat hoff, hle⟩

/-- The memory's range at the offset and of the length of two items. -/
theorem MemoryCharged.getPtr {frame frame₁ : Frame} {i j : Nat}
    (hc : MemoryCharged (calcMemSize64 (Stack.back frame.stack i) (Stack.back frame.stack j)) frame frame₁) :
    ∃ bs, frame₁.memory.getPtr (Stack.back frame₁.stack i).toUInt64 (Stack.back frame₁.stack j).toUInt64 = .ok bs := by
  rw [hc.stack]
  exact frame₁.memory.getPtr_of_calcMemSize64 hc.no_overflow hc.le_len

theorem MemoryCharged.copyToMemory {frame frame₁ : Frame} {i j : Nat}
    (hc : MemoryCharged (calcMemSize64 (Stack.back frame.stack i) (Stack.back frame.stack j)) frame frame₁)
    {data : Bytes} (hdata : data.length < 2 ^ 63) (dataOffset : Word) :
    ∃ m, copyToMemory data (Stack.back frame₁.stack i) dataOffset (Stack.back frame₁.stack j) frame₁.memory = .ok m := by
  rw [hc.stack]
  exact copyToMemory_ok data _ dataOffset _ frame₁.memory hc.no_overflow hc.le_len hc.le_bound hdata

/-! ### The operations that read the code, the input or the memory -/

theorem validJumpdest_ok (c : Contract) (dest : Word) (hlen : c.code.length ≤ 2 ^ 64) :
    ∃ r, c.validJumpdest ⟨none, ∅⟩ dest = .ok r := by
  by_cases hin : dest.toNat < c.code.length
  · rw [validJumpdest_of_lt _ hlen hin]
    split
    · obtain ⟨b, cache', h, -, -⟩ :=
        isCode_coherent (fun _ => rfl) (JumpdestCache.Coherent.empty (fun _ => c.code) c) hin
      exact ⟨_, h⟩
    · exact ⟨_, rfl⟩
  · exact ⟨_, validJumpdest_of_not_lt _ hin⟩

theorem noPanic_undefinedOp {op : OpCode} (hop : op ≠ OpCode.STOP) : undefinedOp.NoPanic op :=
  noPanic_of_static (fun _ frame _ _ hget _ _ => by
    obtain ⟨hpc, -⟩ := Contract.getOp_of_ne_stop hget hop
    unfold opUndefined
    rw [sliceIndex_of_lt _ hpc]
    exact ⟨_, rfl⟩) 0 0 0

theorem noPanic_jump : (execOp opJump GasMidStep none 1 0 none).NoPanic OpCode.JUMP :=
  noPanic_of_static (fun _ frame _ _ _ hsized _ => by
    obtain ⟨⟨valid, cache⟩, hr⟩ := validJumpdest_ok frame.contract (Stack.back frame.stack 0)
      (by have := hsized.code; omega)
    simp only [opJump, Stack.pop_eq, hr, ok_bind]
    cases valid <;> exact ⟨_, rfl⟩) _ _ _

theorem noPanic_jumpi : (execOp opJumpi GasSlowStep none 2 0 none).NoPanic OpCode.JUMPI :=
  noPanic_of_static (fun _ frame _ _ _ hsized _ => by
    obtain ⟨⟨valid, cache⟩, hr⟩ := validJumpdest_ok frame.contract (Stack.back frame.stack 0)
      (by have := hsized.code; omega)
    simp only [opJumpi, Stack.pop_eq]
    split
    · rw [hr, ok_bind]
      cases valid <;> exact ⟨_, rfl⟩
    · exact ⟨_, rfl⟩) _ _ _

theorem noPanic_callDataLoad : (execOp opCallDataLoad GasFastestStep none 1 1 none).NoPanic OpCode.CALLDATALOAD :=
  noPanic_of_static (fun _ frame _ _ _ hsized _ => by
    unfold opCallDataLoad Word.uint64WithOverflow
    dsimp only
    split
    · obtain ⟨data, hdata, -⟩ := getData_spec frame.contract.input (Stack.back frame.stack 0).toUInt64 32
        (by have := hsized.input; simp only [UInt64.reduceToNat]; omega)
      rw [hdata]
      exact ⟨_, rfl⟩
    · exact ⟨_, rfl⟩) _ _ _

theorem noPanic_mload : (execOp opMload GasFastestStep (some gasMLoad) 1 1 (some memoryMLoad)).NoPanic OpCode.MLOAD :=
  noPanic_of_memory chargesMemory_pureMemoryGascost (fun _ _ frame₁ _ _ hc _ _ => by
    obtain ⟨hoff, hle⟩ := hc.withUint (by decide)
    obtain ⟨data, hdata⟩ := frame₁.memory.getPtr_ok
      (.inr (show (Stack.back frame₁.stack 0).toUInt64.toNat + (32 : UInt64).toNat ≤ _ by rw [hoff]; exact hle))
    unfold opMload
    dsimp only
    rw [hdata]
    exact ⟨_, rfl⟩) _ _ _

theorem noPanic_mstore : (execOp opMstore GasFastestStep (some gasMStore) 2 0 (some memoryMStore)).NoPanic OpCode.MSTORE :=
  noPanic_of_memory chargesMemory_pureMemoryGascost (fun _ frame frame₁ _ _ hc hsized _ => by
    obtain ⟨hoff, hle⟩ := hc.withUint (by decide)
    obtain ⟨m, hm⟩ := frame₁.memory.set32_ok (Stack.back frame₁.stack 1) (by rw [hoff]; exact hle)
      (by have := hc.len_le; have := hsized.memory; omega)
    simp only [opMstore, Stack.pop_eq, Stack.back_tail, hm, ok_bind]
    exact ⟨_, rfl⟩) _ _ _

theorem noPanic_mstore8 :
    (execOp opMstore8 GasFastestStep (some gasMStore8) 2 0 (some memoryMStore8)).NoPanic OpCode.MSTORE8 :=
  noPanic_of_memory chargesMemory_pureMemoryGascost (fun _ _ frame₁ _ _ hc _ _ => by
    obtain ⟨hoff, hle⟩ := hc.withUint (by decide)
    have hlt : (Stack.back frame₁.stack 0).toUInt64.toNat < frame₁.memory.store.length := by
      rw [hoff]
      exact Nat.lt_of_lt_of_le (by simp) hle
    simp only [opMstore8, Stack.pop_eq, sliceSet_of_lt _ hlt, ok_bind]
    exact ⟨_, rfl⟩) _ _ _

theorem noPanic_keccak256 :
    (execOp opKeccak256 Keccak256Gas (some gasKeccak256) 2 1 (some memoryKeccak256)).NoPanic OpCode.KECCAK256 :=
  noPanic_of_memory (chargesMemory_memoryWordGas _ _) (fun _ _ _ _ _ hc _ _ => by
    obtain ⟨data, hdata⟩ := hc.getPtr
    simp only [opKeccak256, Stack.pop_eq, Stack.back_tail, hdata, ok_bind]
    exact ⟨_, rfl⟩) _ _ _

theorem noPanic_return :
    (execOp opReturn 0 (some gasReturn) 2 0 (some memoryReturn)).NoPanic OpCode.RETURN :=
  noPanic_of_memory chargesMemory_pureMemoryGascost (fun _ _ _ _ _ hc _ _ => by
    obtain ⟨data, hdata⟩ := hc.getPtr
    simp only [opReturn, Stack.pop_eq, Stack.back_tail, hdata, ok_bind]
    exact ⟨_, rfl⟩) _ _ _

theorem noPanic_makeLog {op : OpCode} (size : Nat) (n : UInt64) :
    (execOp (makeLog size) 0 (some (makeGasLog n)) (2 + size) 0 (some memoryLog)).NoPanic op :=
  noPanic_of_memory (chargesMemory_makeGasLog n) (fun _ _ _ _ _ hc _ _ => by
    obtain ⟨data, hdata⟩ := hc.getPtr
    unfold makeLog
    split
    · exact ⟨_, rfl⟩
    · simp only [Stack.pop_eq, Stack.back_tail, Memory.getCopy, hdata, ok_bind]
      exact ⟨_, rfl⟩) _ _ _

theorem noPanic_callDataCopy :
    (execOp opCallDataCopy GasFastestStep (some gasCallDataCopy) 3 0 (some memoryCallDataCopy)).NoPanic
      OpCode.CALLDATACOPY :=
  noPanic_of_memory (chargesMemory_memoryWordGas _ _) (fun _ _ frame₁ _ _ hc hsized _ => by
    have hdata : frame₁.contract.input.length < 2 ^ 63 := by
      rw [hc.input]
      exact hsized.input
    obtain ⟨m, hm⟩ := hc.copyToMemory hdata (Stack.back frame₁.stack 1)
    simp only [opCallDataCopy, Stack.pop_eq, Stack.back_tail, Nat.zero_add, Nat.reduceAdd, hm, ok_bind]
    exact ⟨_, rfl⟩) _ _ _

theorem noPanic_codeCopy :
    (execOp opCodeCopy GasFastestStep (some gasCodeCopy) 3 0 (some memoryCodeCopy)).NoPanic OpCode.CODECOPY :=
  noPanic_of_memory (chargesMemory_memoryWordGas _ _) (fun _ _ frame₁ _ _ hc hsized _ => by
    have hdata : frame₁.contract.code.length < 2 ^ 63 := by
      rw [hc.code]
      exact hsized.code
    obtain ⟨m, hm⟩ := hc.copyToMemory hdata (Stack.back frame₁.stack 1)
    simp only [opCodeCopy, Stack.pop_eq, Stack.back_tail, Nat.zero_add, Nat.reduceAdd, hm, ok_bind]
    exact ⟨_, rfl⟩) _ _ _

theorem noPanic_extCodeCopy :
    (execOp opExtCodeCopy ExtcodeCopyBaseFrontier (some gasExtCodeCopy) 4 0 (some memoryExtCodeCopy)).NoPanic
      OpCode.EXTCODECOPY :=
  noPanic_of_memory (chargesMemory_memoryWordGas _ _) (fun _ _ frame₁ _ vm' hc hsized hdb => by
    have hdata := hsized.extCode (Stack.back frame₁.stack 0).toAddress
    rw [← hdb] at hdata
    obtain ⟨m, hm⟩ := hc.copyToMemory hdata (Stack.back frame₁.stack 2)
    simp only [opExtCodeCopy, Stack.pop_eq, Stack.back_tail, Nat.zero_add, Nat.reduceAdd, hm, ok_bind]
    exact ⟨_, rfl⟩) _ _ _

/-! ### The tables -/

theorem noPanic_restInstructionSet (getHash : UInt64 → Hash) {op : OpCode} (hop : op ≠ OpCode.STOP) :
    (restInstructionSet getHash op).NoPanic op := by
  have step : ∀ {c : Prop} [Decidable c] {a b : Operation}, (c → a.NoPanic op) → (¬ c → b.NoPanic op) →
      (if c then a else b).NoPanic op := fun ha hb => iteInduction ha hb
  have binary : ∀ f c dg ms, (execOp (binaryOp f) c dg 2 1 ms).NoPanic op :=
    fun f c dg ms => noPanic_of_total (fun _ _ _ => ⟨_, rfl⟩) c dg 2 1 ms
  have unary : ∀ f c, (execOp (unaryOp f) c none 1 1 none).NoPanic op :=
    fun f c => noPanic_of_total (fun _ _ _ => ⟨_, rfl⟩) c none 1 1 none
  have ternary : ∀ f c, (execOp (ternaryOp f) c none 3 1 none).NoPanic op :=
    fun f c => noPanic_of_total (fun _ _ _ => ⟨_, rfl⟩) c none 3 1 none
  have push : ∀ f c, (execOp (pushOp f) c none 0 1 none).NoPanic op :=
    fun f c => noPanic_of_total (fun _ _ _ => ⟨_, rfl⟩) c none 0 1 none
  unfold restInstructionSet
  -- `ADD` to `SIGNEXTEND`
  refine step (fun _ => binary _ _ _ _) fun _ => step (fun _ => binary _ _ _ _) fun _ => ?_
  refine step (fun _ => binary _ _ _ _) fun _ => step (fun _ => binary _ _ _ _) fun _ => ?_
  refine step (fun _ => binary _ _ _ _) fun _ => step (fun _ => binary _ _ _ _) fun _ => ?_
  refine step (fun _ => binary _ _ _ _) fun _ => ?_
  refine step (fun _ => ternary _ _) fun _ => step (fun _ => ternary _ _) fun _ => ?_
  refine step (fun _ => binary _ _ _ _) fun _ => step (fun _ => binary _ _ _ _) fun _ => ?_
  -- the comparisons and the bitwise operations
  refine step (fun _ => binary _ _ _ _) fun _ => step (fun _ => binary _ _ _ _) fun _ => ?_
  refine step (fun _ => binary _ _ _ _) fun _ => step (fun _ => binary _ _ _ _) fun _ => ?_
  refine step (fun _ => binary _ _ _ _) fun _ => step (fun _ => unary _ _) fun _ => ?_
  refine step (fun _ => binary _ _ _ _) fun _ => step (fun _ => binary _ _ _ _) fun _ => ?_
  refine step (fun _ => binary _ _ _ _) fun _ => step (fun _ => unary _ _) fun _ => ?_
  refine step (fun _ => binary _ _ _ _) fun _ => ?_
  refine step (fun h => h ▸ noPanic_keccak256) fun _ => ?_
  -- the environment
  refine step (fun _ => push _ _) fun _ => step (fun _ => push _ _) fun _ => ?_
  refine step (fun _ => push _ _) fun _ => step (fun _ => push _ _) fun _ => ?_
  refine step (fun h => h ▸ noPanic_callDataLoad) fun _ => step (fun _ => push _ _) fun _ => ?_
  refine step (fun h => h ▸ noPanic_callDataCopy) fun _ => step (fun _ => push _ _) fun _ => ?_
  refine step (fun h => h ▸ noPanic_codeCopy) fun _ => step (fun _ => push _ _) fun _ => ?_
  refine step (fun h => h ▸ noPanic_extCodeCopy) fun _ => ?_
  -- the block
  refine step (fun _ => noPanic_of_total (fun _ _ _ => ⟨_, rfl⟩) _ _ _ _ _) fun _ => ?_
  refine step (fun _ => push _ _) fun _ => step (fun _ => push _ _) fun _ => step (fun _ => push _ _) fun _ => ?_
  refine step (fun _ => push _ _) fun _ => step (fun _ => push _ _) fun _ => ?_
  -- the memory, `MSIZE` and `GAS`
  refine step (fun h => h ▸ noPanic_mload) fun _ => step (fun h => h ▸ noPanic_mstore) fun _ => ?_
  refine step (fun h => h ▸ noPanic_mstore8) fun _ => ?_
  exact step (fun _ => push _ _) fun _ => step (fun _ => push _ _) fun _ => noPanic_undefinedOp hop

theorem noPanic_logInstructionSet {others : OpCode → Operation}
    (hothers : ∀ op, op ≠ OpCode.STOP → (others op).NoPanic op) {op : OpCode} (hop : op ≠ OpCode.STOP) :
    (logInstructionSet others op).NoPanic op := by
  unfold logInstructionSet
  exact iteInduction (fun _ => noPanic_makeLog _ _) fun _ => hothers op hop

theorem noPanic_jumpInstructionSet {others : OpCode → Operation}
    (hothers : ∀ op, op ≠ OpCode.STOP → (others op).NoPanic op) {op : OpCode} (hop : op ≠ OpCode.STOP) :
    (jumpInstructionSet others op).NoPanic op := by
  unfold jumpInstructionSet
  refine iteInduction (fun h => h ▸ noPanic_jump) fun _ => ?_
  refine iteInduction (fun h => h ▸ noPanic_jumpi) fun _ => ?_
  exact iteInduction (fun _ => noPanic_of_total (fun _ _ _ => ⟨_, rfl⟩) _ _ _ _ _) fun _ => hothers op hop

theorem noPanic_frontierInstructionSet {others : OpCode → Operation}
    (hothers : ∀ op, op ≠ OpCode.STOP → (others op).NoPanic op) (op : OpCode) :
    (frontierInstructionSet others op).NoPanic op := by
  have step : ∀ {c : Prop} [Decidable c] {a b : Operation}, (c → a.NoPanic op) → (¬ c → b.NoPanic op) →
      (if c then a else b).NoPanic op := fun ha hb => iteInduction ha hb
  have pure : ∀ {f : ExecFn} c dg pops push ms, (∀ ctx frame vm, ∃ t, f ctx frame vm = .ok t) →
      (execOp f c dg pops push ms).NoPanic op := fun c dg pops push ms hf => noPanic_of_total hf c dg pops push ms
  unfold frontierInstructionSet
  refine step (fun _ => pure _ _ _ _ _ fun _ _ _ => ⟨_, rfl⟩) fun hstop => ?_
  refine step (fun _ => pure _ _ _ _ _ fun _ _ _ => ⟨_, rfl⟩) fun _ => ?_
  refine step (fun _ => pure _ _ _ _ _ fun _ _ _ => ⟨_, rfl⟩) fun _ => ?_
  refine step (fun _ => pure _ _ _ _ _ fun _ _ _ => ⟨_, rfl⟩) fun _ => ?_
  refine step (fun _ => pure _ _ _ _ _ fun _ _ _ => ⟨_, rfl⟩) fun _ => ?_
  refine step (fun _ => pure _ _ _ _ _ fun _ _ _ => by
    unfold opSstore
    split <;> exact ⟨_, rfl⟩) fun _ => ?_
  refine step (fun _ => pure _ _ _ _ _ fun _ _ _ => ⟨_, rfl⟩) fun _ => ?_
  refine step (fun _ => pure _ _ _ _ _ fun _ _ _ => ⟨_, rfl⟩) fun _ => ?_
  refine step (fun _ => pure _ _ _ _ _ fun _ _ _ => ⟨_, rfl⟩) fun _ => ?_
  refine step (fun _ => pure _ _ _ _ _ fun _ _ _ => ⟨_, rfl⟩) fun _ => ?_
  refine step (fun _ => pure _ _ _ _ _ fun _ _ _ => ⟨_, rfl⟩) fun _ => ?_
  -- `CREATE`, `CALL` and `CALLCODE` run their `executeAL`
  refine step (fun _ => noPanic_alOp _ _ _ _ _ _) fun _ => ?_
  refine step (fun _ => noPanic_alOp _ _ _ _ _ _) fun _ => ?_
  refine step (fun _ => noPanic_alOp _ _ _ _ _ _) fun _ => ?_
  refine step (fun h => h ▸ noPanic_return) fun _ => ?_
  refine step (fun _ => pure _ _ _ _ _ fun _ _ _ => by
    unfold opSelfdestruct
    split <;> exact ⟨_, rfl⟩) fun _ => ?_
  exact step (fun _ => hothers op hstop) fun _ => noPanic_undefinedOp hstop

theorem noPanic_newFrontierInstructionSet (getHash : UInt64 → Hash) (op : OpCode) :
    (newFrontierInstructionSet getHash op).NoPanic op :=
  noPanic_frontierInstructionSet (fun _ hop => noPanic_jumpInstructionSet
    (fun _ hop' => noPanic_logInstructionSet (fun _ => noPanic_restInstructionSet getHash) hop') hop) op

/-- Of the frontier table's entries only those of `CREATE`, `CALL` and
`CALLCODE` have an `executeAL`, if those it leaves to `others` have none. -/
theorem executeAL_frontierInstructionSet {others : OpCode → Operation} (hothers : ∀ op, (others op).executeAL = none)
    {op : OpCode} (hcall : op.isCall = false) (hcreate : op.isCreate = false) :
    (frontierInstructionSet others op).executeAL = none := by
  have step : ∀ {c : Prop} [Decidable c] {a b : Operation}, (c → a.executeAL = none) → (¬ c → b.executeAL = none) →
      (if c then a else b).executeAL = none :=
    fun ha hb => iteInduction (motive := fun o : Operation => o.executeAL = none) ha hb
  unfold frontierInstructionSet
  refine step (fun _ => rfl) fun _ => step (fun _ => rfl) fun _ => step (fun _ => rfl) fun _ => ?_
  refine step (fun _ => rfl) fun _ => step (fun _ => rfl) fun _ => step (fun _ => rfl) fun _ => ?_
  refine step (fun _ => rfl) fun _ => step (fun _ => rfl) fun _ => step (fun _ => rfl) fun _ => ?_
  refine step (fun _ => rfl) fun _ => step (fun _ => rfl) fun _ => ?_
  refine step (fun h => absurd hcreate (by rw [h]; decide)) fun _ => ?_
  refine step (fun h => absurd hcall (by rw [h]; decide)) fun _ => ?_
  refine step (fun h => absurd hcall (by rw [h]; decide)) fun _ => ?_
  refine step (fun _ => rfl) fun _ => step (fun _ => rfl) fun _ => ?_
  exact step (fun _ => hothers op) fun _ => rfl

theorem executeAL_jumpInstructionSet {others : OpCode → Operation} (hothers : ∀ op, (others op).executeAL = none)
    (op : OpCode) : (jumpInstructionSet others op).executeAL = none := by
  unfold jumpInstructionSet
  refine iteInduction (motive := fun o : Operation => o.executeAL = none) (fun _ => rfl) fun _ => ?_
  refine iteInduction (motive := fun o : Operation => o.executeAL = none) (fun _ => rfl) fun _ => ?_
  exact iteInduction (motive := fun o : Operation => o.executeAL = none) (fun _ => rfl) fun _ => hothers op

/-- The access check changes no state. -/
theorem accessCheck_statedb {op : OpCode} {frame : Frame} {vm vm' : Evm} {isParallel canParallel canParallel' : Bool}
    (h : accessCheck op frame vm isParallel canParallel = .ok (vm', canParallel')) : vm'.statedb = vm.statedb := by
  unfold accessCheck at h
  obtain ⟨part, -, h⟩ := bind_eq_ok h
  split at h
  · obtain ⟨⟨result, _⟩, -, h⟩ := bind_eq_ok h
    cases h
    rfl
  · obtain ⟨⟨trueAL, _⟩, -, h⟩ := bind_eq_ok h
    cases h
    rfl

/-- On the frontier table, a turn at an opcode that is neither a call nor a
creation, from a frame whose code, input and every account's code are shorter
than `2^63` bytes and whose memory fits 64 bits, whose charges and access
check pass, completes: its operation, when the loop runs it, returns without a
panic. The memory sizes and gas functions of the entries keep every read and
write of the memory, the input and the code within bounds. -/
theorem loopTurn_noPanic (getHash : UInt64 → Hash) {ctx : Context} {isParallel : Bool} {fuel : Nat}
    {frame frame₁ : Frame} {vm vm₁ vm₂ : Evm} {canParallel canParallel₂ : Bool} {res : Bytes}
    (hsized : frame.Sized vm) (hcall : (frame.contract.getOp frame.pc).isCall = false)
    (hcreate : (frame.contract.getOp frame.pc).isCreate = false)
    (hprep : prepare ctx (newFrontierInstructionSet getHash (frame.contract.getOp frame.pc)) frame vm =
      .ok (frame₁, vm₁, none))
    (hcheck : accessCheck (frame.contract.getOp frame.pc) frame₁ vm₁ isParallel canParallel =
      .ok (vm₂, canParallel₂)) :
    ∃ turn, LoopTurn (newFrontierInstructionSet getHash) ctx isParallel fuel (frame.contract.getOp frame.pc) frame₁
      vm₂ canParallel₂ res turn := by
  cases hgo : (isParallel || canParallel₂) with
  | false => exact ⟨_, .skip hcreate hgo⟩
  | true =>
    have hal : (newFrontierInstructionSet getHash (frame.contract.getOp frame.pc)).executeAL = none :=
      executeAL_frontierInstructionSet (executeAL_jumpInstructionSet
        (executeAL_logInstructionSet fun op => (plain_restInstructionSet getHash op).executeAL_eq)) hcall hcreate
    obtain ⟨⟨frame', vm', res', err⟩, hexec⟩ := noPanic_newFrontierInstructionSet getHash _ ctx frame vm frame₁ vm₁ vm₂
      rfl hsized hprep (accessCheck_statedb hcheck) hal
    exact ⟨_, .plain hcreate hgo hcall hexec⟩

/-- A frame at an `MSTORE` of `5` at offset `0`. -/
def mstoreFrame : Frame := ⟨0, Memory.new, [0, 5], ⟨0x30, 0x100, 0, [OpCode.MSTORE], 0, none, [], 100⟩⟩

/-- `MSTORE` of one word into the empty memory, in a parallel group: the
charges grow the memory to a word and take six gas. -/
theorem loopTurn_noPanic_mstore :
    mstoreFrame.Sized ⟨StateDB.new ∅, 0, 0, false, [], none⟩ ∧
    (mstoreFrame.contract.getOp mstoreFrame.pc).isCall = false ∧
    (mstoreFrame.contract.getOp mstoreFrame.pc).isCreate = false ∧
    prepare callsTargetContext (newFrontierInstructionSet (fun _ => 0) (mstoreFrame.contract.getOp mstoreFrame.pc))
        mstoreFrame ⟨StateDB.new ∅, 0, 0, false, [], none⟩ =
      .ok ({ mstoreFrame with memory := ⟨List.replicate 32 0, 3⟩, contract := { mstoreFrame.contract with gas := 94 } },
        ⟨StateDB.new ∅, 0, 0, false, [], none⟩, none) ∧
    accessCheck (mstoreFrame.contract.getOp mstoreFrame.pc)
        { mstoreFrame with memory := ⟨List.replicate 32 0, 3⟩, contract := { mstoreFrame.contract with gas := 94 } }
        ⟨StateDB.new ∅, 0, 0, false, [], none⟩ true true = .ok (⟨StateDB.new ∅, 0, 0, false, [], none⟩, true) ∧
    ∃ turn, LoopTurn (newFrontierInstructionSet fun _ => 0) callsTargetContext true 1
      (mstoreFrame.contract.getOp mstoreFrame.pc)
      { mstoreFrame with memory := ⟨List.replicate 32 0, 3⟩, contract := { mstoreFrame.contract with gas := 94 } }
      ⟨StateDB.new ∅, 0, 0, false, [], none⟩ true [] turn := by
  have hsized : mstoreFrame.Sized ⟨StateDB.new ∅, 0, 0, false, [], none⟩ :=
    ⟨by decide, by decide, by decide, fun a => by
      simp [StateDB.getCode, StateDB.getStateObject, StateDB.new, GoMap.find?_empty]⟩
  have hprep : prepare callsTargetContext
      (newFrontierInstructionSet (fun _ => 0) (mstoreFrame.contract.getOp mstoreFrame.pc)) mstoreFrame
      ⟨StateDB.new ∅, 0, 0, false, [], none⟩ =
      .ok ({ mstoreFrame with memory := ⟨List.replicate 32 0, 3⟩, contract := { mstoreFrame.contract with gas := 94 } },
        ⟨StateDB.new ∅, 0, 0, false, [], none⟩, none) := rfl
  have hcheck : accessCheck (mstoreFrame.contract.getOp mstoreFrame.pc)
      { mstoreFrame with memory := ⟨List.replicate 32 0, 3⟩, contract := { mstoreFrame.contract with gas := 94 } }
      ⟨StateDB.new ∅, 0, 0, false, [], none⟩ true true = .ok (⟨StateDB.new ∅, 0, 0, false, [], none⟩, true) :=
    accessCheck_of_untouched rfl
  exact ⟨hsized, rfl, rfl, hprep, hcheck, loopTurn_noPanic (fun _ => 0) hsized rfl rfl hprep hcheck⟩

end Pangu
