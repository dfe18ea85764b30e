import Pangu.Lib.ByteBits
import Pangu.Evm.Basic

/-!
# Which bytes of a code are opcodes: the jump-destination analysis

`core/evm/analysis.go`: `codeBitmap` walks a code once and sets a bit for each
byte that is the data of a `PUSHn`, so that `codeSegment` tells an opcode from
push data. It writes the bitmap a byte at a time with shifted masks (`set1`,
`setN`, `set8`, `set16`), the data of one `PUSHn` in blocks of sixteen and
eight bytes and then the rest (`markPushData`).

The positions at which an instruction starts, reading the code from its first
byte, are `Boundary code`. The results:

* `markPushData_setsRange`: the data of a `PUSHn` at `pc` is `n` bits set from
  `pc`, and nothing else, if the bits from `pc` on are clear;
* `Boundary.nextBoundary_le`: no instruction starts inside the data of
  another;
* `codeBitmap_codeSegment`: `codeBitmap` never panics, and at every position
  of the code `codeSegment` says true exactly at a `Boundary`. Its proof is the
  loop's invariant `BitmapInv`, kept by each turn (`BitmapInv.step`);
* `checkJumps_fresh`: over a call tree's jump checks in the order they run,
  each contract keeping its own `analysis` and all sharing one `jumpdests`
  map, every check decides as a check from empty caches does, provided each
  code hash names its code, as Keccak does; the caches stay coherent.
-/

namespace Pangu

open Go ByteBits

/-- `bitvec`: a bit for each byte of a code, set where the byte is push data. -/
abbrev Bitvec := List UInt8

namespace Bitvec

/-- `bits[i] |= m`. -/
def orAt (bits : Bitvec) (i : Nat) (m : UInt8) : Go Bitvec := do
  let b ← sliceIndex bits i
  sliceSet bits i (b ||| m)

/-- `set1`: the bit of `pos`. -/
def set1 (bits : Bitvec) (pos : Nat) : Go Bitvec :=
  bits.orAt (pos / 8) (1 <<< (pos % 8).toUInt8)

/-- `setN`: the bits of `flag` shifted to `pos`; those that spill past the byte
of `pos` are stored into the next one. -/
def setN (bits : Bitvec) (flag : UInt16) (pos : Nat) : Go Bitvec := do
  let a := flag <<< (pos % 8).toUInt16
  let bits ← bits.orAt (pos / 8) a.toUInt8
  let b := (a >>> 8).toUInt8
  if b != 0 then sliceSet bits (pos / 8 + 1) b else .ok bits

/-- `set8`: eight bits from `pos`. -/
def set8 (bits : Bitvec) (pos : Nat) : Go Bitvec := do
  let a : UInt8 := 0xFF <<< (pos % 8).toUInt8
  let bits ← bits.orAt (pos / 8) a
  sliceSet bits (pos / 8 + 1) (~~~a)

/-- `set16`: sixteen bits from `pos`. -/
def set16 (bits : Bitvec) (pos : Nat) : Go Bitvec := do
  let a : UInt8 := 0xFF <<< (pos % 8).toUInt8
  let bits ← bits.orAt (pos / 8) a
  let bits ← sliceSet bits (pos / 8 + 1) 0xFF
  sliceSet bits (pos / 8 + 2) (~~~a)

/-- `codeSegment`: whether the byte at `pos` is an opcode, not push data. -/
def codeSegment (bits : Bitvec) (pos : Nat) : Go Bool := do
  let b ← sliceIndex bits (pos / 8 : Nat)
  .ok ((b >>> (pos % 8).toUInt8) &&& 1 == 0)

end Bitvec

def set2BitsMask : UInt16 := 0b11
def set3BitsMask : UInt16 := 0b111
def set4BitsMask : UInt16 := 0b1111
def set5BitsMask : UInt16 := 0b11111
def set6BitsMask : UInt16 := 0b111111
def set7BitsMask : UInt16 := 0b1111111

/-- `for ; numbits >= w; numbits -= w { set(pc); pc += w }`, the two loops of
`codeBitmapInternal`; the width is not zero. -/
def setLoop (set : Bitvec → Nat → Go Bitvec) (w : OpCode) (hw : 0 < w.toNat) (bits : Bitvec)
    (numbits : OpCode) (pc : Nat) : Go (Bitvec × OpCode × Nat) :=
  if numbits ≥ w then do
    let bits ← set bits pc
    setLoop set w hw bits (numbits - w) (pc + w.toNat)
  else .ok (bits, numbits, pc)
termination_by numbits.toNat
decreasing_by
  rename_i h
  have := UInt8.le_iff_toNat_le.mp h
  rw [UInt8.toNat_sub_of_le _ _ h]
  omega

/-- `for ; numbits >= 16; numbits -= 16 { bits.set16(pc); pc += 16 }`. -/
def set16Loop : Bitvec → OpCode → Nat → Go (Bitvec × OpCode × Nat) :=
  setLoop Bitvec.set16 16 (by decide)

/-- `for ; numbits >= 8; numbits -= 8 { bits.set8(pc); pc += 8 }`. -/
def set8Loop : Bitvec → OpCode → Nat → Go (Bitvec × OpCode × Nat) :=
  setLoop Bitvec.set8 8 (by decide)

/-- The `if numbits >= 8` block: the data in blocks of sixteen bytes, then of eight. -/
def setBlocks (bits : Bitvec) (numbits : OpCode) (pc : Nat) : Go (Bitvec × OpCode × Nat) :=
  if numbits ≥ 8 then do
    let (bits, numbits, pc) ← set16Loop bits numbits pc
    set8Loop bits numbits pc
  else .ok (bits, numbits, pc)

/-- The `switch numbits` after the loops: the last bytes of the data, fewer than eight. -/
def setRest (bits : Bitvec) (numbits : OpCode) (pc : Nat) : Go (Bitvec × Nat) :=
  if numbits = 1 then do let bits ← bits.set1 pc; .ok (bits, pc + 1)
  else if numbits = 2 then do let bits ← bits.setN set2BitsMask pc; .ok (bits, pc + 2)
  else if numbits = 3 then do let bits ← bits.setN set3BitsMask pc; .ok (bits, pc + 3)
  else if numbits = 4 then do let bits ← bits.setN set4BitsMask pc; .ok (bits, pc + 4)
  else if numbits = 5 then do let bits ← bits.setN set5BitsMask pc; .ok (bits, pc + 5)
  else if numbits = 6 then do let bits ← bits.setN set6BitsMask pc; .ok (bits, pc + 6)
  else if numbits = 7 then do let bits ← bits.setN set7BitsMask pc; .ok (bits, pc + 7)
  else .ok (bits, pc)

/-- The data of one `PUSHn`, `numbits` bytes from `pc`: the body of the loop of
`codeBitmapInternal` once `numbits` is known. -/
def markPushData (bits : Bitvec) (numbits : OpCode) (pc : Nat) : Go (Bitvec × Nat) := do
  let (bits, numbits, pc) ← setBlocks bits numbits pc
  setRest bits numbits pc

/-! ## Where the loops leave `pc` -/

/-- The loop keeps `pc + numbits`, and ends with fewer than `w` bytes left. -/
theorem setLoop_pc {set : Bitvec → Nat → Go Bitvec} {w : OpCode} {hw : 0 < w.toNat} {bits : Bitvec}
    {numbits : OpCode} {pc : Nat} {r : Bitvec × OpCode × Nat} (h : setLoop set w hw bits numbits pc = .ok r) :
    r.2.2 + r.2.1.toNat = pc + numbits.toNat ∧ r.2.1.toNat < w.toNat := by
  fun_induction setLoop set w hw bits numbits pc generalizing r with
  | case1 bits numbits pc hn ih =>
    obtain ⟨bits', -, h⟩ := bind_eq_ok h
    have := UInt8.le_iff_toNat_le.mp hn
    have := ih bits' h
    rw [UInt8.toNat_sub_of_le _ _ hn] at this
    omega
  | case2 bits numbits pc hn =>
    cases h
    exact ⟨rfl, UInt8.lt_iff_toNat_lt.mp (UInt8.not_le.mp hn)⟩

theorem setBlocks_pc {bits : Bitvec} {numbits : OpCode} {pc : Nat} {r : Bitvec × OpCode × Nat}
    (h : setBlocks bits numbits pc = .ok r) : r.2.2 + r.2.1.toNat = pc + numbits.toNat ∧ r.2.1.toNat < 8 := by
  unfold setBlocks at h
  split at h
  · obtain ⟨⟨bits₁, numbits₁, pc₁⟩, h₁, h⟩ := bind_eq_ok h
    have := setLoop_pc h₁
    have := setLoop_pc h
    simp only [UInt8.reduceToNat] at *
    omega
  · cases h
    exact ⟨rfl, UInt8.lt_iff_toNat_lt.mp (UInt8.not_le.mp ‹_›)⟩

theorem lt_eight_cases {n : OpCode} (h : n.toNat < 8) :
    n = 0 ∨ n = 1 ∨ n = 2 ∨ n = 3 ∨ n = 4 ∨ n = 5 ∨ n = 6 ∨ n = 7 := by
  simp only [← UInt8.toNat_inj, UInt8.reduceToNat]
  omega

theorem setRest_pc {bits : Bitvec} {numbits : OpCode} {pc : Nat} {r : Bitvec × Nat} (hn : numbits.toNat < 8)
    (h : setRest bits numbits pc = .ok r) : r.2 = pc + numbits.toNat := by
  rcases lt_eight_cases hn with rfl | rfl | rfl | rfl | rfl | rfl | rfl | rfl <;>
  · simp +decide only [setRest, ↓reduceIte] at h
    first
    | (cases h; rfl)
    | (obtain ⟨_, -, h⟩ := bind_eq_ok h; cases h; rfl)

/-- A `PUSHn`'s data ends `numbits` bytes after it starts. -/
theorem markPushData_pc {bits : Bitvec} {numbits : OpCode} {pc : Nat} {r : Bitvec × Nat}
    (h : markPushData bits numbits pc = .ok r) : r.2 = pc + numbits.toNat := by
  obtain ⟨⟨bits₁, numbits₁, pc₁⟩, h₁, h⟩ := bind_eq_ok h
  have hacc := setBlocks_pc h₁
  rw [setRest_pc hacc.2 h]
  exact hacc.1

/-- The loop of `codeBitmapInternal`, from `pc`. -/
def codeBitmapLoop (code : Bytes) (bits : Bitvec) (pc : Nat) : Go Bitvec :=
  if h : pc < code.length then
    let op : OpCode := code[pc]
    -- `int8(op) < int8(PUSH1)`: every opcode but `PUSH1` to `PUSH32`
    if op.toInt8 < OpCode.PUSH1.toInt8 then codeBitmapLoop code bits (pc + 1)
    else
      match hm : markPushData bits (op - OpCode.PUSH1 + 1) (pc + 1) with
      | .ok (bits, pc') => codeBitmapLoop code bits pc'
      | .error p => .error p
  else .ok bits
termination_by code.length - pc
decreasing_by
  · omega
  · have := markPushData_pc hm
    simp only at this
    omega

/-- `codeBitmapInternal(code, bits)`. -/
def codeBitmapInternal (code : Bytes) (bits : Bitvec) : Go Bitvec :=
  codeBitmapLoop code bits 0

/-- `codeBitmap(code)`: the bitmap of a code, four bytes longer than its bits
need, for a `PUSH32` at its end. -/
def codeBitmap (code : Bytes) : Go Bitvec :=
  codeBitmapInternal code (List.replicate (code.length / 8 + 1 + 4) 0)

/-! ## Each write sets the bits of an interval -/

namespace Bitvec

theorem orAt_of_lt (bits : Bitvec) {i : Nat} (h : i < bits.length) (m : UInt8) :
    bits.orAt i m = .ok (bits.set i (bits.getD i 0 ||| m)) := by
  simp [orAt, sliceIndex_of_lt bits h, sliceSet_of_lt _ h, List.getD_eq_getElem?_getD, h]

theorem one_toNat : (1 : UInt8).toNat = 2 ^ 1 - 1 := rfl

theorem ff_toNat : (0xFF : UInt8).toNat = 2 ^ 8 - 1 := rfl

theorem set1_setsRange (bits : Bitvec) {pos : Nat} (hl : pos / 8 < bits.length) :
    ∃ bits', bits.set1 pos = .ok bits' ∧ SetsRange bits bits' pos 1 := by
  refine ⟨_, orAt_of_lt bits hl _, List.length_set .., fun q => ?_⟩
  rw [bit_set_or hl, testBit_shiftLeft_uint8 _ (Nat.mod_lt _ (by decide)) (Nat.mod_lt _ (by decide)),
    one_toNat, Nat.testBit_two_pow_sub_one]
  congr 1
  rw [Bool.eq_iff_iff]
  simp only [Bool.and_eq_true, beq_iff_eq, decide_eq_true_eq]
  omega

theorem set8_setsRange {bits : Bitvec} {pos : Nat} (hc : ClearFrom bits pos)
    (hl : (pos + 8) / 8 < bits.length) :
    ∃ bits', bits.set8 pos = .ok bits' ∧ SetsRange bits bits' pos 8 := by
  have hk := Nat.mod_lt pos (show 8 > 0 by decide)
  simp only [set8, orAt_of_lt _ (show pos / 8 < bits.length by omega), ok_bind]
  rw [sliceSet_of_lt _ (by simp; omega)]
  refine ⟨_, rfl, by simp, fun q => ?_⟩
  have hj := Nat.mod_lt q (show 8 > 0 by decide)
  -- the second byte is stored, not or-ed: its bits are still clear
  have hclear : ∀ (v : UInt8), ∀ j < 8, bit (bits.set (pos / 8) v) (8 * (pos / 8 + 1) + j) = false :=
    fun v j hj => by rw [bit_set_of_ne (by omega)]; exact hc _ (by omega)
  rw [bit_set_of_clear (by simp; omega) (hclear _), bit_set_or (by omega), testBit_not_uint8 _ hj,
    testBit_shiftLeft_uint8 _ hk hj, ff_toNat, Nat.testBit_two_pow_sub_one, Bool.or_assoc]
  congr 1
  rw [Bool.eq_iff_iff]
  simp only [Bool.or_eq_true, Bool.and_eq_true, Bool.not_eq_true', Bool.and_eq_false_imp,
    beq_iff_eq, decide_eq_true_eq, decide_eq_false_iff_not]
  omega

theorem set16_setsRange {bits : Bitvec} {pos : Nat} (hc : ClearFrom bits pos)
    (hl : (pos + 16) / 8 < bits.length) :
    ∃ bits', bits.set16 pos = .ok bits' ∧ SetsRange bits bits' pos 16 := by
  have hk := Nat.mod_lt pos (show 8 > 0 by decide)
  simp only [set16, orAt_of_lt _ (show pos / 8 < bits.length by omega), ok_bind]
  rw [sliceSet_of_lt _ (by simp; omega), ok_bind, sliceSet_of_lt _ (by simp; omega)]
  refine ⟨_, rfl, by simp, fun q => ?_⟩
  have hj := Nat.mod_lt q (show 8 > 0 by decide)
  -- the second and the third byte are stored, not or-ed: their bits are still clear
  have hclear₁ : ∀ (v : UInt8), ∀ j < 8, bit (bits.set (pos / 8) v) (8 * (pos / 8 + 1) + j) = false :=
    fun v j hj => by rw [bit_set_of_ne (by omega)]; exact hc _ (by omega)
  have hclear₂ : ∀ (v w : UInt8), ∀ j < 8,
      bit ((bits.set (pos / 8) v).set (pos / 8 + 1) w) (8 * (pos / 8 + 2) + j) = false :=
    fun v w j hj => by rw [bit_set_of_ne (by omega), bit_set_of_ne (by omega)]; exact hc _ (by omega)
  rw [bit_set_of_clear (by simp; omega) (hclear₂ _ _), bit_set_of_clear (by simp; omega) (hclear₁ _),
    bit_set_or (by omega), testBit_not_uint8 _ hj, testBit_shiftLeft_uint8 _ hk hj, ff_toNat,
    Nat.testBit_two_pow_sub_one, Nat.testBit_two_pow_sub_one, Bool.or_assoc, Bool.or_assoc]
  congr 1
  rw [Bool.eq_iff_iff]
  simp only [Bool.or_eq_true, Bool.and_eq_true, Bool.not_eq_true', Bool.and_eq_false_imp,
    beq_iff_eq, decide_eq_true_eq, decide_eq_false_iff_not]
  omega

/-- `setN` with a mask of `n` ones: the bits that spill into the next byte are
stored there only when there are any, and then the index is in range. -/
theorem setN_setsRange {bits : Bitvec} {flag : UInt16} {n pos : Nat} (hflag : flag.toNat = 2 ^ n - 1)
    (hn : n ≤ 8) (hc : ClearFrom bits pos) (hl : (pos + n) / 8 < bits.length) :
    ∃ bits', bits.setN flag pos = .ok bits' ∧ SetsRange bits bits' pos n := by
  have hk := Nat.mod_lt pos (show 8 > 0 by decide)
  have hlow : ∀ j < 8, (flag <<< (pos % 8).toUInt16).toUInt8.toNat.testBit j =
      decide (pos % 8 ≤ j ∧ j - pos % 8 < n) := fun j hj => by
    rw [testBit_low_shiftLeft _ hk hj, hflag, Nat.testBit_two_pow_sub_one, Bool.decide_and]
  have hhigh : ∀ j < 8, ((flag <<< (pos % 8).toUInt16) >>> 8).toUInt8.toNat.testBit j =
      decide (j + 8 - pos % 8 < n) := fun j hj => by
    rw [testBit_high_shiftLeft _ hk hj, hflag, Nat.testBit_two_pow_sub_one, Bool.eq_iff_iff]
    simp only [Bool.and_eq_true, decide_eq_true_eq]
    omega
  simp only [setN, orAt_of_lt _ (show pos / 8 < bits.length by omega), ok_bind]
  -- in both branches the result has the bits of the low byte and of the high byte
  suffices h : ∀ bits', (∀ q, bit bits' q = (bit bits q ||
      (q / 8 == pos / 8 && (flag <<< (pos % 8).toUInt16).toUInt8.toNat.testBit (q % 8)) ||
      (q / 8 == pos / 8 + 1 && ((flag <<< (pos % 8).toUInt16) >>> 8).toUInt8.toNat.testBit (q % 8)))) →
      bits'.length = bits.length → SetsRange bits bits' pos n by
    split
    · rename_i hb
      have hspill : 8 < pos % 8 + n := by
        by_contra hns
        have h0 := eq_zero_of_testBit _ fun j hj => by rw [hhigh j hj]; simp; omega
        simp [h0] at hb
      rw [sliceSet_of_lt _ (by simp; omega)]
      refine ⟨_, rfl, h _ (fun q => ?_) (by simp)⟩
      rw [bit_set_of_clear (by simp; omega)
          (fun j hj => by rw [bit_set_of_ne (by omega)]; exact hc _ (by omega)),
        bit_set_or (by omega)]
    · rename_i hb
      refine ⟨_, rfl, h _ (fun q => ?_) (by simp)⟩
      simp only [bne_iff_ne, ne_eq, Decidable.not_not] at hb
      rw [bit_set_or (by omega), hb]
      simp
  intro bits' hbit hlen
  refine ⟨hlen, fun q => ?_⟩
  have hj := Nat.mod_lt q (show 8 > 0 by decide)
  rw [hbit, hlow _ hj, hhigh _ hj, Bool.or_assoc]
  congr 1
  rw [Bool.eq_iff_iff]
  simp only [Bool.or_eq_true, Bool.and_eq_true, beq_iff_eq, decide_eq_true_eq]
  omega

/-- Reading the bitmap: `codeSegment` is the bit, negated. -/
theorem codeSegment_of_lt (bits : Bitvec) {pos : Nat} (hl : pos / 8 < bits.length) :
    bits.codeSegment pos = .ok (!bit bits pos) := by
  simp only [codeSegment, sliceIndex_of_lt bits hl, ok_bind,
    shiftRight_and_one_eq_zero _ (Nat.mod_lt pos (show 8 > 0 by decide)), bit, List.get_eq_getElem,
    List.getD_eq_getElem?_getD, List.getElem?_eq_getElem hl, Option.getD_some]

end Bitvec

/-- What one write of a loop must do: set `w` bits from `pos`, if they are clear
and within the bitmap. -/
def SetsWidth (set : Bitvec → Nat → Go Bitvec) (w : Nat) : Prop :=
  ∀ bits pos, ClearFrom bits pos → (pos + w) / 8 < bits.length →
    ∃ bits', set bits pos = .ok bits' ∧ SetsRange bits bits' pos w

theorem setLoop_setsRange {set : Bitvec → Nat → Go Bitvec} {w : OpCode} (hw : 0 < w.toNat)
    (hset : SetsWidth set w.toNat) {bits : Bitvec} {numbits : OpCode} {pc : Nat} (hc : ClearFrom bits pc)
    (hl : (pc + numbits.toNat) / 8 < bits.length) :
    ∃ bits' numbits', setLoop set w hw bits numbits pc =
        .ok (bits', numbits', pc + (numbits.toNat - numbits'.toNat)) ∧
      numbits'.toNat ≤ numbits.toNat ∧ SetsRange bits bits' pc (numbits.toNat - numbits'.toNat) := by
  fun_induction setLoop set w hw bits numbits pc with
  | case1 bits numbits pc hn ih =>
    have hle := UInt8.le_iff_toNat_le.mp hn
    have hsub := UInt8.toNat_sub_of_le _ _ hn
    obtain ⟨bits₁, h₁, hs₁⟩ := hset bits pc hc (by omega)
    obtain ⟨bits₂, numbits₂, h₂, hle₂, hs₂⟩ :=
      ih bits₁ (hc.of_setsRange hs₁) (by rw [hs₁.length_eq]; omega)
    refine ⟨bits₂, numbits₂, ?_, by omega, ?_⟩
    · rw [h₁, ok_bind, h₂]
      congr 3
      omega
    · have := hs₁.trans hs₂
      rwa [show w.toNat + ((numbits - w).toNat - numbits₂.toNat) = numbits.toNat - numbits₂.toNat by
        omega] at this
  | case2 bits numbits pc hn =>
    exact ⟨bits, numbits, by simp, le_rfl, by simpa using SetsRange.zero bits pc⟩

theorem set16_setsWidth : SetsWidth Bitvec.set16 (16 : OpCode).toNat :=
  fun _ _ hc hl => Bitvec.set16_setsRange hc hl

theorem set8_setsWidth : SetsWidth Bitvec.set8 (8 : OpCode).toNat :=
  fun _ _ hc hl => Bitvec.set8_setsRange hc hl

theorem setBlocks_setsRange {bits : Bitvec} {numbits : OpCode} {pc : Nat} (hc : ClearFrom bits pc)
    (hl : (pc + numbits.toNat) / 8 < bits.length) :
    ∃ bits' numbits', setBlocks bits numbits pc =
        .ok (bits', numbits', pc + (numbits.toNat - numbits'.toNat)) ∧
      numbits'.toNat < 8 ∧ numbits'.toNat ≤ numbits.toNat ∧
      SetsRange bits bits' pc (numbits.toNat - numbits'.toNat) := by
  unfold setBlocks
  split
  · obtain ⟨bits₁, numbits₁, h₁, hle₁, hs₁⟩ := setLoop_setsRange (by decide) set16_setsWidth hc hl
    obtain ⟨bits₂, numbits₂, h₂, hle₂, hs₂⟩ := setLoop_setsRange (by decide) set8_setsWidth (hc.of_setsRange hs₁)
      (show (pc + (numbits.toNat - numbits₁.toNat) + numbits₁.toNat) / 8 < bits₁.length by
        rw [hs₁.length_eq]; omega)
    have hlt := (setLoop_pc h₂).2
    refine ⟨bits₂, numbits₂, ?_, hlt, by omega, ?_⟩
    · simp only [set16Loop, set8Loop, h₁, ok_bind, h₂]
      congr 3
      omega
    · have := hs₁.trans hs₂
      rwa [show numbits.toNat - numbits₁.toNat + (numbits₁.toNat - numbits₂.toNat) =
        numbits.toNat - numbits₂.toNat by omega] at this
  · rename_i hn
    exact ⟨bits, numbits, by simp, UInt8.lt_iff_toNat_lt.mp (UInt8.not_le.mp hn), le_rfl,
      by simpa using SetsRange.zero bits pc⟩

/-- One case of the `switch`: `setN` with a mask of `n` ones, then `pc += n`. -/
theorem setN_case {bits : Bitvec} {flag : UInt16} {n pc : Nat} (hflag : flag.toNat = 2 ^ n - 1)
    (hn : n ≤ 8) (hc : ClearFrom bits pc) (hl : (pc + n) / 8 < bits.length) :
    ∃ bits', (do let bits ← bits.setN flag pc; .ok (bits, pc + n) : Go (Bitvec × Nat)) =
      .ok (bits', pc + n) ∧ SetsRange bits bits' pc n := by
  obtain ⟨bits', h, hs⟩ := Bitvec.setN_setsRange hflag hn hc hl
  exact ⟨bits', by rw [h]; rfl, hs⟩

theorem setRest_setsRange {bits : Bitvec} {numbits : OpCode} {pc : Nat} (hn : numbits.toNat < 8)
    (hc : ClearFrom bits pc) (hl : (pc + numbits.toNat) / 8 < bits.length) :
    ∃ bits', setRest bits numbits pc = .ok (bits', pc + numbits.toNat) ∧
      SetsRange bits bits' pc numbits.toNat := by
  rcases lt_eight_cases hn with rfl | rfl | rfl | rfl | rfl | rfl | rfl | rfl <;>
    simp +decide only [setRest, ↓reduceIte, UInt8.reduceToNat] at hl ⊢
  · exact ⟨bits, by simp, SetsRange.zero bits pc⟩
  · obtain ⟨bits', h, hs⟩ := Bitvec.set1_setsRange bits (show pc / 8 < bits.length by omega)
    exact ⟨bits', by rw [h]; rfl, hs⟩
  all_goals exact setN_case rfl (by decide) hc hl

/-- The data of a `PUSHn` at `pc`: `numbits` bits set from `pc`, if those from
`pc` on are clear and the bitmap is long enough. -/
theorem markPushData_setsRange {bits : Bitvec} {numbits : OpCode} {pc : Nat} (hc : ClearFrom bits pc)
    (hl : (pc + numbits.toNat) / 8 < bits.length) :
    ∃ bits', markPushData bits numbits pc = .ok (bits', pc + numbits.toNat) ∧
      SetsRange bits bits' pc numbits.toNat := by
  obtain ⟨bits₁, numbits₁, h₁, hlt₁, hle₁, hs₁⟩ := setBlocks_setsRange hc hl
  obtain ⟨bits₂, h₂, hs₂⟩ := setRest_setsRange hlt₁ (hc.of_setsRange hs₁)
    (by rw [hs₁.length_eq]; omega)
  refine ⟨bits₂, ?_, ?_⟩
  · simp only [markPushData, h₁, ok_bind, h₂]
    congr 2
    omega
  · have := hs₁.trans hs₂
    rwa [show numbits.toNat - numbits₁.toNat + numbits₁.toNat = numbits.toNat by omega] at this

/-! ## Instruction boundaries -/

/-- The length of the data after opcode `op`: `n` for `PUSHn`, none for any
other opcode. -/
def pushDataSize (op : OpCode) : Nat :=
  if OpCode.PUSH1 ≤ op ∧ op ≤ OpCode.PUSH32 then op.toNat - OpCode.PUSH1.toNat + 1 else 0

/-- Where the instruction after the one at `pc` starts. -/
def nextBoundary (code : Bytes) (pc : Nat) : Nat :=
  pc + 1 + pushDataSize (code.getD pc 0)

/-- The positions at which an instruction of `code` starts, when the code is
read from its first byte. -/
inductive Boundary (code : Bytes) : Nat → Prop
  | zero : Boundary code 0
  | next {pc : Nat} : pc < code.length → Boundary code pc → Boundary code (nextBoundary code pc)

theorem lt_nextBoundary (code : Bytes) (pc : Nat) : pc < nextBoundary code pc := by
  unfold nextBoundary
  omega

/-- No instruction starts inside another: the boundary after `p` comes no later
than any boundary after `p`. By strong induction on `p + q`; where `q` follows a
boundary `q'` with `q' < p`, the induction at `(q', p)` puts the boundary after
`q'`, which is `q`, at or before `p`. -/
theorem Boundary.nextBoundary_le {code : Bytes} {p q : Nat} (hp : Boundary code p)
    (hq : Boundary code q) (hpq : p < q) : nextBoundary code p ≤ q := by
  induction hs : p + q using Nat.strong_induction_on generalizing p q with
  | _ s ih =>
    cases hq with
    | zero => omega
    | @next q' hlt hq' =>
      have hq'lt := lt_nextBoundary code q'
      rcases Nat.lt_trichotomy p q' with h | rfl | h
      · exact (ih (p + q') (by omega) hp hq' h rfl).trans hq'lt.le
      · exact le_rfl
      · have := ih (q' + p) (by omega) hq' hp h rfl
        omega

theorem pushDataSize_eq_zero {op : OpCode} (h : op.toNat < 0x60 ∨ 0x80 ≤ op.toNat) : pushDataSize op = 0 := by
  rw [pushDataSize, if_neg]
  simp only [OpCode.PUSH1, OpCode.PUSH32, UInt8.le_iff_toNat_le, UInt8.reduceToNat]
  omega

theorem pushDataSize_of_push {op : OpCode} (h : 0x60 ≤ op.toNat ∧ op.toNat < 0x80) :
    pushDataSize op = op.toNat - 0x5f := by
  rw [pushDataSize, if_pos]
  · simp only [OpCode.PUSH1, UInt8.reduceToNat]
    omega
  · simp only [OpCode.PUSH1, OpCode.PUSH32, UInt8.le_iff_toNat_le, UInt8.reduceToNat]
    omega

theorem pushDataSize_le (op : OpCode) : pushDataSize op ≤ 32 := by
  by_cases h : 0x60 ≤ op.toNat ∧ op.toNat < 0x80
  · rw [pushDataSize_of_push h]
    omega
  · rw [pushDataSize_eq_zero (by omega)]
    omega

/-- An instruction starts at most 32 bytes past the end of the code, after a
`PUSH32` in its last byte. -/
theorem Boundary.le_length {code : Bytes} {q : Nat} (h : Boundary code q) : q ≤ code.length + 32 := by
  cases h with
  | zero => omega
  | @next p hp _ =>
    have := pushDataSize_le (code.getD p 0)
    unfold nextBoundary
    omega

/-- `int8(op) < int8(PUSH1)` holds of every opcode but `PUSH1` to `PUSH32`. -/
theorem toInt8_lt_push1_iff (op : OpCode) :
    op.toInt8 < OpCode.PUSH1.toInt8 ↔ ¬ (0x60 ≤ op.toNat ∧ op.toNat < 0x80) := by
  rw [Int8.lt_iff_toInt_lt, Int8.toInt, Int8.toInt, UInt8.toBitVec_toInt8, UInt8.toBitVec_toInt8,
    BitVec.toInt, BitVec.toInt, UInt8.toNat_toBitVec, UInt8.toNat_toBitVec]
  have := op.toNat_lt
  simp only [OpCode.PUSH1, UInt8.reduceToNat]
  split <;> omega

theorem pushDataSize_of_lt {op : OpCode} (h : op.toInt8 < OpCode.PUSH1.toInt8) : pushDataSize op = 0 := by
  rw [toInt8_lt_push1_iff] at h
  rw [pushDataSize, if_neg]
  simp only [OpCode.PUSH1, OpCode.PUSH32, UInt8.le_iff_toNat_le, UInt8.reduceToNat]
  omega

/-- For `PUSHn` the code computes `numbits` as `op - PUSH1 + 1`, which is `n`. -/
theorem pushDataSize_of_not_lt {op : OpCode} (h : ¬ op.toInt8 < OpCode.PUSH1.toInt8) :
    (op - OpCode.PUSH1 + 1).toNat = pushDataSize op ∧ pushDataSize op ≤ 32 := by
  rw [toInt8_lt_push1_iff, not_not] at h
  have hle : OpCode.PUSH1 ≤ op := UInt8.le_iff_toNat_le.mpr h.1
  rw [pushDataSize, if_pos ⟨hle, UInt8.le_iff_toNat_le.mpr (by simp only [OpCode.PUSH32, UInt8.reduceToNat]; omega)⟩,
    UInt8.toNat_add, UInt8.toNat_sub_of_le _ _ hle]
  simp only [OpCode.PUSH1, UInt8.reduceToNat] at h ⊢
  omega

/-! ## The loop's invariant -/

/-- What the loop of `codeBitmapInternal` keeps at `pc`: an instruction starts at
`pc`, the bits before it mark exactly the positions that are not boundaries,
and those from it on are clear. -/
structure BitmapInv (code : Bytes) (bits : Bitvec) (pc : Nat) : Prop where
  length_eq : bits.length = code.length / 8 + 1 + 4
  boundary : Boundary code pc
  marked : ∀ q < pc, bit bits q = true ↔ ¬ Boundary code q
  clear : ClearFrom bits pc

theorem BitmapInv.init (code : Bytes) :
    BitmapInv code (List.replicate (code.length / 8 + 1 + 4) 0) 0 where
  length_eq := List.length_replicate
  boundary := .zero
  marked q hq := absurd hq (Nat.not_lt_zero q)
  clear _ _ := bit_replicate_zero _ _

/-- A turn at an opcode with no data. -/
theorem BitmapInv.step_op {code : Bytes} {bits : Bitvec} {pc : Nat} (hi : BitmapInv code bits pc)
    (hpc : pc < code.length) (hsize : pushDataSize (code.getD pc 0) = 0) : BitmapInv code bits (pc + 1) where
  length_eq := hi.length_eq
  boundary := by
    have := Boundary.next hpc hi.boundary
    rwa [nextBoundary, hsize] at this
  marked q hq := by
    rcases Nat.lt_succ_iff_lt_or_eq.mp hq with hq | rfl
    · exact hi.marked q hq
    · simp [hi.clear q le_rfl, hi.boundary]
  clear := hi.clear.mono (Nat.le_succ pc)

/-- A turn at a `PUSHn`: the `n` bits after `pc` are set, and the positions
they stand for are inside the instruction at `pc`, so not boundaries. -/
theorem BitmapInv.step_push {code : Bytes} {bits bits' : Bitvec} {pc : Nat} (hi : BitmapInv code bits pc)
    (hpc : pc < code.length) (hs : SetsRange bits bits' (pc + 1) (pushDataSize (code.getD pc 0))) :
    BitmapInv code bits' (nextBoundary code pc) where
  length_eq := hs.length_eq.trans hi.length_eq
  boundary := .next hpc hi.boundary
  marked q hq := by
    rw [hs.bit_eq]
    rcases Nat.lt_trichotomy q pc with h | rfl | h
    · have : ¬ pc + 1 ≤ q := by omega
      simp [← hi.marked q h, this]
    · simp [hi.clear q le_rfl, hi.boundary]
    · have hq' : q < pc + 1 + pushDataSize (code.getD pc 0) := hq
      simp only [hi.clear q h.le, Bool.false_or, Bool.and_eq_true, decide_eq_true_eq]
      exact ⟨fun _ hb => absurd (hi.boundary.nextBoundary_le hb h) (by unfold nextBoundary; omega),
        fun _ => ⟨h, hq'⟩⟩
  clear := (hi.clear.mono (Nat.le_add_right pc 1)).of_setsRange hs

/-- From a state that keeps the invariant the loop runs to its end without a
panic, and ends past the code with the invariant. By the loop's own recursion:
one case per branch of its body. -/
theorem codeBitmapLoop_inv {code : Bytes} {bits : Bitvec} {pc : Nat} (hi : BitmapInv code bits pc) :
    ∃ bits' pc', codeBitmapLoop code bits pc = .ok bits' ∧ code.length ≤ pc' ∧ BitmapInv code bits' pc' := by
  fun_induction codeBitmapLoop code bits pc with
  | case1 bits pc hpc op hop ih =>
    have hget : code.getD pc 0 = op := by simp [op, List.getD_eq_getElem?_getD, hpc]
    exact ih (hi.step_op hpc (by rw [hget]; exact pushDataSize_of_lt hop))
  | case2 bits pc hpc op hop bits' pc' hm ih =>
    have hget : code.getD pc 0 = op := by simp [op, List.getD_eq_getElem?_getD, hpc]
    obtain ⟨hsize, hle⟩ := pushDataSize_of_not_lt hop
    obtain ⟨bits'', h, hs⟩ := markPushData_setsRange (hi.clear.mono (Nat.le_add_right pc 1))
      (show (pc + 1 + (op - OpCode.PUSH1 + 1).toNat) / 8 < bits.length by rw [hi.length_eq]; omega)
    rw [hm] at h
    cases h
    have hn : (op - OpCode.PUSH1 + 1).toNat = pushDataSize (code.getD pc 0) := by rw [hget]; exact hsize
    have step := hi.step_push hpc (hn ▸ hs)
    rw [nextBoundary, ← hn] at step
    exact ih step
  | case3 bits pc hpc op hop p hm =>
    obtain ⟨hsize, hle⟩ := pushDataSize_of_not_lt hop
    obtain ⟨bits'', h, -⟩ := markPushData_setsRange (hi.clear.mono (Nat.le_add_right pc 1))
      (show (pc + 1 + (op - OpCode.PUSH1 + 1).toNat) / 8 < bits.length by rw [hi.length_eq]; omega)
    rw [hm] at h
    cases h
  | case4 bits pc hpc => exact ⟨bits, pc, rfl, Nat.le_of_not_lt hpc, hi⟩

theorem codeBitmap_inv (code : Bytes) :
    ∃ bits pc, codeBitmap code = .ok bits ∧ code.length ≤ pc ∧ BitmapInv code bits pc :=
  codeBitmapLoop_inv (BitmapInv.init code)

/-- At the end of the loop `codeSegment` reads the invariant's bits. -/
theorem BitmapInv.codeSegment_iff {code : Bytes} {bits : Bitvec} {pc pos : Nat} (hi : BitmapInv code bits pc)
    (hpc : code.length ≤ pc) (hpos : pos < code.length) :
    ∃ b, bits.codeSegment pos = .ok b ∧ (b = true ↔ Boundary code pos) := by
  refine ⟨_, Bitvec.codeSegment_of_lt bits (by rw [hi.length_eq]; omega), ?_⟩
  have := hi.marked pos (by omega)
  cases hb : bit bits pos <;> simp_all

/-- `codeBitmap` never panics, and marks exactly the push data: at every position
of the code, `codeSegment` is true iff an instruction starts there. -/
theorem codeBitmap_codeSegment (code : Bytes) :
    ∃ bits, codeBitmap code = .ok bits ∧ bits.length = code.length / 8 + 1 + 4 ∧
      ∀ pos < code.length, ∃ b, bits.codeSegment pos = .ok b ∧ (b = true ↔ Boundary code pos) := by
  obtain ⟨bits, pc, h, hle, hi⟩ := codeBitmap_inv code
  exact ⟨bits, h, hi.length_eq, fun pos hpos => hi.codeSegment_iff hle hpos⟩

/-! ## The cached analysis of a contract -/

/-- The analyses `isCode` reads and writes: the contract's own
(`Contract.analysis`, nil until it is first needed) and the map it shares with
the contracts of its call (`Contract.jumpdests`), by code hash. -/
structure JumpdestCache where
  analysis : Option Bitvec
  jumpdests : GoMap Hash Bitvec

/-- The analysis of a contract with a code hash: the shared map's, or a new one,
which the map then keeps. -/
def Contract.sharedAnalysis (c : Contract) (jumpdests : GoMap Hash Bitvec) :
    Go (Bitvec × GoMap Hash Bitvec) :=
  match jumpdests.find? c.codeHash with
  | some analysis => .ok (analysis, jumpdests)
  | none => do
    let analysis ← codeBitmap c.code
    .ok (analysis, jumpdests.set c.codeHash analysis)

/-- `c.isCode(udest)`: the contract's own analysis if it has one; otherwise, for
a contract with a code hash, the shared one, which it then keeps as its own;
otherwise a new one, kept as its own only. -/
def Contract.isCode (c : Contract) (cache : JumpdestCache) (udest : Nat) : Go (Bool × JumpdestCache) :=
  match cache.analysis with
  | some analysis => do
    let b ← analysis.codeSegment udest
    .ok (b, cache)
  | none =>
    if c.codeHash != 0 then do
      let (analysis, jumpdests) ← c.sharedAnalysis cache.jumpdests
      let b ← analysis.codeSegment udest
      .ok (b, ⟨some analysis, jumpdests⟩)
    else do
      let analysis ← codeBitmap c.code
      let b ← analysis.codeSegment udest
      .ok (b, { cache with analysis := some analysis })

/-- `c.validJumpdest(dest)`: a destination that fits 64 bits, is in the code, is
a `JUMPDEST` and is code, not push data. -/
def Contract.validJumpdest (c : Contract) (cache : JumpdestCache) (dest : Word) :
    Go (Bool × JumpdestCache) :=
  -- `dest.Uint64WithOverflow()`
  let udest := dest.toNat % 2 ^ 64
  let overflow := decide (2 ^ 64 ≤ dest.toNat)
  if overflow || udest ≥ c.code.length then .ok (false, cache)
  else do
    let op ← sliceIndex c.code udest
    if op != OpCode.JUMPDEST then .ok (false, cache) else c.isCode cache udest

/-- The caches hold only analyses of the codes they stand for: the contract's
own of its code, the shared map's of the code `codeOf` gives each hash. -/
structure JumpdestCache.Coherent (codeOf : Hash → Bytes) (c : Contract) (cache : JumpdestCache) : Prop where
  analysis : ∀ a, cache.analysis = some a → codeBitmap c.code = .ok a
  jumpdests : ∀ h a, cache.jumpdests.find? h = some a → codeBitmap (codeOf h) = .ok a

/-- Any analysis of a code, cached or new, answers `codeSegment` at a position of
the code with whether an instruction starts there. -/
theorem codeSegment_of_codeBitmap {code : Bytes} {bits : Bitvec} (h : codeBitmap code = .ok bits)
    {pos : Nat} (hpos : pos < code.length) :
    ∃ b, bits.codeSegment pos = .ok b ∧ (b = true ↔ Boundary code pos) := by
  obtain ⟨bits', pc, h', hle, hi⟩ := codeBitmap_inv code
  rw [h'] at h
  cases h
  exact hi.codeSegment_iff hle hpos

theorem sharedAnalysis_coherent {codeOf : Hash → Bytes} {c : Contract} {cache : JumpdestCache}
    (hhash : codeOf c.codeHash = c.code) (hcoh : cache.Coherent codeOf c) :
    ∃ a jumpdests, c.sharedAnalysis cache.jumpdests = .ok (a, jumpdests) ∧ codeBitmap c.code = .ok a ∧
      ∀ h a', jumpdests.find? h = some a' → codeBitmap (codeOf h) = .ok a' := by
  unfold Contract.sharedAnalysis
  split
  · rename_i a hfind
    exact ⟨a, _, rfl, hhash ▸ hcoh.jumpdests _ _ hfind, hcoh.jumpdests⟩
  · obtain ⟨a, _, ha, -⟩ := codeBitmap_inv c.code
    refine ⟨a, _, by rw [ha]; rfl, ha, fun h a' hfind => ?_⟩
    by_cases hh : h = c.codeHash
    · subst hh
      rw [GoMap.find?_set_self] at hfind
      cases hfind
      rwa [hhash]
    · rw [GoMap.find?_set_ne _ _ hh] at hfind
      exact hcoh.jumpdests _ _ hfind

/-- `isCode` from coherent caches: the answer is whether an instruction starts
at `udest`, and the caches stay coherent. -/
theorem isCode_coherent {codeOf : Hash → Bytes} {c : Contract} {cache : JumpdestCache} {udest : Nat}
    (hhash : c.codeHash ≠ 0 → codeOf c.codeHash = c.code) (hcoh : cache.Coherent codeOf c)
    (hu : udest < c.code.length) :
    ∃ b cache', c.isCode cache udest = .ok (b, cache') ∧ (b = true ↔ Boundary c.code udest) ∧
      cache'.Coherent codeOf c := by
  unfold Contract.isCode
  split
  · rename_i a ha
    obtain ⟨b, hb, hiff⟩ := codeSegment_of_codeBitmap (hcoh.analysis a ha) hu
    exact ⟨b, cache, by rw [hb]; rfl, hiff, hcoh⟩
  · split
    · rename_i hne
      obtain ⟨a, jumpdests, hs, ha, hj⟩ := sharedAnalysis_coherent (hhash (by simpa using hne)) hcoh
      obtain ⟨b, hb, hiff⟩ := codeSegment_of_codeBitmap ha hu
      refine ⟨b, ⟨some a, jumpdests⟩, by rw [hs, ok_bind]; dsimp only; rw [hb]; rfl, hiff,
        ⟨fun a' h => by cases h; exact ha, hj⟩⟩
    · obtain ⟨a, _, ha, -⟩ := codeBitmap_inv c.code
      obtain ⟨b, hb, hiff⟩ := codeSegment_of_codeBitmap ha hu
      exact ⟨b, { cache with analysis := some a }, by rw [ha, ok_bind, hb]; rfl, hiff,
        ⟨fun a' h => by cases h; exact ha, hcoh.jumpdests⟩⟩

/-- A destination past the code, or past 64 bits, is refused at once. -/
theorem validJumpdest_of_not_lt {c : Contract} (cache : JumpdestCache) {dest : Word}
    (h : ¬ dest.toNat < c.code.length) :
    c.validJumpdest cache dest = .ok (false, cache) := by
  refine if_pos ?_
  simp only [Bool.or_eq_true, decide_eq_true_eq]
  by_cases hbig : 2 ^ 64 ≤ dest.toNat
  · exact .inl hbig
  · exact .inr (by rw [Nat.mod_eq_of_lt (by omega)]; omega)

/-- A destination in the code is valid iff it holds a `JUMPDEST` that `isCode`
accepts. -/
theorem validJumpdest_of_lt {c : Contract} (cache : JumpdestCache) {dest : Word}
    (hlen : c.code.length ≤ 2 ^ 64) (h : dest.toNat < c.code.length) :
    c.validJumpdest cache dest =
      if c.code[dest.toNat] = OpCode.JUMPDEST then c.isCode cache dest.toNat else .ok (false, cache) := by
  have hd : dest.toNat % 2 ^ 64 = dest.toNat := Nat.mod_eq_of_lt (by omega)
  unfold Contract.validJumpdest
  dsimp only
  rw [if_neg (by simp only [hd, Bool.or_eq_true, decide_eq_true_eq, not_or, not_le]; omega), hd,
    sliceIndex_of_lt c.code h, ok_bind, List.get_eq_getElem]
  by_cases hop : c.code[dest.toNat] = OpCode.JUMPDEST <;> simp [hop]

/-- What `validJumpdest` does from coherent caches; the step lemma of the runs
of checks below. -/
theorem validJumpdest_spec {codeOf : Hash → Bytes} {c : Contract} {cache : JumpdestCache} (dest : Word)
    (hlen : c.code.length ≤ 2 ^ 64) (hhash : c.codeHash ≠ 0 → codeOf c.codeHash = c.code)
    (hcoh : cache.Coherent codeOf c) :
    ∃ b cache', c.validJumpdest cache dest = .ok (b, cache') ∧
      (b = true ↔ c.code[dest.toNat]? = some OpCode.JUMPDEST ∧ Boundary c.code dest.toNat) ∧
      cache'.Coherent codeOf c := by
  by_cases hin : dest.toNat < c.code.length
  · rw [validJumpdest_of_lt cache hlen hin, List.getElem?_eq_getElem hin]
    by_cases hop : c.code[dest.toNat] = OpCode.JUMPDEST
    · obtain ⟨b, cache', h, hiff, hcoh'⟩ := isCode_coherent hhash hcoh hin
      exact ⟨b, cache', by rw [if_pos hop, h], by simp [hiff, hop], hcoh'⟩
    · exact ⟨false, cache, if_neg hop, by simp [hop], hcoh⟩
  · rw [validJumpdest_of_not_lt cache hin, List.getElem?_eq_none (Nat.le_of_not_lt hin)]
    exact ⟨false, cache, rfl, by simp, hcoh⟩

/-- `validJumpdest` from coherent caches, for a contract whose code hash, when
it has one, is that of its code: the destination is valid iff it holds a
`JUMPDEST` of the code and an instruction starts there; the caches stay
coherent. -/
theorem validJumpdest_coherent {codeOf : Hash → Bytes} {c : Contract} {cache : JumpdestCache} (dest : Word)
    (hlen : c.code.length ≤ 2 ^ 64) (hhash : c.codeHash ≠ 0 → codeOf c.codeHash = c.code)
    (hcoh : cache.Coherent codeOf c) :
    ∃ b cache', c.validJumpdest cache dest = .ok (b, cache') ∧
      (b = true ↔ c.code[dest.toNat]? = some OpCode.JUMPDEST ∧ Boundary c.code dest.toNat) ∧
      cache'.Coherent codeOf c :=
  validJumpdest_spec dest hlen hhash hcoh

theorem JumpdestCache.Coherent.empty (codeOf : Hash → Bytes) (c : Contract) :
    JumpdestCache.Coherent codeOf c ⟨none, ∅⟩ :=
  ⟨(fun _ h => nomatch h), fun _ _ h => by dsimp only at h; rw [GoMap.find?_empty] at h; cases h⟩

/-- A destination `validJumpdest` accepts from empty caches is in the code, at
the start of an instruction. -/
theorem boundary_of_validJumpdest {c : Contract} {dest : Word} {cache' : JumpdestCache}
    (hlen : c.code.length ≤ 2 ^ 64) (h : c.validJumpdest ⟨none, ∅⟩ dest = .ok (true, cache')) :
    dest.toNat < c.code.length ∧ Boundary c.code dest.toNat := by
  by_cases hin : dest.toNat < c.code.length
  · rw [validJumpdest_of_lt _ hlen hin] at h
    split at h
    · obtain ⟨b, cache'', h', hiff, -⟩ :=
        isCode_coherent (fun _ => rfl) (JumpdestCache.Coherent.empty (fun _ => c.code) c) hin
      rw [h'] at h
      cases h
      exact ⟨hin, hiff.mp rfl⟩
    · cases h
  · rw [validJumpdest_of_not_lt _ hin] at h
    cases h

/-- A contract whose code is one `JUMPDEST`, with a code hash and empty caches. -/
theorem validJumpdest_coherent_setCallCode :
    [OpCode.JUMPDEST].length ≤ 2 ^ 64 ∧ ((1 : Hash) ≠ 0 → [OpCode.JUMPDEST] = [OpCode.JUMPDEST]) ∧
    JumpdestCache.Coherent (fun _ => [OpCode.JUMPDEST]) ((Contract.new 0 0 0 0).setCallCode 0 1 [OpCode.JUMPDEST])
      ⟨none, ∅⟩ ∧
    ∃ b cache', ((Contract.new 0 0 0 0).setCallCode 0 1 [OpCode.JUMPDEST]).validJumpdest ⟨none, ∅⟩ 0 =
        .ok (b, cache') ∧
      (b = true ↔ [OpCode.JUMPDEST][0]? = some OpCode.JUMPDEST ∧ Boundary [OpCode.JUMPDEST] 0) ∧
      cache'.Coherent (fun _ => [OpCode.JUMPDEST]) ((Contract.new 0 0 0 0).setCallCode 0 1 [OpCode.JUMPDEST]) :=
  have hcoh := JumpdestCache.Coherent.empty (fun _ => [OpCode.JUMPDEST])
    ((Contract.new 0 0 0 0).setCallCode 0 1 [OpCode.JUMPDEST])
  ⟨by decide, fun _ => rfl, hcoh, validJumpdest_coherent 0 (by decide) (fun _ => rfl) hcoh⟩

/-! ## The caches over a call tree -/

/-- What the contracts of one call tree cache: each one's own `analysis`, by
its place in the tree, and the `jumpdests` map they all share, which
`NewContract` hands a callee from its caller. -/
structure TreeCaches where
  analyses : Nat → Option Bitvec
  jumpdests : GoMap Hash Bitvec

/-- A tree's caches at its start: `NewContract` from an account makes a new
map, and every contract starts with a nil `analysis`. -/
def TreeCaches.empty : TreeCaches := ⟨fun _ => none, ∅⟩

/-- The jump checks of a call tree in the order its contracts make them:
`(i, dest)` is `validJumpdest(dest)` of contract `i`, on its own analysis and
the shared map, each check leaving both for the next. -/
def checkJumps (cs : List Contract) : TreeCaches → List (Fin cs.length × Word) → Go (List Bool × TreeCaches)
  | tc, [] => .ok ([], tc)
  | tc, (i, dest) :: js => do
    let (b, cache) ← cs[i].validJumpdest ⟨tc.analyses i, tc.jumpdests⟩ dest
    let (bs, tc') ← checkJumps cs ⟨Function.update tc.analyses i cache.analysis, cache.jumpdests⟩ js
    .ok (b :: bs, tc')

/-- Every contract's caches are coherent. -/
def TreeCaches.Coherent (codeOf : Hash → Bytes) (cs : List Contract) (tc : TreeCaches) : Prop :=
  ∀ i : Fin cs.length, JumpdestCache.Coherent codeOf cs[i] ⟨tc.analyses i, tc.jumpdests⟩

section Tree

variable {codeOf : Hash → Bytes} {cs : List Contract}

theorem TreeCaches.coherent_empty : TreeCaches.empty.Coherent codeOf cs :=
  fun i => JumpdestCache.Coherent.empty codeOf cs[i]

/-- A check by contract `i` leaves coherent caches for every contract: its own
analysis is new, the others' are as they were, and the map is one map. -/
theorem TreeCaches.Coherent.update {tc : TreeCaches} {i : Fin cs.length} {cache : JumpdestCache}
    (htc : tc.Coherent codeOf cs) (hi : cache.Coherent codeOf cs[i]) :
    TreeCaches.Coherent codeOf cs ⟨Function.update tc.analyses i cache.analysis, cache.jumpdests⟩ := by
  intro j
  by_cases hj : j = i
  · subst hj
    simpa using hi
  · have hne : (j : Nat) ≠ i := fun h => hj (Fin.ext h)
    refine ⟨fun a ha => (htc j).analysis a ?_, hi.jumpdests⟩
    simpa [Function.update_of_ne hne] using ha

/-- A check from coherent caches decides as the check from empty ones. -/
theorem validJumpdest_eq_fresh {c : Contract} {dest : Word} {b : Bool}
    (hlen : c.code.length ≤ 2 ^ 64) (hhash : c.codeHash ≠ 0 → codeOf c.codeHash = c.code)
    (hiff : b = true ↔ c.code[dest.toNat]? = some OpCode.JUMPDEST ∧ Boundary c.code dest.toNat) :
    ∃ cache'', c.validJumpdest ⟨none, ∅⟩ dest = .ok (b, cache'') := by
  obtain ⟨b', cache'', h, hiff', -⟩ := validJumpdest_spec dest hlen hhash (JumpdestCache.Coherent.empty codeOf c)
  have hb : b' = b := Bool.eq_iff_iff.mpr (hiff'.trans hiff.symm)
  exact ⟨cache'', hb ▸ h⟩

/-- The run lemma: for contracts whose code hashes name their code, every check
of a run from coherent caches decides as the check from empty caches does,
and the caches stay coherent; by induction on the checks, each step being
`validJumpdest_spec`. -/
theorem checkJumps_fresh (hlen : ∀ c ∈ cs, c.code.length ≤ 2 ^ 64)
    (hhash : ∀ c ∈ cs, c.codeHash ≠ 0 → codeOf c.codeHash = c.code) (js : List (Fin cs.length × Word))
    {tc : TreeCaches} (htc : tc.Coherent codeOf cs) :
    ∃ bs tc', checkJumps cs tc js = .ok (bs, tc') ∧ tc'.Coherent codeOf cs ∧
      List.Forall₂ (fun (j : Fin cs.length × Word) b => ∃ cache, cs[j.1].validJumpdest ⟨none, ∅⟩ j.2 = .ok (b, cache))
        js bs := by
  induction js generalizing tc with
  | nil => exact ⟨[], tc, rfl, htc, .nil⟩
  | cons j js ih =>
    obtain ⟨i, dest⟩ := j
    have hmem : cs[i] ∈ cs := List.getElem_mem i.isLt
    obtain ⟨b, cache, hcheck, hiff, hcoh⟩ := validJumpdest_spec dest (hlen _ hmem) (hhash _ hmem) (htc i)
    obtain ⟨bs, tc', hrest, htc', hbs⟩ := ih (htc.update hcoh)
    refine ⟨b :: bs, tc', ?_, htc', .cons (validJumpdest_eq_fresh (hlen _ hmem) (hhash _ hmem) hiff) hbs⟩
    rw [checkJumps, hcheck, ok_bind]
    dsimp only
    rw [hrest, ok_bind]

/-- A contract with the code `PUSH1 3`, `JUMP`, `JUMPDEST` and code hash 1. -/
def treeContract : Contract := (Contract.new 0 0 0 0).setCallCode 0 1 [0x60, 3, 0x56, OpCode.JUMPDEST]

/-- Two contracts of one tree with that code: the second finds the first's
analysis in the shared map, and takes 3 and refuses 1, the push data. -/
theorem checkJumps_fresh_shared :
    ∃ bs tc', checkJumps [treeContract, treeContract] TreeCaches.empty
        [(⟨0, by decide⟩, 3), (⟨1, by decide⟩, 3), (⟨1, by decide⟩, 1)] = .ok (bs, tc') ∧
      tc'.Coherent (fun _ => [0x60, 3, 0x56, OpCode.JUMPDEST]) [treeContract, treeContract] ∧
      List.Forall₂ (fun (j : Fin [treeContract, treeContract].length × Word) b =>
          ∃ cache, [treeContract, treeContract][j.1].validJumpdest ⟨none, ∅⟩ j.2 = .ok (b, cache))
        [(⟨0, by decide⟩, 3), (⟨1, by decide⟩, 3), (⟨1, by decide⟩, 1)] bs :=
  checkJumps_fresh (by decide) (by decide) _ TreeCaches.coherent_empty

example : (checkJumps [treeContract, treeContract] TreeCaches.empty
    [(⟨0, by decide⟩, 3), (⟨1, by decide⟩, 3), (⟨1, by decide⟩, 1)]).toOption.map Prod.fst =
      some [true, true, false] := by
  decide +kernel

end Tree

end Pangu
