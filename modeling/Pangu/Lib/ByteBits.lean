import Mathlib

/-!
# Byte lists read as bit strings

A list of bytes is read as a string of bits: bit `q` is bit `q % 8` of byte
`q / 8`, the least significant first, and a byte past the end reads as zero
(`bit`). Code that keeps one bit per position in such a list writes a byte at a
time, with masks it builds by shifting:

* `bit_set`: what writing one byte does to the bits;
* `bit_set_or`, `bit_set_of_clear`: a mask or-ed into a byte, or stored over a
  byte whose bits are all clear, adds the mask's bits;
* `testBit_shiftLeft_uint8`, `testBit_low_shiftLeft`, `testBit_high_shiftLeft`:
  the bits of a shifted mask, in one byte or split over two;
* `SetsRange`: one list is another with the bits of an interval set;
  `SetsRange.trans` joins two adjacent intervals.
-/

namespace ByteBits

/-- Bit `q` of `bs`. -/
def bit (bs : List UInt8) (q : Nat) : Bool :=
  (bs.getD (q / 8) 0).toNat.testBit (q % 8)

/-- Writing byte `i` changes only the bits it holds. -/
theorem bit_set (bs : List UInt8) (i : Nat) (v : UInt8) (q : Nat) :
    bit (bs.set i v) q =
      if q / 8 = i ∧ i < bs.length then v.toNat.testBit (q % 8) else bit bs q := by
  simp only [bit, List.getD_eq_getElem?_getD, List.getElem?_set]
  by_cases hq : q / 8 = i
  · subst hq
    by_cases hl : q / 8 < bs.length <;> simp [hl]
  · simp [hq, Ne.symm hq]

theorem bit_set_of_ne {bs : List UInt8} {i : Nat} {q : Nat} (h : q / 8 ≠ i) (v : UInt8) :
    bit (bs.set i v) q = bit bs q := by
  rw [bit_set, if_neg (fun h' => h h'.1)]

theorem bit_set_or {bs : List UInt8} {i : Nat} (hi : i < bs.length) (m : UInt8) (q : Nat) :
    bit (bs.set i (bs.getD i 0 ||| m)) q = (bit bs q || (q / 8 == i && m.toNat.testBit (q % 8))) := by
  rw [bit_set]
  by_cases hq : q / 8 = i
  · simp [hq, hi, bit, UInt8.toNat_or, Nat.testBit_or]
  · simp [hq]

/-- Storing a byte over one whose bits are all clear is or-ing it in. -/
theorem bit_set_of_clear {bs : List UInt8} {i : Nat} (hi : i < bs.length)
    (hclear : ∀ j < 8, bit bs (8 * i + j) = false) (m : UInt8) (q : Nat) :
    bit (bs.set i m) q = (bit bs q || (q / 8 == i && m.toNat.testBit (q % 8))) := by
  rw [bit_set]
  by_cases hq : q / 8 = i
  · have hq' : bit bs q = false := by
      have := hclear (q % 8) (Nat.mod_lt _ (by decide))
      rwa [← hq, Nat.div_add_mod] at this
    simp [hq, hi, hq']
  · simp [hq]

theorem bit_of_length_le {bs : List UInt8} {q : Nat} (h : bs.length ≤ q / 8) : bit bs q = false := by
  simp [bit, List.getD_eq_getElem?_getD, List.getElem?_eq_none h]

@[simp] theorem bit_replicate_zero (n q : Nat) : bit (List.replicate n 0) q = false := by
  simp only [bit, List.getD_eq_getElem?_getD, List.getElem?_replicate]
  split <;> simp

/-! ## The bits of shifted masks -/

theorem testBit_shiftLeft_uint8 (x : UInt8) {k j : Nat} (hk : k < 8) (hj : j < 8) :
    (x <<< k.toUInt8).toNat.testBit j = (decide (k ≤ j) && x.toNat.testBit (j - k)) := by
  have hk' : k.toUInt8.toNat % 8 = k := by
    rw [Nat.toUInt8_eq, UInt8.toNat_ofNat']; omega
  rw [UInt8.toNat_shiftLeft, hk', Nat.testBit_mod_two_pow, Nat.testBit_shiftLeft]
  simp [hj]

theorem testBit_not_uint8 (x : UInt8) {j : Nat} (hj : j < 8) :
    (~~~x).toNat.testBit j = !x.toNat.testBit j := by
  rw [UInt8.toNat_not, show UInt8.size = 2 ^ 8 from rfl, Nat.sub_sub, Nat.add_comm,
    Nat.testBit_two_pow_sub_succ x.toNat_lt]
  simp [hj]

/-- A 16-bit mask shifted by less than 8: its low byte. -/
theorem testBit_low_shiftLeft (x : UInt16) {k j : Nat} (hk : k < 8) (hj : j < 8) :
    ((x <<< k.toUInt16).toUInt8).toNat.testBit j = (decide (k ≤ j) && x.toNat.testBit (j - k)) := by
  have hk' : k.toUInt16.toNat % 16 = k := by
    rw [Nat.toUInt16_eq, UInt16.toNat_ofNat']; omega
  rw [UInt16.toNat_toUInt8, UInt16.toNat_shiftLeft, hk', Nat.testBit_mod_two_pow,
    Nat.testBit_mod_two_pow, Nat.testBit_shiftLeft]
  simp [hj, show j < 16 by omega]

/-- A 16-bit mask shifted by less than 8: its high byte. -/
theorem testBit_high_shiftLeft (x : UInt16) {k j : Nat} (hk : k < 8) (hj : j < 8) :
    (((x <<< k.toUInt16) >>> 8).toUInt8).toNat.testBit j =
      (decide (k ≤ j + 8) && x.toNat.testBit (j + 8 - k)) := by
  have hk' : k.toUInt16.toNat % 16 = k := by
    rw [Nat.toUInt16_eq, UInt16.toNat_ofNat']; omega
  rw [UInt16.toNat_toUInt8, UInt16.toNat_shiftRight, UInt16.toNat_shiftLeft, hk',
    Nat.testBit_mod_two_pow, Nat.testBit_shiftRight, Nat.testBit_mod_two_pow, Nat.testBit_shiftLeft]
  simp [hj, Nat.add_comm 8 j, show j + 8 < 16 by omega]

/-- A byte whose eight bits are clear is zero. -/
theorem eq_zero_of_testBit (b : UInt8) (h : ∀ j < 8, b.toNat.testBit j = false) : b = 0 := by
  rw [← UInt8.toNat_inj]
  refine Nat.eq_of_testBit_eq fun j => ?_
  rw [UInt8.toNat_zero, Nat.zero_testBit]
  by_cases hj : j < 8
  · exact h j hj
  · exact Nat.testBit_lt_two_pow (b.toNat_lt.trans_le (Nat.pow_le_pow_right (by decide) (by omega)))

/-- Reading bit `k` of a byte by a shift and a mask. -/
theorem shiftRight_and_one_eq_zero (b : UInt8) {k : Nat} (hk : k < 8) :
    ((b >>> k.toUInt8) &&& 1 == 0) = !b.toNat.testBit k := by
  have hk' : k.toUInt8.toNat % 8 = k := by
    rw [Nat.toUInt8_eq, UInt8.toNat_ofNat']; omega
  have h : ((b >>> k.toUInt8) &&& 1).toNat = (b.toNat >>> k) % 2 := by
    rw [UInt8.toNat_and, UInt8.toNat_shiftRight, hk', UInt8.toNat_one, Nat.and_one_is_mod]
  rw [Nat.testBit, Nat.one_and_eq_mod_two, ← h]
  generalize (b >>> k.toUInt8) &&& 1 = c
  simp [bne, ← UInt8.toNat_inj]

/-! ## Setting the bits of an interval -/

/-- Every bit from `p` on is clear. -/
def ClearFrom (bs : List UInt8) (p : Nat) : Prop := ∀ q, p ≤ q → bit bs q = false

/-- `bs'` is `bs` with the bits `p, …, p + n - 1` set. -/
structure SetsRange (bs bs' : List UInt8) (p n : Nat) : Prop where
  length_eq : bs'.length = bs.length
  bit_eq : ∀ q, bit bs' q = (bit bs q || (decide (p ≤ q) && decide (q < p + n)))

theorem SetsRange.zero (bs : List UInt8) (p : Nat) : SetsRange bs bs p 0 :=
  ⟨rfl, fun q => by simp⟩

theorem SetsRange.trans {bs₁ bs₂ bs₃ : List UInt8} {p n m : Nat} (h₁ : SetsRange bs₁ bs₂ p n)
    (h₂ : SetsRange bs₂ bs₃ (p + n) m) : SetsRange bs₁ bs₃ p (n + m) where
  length_eq := h₂.length_eq.trans h₁.length_eq
  bit_eq q := by
    rw [h₂.bit_eq, h₁.bit_eq, Bool.or_assoc]
    congr 1
    rw [Bool.eq_iff_iff]
    simp only [Bool.or_eq_true, Bool.and_eq_true, decide_eq_true_eq]
    omega

theorem ClearFrom.mono {bs : List UInt8} {p p' : Nat} (hc : ClearFrom bs p) (h : p ≤ p') :
    ClearFrom bs p' :=
  fun q hq => hc q (h.trans hq)

theorem ClearFrom.of_setsRange {bs bs' : List UInt8} {p n : Nat} (hc : ClearFrom bs p)
    (h : SetsRange bs bs' p n) : ClearFrom bs' (p + n) := by
  intro q hq
  rw [h.bit_eq, hc q (by omega)]
  simp only [Bool.false_or, Bool.and_eq_false_imp, decide_eq_true_eq, decide_eq_false_iff_not]
  omega

/-- The bits of a byte that lies wholly at or after `p` are clear. -/
theorem ClearFrom.byte {bs : List UInt8} {p i : Nat} (hc : ClearFrom bs p) (h : p ≤ 8 * i) :
    ∀ j < 8, bit bs (8 * i + j) = false :=
  fun _ _ => hc _ (by omega)

end ByteBits
