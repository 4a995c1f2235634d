/-
# The flags of a subtraction

What the bit formulas for the flags of a subtraction say about its operands: the sign and
the signed overflow, the borrow out of the low nibble, and the parity of a byte.
-/
import Mathlib.Tactic.Common
import Mathlib.Data.Nat.Bitwise

namespace SubtractionFlags

variable {w : ℕ}

/-- The number of ones among the low 8 bits is even. -/
def evenParity (x : BitVec w) : Bool :=
  ((List.range 8).countP fun i => x.getLsbD i) % 2 == 0

/-- The parity of a byte, folded by exclusive ors. -/
theorem evenParity_fold : ∀ x : BitVec 8,
    (let y := x ^^^ (x >>> 4)
     let y := y ^^^ (y >>> 2)
     let y := y ^^^ (y >>> 1)
     y &&& 1 == 0) = evenParity x := by
  decide +kernel

theorem evenParity_setWidth (x : BitVec w) : evenParity (x.setWidth 8) = evenParity x := by
  unfold evenParity
  congr 2
  refine List.countP_congr fun i hi => ?_
  rw [List.mem_range] at hi
  rw [BitVec.getLsbD_setWidth]
  simp [hi]

/-- A bit of a word, by a mask. -/
theorem and_twoPow_ne_zero (x : BitVec w) {i : ℕ} (hi : i < w) :
    (x &&& BitVec.twoPow w i != 0) = x.getLsbD i := by
  have hpow : BitVec.twoPow w i ≠ 0 := by
    intro hzero
    have hbit := congrArg (fun y : BitVec w => y.getLsbD i) hzero
    simp [hi] at hbit
  rw [BitVec.and_twoPow]
  cases x.getLsbD i with
  | true => simpa using hpow
  | false => simp

/-- The sign. -/
theorem and_intMin_ne_zero (x : BitVec w) (hw : 0 < w) : (x &&& BitVec.intMin w != 0) = x.msb := by
  rw [BitVec.intMin, and_twoPow_ne_zero x (by omega), BitVec.msb_eq_getLsbD_last]

/-- **The overflow** of a signed subtraction. -/
theorem overflow_formula (x y : BitVec w) (hw : 0 < w) :
    ((x ^^^ y) &&& (x ^^^ (x - y)) &&& BitVec.intMin w != 0) = BitVec.ssubOverflow x y := by
  rw [and_intMin_ne_zero _ hw, BitVec.ssubOverflow_eq, BitVec.msb_and, BitVec.msb_xor,
    BitVec.msb_xor]
  cases x.msb <;> cases y.msb <;> cases (x - y).msb <;> rfl

/-- **The borrow** out of the low nibble. -/
theorem borrow_formula (x y : BitVec w) (hw : 8 ≤ w) :
    ((x ^^^ y ^^^ (x - y)) &&& 0x10 != 0) = decide (x.toNat % 16 < y.toNat % 16) := by
  have hmask : (0x10 : BitVec w) = BitVec.twoPow w 4 := by
    apply BitVec.eq_of_toNat_eq
    rw [BitVec.toNat_twoPow]
    rfl
  have hbit : ∀ z : BitVec w, z.getLsbD 4 = decide (z.toNat / 16 % 2 = 1) := fun z =>
    Nat.testBit_eq_decide_div_mod_eq
  -- the difference modulo 32 is that of the operands modulo 32
  obtain ⟨k, hk⟩ : ∃ k, 2 ^ w = 32 * k := Nat.pow_dvd_pow 2 (show 5 ≤ w by omega)
  have hx := x.isLt
  have hy := y.isLt
  have hdiff : (x - y).toNat % 32 = (x.toNat % 32 + (32 - y.toNat % 32)) % 32 := by
    rw [BitVec.toNat_sub, hk, Nat.mod_mul_right_mod]
    rw [hk] at hy
    omega
  rw [hmask, and_twoPow_ne_zero _ (by omega), BitVec.getLsbD_xor, BitVec.getLsbD_xor, hbit, hbit,
    hbit]
  generalize x.toNat = a at *
  generalize y.toNat = b at *
  generalize (x - y).toNat = c at *
  by_cases hborrow : a % 16 < b % 16
  · have hc : c / 16 % 2 = (a / 16 % 2 + b / 16 % 2 + 1) % 2 := by omega
    rw [decide_eq_true hborrow, hc]
    rcases Nat.mod_two_eq_zero_or_one (a / 16) with ha | ha <;>
      rcases Nat.mod_two_eq_zero_or_one (b / 16) with hb | hb <;> rw [ha, hb] <;> rfl
  · have hc : c / 16 % 2 = (a / 16 % 2 + b / 16 % 2) % 2 := by omega
    rw [decide_eq_false hborrow, hc]
    rcases Nat.mod_two_eq_zero_or_one (a / 16) with ha | ha <;>
      rcases Nat.mod_two_eq_zero_or_one (b / 16) with hb | hb <;> rw [ha, hb] <;> rfl

end SubtractionFlags
