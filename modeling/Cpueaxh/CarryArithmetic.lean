/-
# Sums and differences with a carry

What the bit formulas for the flags of a sum or a difference with an incoming carry say about
the integers, and how the carries of single words make up the sum of numbers of many words.
-/
import Cpueaxh.SubtractionFlags
import Mathlib.Tactic.Ring

namespace CarryArithmetic

open SubtractionFlags

variable {w : ℕ}

/-! ## Integers in the range of a word -/

/-- The integer is the value of a word without a sign. -/
def FitsUnsigned (w : ℕ) (x : ℤ) : Prop := 0 ≤ x ∧ x < 2 ^ w

/-- The integer is the value of a word with a sign. -/
def FitsSigned (w : ℕ) (x : ℤ) : Prop := -2 ^ (w - 1) ≤ x ∧ x < 2 ^ (w - 1)

instance (w : ℕ) (x : ℤ) : Decidable (FitsUnsigned w x) := inferInstanceAs (Decidable (_ ∧ _))

instance (w : ℕ) (x : ℤ) : Decidable (FitsSigned w x) := inferInstanceAs (Decidable (_ ∧ _))

/-- The signs of words: those from half of the range on are negative. -/
theorem half_range (hw : 0 < w) :
    ∃ half : ℕ, 2 ^ w = 2 * half ∧ (∀ z, FitsSigned w z ↔ -(half : ℤ) ≤ z ∧ z < half) ∧
      ∀ x : BitVec w, x.toNat < 2 * half ∧ x.msb = decide (half ≤ x.toNat) ∧
        x.toInt = if half ≤ x.toNat then (x.toNat : ℤ) - 2 * half else x.toNat := by
  obtain ⟨k, rfl⟩ : ∃ k, w = k + 1 := ⟨w - 1, by omega⟩
  have hpow : 2 ^ (k + 1) = 2 * 2 ^ k := by rw [pow_succ, mul_comm]
  refine ⟨2 ^ k, hpow, ?_, ?_⟩
  · intro z
    unfold FitsSigned
    push_cast
    rfl
  · intro x
    have hx := x.isLt
    rw [hpow] at hx
    rw [BitVec.toInt_eq_toNat_cond, BitVec.msb_eq_decide, Nat.add_sub_cancel, hpow]
    refine ⟨hx, rfl, ?_⟩
    push_cast
    split_ifs <;> omega

/-- A number below twice the range, under the range. -/
theorem mod_range {range n : ℕ} (h : n < 2 * range) :
    n % range = if n < range then n else n - range := by
  split_ifs with hlt
  · exact Nat.mod_eq_of_lt hlt
  · rw [Nat.mod_eq_sub_mod (not_lt.mp hlt), Nat.mod_eq_of_lt (by omega)]

/-! ## The carry -/

/-- A word and the carry out of it make up a sum. -/
theorem sum_split {r : ℕ} {sum : ℤ} (hr : (r : ℤ) = sum % 2 ^ w) (hlow : 0 ≤ sum)
    (hhigh : sum < 2 * 2 ^ w) : r + 2 ^ w * ((decide (¬ FitsUnsigned w sum)).toNat : ℤ) = sum := by
  by_cases hfits : FitsUnsigned w sum
  · rw [hr, Int.emod_eq_of_lt hfits.1 hfits.2, decide_eq_false (not_not.mpr hfits)]
    exact (congrArg (sum + ·) (mul_zero _)).trans (add_zero _)
  · have hge : 2 ^ w ≤ sum := by
      by_contra hlt
      exact hfits ⟨hlow, not_le.mp hlt⟩
    rw [hr, ← Int.sub_emod_right, Int.emod_eq_of_lt (by omega) (by omega), decide_eq_true hfits]
    show sum - 2 ^ w + 2 ^ w * 1 = sum
    omega

/-- A word and the borrow into it make up a difference. -/
theorem difference_split {r : ℕ} {difference : ℤ} (hr : (r : ℤ) = difference % 2 ^ w)
    (hlow : -2 ^ w ≤ difference) (hhigh : difference < 2 ^ w) :
    (r : ℤ) = difference + 2 ^ w * ((decide (¬ FitsUnsigned w difference)).toNat : ℤ) := by
  by_cases hfits : FitsUnsigned w difference
  · rw [hr, Int.emod_eq_of_lt hfits.1 hfits.2, decide_eq_false (not_not.mpr hfits)]
    exact ((congrArg (difference + ·) (mul_zero _)).trans (add_zero _)).symm
  · have hneg : difference < 0 := by
      by_contra hge
      exact hfits ⟨not_lt.mp hge, hhigh⟩
    rw [hr, ← Int.add_emod_right, Int.emod_eq_of_lt (by omega) (by omega), decide_eq_true hfits]
    show _ = difference + 2 ^ w * 1
    omega

/-! ## The overflow -/

/-- **The overflow of a sum** with a carry. -/
theorem overflow_sum (hw : 0 < w) {x y r : BitVec w} {c : ℕ} (hc : c ≤ 1)
    (hr : r.toNat = (x.toNat + y.toNat + c) % 2 ^ w) :
    ((x ^^^ r) &&& (y ^^^ r) &&& BitVec.intMin w != 0) =
      decide (¬ FitsSigned w (x.toInt + y.toInt + c)) := by
  obtain ⟨half, hrange, hfits, hsign⟩ := half_range hw
  obtain ⟨hx, hxm, hxi⟩ := hsign x
  obtain ⟨hy, hym, hyi⟩ := hsign y
  obtain ⟨-, hrm, -⟩ := hsign r
  rw [hrange, mod_range (by omega)] at hr
  rw [and_intMin_ne_zero _ hw, BitVec.msb_and, BitVec.msb_xor, BitVec.msb_xor, hxm, hym, hrm,
    Bool.eq_iff_iff, decide_eq_true_iff, hfits, hxi, hyi]
  -- the signs decide, and the sum passes the range once at most
  simp only [Bool.and_eq_true, bne_iff_ne, ne_eq, decide_eq_decide]
  split_ifs at hr ⊢ <;> omega

/-- **The overflow of a difference** with a borrow. -/
theorem overflow_difference (hw : 0 < w) {x y r : BitVec w} {c : ℕ} (hc : c ≤ 1)
    (hr : r.toNat = (2 ^ w + x.toNat - y.toNat - c) % 2 ^ w) :
    ((x ^^^ y) &&& (x ^^^ r) &&& BitVec.intMin w != 0) =
      decide (¬ FitsSigned w (x.toInt - y.toInt - c)) := by
  obtain ⟨half, hrange, hfits, hsign⟩ := half_range hw
  obtain ⟨hx, hxm, hxi⟩ := hsign x
  obtain ⟨hy, hym, hyi⟩ := hsign y
  obtain ⟨-, hrm, -⟩ := hsign r
  rw [hrange, mod_range (by omega)] at hr
  rw [and_intMin_ne_zero _ hw, BitVec.msb_and, BitVec.msb_xor, BitVec.msb_xor, hxm, hym, hrm,
    Bool.eq_iff_iff, decide_eq_true_iff, hfits, hxi, hyi]
  simp only [Bool.and_eq_true, bne_iff_ne, ne_eq, decide_eq_decide]
  split_ifs at hr ⊢ <;> omega

/-! ## The carry out of the low nibble -/

/-- The bit above the low nibble. -/
theorem and_sixteen_ne_zero (hw : 8 ≤ w) (z : BitVec w) : (z &&& 0x10 != 0) = z.getLsbD 4 := by
  have hmask : (0x10 : BitVec w) = BitVec.twoPow w 4 := by
    apply BitVec.eq_of_toNat_eq
    rw [BitVec.toNat_twoPow]
    rfl
  rw [hmask, and_twoPow_ne_zero _ (by omega)]

theorem getLsbD_four (z : BitVec w) : z.getLsbD 4 = decide (z.toNat / 16 % 2 = 1) :=
  Nat.testBit_eq_decide_div_mod_eq

/-- The low nibble. -/
theorem and_fifteen_toNat (hw : 8 ≤ w) (x : BitVec w) : (x &&& 0x0F).toNat = x.toNat % 16 := by
  have hle : 2 ^ 8 ≤ 2 ^ w := Nat.pow_le_pow_right (by decide) hw
  rw [BitVec.toNat_and, show (0x0F : BitVec w).toNat = 15 from
    Nat.mod_eq_of_lt (show 15 < 2 ^ w by omega)]
  exact Nat.and_two_pow_sub_one_eq_mod x.toNat 4

/-- **The carry** of a sum, by exclusive ors. -/
theorem adjust_sum (hw : 8 ≤ w) (x y : BitVec w) :
    ((x ^^^ y ^^^ (x + y)) &&& 0x10 != 0) = decide (16 ≤ x.toNat % 16 + y.toNat % 16) := by
  -- the sum modulo 32 is that of the operands modulo 32
  obtain ⟨k, hk⟩ : ∃ k, 2 ^ w = 32 * k := Nat.pow_dvd_pow 2 (show 5 ≤ w by omega)
  have hsum : (x + y).toNat % 32 = (x.toNat + y.toNat) % 32 := by
    rw [BitVec.toNat_add, hk, Nat.mod_mul_right_mod]
  rw [and_sixteen_ne_zero hw, BitVec.getLsbD_xor, BitVec.getLsbD_xor, getLsbD_four, getLsbD_four,
    getLsbD_four]
  generalize x.toNat = a at *
  generalize y.toNat = b at *
  generalize (x + y).toNat = c at *
  by_cases hcarry : 16 ≤ a % 16 + b % 16
  · have hc : c / 16 % 2 = (a / 16 % 2 + b / 16 % 2 + 1) % 2 := by omega
    rw [decide_eq_true hcarry, hc]
    rcases Nat.mod_two_eq_zero_or_one (a / 16) with ha | ha <;>
      rcases Nat.mod_two_eq_zero_or_one (b / 16) with hb | hb <;> rw [ha, hb] <;> rfl
  · have hc : c / 16 % 2 = (a / 16 % 2 + b / 16 % 2) % 2 := by omega
    rw [decide_eq_false hcarry, hc]
    rcases Nat.mod_two_eq_zero_or_one (a / 16) with ha | ha <;>
      rcases Nat.mod_two_eq_zero_or_one (b / 16) with hb | hb <;> rw [ha, hb] <;> rfl

/-- **The carry** of a sum with a carry, by the nibbles. -/
theorem nibble_sum (hw : 8 ≤ w) (x y : BitVec w) {c : BitVec w} (hc : c.toNat ≤ 1) :
    (((x &&& 0x0F) + (y &&& 0x0F) + c) &&& 0x10 != 0) =
      decide (16 ≤ x.toNat % 16 + y.toNat % 16 + c.toNat) := by
  have hle : 2 ^ 8 ≤ 2 ^ w := Nat.pow_le_pow_right (by decide) hw
  rw [and_sixteen_ne_zero hw, getLsbD_four, BitVec.toNat_add, BitVec.toNat_add,
    and_fifteen_toNat hw, and_fifteen_toNat hw, Nat.mod_eq_of_lt (show x.toNat % 16 + y.toNat % 16 < 2 ^ w by omega),
    Nat.mod_eq_of_lt (show x.toNat % 16 + y.toNat % 16 + c.toNat < 2 ^ w by omega),
    decide_eq_decide]
  omega

/-- **The borrow** of a difference with a borrow, by the nibbles. -/
theorem nibble_difference (hw : 8 ≤ w) (x y : BitVec w) {c : BitVec w} (hc : c.toNat ≤ 1) :
    decide ((x &&& 0x0F) < (y &&& 0x0F) + c) = decide (x.toNat % 16 < y.toNat % 16 + c.toNat) := by
  have hle : 2 ^ 8 ≤ 2 ^ w := Nat.pow_le_pow_right (by decide) hw
  rw [decide_eq_decide, BitVec.lt_def, BitVec.toNat_add, and_fifteen_toNat hw, and_fifteen_toNat hw,
    Nat.mod_eq_of_lt (show y.toNat % 16 + c.toNat < 2 ^ w by omega)]

/-! ## Numbers of many words -/

/-- The number that words make up, the low word first. -/
def wordsValue : List (BitVec w) → ℕ
  | [] => 0
  | x :: words => x.toNat + 2 ^ w * wordsValue words

/-- **One word more** of a sum. -/
theorem wordsValue_sum {x y r : BitVec w} {xs ys rs : List (BitVec w)} {c c' carry total : ℕ}
    (hword : r.toNat + 2 ^ w * c' = x.toNat + y.toNat + c)
    (hwords : wordsValue rs + total * carry = wordsValue xs + wordsValue ys + c') :
    wordsValue (r :: rs) + 2 ^ w * total * carry =
      wordsValue (x :: xs) + wordsValue (y :: ys) + c := by
  show r.toNat + 2 ^ w * wordsValue rs + _ = x.toNat + 2 ^ w * wordsValue xs
    + (y.toNat + 2 ^ w * wordsValue ys) + c
  calc r.toNat + 2 ^ w * wordsValue rs + 2 ^ w * total * carry
      = r.toNat + 2 ^ w * (wordsValue rs + total * carry) := by ring
    _ = (r.toNat + 2 ^ w * c') + 2 ^ w * (wordsValue xs + wordsValue ys) := by
      rw [hwords]
      ring
    _ = _ := by
      rw [hword]
      ring

end CarryArithmetic
