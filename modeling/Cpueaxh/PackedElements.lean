/-
# The elements of packed operations

What the code computes for an element is what the architecture has for a lane: the machine
arithmetic in more bits loses nothing, and its clamps are the clamps of the numbers.  Only the
rounded product of two words and the shifts by masked counts are different somewhere.
-/
import Cpueaxh.PackedInteger

namespace Cpueaxh

open PackedLanes PackedStandard

variable {w v : ℕ}

/-! ## Comparisons and choices -/

theorem equalMask_eq : equalMask w = isEqual := by
  funext a b
  simp only [equalMask, isEqual, laneFill, beq_iff_eq]

theorem greaterMask_eq : greaterMask w = isGreater := by
  funext a b
  simp only [greaterMask, isGreater, laneFill, BitVec.slt_eq_decide]

theorem minElement_eq : minElement w = minUnsigned := by
  funext a b
  unfold minElement minUnsigned
  split_ifs with h
  · rw [Nat.min_eq_left (Nat.le_of_lt h), BitVec.ofNat_toNat, BitVec.setWidth_eq]
  · rw [Nat.min_eq_right (Nat.le_of_not_lt h), BitVec.ofNat_toNat, BitVec.setWidth_eq]

theorem maxElement_eq : maxElement w = maxUnsigned := by
  funext a b
  unfold maxElement maxUnsigned
  split_ifs with h
  · rw [Nat.max_eq_left (Nat.le_of_lt h), BitVec.ofNat_toNat, BitVec.setWidth_eq]
  · rw [Nat.max_eq_right (Nat.le_of_not_lt h), BitVec.ofNat_toNat, BitVec.setWidth_eq]

theorem minSignedElement_eq : minSignedElement w = minSigned := by
  funext a b
  unfold minSignedElement minSigned
  rw [BitVec.slt_eq_decide]
  simp only [decide_eq_true_eq]
  split_ifs with h
  · rw [Int.min_eq_left (Int.le_of_lt h), BitVec.ofInt_toInt]
  · rw [Int.min_eq_right (Int.not_lt.mp h), BitVec.ofInt_toInt]

theorem maxSignedElement_eq : maxSignedElement w = maxSigned := by
  funext a b
  unfold maxSignedElement maxSigned
  rw [BitVec.slt_eq_decide]
  simp only [decide_eq_true_eq]
  split_ifs with h
  · rw [Int.max_eq_left (Int.le_of_lt h), BitVec.ofInt_toInt]
  · rw [Int.max_eq_right (Int.not_lt.mp h), BitVec.ofInt_toInt]

theorem signElement_eq : signElement w = withSign := by
  funext value sign
  have hzero : sign.toInt = 0 ↔ sign = 0 := by
    rw [← BitVec.toInt_inj, BitVec.ofNat_eq_ofNat, BitVec.toInt_zero]
  unfold signElement withSign
  rw [BitVec.slt_eq_decide, BitVec.ofNat_eq_ofNat, BitVec.toInt_zero]
  simp only [decide_eq_true_eq, hzero, BitVec.ofNat_eq_ofNat]
  rw [BitVec.ofInt_neg, BitVec.ofInt_toInt]
  -- a zero is not negative, so the order of the two tests is all the same
  by_cases h : sign = 0#w
  · have hsign : ¬sign.toInt < 0 := by rw [h, BitVec.toInt_zero]; exact Int.lt_irrefl 0
    rw [if_pos h, if_neg hsign, if_pos h]
  · rw [if_neg h, if_neg h]

theorem absElement_eq : absElement w = magnitude := by
  funext a
  unfold absElement magnitude
  rw [BitVec.slt_eq_decide, BitVec.ofNat_eq_ofNat, BitVec.toInt_zero]
  simp only [decide_eq_true_eq]
  rw [← BitVec.ofInt_natCast]
  split_ifs with h
  · rw [Int.ofNat_natAbs_of_nonpos (Int.le_of_lt h), BitVec.ofInt_neg, BitVec.ofInt_toInt]
  · rw [Int.natAbs_of_nonneg (Int.not_lt.mp h), BitVec.ofInt_toInt]

/-! ## Clamps -/

theorem saturateI16ToI8_eq {z : ℤ} (hz : Fits 16 z) :
    sse2IntArithSaturateI16ToI8 (BitVec.ofInt 16 z) = saturateSigned 8 z :=
  clampTo_saturateSigned (by decide) (by decide) hz

theorem saturateI32ToI16_eq {z : ℤ} (hz : Fits 32 z) :
    sse2IntArithSaturateI32ToI16 (BitVec.ofInt 32 z) = saturateSigned 16 z :=
  clampTo_saturateSigned (by decide) (by decide) hz

theorem packI16ToI8_eq : sse2PackSaturateI16ToI8 = fun a => saturateSigned 8 a.toInt := by
  funext a
  rw [← saturateI16ToI8_eq (fits_toInt (Nat.le_refl 16) a), BitVec.ofInt_toInt]
  rfl

theorem packI32ToI16_eq : sse2PackSaturateI32ToI16 = fun a => saturateSigned 16 a.toInt := by
  funext a
  rw [← saturateI32ToI16_eq (fits_toInt (Nat.le_refl 32) a), BitVec.ofInt_toInt]
  rfl

theorem packI16ToU8_eq : sse2PackSaturateI16ToU8 = fun a => saturateUnsigned 8 a.toInt := by
  funext a
  rw [← clampTo_saturateUnsigned (show 8 < 16 by decide) (fits_toInt (Nat.le_refl 16) a),
    BitVec.ofInt_toInt]
  rfl

theorem packI32ToU16_eq : avxPackSaturateI32ToU16 = fun a => saturateUnsigned 16 a.toInt := by
  funext a
  rw [← clampTo_saturateUnsigned (show 16 < 32 by decide) (fits_toInt (Nat.le_refl 32) a),
    BitVec.ofInt_toInt]
  rfl

/-! ## Arithmetic -/

/-- The signed sums and differences of a machine in more bits. -/
theorem signExtend_add (h : w ≤ v) (a b : BitVec w) :
    a.signExtend v + b.signExtend v = BitVec.ofInt v (a.toInt + b.toInt) := by
  rw [signExtend_eq_ofInt h, signExtend_eq_ofInt h, BitVec.ofInt_add]

theorem signExtend_sub (h : w ≤ v) (a b : BitVec w) :
    a.signExtend v - b.signExtend v = BitVec.ofInt v (a.toInt - b.toInt) := by
  rw [signExtend_eq_ofInt h, signExtend_eq_ofInt h, Int.sub_eq_add_neg, BitVec.ofInt_add,
    BitVec.ofInt_neg, BitVec.sub_eq_add_neg]

theorem mulSigned_eq (h : w ≤ v) (a b : BitVec w) :
    mulSigned w v a b = BitVec.ofInt v (a.toInt * b.toInt) := by
  rw [mulSigned, signExtend_eq_ofInt h, signExtend_eq_ofInt h, BitVec.ofInt_mul]

theorem fits_add (h : w < v) (a b : BitVec w) : Fits v (a.toInt + b.toInt) := by
  have ha := @BitVec.le_two_mul_toInt w a
  have hb := @BitVec.le_two_mul_toInt w b
  have ha' := @BitVec.two_mul_toInt_lt w a
  have hb' := @BitVec.two_mul_toInt_lt w b
  refine Fits.mono h ⟨?_, ?_⟩
  · rw [Nat.succ_sub_one]
    omega
  · rw [Nat.succ_sub_one]
    omega

theorem fits_sub (h : w < v) (a b : BitVec w) : Fits v (a.toInt - b.toInt) := by
  have ha := @BitVec.le_two_mul_toInt w a
  have hb := @BitVec.le_two_mul_toInt w b
  have ha' := @BitVec.two_mul_toInt_lt w a
  have hb' := @BitVec.two_mul_toInt_lt w b
  refine Fits.mono h ⟨?_, ?_⟩
  · rw [Nat.succ_sub_one]
    omega
  · rw [Nat.succ_sub_one]
    omega

theorem addSignedByte_eq : addSignedByte = addSaturated := by
  funext a b
  rw [addSignedByte, signExtend_add (by decide), saturateI16ToI8_eq (fits_add (by decide) a b),
    addSaturated]

theorem addSignedWord_eq : addSignedWord = addSaturated := by
  funext a b
  rw [addSignedWord, signExtend_add (by decide), saturateI32ToI16_eq (fits_add (by decide) a b),
    addSaturated]

theorem subSignedByte_eq : subSignedByte = subSaturated := by
  funext a b
  rw [subSignedByte, signExtend_sub (by decide), saturateI16ToI8_eq (fits_sub (by decide) a b),
    subSaturated]

theorem subSignedWord_eq : subSignedWord = subSaturated := by
  funext a b
  rw [subSignedWord, signExtend_sub (by decide), saturateI32ToI16_eq (fits_sub (by decide) a b),
    subSaturated]

theorem toNat_setWidth_double (hw : 0 < w) (a : BitVec w) : (a.setWidth (2 * w)).toNat = a.toNat :=
  BitVec.toNat_setWidth_of_le (by omega)

/-- An unsigned sum in twice the bits. -/
theorem toNat_wideAdd (hw : 0 < w) (a b : BitVec w) :
    (a.setWidth (2 * w) + b.setWidth (2 * w)).toNat = a.toNat + b.toNat := by
  have hpow : 2 * 2 ^ w ≤ 2 ^ (2 * w) := by
    rw [← Nat.pow_succ']
    exact Nat.pow_le_pow_right (by decide) (by omega)
  have ha := a.isLt
  have hb := b.isLt
  rw [BitVec.toNat_add, toNat_setWidth_double hw, toNat_setWidth_double hw,
    Nat.mod_eq_of_lt (by omega)]

theorem addUnsignedElement_eq (hw : 0 < w) : addUnsignedElement w = addUnsignedSaturated := by
  funext a b
  have hsum := toNat_wideAdd hw a b
  have hones : ((BitVec.allOnes w).setWidth (2 * w)).toNat = 2 ^ w - 1 := by
    rw [toNat_setWidth_double hw, BitVec.toNat_allOnes]
  have hpos := Nat.two_pow_pos w
  have hcast : ((2 ^ w : ℕ) : ℤ) = 2 ^ w := by exact_mod_cast rfl
  unfold addUnsignedElement addUnsignedSaturated saturateUnsigned
  dsimp only
  split_ifs with h
  all_goals rw [BitVec.lt_def, hsum, hones] at h
  · have hclamp : max 0 (min (2 ^ w - 1) ((a.toNat : ℤ) + b.toNat)) = ((2 ^ w - 1 : ℕ) : ℤ) := by
      omega
    rw [hclamp, BitVec.ofInt_natCast, ← BitVec.toNat_allOnes, BitVec.ofNat_toNat, BitVec.setWidth_eq]
  · have hclamp : max 0 (min (2 ^ w - 1) ((a.toNat : ℤ) + b.toNat)) = ((a.toNat + b.toNat : ℕ) : ℤ) := by
      omega
    rw [hclamp, BitVec.ofInt_natCast, ← hsum, BitVec.ofNat_toNat]

theorem subUnsignedElement_eq : subUnsignedElement w = subUnsignedSaturated := by
  funext a b
  have ha := a.isLt
  have hcast : ((2 ^ w : ℕ) : ℤ) = 2 ^ w := by exact_mod_cast rfl
  unfold subUnsignedElement subUnsignedSaturated saturateUnsigned
  split_ifs with h
  all_goals rw [BitVec.lt_def] at h
  · have hclamp : max 0 (min (2 ^ w - 1) ((a.toNat : ℤ) - b.toNat)) = ((0 : ℕ) : ℤ) := by omega
    rw [hclamp, BitVec.ofInt_natCast]
    rfl
  · have hle : b.toNat ≤ a.toNat := Nat.le_of_not_lt h
    have hclamp : max 0 (min (2 ^ w - 1) ((a.toNat : ℤ) - b.toNat)) = ((a.toNat - b.toNat : ℕ) : ℤ) := by
      omega
    rw [hclamp, BitVec.ofInt_natCast, ← BitVec.toNat_sub_of_le hle, BitVec.ofNat_toNat,
      BitVec.setWidth_eq]

theorem average_eq (hw : 0 < w) : sse2IntArithAverage w = average := by
  funext a b
  have hpow : 2 * 2 ^ w ≤ 2 ^ (2 * w) := by
    rw [← Nat.pow_succ']
    exact Nat.pow_le_pow_right (by decide) (by omega)
  have ha := a.isLt
  have hb := b.isLt
  have hone : (1 : BitVec (2 * w)).toNat = 1 := by
    rw [BitVec.ofNat_eq_ofNat, BitVec.toNat_ofNat,
      Nat.mod_eq_of_lt (Nat.one_lt_two_pow (by omega))]
  apply BitVec.eq_of_toNat_eq
  rw [sse2IntArithAverage, average, BitVec.toNat_setWidth, BitVec.toNat_ushiftRight,
    BitVec.toNat_add, toNat_wideAdd hw, hone, Nat.mod_eq_of_lt (by omega : _ < 2 ^ (2 * w)),
    Nat.shiftRight_eq_div_pow, Nat.pow_one, BitVec.toNat_ofNat]

/-! ## Products -/

theorem mulLow_eq : mulLow w = fun a b => BitVec.ofInt w (a.toInt * b.toInt) := by
  funext a b
  rw [mulLow, mulSigned_eq (by omega), setWidth_ofInt (by omega)]

theorem fits_mul (a b : BitVec 16) : Fits 32 (a.toInt * b.toInt) := by
  have hlow := @BitVec.le_toInt_mul_toInt 16 a b
  have hhigh := @BitVec.toInt_mul_toInt_le 16 a b
  constructor
  · omega
  · omega

theorem mulHighWord_eq : mulHighWord = mulHigh := by
  funext a b
  have hproduct : (mulSigned 16 32 a b).toInt = a.toInt * b.toInt := by
    rw [mulSigned_eq (by decide), toInt_ofInt (by decide) (fits_mul a b)]
  have hshift : (mulSigned 16 32 a b).sshiftRight 16 = BitVec.ofInt 32 (a.toInt * b.toInt / 2 ^ 16) := by
    rw [← BitVec.ofInt_toInt (x := (mulSigned 16 32 a b).sshiftRight 16), BitVec.toInt_sshiftRight,
      hproduct, Int.shiftRight_eq_div_pow]
    rfl
  rw [mulHighWord, hshift, setWidth_ofInt (by decide), mulHigh]

theorem mulHighUnsignedWord_eq : mulHighUnsignedWord = mulHighUnsigned := by
  funext a b
  apply BitVec.eq_of_toNat_eq
  have hbound : a.toNat * b.toNat < 2 ^ 16 * 2 ^ 16 := Nat.mul_lt_mul'' a.isLt b.isLt
  rw [mulHighUnsignedWord, mulHighUnsigned, BitVec.toNat_setWidth, BitVec.toNat_ushiftRight,
    BitVec.toNat_mul, BitVec.toNat_setWidth_of_le (by decide), BitVec.toNat_setWidth_of_le (by decide),
    Nat.mod_eq_of_lt (by omega : a.toNat * b.toNat < 2 ^ 32), Nat.shiftRight_eq_div_pow,
    BitVec.toNat_ofNat]

theorem setWidth_mul (h : w ≤ v) (a b : BitVec w) :
    a.setWidth v * b.setWidth v = BitVec.ofNat v (a.toNat * b.toNat) := by
  apply BitVec.eq_of_toNat_eq
  rw [BitVec.toNat_mul, BitVec.toNat_setWidth_of_le h, BitVec.toNat_setWidth_of_le h,
    BitVec.toNat_ofNat]

theorem maddWords_eq (a0 a1 b0 b1 : BitVec 16) :
    maddWords a0 a1 b0 b1 = BitVec.ofInt 32 (a0.toInt * b0.toInt + a1.toInt * b1.toInt) := by
  rw [maddWords, mulSigned_eq (by decide), mulSigned_eq (by decide), ← BitVec.ofInt_add,
    setWidth_ofInt (by decide)]

/-- The product of an unsigned byte and a signed byte. -/
theorem mixedProduct_bounds (a b : U8) :
    -32768 < (a.toNat : ℤ) * b.toInt ∧ (a.toNat : ℤ) * b.toInt < 32768 := by
  have ha := a.isLt
  have hmagnitude : b.toInt.natAbs ≤ 128 := by
    have hlow := b.le_toInt
    have hhigh := b.toInt_lt
    omega
  have hproduct : ((a.toNat : ℤ) * b.toInt).natAbs ≤ 255 * 128 := by
    rw [Int.natAbs_mul, Int.natAbs_natCast]
    exact Nat.mul_le_mul (by omega) hmagnitude
  omega

theorem maddBytes_eq (a0 a1 b0 b1 : U8) :
    maddBytes a0 a1 b0 b1 = saturateSigned 16 (a0.toNat * b0.toInt + a1.toNat * b1.toInt) := by
  have h0 := mixedProduct_bounds a0 b0
  have h1 := mixedProduct_bounds a1 b1
  have hfits : Fits 32 (a0.toNat * b0.toInt + a1.toNat * b1.toInt) := ⟨by omega, by omega⟩
  rw [← saturateI32ToI16_eq hfits, maddBytes, setWidth_eq_ofInt, setWidth_eq_ofInt,
    signExtend_eq_ofInt (by decide), signExtend_eq_ofInt (by decide), BitVec.ofInt_add,
    BitVec.ofInt_mul, BitVec.ofInt_mul]

/-- The product of two words is below the greatest one unless both are the least word. -/
theorem product_le_of_ne {a b : BitVec 16} (h : ¬(a = 0x8000 ∧ b = 0x8000)) :
    a.toInt * b.toInt ≤ 32767 * 32768 := by
  have hmagnitude : ∀ x : BitVec 16, x.toInt.natAbs ≤ 32768 ∧ (x ≠ 0x8000 → x.toInt.natAbs ≤ 32767) := by
    intro x
    have hlow := x.le_toInt
    have hhigh := x.toInt_lt
    refine ⟨by omega, fun hx => ?_⟩
    have hne : x.toInt ≠ -32768 := fun heq => hx (BitVec.eq_of_toInt_eq heq)
    omega
  have hproduct : (a.toInt * b.toInt).natAbs ≤ 32767 * 32768 := by
    rw [Int.natAbs_mul]
    by_cases ha : a = 0x8000
    · rw [Nat.mul_comm]
      exact Nat.mul_le_mul ((hmagnitude b).2 fun hb => h ⟨ha, hb⟩) (hmagnitude a).1
    · exact Nat.mul_le_mul ((hmagnitude a).2 ha) (hmagnitude b).1
  omega

theorem mulRoundedWord_eq (a b : BitVec 16) :
    mulRoundedWord a b = saturateSigned 16 ((a.toInt * b.toInt + 0x4000) / 2 ^ 15) := by
  have hlow := @BitVec.le_toInt_mul_toInt 16 a b
  have hhigh := @BitVec.toInt_mul_toInt_le 16 a b
  have hrounded : (a.signExtend 32 * b.signExtend 32 + 0x4000).toInt = a.toInt * b.toInt + 0x4000 := by
    rw [signExtend_eq_ofInt (by decide), signExtend_eq_ofInt (by decide), ← BitVec.ofInt_mul,
      show (0x4000 : BitVec 32) = BitVec.ofInt 32 0x4000 from rfl, ← BitVec.ofInt_add,
      toInt_ofInt (by decide) ⟨by omega, by omega⟩]
  have hshift : (a.signExtend 32 * b.signExtend 32 + 0x4000).sshiftRight 15 =
      BitVec.ofInt 32 ((a.toInt * b.toInt + 0x4000) / 2 ^ 15) := by
    rw [← hrounded, ← BitVec.ofInt_toInt (x := BitVec.sshiftRight _ 15), BitVec.toInt_sshiftRight,
      Int.shiftRight_eq_div_pow]
    rfl
  rw [mulRoundedWord, hshift, saturateI32ToI16_eq ⟨by omega, by omega⟩]

/-- **The rounded product** is that of the architecture but for two least words. -/
theorem mulRoundedWord_eq_iff (a b : BitVec 16) :
    mulRoundedWord a b = mulRounded a b ↔ ¬(a = 0x8000 ∧ b = 0x8000) := by
  constructor
  · rintro heq ⟨rfl, rfl⟩
    exact absurd heq (by decide)
  · intro h
    have hlow := @BitVec.le_toInt_mul_toInt 16 a b
    have hhigh := product_le_of_ne h
    rw [mulRoundedWord_eq, saturateSigned, mulRounded]
    congr 1
    omega

/-! ## Neighbours, extensions and distances -/

theorem horizontalWord_add : horizontalWord 0x01 = fun a b => a + b := by
  funext a b
  show (a.signExtend 32 + b.signExtend 32).setWidth 16 = a + b
  rw [signExtend_add (by decide), setWidth_ofInt (by decide), BitVec.ofInt_add, BitVec.ofInt_toInt,
    BitVec.ofInt_toInt]

theorem horizontalWord_sub : horizontalWord 0x05 = fun a b => a - b := by
  funext a b
  show (a.signExtend 32 - b.signExtend 32).setWidth 16 = a - b
  rw [signExtend_sub (by decide), setWidth_ofInt (by decide), Int.sub_eq_add_neg, BitVec.ofInt_add,
    BitVec.ofInt_neg, BitVec.ofInt_toInt, BitVec.ofInt_toInt, BitVec.sub_eq_add_neg]

theorem horizontalWord_addSaturated : horizontalWord 0x03 = addSaturated := addSignedWord_eq

theorem horizontalWord_subSaturated : horizontalWord 0x07 = subSaturated := subSignedWord_eq

theorem extend_zero (a : BitVec w) : a.setWidth v = BitVec.ofNat v a.toNat := by
  rw [BitVec.ofNat_toNat]

theorem byteDistance_toNat (a b : U8) : (byteDistance a b).toNat = distance a b := by
  unfold byteDistance distance
  split_ifs with h
  all_goals rw [BitVec.lt_def] at h
  · rw [BitVec.toNat_sub_of_le (Nat.le_of_lt h)]
    omega
  · rw [BitVec.toNat_sub_of_le (Nat.le_of_not_lt h)]
    omega

/-- The sum of distances from a sum so far on. -/
theorem foldl_distance (a b : ℕ → U8) (indices : List ℕ) : ∀ start : ℕ,
    indices.foldl (fun sum i => sum + (byteDistance (a i) (b i)).setWidth w) (BitVec.ofNat w start) =
      BitVec.ofNat w (start + (indices.map fun i => distance (a i) (b i)).sum) := by
  induction indices with
  | nil => intro start; rfl
  | cons i indices ih =>
    intro start
    rw [List.foldl_cons, extend_zero, byteDistance_toNat, ← BitVec.ofNat_add, ih, List.map_cons,
      List.sum_cons, Nat.add_assoc]

theorem distanceSum_eq (count : ℕ) (a b : ℕ → U8) : distanceSum w count a b =
    BitVec.ofNat w ((List.range count).map fun i => distance (a i) (b i)).sum := by
  have hsum := foldl_distance (w := w) a b (List.range count) 0
  rw [Nat.zero_add] at hsum
  exact hsum

/-! ## Shifts -/

theorem toNat_and_mask {n : ℕ} (count mask : BitVec w) (h : mask.toNat = 2 ^ n - 1) :
    (count &&& mask).toNat = count.toNat % 2 ^ n := by
  rw [BitVec.toNat_and, h, Nat.and_two_pow_sub_one_eq_mod]

/-- **A left shift by a count that is masked** to the width. -/
theorem shiftLeft_mod_iff (hw : 0 < w) (value : BitVec w) (count : ℕ) :
    value <<< (count % w) = shiftLeft value count ↔
      count < w ∨ 2 ^ (w - count % w) ∣ value.toNat := by
  have hmod := Nat.mod_lt count hw
  unfold shiftLeft
  split_ifs with h
  · rw [Nat.mod_eq_of_lt h]
    exact iff_of_true rfl (Or.inl h)
  · have hsplit : 2 ^ w = 2 ^ (w - count % w) * 2 ^ (count % w) := by
      rw [← Nat.pow_add, Nat.sub_add_cancel (Nat.le_of_lt hmod)]
    rw [← BitVec.toNat_inj, BitVec.toNat_shiftLeft, Nat.shiftLeft_eq, BitVec.ofNat_eq_ofNat,
      BitVec.toNat_ofNat, Nat.zero_mod, ← Nat.dvd_iff_mod_eq_zero, hsplit,
      Nat.mul_dvd_mul_iff_right (Nat.two_pow_pos _), or_iff_right h]

/-- **A logical right shift by a masked count.** -/
theorem shiftRight_mod_iff (value : BitVec w) (count : ℕ) :
    value >>> (count % w) = shiftRight value count ↔
      count < w ∨ value.toNat < 2 ^ (count % w) := by
  unfold shiftRight
  split_ifs with h
  · rw [Nat.mod_eq_of_lt h]
    exact iff_of_true rfl (Or.inl h)
  · rw [← BitVec.toNat_inj, BitVec.toNat_ushiftRight, Nat.shiftRight_eq_div_pow,
      BitVec.ofNat_eq_ofNat, BitVec.toNat_ofNat, Nat.zero_mod, Nat.div_eq_zero_iff, or_iff_right h,
      or_iff_right (Nat.two_pow_pos _).ne']

theorem toInt_laneFill (hw : 0 < w) (p : Bool) : (laneFill w p).toInt = if p then -1 else 0 := by
  cases p with
  | true => rw [laneFill, if_pos rfl, BitVec.toInt_allOnes, if_pos hw, if_pos rfl]
  | false => exact BitVec.toInt_zero

/-- A signed right shift leaves the sign only. -/
theorem sshiftRight_eq_sign_iff (hw : 0 < w) (value : BitVec w) (k : ℕ) :
    value.sshiftRight k = laneFill w value.msb ↔ -2 ^ k ≤ value.toInt ∧ value.toInt < 2 ^ k := by
  have hpos : (0 : ℤ) < 2 ^ k := by exact_mod_cast Nat.two_pow_pos k
  have hcast : ((2 ^ k : ℕ) : ℤ) = 2 ^ k := by exact_mod_cast rfl
  rw [← BitVec.toInt_inj, BitVec.toInt_sshiftRight, Int.shiftRight_eq_div_pow, toInt_laneFill hw,
    hcast, BitVec.msb_eq_toInt]
  by_cases hneg : value.toInt < 0
  · rw [decide_eq_true hneg, if_pos rfl, Int.ediv_eq_iff_of_pos hpos]
    omega
  · rw [decide_eq_false hneg, if_neg Bool.false_ne_true, Int.ediv_eq_iff_of_pos hpos]
    omega

/-- **A signed right shift by a masked count.** -/
theorem shiftRightSigned_mod_iff (hw : 0 < w) (value : BitVec w) (count : ℕ) :
    value.sshiftRight (count % w) = shiftRightSigned value count ↔
      count < w ∨ -2 ^ (count % w) ≤ value.toInt ∧ value.toInt < 2 ^ (count % w) := by
  unfold shiftRightSigned
  split_ifs with h
  · rw [Nat.mod_eq_of_lt h]
    exact iff_of_true rfl (Or.inl h)
  · rw [sshiftRight_eq_sign_iff hw, or_iff_right h]

/-- A signed right shift by a count that is cut off is that by the whole count. -/
theorem sshiftRight_cutOff (hw : 0 < w) (value : BitVec w) (count : ℕ) :
    value.sshiftRight (if w - 1 < count then w - 1 else count) = shiftRightSigned value count := by
  unfold shiftRightSigned
  by_cases hcut : w - 1 < count
  · rw [if_pos hcut, if_neg (by omega)]
    exact (sshiftRight_eq_sign_iff hw value _).mpr ⟨value.le_toInt, value.toInt_lt⟩
  · rw [if_neg hcut, if_pos (by omega)]

end Cpueaxh
