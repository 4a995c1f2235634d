/-
# The law of shifts and of rotates through the carry

The loops move their operand by one bit in each turn.  Behind all turns the shifts have
multiplied or divided by a power of two, also where the count exceeds the width, and the rotates
through the carry have rotated the number that the carry and the operand make up.
-/
import Cpueaxh.RotateLaw
import Cpueaxh.Shift

namespace Cpueaxh

open HostMemory SubtractionFlags

/-! ## Shifts -/

/-- The value behind a shift: a product or a quotient, rounded down. -/
def ShiftOp.shifted (op : ShiftOp) {n : ℕ} (x : BitVec n) (count : ℕ) : BitVec n :=
  match op with
  | shl => BitVec.ofNat n (x.toNat * 2 ^ count)
  | shr => BitVec.ofNat n (x.toNat / 2 ^ count)
  | sar => BitVec.ofInt n (x.toInt / 2 ^ count)

/-- The bit last shifted out. -/
def ShiftOp.lastOut (op : ShiftOp) {n : ℕ} (x : BitVec n) (count : ℕ) : Bool :=
  match op with
  | shl => (x.toNat * 2 ^ count).testBit n
  | shr => (x.toNat / 2 ^ (count - 1)).testBit 0
  | sar => decide (x.toInt / 2 ^ (count - 1) % 2 = 1)

section Shifts

variable {n : ℕ} (x : BitVec n)

theorem shifted_shl (count : ℕ) : ShiftOp.shl.shifted x count = x <<< count := by
  apply BitVec.eq_of_toNat_eq
  rw [ShiftOp.shifted, BitVec.toNat_ofNat, BitVec.toNat_shiftLeft, Nat.shiftLeft_eq]

theorem shifted_shr (count : ℕ) : ShiftOp.shr.shifted x count = x >>> count := by
  apply BitVec.eq_of_toNat_eq
  rw [ShiftOp.shifted, BitVec.toNat_ofNat, BitVec.toNat_ushiftRight, Nat.shiftRight_eq_div_pow]
  exact Nat.mod_eq_of_lt ((Nat.div_le_self _ _).trans_lt x.isLt)

theorem toInt_sshiftRight_eq (count : ℕ) : (x.sshiftRight count).toInt = x.toInt / 2 ^ count := by
  rw [BitVec.toInt_sshiftRight, Int.shiftRight_eq_div_pow]
  norm_cast

theorem shifted_sar (count : ℕ) : ShiftOp.sar.shifted x count = x.sshiftRight count := by
  have hdiv := toInt_sshiftRight_eq x count
  rw [ShiftOp.shifted, ← hdiv, BitVec.ofInt_toInt]

/-- One turn, and then the others. -/
theorem shifted_succ (op : ShiftOp) (count : ℕ) :
    op.shifted (op.shifted x 1) count = op.shifted x (count + 1) := by
  cases op with
  | shl => rw [shifted_shl, shifted_shl, shifted_shl, ← BitVec.shiftLeft_add, Nat.add_comm]
  | shr => rw [shifted_shr, shifted_shr, shifted_shr, ← BitVec.shiftRight_add, Nat.add_comm]
  | sar => rw [shifted_sar, shifted_sar, shifted_sar, ← BitVec.sshiftRight_add, Nat.add_comm]

/-- The bit that the next turn shifts out. -/
def ShiftOp.nextOut (op : ShiftOp) : Bool :=
  match op with
  | shl => x.msb
  | shr => x.getLsbD 0
  | sar => x.getLsbD 0

theorem getLsbD_zero_eq_toInt : x.getLsbD 0 = decide (x.toInt % 2 = 1) := by
  rw [BitVec.getLsbD, Nat.testBit_zero, decide_eq_decide, BitVec.toInt_eq_toNat_cond]
  rcases n with _ | n
  · have hzero := x.isLt
    simp at hzero
    simp [hzero]
  · have hpow : 2 ^ (n + 1) = 2 * 2 ^ n := by rw [pow_succ, mul_comm]
    rw [hpow]
    push_cast
    split_ifs <;> omega

/-- The bit last shifted out is that of the last turn. -/
theorem lastOut_eq (op : ShiftOp) (count : ℕ) :
    op.lastOut x (count + 1) = op.nextOut (op.shifted x count) := by
  cases op with
  | shl =>
    rw [shifted_shl, ShiftOp.nextOut, BitVec.msb_eq_getLsbD_last, BitVec.getLsbD_shiftLeft,
      ShiftOp.lastOut, Nat.mul_comm, Nat.testBit_two_pow_mul]
    by_cases hcount : count + 1 ≤ n
    · have hindex : n - 1 - count = n - (count + 1) := by omega
      rw [hindex, decide_eq_true hcount, decide_eq_true (by omega : n - 1 < n),
        decide_eq_false (by omega : ¬ n - 1 < count)]
      rfl
    · rw [decide_eq_false hcount, Bool.false_and]
      by_cases hn : n - 1 < n
      · rw [decide_eq_true (by omega : n - 1 < count), Bool.not_true, Bool.and_false,
          Bool.false_and]
      · rw [decide_eq_false hn, Bool.false_and, Bool.false_and]
  | shr =>
    rw [shifted_shr, ShiftOp.nextOut, BitVec.getLsbD, BitVec.toNat_ushiftRight,
      Nat.shiftRight_eq_div_pow]
    rfl
  | sar =>
    rw [shifted_sar, ShiftOp.nextOut, getLsbD_zero_eq_toInt, toInt_sshiftRight_eq]
    rfl

end Shifts

/-- **A turn** of the loops shifts by one bit. -/
theorem shiftTurn_eq (op : ShiftOp) (size : OperandWidth) (x : BitVec size.bits) :
    op.turn size (x.setWidth 64) = ((op.shifted x 1).setWidth 64, op.nextOut x) := by
  have height := size.eight_le
  have hle := size.le_sixtyFour
  have hlow : (x.setWidth 64 &&& 1 != 0) = x.getLsbD 0 := by
    rw [show (1 : U64) = BitVec.twoPow 64 0 from rfl,
      SubtractionFlags.and_twoPow_ne_zero _ (by decide), BitVec.getLsbD_setWidth]
    rfl
  cases op with
  | shl =>
    refine Prod.ext (BitVec.eq_of_getLsbD_eq fun i hi => ?_) (and_signMask_ne_zero size x)
    rw [shifted_shl]
    show ((x.setWidth 64 <<< 1) &&& operandMask size).getLsbD i = ((x <<< 1).setWidth 64).getLsbD i
    rw [BitVec.getLsbD_and, getLsbD_operandMask, BitVec.getLsbD_shiftLeft, BitVec.getLsbD_setWidth,
      BitVec.getLsbD_setWidth, BitVec.getLsbD_shiftLeft]
    by_cases hsize : i < size.bits
    · simp [hsize, hi, show i - 1 < 64 by omega]
    · simp [hsize]
  | shr =>
    refine Prod.ext (BitVec.eq_of_getLsbD_eq fun i hi => ?_) hlow
    rw [shifted_shr]
    show (x.setWidth 64 >>> 1).getLsbD i = ((x >>> 1).setWidth 64).getLsbD i
    rw [BitVec.getLsbD_ushiftRight, BitVec.getLsbD_setWidth, BitVec.getLsbD_setWidth,
      BitVec.getLsbD_ushiftRight, decide_eq_true hi]
    by_cases hsize : 1 + i < size.bits
    · simp [show 1 + i < 64 by omega]
    · rw [BitVec.getLsbD_of_ge x (1 + i) (by omega), Bool.and_false, Bool.and_false]
  | sar =>
    refine Prod.ext (BitVec.eq_of_getLsbD_eq fun i hi => ?_) hlow
    rw [shifted_sar]
    show ((if (x.setWidth 64 &&& signMask size != 0) = true then
      (x.setWidth 64 >>> 1) ||| signMask size else x.setWidth 64 >>> 1) &&& operandMask size).getLsbD
        i = ((x.sshiftRight 1).setWidth 64).getLsbD i
    have hbit : (if x.msb = true then (x.setWidth 64 >>> 1) ||| signMask size
        else x.setWidth 64 >>> 1).getLsbD i =
        (x.getLsbD (1 + i) || (decide (i = size.bits - 1) && x.msb)) := by
      have hshift : (x.setWidth 64 >>> 1).getLsbD i = x.getLsbD (1 + i) := by
        rw [BitVec.getLsbD_ushiftRight, BitVec.getLsbD_setWidth]
        by_cases hsize : 1 + i < 64
        · rw [decide_eq_true hsize, Bool.true_and]
        · rw [decide_eq_false hsize, Bool.false_and, BitVec.getLsbD_of_ge x _ (by omega)]
      split_ifs with hmsb
      · rw [BitVec.getLsbD_or, hshift, signMask_eq, BitVec.getLsbD_twoPow,
          decide_eq_true (by omega : size.bits - 1 < 64), Bool.true_and, hmsb, Bool.and_true,
          decide_eq_decide.mpr eq_comm]
      · rw [hshift, Bool.eq_false_iff.mpr hmsb, Bool.and_false, Bool.or_false]
    rw [and_signMask_ne_zero, BitVec.getLsbD_and, getLsbD_operandMask, hbit,
      BitVec.getLsbD_setWidth, BitVec.getLsbD_sshiftRight, decide_eq_true hi]
    by_cases hsize : i < size.bits
    · by_cases hlast : i = size.bits - 1
      · subst hlast
        rw [BitVec.getLsbD_of_ge x (1 + (size.bits - 1)) (by omega)]
        simp [show ¬ 1 + (size.bits - 1) < size.bits by omega, hsize,
          show ¬ size.bits ≤ size.bits - 1 by omega]
      · simp [hlast, show ¬ size.bits ≤ i by omega, show 1 + i < size.bits by omega, hsize]
    · simp [hsize, show size.bits ≤ i by omega]

/-- **The loop** shifts by its count. -/
theorem shiftLoop_eq (op : ShiftOp) (size : OperandWidth) (count : ℕ) :
    ∀ (x : BitVec size.bits) (carryOut : Bool),
      shiftLoop op size (count + 1) (x.setWidth 64, carryOut) =
        ((op.shifted x (count + 1)).setWidth 64, op.lastOut x (count + 1)) := by
  induction count with
  | zero =>
    intro x carryOut
    have hstart : op.shifted x 0 = x := by
      cases op with
      | shl => rw [shifted_shl, BitVec.shiftLeft_zero]
      | shr => rw [shifted_shr, BitVec.ushiftRight_zero]
      | sar => rw [shifted_sar, BitVec.sshiftRight_zero]
    rw [lastOut_eq, hstart]
    exact shiftTurn_eq op size x
  | succ count ih =>
    intro x carryOut
    show shiftLoop op size (count + 1) (op.turn size (x.setWidth 64)) = _
    rw [shiftTurn_eq, ih, shifted_succ, lastOut_eq, lastOut_eq, shifted_succ]

/-! ## Rotates through the carry -/

/-- The number that the carry and an operand make up. -/
def carryOperand (rflags : U64) {n : ℕ} (x : BitVec n) : BitVec (n + 1) :=
  BitVec.cons (hasFlag rflags .cf) x

theorem getLsbD_carryOperand (rflags : U64) {n : ℕ} (x : BitVec n) (i : ℕ) :
    (carryOperand rflags x).getLsbD i = if i = n then hasFlag rflags .cf else x.getLsbD i :=
  BitVec.getLsbD_cons _ _ _

/-- The carry and the operand behind a turn. -/
theorem carryOperand_withFlag (rflags : U64) {n : ℕ} (y : BitVec (n + 1)) :
    carryOperand (withFlag rflags rflagsCf y.msb) (y.setWidth n) = y := by
  have hflag : hasFlag (withFlag rflags rflagsCf y.msb) .cf = y.msb :=
    (hasFlag_withFlag rflags .cf .cf y.msb).trans (if_pos rfl)
  rw [carryOperand, hflag, BitVec.cons_msb_setWidth]

/-- The bits of the number behind a turn. -/
theorem getLsbD_carry_rotated (op : RotateOp) (rflags : U64) {n : ℕ} (hn : 0 < n) (x : BitVec n)
    {i : ℕ} (hi : i ≤ n) :
    (op.rotated (carryOperand rflags x) 1).getLsbD i =
      match op with
      | .rol => if i = 0 then hasFlag rflags .cf else x.getLsbD (i - 1)
      | .ror =>
        if i = n then x.getLsbD 0
        else if i + 1 = n then hasFlag rflags .cf else x.getLsbD (i + 1) := by
  have hone : 1 < n + 1 := by omega
  cases op with
  | rol =>
    rw [RotateOp.rotated, BitVec.getLsbD_rotateLeft_of_le hone, Bool.cond_decide]
    dsimp only
    by_cases hzero : i = 0
    · rw [if_pos (by omega), if_pos hzero, getLsbD_carryOperand, if_pos (by omega)]
    · rw [if_neg (by omega), if_neg hzero, getLsbD_carryOperand, if_neg (by omega),
        decide_eq_true (by omega : i < n + 1), Bool.true_and]
  | ror =>
    rw [RotateOp.rotated, BitVec.getLsbD_rotateRight_of_lt hone, Bool.cond_decide]
    dsimp only
    by_cases hlast : i = n
    · rw [if_neg (by omega), if_pos hlast, getLsbD_carryOperand, if_neg (by omega),
        decide_eq_true (by omega : i < n + 1), Bool.true_and, hlast, Nat.add_sub_cancel,
        Nat.sub_self]
    · rw [if_pos (by omega), if_neg hlast, getLsbD_carryOperand, Nat.add_comm 1 i]

/-- The context with the carry set or cleared. -/
def CpuContext.withCarry (ctx : CpuContext) (carry : Bool) : CpuContext :=
  { ctx with rflags := withFlag ctx.rflags rflagsCf carry }

/-- **A turn** of the loops rotates by one bit. -/
theorem carryTurn_eq (op : RotateOp) (size : OperandWidth) {ctx : CpuContext}
    (hexc : ctx.hasException = false) (x : BitVec size.bits) (carryOut : Bool) :
    let y := op.rotated (carryOperand ctx.rflags x) 1
    op.carryTurn size ⟨x.setWidth 64, carryOut, ctx⟩ =
      ⟨(y.setWidth size.bits).setWidth 64, y.msb, ctx.withCarry y.msb⟩ := by
  intro y
  have height := size.eight_le
  have hle := size.le_sixtyFour
  have hbits : ∀ {i}, i ≤ size.bits → y.getLsbD i = _ :=
    fun h => getLsbD_carry_rotated op ctx.rflags (by omega) x h
  have hmsb : y.msb = y.getLsbD size.bits := BitVec.msb_eq_getLsbD_last y
  have hcarryIn : (ctx.rflags &&& rflagsCf != 0) = hasFlag ctx.rflags .cf := rfl
  have hresult : ∀ i, ((y.setWidth size.bits).setWidth 64).getLsbD i =
      (decide (i < 64) && (decide (i < size.bits) && y.getLsbD i)) := by
    intro i
    rw [BitVec.getLsbD_setWidth, BitVec.getLsbD_setWidth]
  cases op with
  | rol =>
    have hcarry : (x.setWidth 64 &&& signMask size != 0) = y.msb := by
      rw [and_signMask_ne_zero, hmsb, hbits le_rfl, BitVec.msb_eq_getLsbD_last]
      exact (if_neg (by omega)).symm
    have hvalue : (x.setWidth 64 <<< 1 ||| (if hasFlag ctx.rflags .cf then 1 else 0)) &&&
        operandMask size = (y.setWidth size.bits).setWidth 64 := by
      apply BitVec.eq_of_getLsbD_eq
      intro i hi
      have hbit : (if hasFlag ctx.rflags .cf = true then (1 : U64) else 0).getLsbD i =
          (decide (i = 0) && hasFlag ctx.rflags .cf) := by
        cases hasFlag ctx.rflags .cf <;> simp
      rw [hresult, BitVec.getLsbD_and, BitVec.getLsbD_or, getLsbD_operandMask, hbit,
        BitVec.getLsbD_shiftLeft, BitVec.getLsbD_setWidth]
      by_cases hsize : i < size.bits
      · rw [hbits hsize.le]
        dsimp only
        by_cases hzero : i = 0
        · simp [hzero, show 0 < size.bits by omega]
        · simp [hzero, hsize, hi, show i - 1 < 64 by omega]
      · simp [hsize]
    show rclTurn size _ = _
    unfold rclTurn
    dsimp only
    rw [hcarryIn, hcarry, hvalue, setFlag_eq hexc]
    rfl
  | ror =>
    have hcarry : (x.setWidth 64 &&& 1 != 0) = y.msb := by
      rw [show (1 : U64) = BitVec.twoPow 64 0 from rfl,
        SubtractionFlags.and_twoPow_ne_zero _ (by decide), BitVec.getLsbD_setWidth, hmsb,
        hbits le_rfl]
      exact (if_pos rfl).symm
    have hvalue : (x.setWidth 64 >>> 1 ||| (if hasFlag ctx.rflags .cf then signMask size else 0)) &&&
        operandMask size = (y.setWidth size.bits).setWidth 64 := by
      apply BitVec.eq_of_getLsbD_eq
      intro i hi
      have hbit : (if hasFlag ctx.rflags .cf = true then signMask size else 0).getLsbD i =
          (decide (i + 1 = size.bits) && hasFlag ctx.rflags .cf) := by
        have hlast : decide (size.bits - 1 = i) = decide (i + 1 = size.bits) :=
          decide_eq_decide.mpr (by omega)
        rw [signMask_eq]
        cases hasFlag ctx.rflags .cf with
        | true =>
          rw [if_pos rfl, BitVec.getLsbD_twoPow, decide_eq_true (by omega : size.bits - 1 < 64),
            Bool.true_and, hlast, Bool.and_true]
        | false => simp
      rw [hresult, BitVec.getLsbD_and, BitVec.getLsbD_or, getLsbD_operandMask, hbit,
        BitVec.getLsbD_ushiftRight, BitVec.getLsbD_setWidth]
      by_cases hsize : i < size.bits
      · rw [hbits hsize.le]
        dsimp only
        rw [if_neg (by omega)]
        by_cases hlast : i + 1 = size.bits
        · rw [BitVec.getLsbD_of_ge x (1 + i) (by omega)]
          simp [hlast, hsize, hi]
        · simp [hlast, hsize, hi, show i + 1 < 64 by omega, Nat.add_comm]
      · simp [hsize]
    show rcrTurn size _ = _
    unfold rcrTurn
    dsimp only
    rw [hcarryIn, hcarry, hvalue, setFlag_eq hexc]
    rfl

/-- **The loop** rotates by its count. -/
theorem carryTurns_eq (op : RotateOp) (size : OperandWidth) (count : ℕ) :
    ∀ {ctx : CpuContext} (x : BitVec size.bits) (carryOut : Bool), ctx.hasException = false →
      count + 1 < size.bits + 1 →
      let y := op.rotated (carryOperand ctx.rflags x) (count + 1)
      (op.carryTurn size)^[count + 1] ⟨x.setWidth 64, carryOut, ctx⟩ =
        ⟨(y.setWidth size.bits).setWidth 64, y.msb, ctx.withCarry y.msb⟩ := by
  induction count with
  | zero =>
    intro ctx x carryOut hexc _
    exact carryTurn_eq op size hexc x carryOut
  | succ count ih =>
    intro ctx x carryOut hexc hlt
    -- the second write of the carry hides the first
    have hhides : ∀ a b : Bool, (ctx.withCarry a).withCarry b = ctx.withCarry b := by
      intro a b
      have hflags : withFlag (withFlag ctx.rflags rflagsCf a) rflagsCf b =
          withFlag ctx.rflags rflagsCf b := by
        apply BitVec.eq_of_getLsbD_eq
        intro i _
        rw [show rflagsCf = StatusFlag.cf.mask from rfl, getLsbD_withFlag, getLsbD_withFlag,
          getLsbD_withFlag]
        split_ifs <;> rfl
      exact congrArg (fun rflags => { ctx with rflags := rflags }) hflags
    have hturn := carryTurn_eq op size hexc x carryOut
    have hnext : carryOperand (ctx.withCarry (op.rotated (carryOperand ctx.rflags x) 1).msb).rflags
        ((op.rotated (carryOperand ctx.rflags x) 1).setWidth size.bits) =
        op.rotated (carryOperand ctx.rflags x) 1 := carryOperand_withFlag _ _
    have hsucc := rotated_succ op (carryOperand ctx.rflags x) hlt
    dsimp only at hturn ⊢
    generalize op.rotated (carryOperand ctx.rflags x) 1 = y at hturn hnext hsucc
    have hrest := @ih (ctx.withCarry y.msb) (y.setWidth size.bits) y.msb hexc (by omega)
    dsimp only at hrest
    rw [Function.iterate_succ_apply, hturn, hrest, hnext, hsucc, hhides]

/-- A rotate undoes the other one. -/
theorem rotated_undo {n : ℕ} (y : BitVec n) (count : ℕ) :
    RotateOp.ror.rotated (RotateOp.rol.rotated y count) count = y := by
  rw [← rotated_mod .ror, ← rotated_mod .rol]
  by_cases hn : n = 0
  · subst hn
    exact Subsingleton.elim _ _
  have hlt : count % n < n := Nat.mod_lt _ (Nat.pos_of_ne_zero hn)
  generalize count % n = k at hlt
  apply BitVec.eq_of_getLsbD_eq
  intro i hi
  simp only [RotateOp.rotated, BitVec.getLsbD_rotateRight_of_lt hlt, Bool.cond_decide,
    BitVec.getLsbD_rotateLeft_of_le hlt, decide_eq_true hi, Bool.true_and]
  by_cases hlow : i < n - k
  · rw [if_pos hlow, if_neg (by omega), decide_eq_true (by omega : k + i < n), Bool.true_and,
      Nat.add_sub_cancel_left]
  · rw [if_neg hlow, if_pos (by omega)]
    congr 1
    omega

/-! ## The instructions -/

theorem getRclCount_eq (size : OperandWidth) (rawCount : U8) :
    getRclCount size rawCount = maskedCount size rawCount % (size.bits + 1) := by
  have hlt : ∀ mask : U8, (rawCount &&& mask).toNat ≤ mask.toNat := by
    intro mask
    rw [BitVec.toNat_and]
    exact Nat.and_le_right
  cases size with
  | byte => rfl
  | word => rfl
  | dword => exact (Nat.mod_eq_of_lt (Nat.lt_of_le_of_lt (hlt 0x1F) (by decide))).symm
  | qword => exact (Nat.mod_eq_of_lt (Nat.lt_of_le_of_lt (hlt 0x3F) (by decide))).symm

/-- The flags that a shift sets behind its result. -/
def ShiftOp.flags (op : ShiftOp) (rflags : U64) {n : ℕ} (x : BitVec n) (count : ℕ) : U64 :=
  let result := op.shifted x count
  let carry := op.lastOut x count
  let overflow := match op with
    | shl => result.msb ^^ carry
    | shr => x.msb
    | sar => false
  let rflags := withFlag rflags rflagsCf carry
  let rflags := if count = 1 then withFlag rflags rflagsOf overflow else rflags
  let rflags := withFlag rflags rflagsSf result.msb
  let rflags := withFlag rflags rflagsZf (decide (result = 0))
  withFlag rflags rflagsPf (evenParity result)

theorem updateFlagsShift_eq {ctx : CpuContext} (hexc : ctx.hasException = false) (op : ShiftOp)
    (size : OperandWidth) (x : BitVec size.bits) {count : ℕ} (hpos : 0 < count) :
    updateFlagsShift op size ctx (x.setWidth 64) ((op.shifted x count).setWidth 64) count
        (op.lastOut x count) =
      { ctx with rflags := op.flags ctx.rflags x count } := by
  have hoverflow : op.overflow size (x.setWidth 64) ((op.shifted x count).setWidth 64)
      (op.lastOut x count) = match op with
        | .shl => (op.shifted x count).msb ^^ op.lastOut x count
        | .shr => x.msb
        | .sar => false := by
    cases op with
    | shl => exact congrArg (· ^^ _) (and_signMask_ne_zero size _)
    | shr => exact and_signMask_ne_zero size x
    | sar => rfl
  unfold updateFlagsShift ShiftOp.flags
  rw [if_neg (by omega)]
  dsimp only
  rw [hoverflow, and_signMask_ne_zero, setWidth_beq_zero, calcParity_setWidth]
  split_ifs
  · rw [setFlag_eq hexc, setFlag_rflags hexc, setFlag_rflags hexc, setFlag_rflags hexc,
      setFlag_rflags hexc]
  · rw [setFlag_eq hexc, setFlag_rflags hexc, setFlag_rflags hexc, setFlag_rflags hexc]

/-- The CPU behind a shift, or behind the refused byte. -/
def Cpu.shifted (cpu : Cpu) (op : ShiftOp) (operand : RmOperand) (size : OperandWidth)
    (count : ℕ) : Except Cpu Cpu := do
  let value ← cpu.rmValue operand size
  if count = 0 then return cpu
  let x := value.setWidth size.bits
  let stored ← cpu.rmStored operand size ((op.shifted x count).setWidth 64)
  return stored.edit fun ctx => { ctx with rflags := op.flags ctx.rflags x count }

/-- The flags that a rotate through the carry sets behind its result. -/
def RotateOp.carryFlags (op : RotateOp) (rflags : U64) {n : ℕ} (y : BitVec (n + 1)) (count : ℕ) :
    U64 :=
  let rflags := withFlag rflags rflagsCf y.msb
  let overflow := match op with
    | rol => (y.setWidth n).msb ^^ y.msb
    | ror => (y.setWidth n).msb ^^ (y.setWidth n).getLsbD (n - 2)
  if count = 1 then withFlag rflags rflagsOf overflow else rflags

/-- The CPU behind a rotate through the carry, or behind the refused byte: the carry has then
already been put back. -/
def Cpu.carryRotated (cpu : Cpu) (op : RotateOp) (operand : RmOperand) (size : OperandWidth)
    (count : ℕ) : Except Cpu Cpu := do
  let value ← cpu.rmValue operand size
  if count = 0 then return cpu
  let y := op.rotated (carryOperand cpu.context.rflags (value.setWidth size.bits)) count
  let turned := cpu.edit fun ctx => ctx.withCarry y.msb
  let stored ← turned.rmStored operand size ((y.setWidth size.bits).setWidth 64)
  return stored.edit fun ctx => { ctx with rflags := op.carryFlags ctx.rflags y count }

variable {cpu : Cpu}

theorem run_shiftRm (hm : ManagerOk cpu.memory) (hexc : cpu.context.hasException = false)
    (op : ShiftOp) (operand : RmOperand) (size : OperandWidth) (rawCount : U8) :
    (shiftRm op operand size rawCount).run viewOp cpu =
      transferred (cpu.shifted op operand size (maskedCount size rawCount)) := by
  unfold shiftRm Cpu.shifted
  generalize maskedCount size rawCount = count
  refine run_rmRead hm hexc operand size fun value hread => ?_
  by_cases hzero : count = 0
  · rw [if_pos hzero, if_pos hzero]
    rfl
  rw [if_neg hzero, if_neg hzero]
  obtain ⟨turns, rfl⟩ : ∃ turns, count = turns + 1 := ⟨count - 1, by omega⟩
  have hvalue := rmValue_lt hread
  have hword : value &&& operandMask size = (value.setWidth size.bits).setWidth 64 := by
    rw [and_operandMask hvalue]
    exact eq_setWidth hvalue
  generalize value.setWidth size.bits = x at hword ⊢
  have hmasked : op.masked size ((op.shifted x (turns + 1)).setWidth 64) =
      (op.shifted x (turns + 1)).setWidth 64 := by
    cases op with
    | shl => rfl
    | shr =>
      refine and_operandMask ?_
      rw [BitVec.toNat_setWidth]
      exact (Nat.mod_le _ _).trans_lt (BitVec.isLt _)
    | sar => rfl
  rw [hword]
  dsimp only
  rw [shiftLoop_eq]
  dsimp only
  rw [hmasked]
  refine run_rmWrite hm hexc operand size _ ?_ ?_ ?_
  · intro ctx hpending
    unfold updateFlagsShift
    rw [if_neg hzero]
    dsimp only
    split_ifs <;> simp only [setFlag_pending hpending]
  · intro ctx hclear
    exact updateFlagsShift_eq hclear op size x (Nat.succ_pos turns)
  · intro ctx
    unfold updateFlagsShift
    rw [if_neg hzero]
    dsimp only
    refine keepMode_setFlag (keepMode_setFlag (keepMode_setFlag ?_ _ _) _ _) _ _
    split_ifs
    · exact keepMode_setFlag (keepMode_setFlag rfl _ _) _ _
    · exact keepMode_setFlag rfl _ _

theorem updateFlagsCarryRotate_eq {ctx : CpuContext} (hexc : ctx.hasException = false)
    (op : RotateOp) (size : OperandWidth) (y : BitVec (size.bits + 1)) {count : ℕ}
    (hpos : 0 < count) :
    updateFlagsCarryRotate op size ctx ((y.setWidth size.bits).setWidth 64) count y.msb =
      { ctx with rflags := op.carryFlags ctx.rflags y count } := by
  have hoverflow : op.overflow size ((y.setWidth size.bits).setWidth 64) y.msb = match op with
      | .rol => (y.setWidth size.bits).msb ^^ y.msb
      | .ror => (y.setWidth size.bits).msb ^^ (y.setWidth size.bits).getLsbD (size.bits - 2) := by
    cases op with
    | rol => exact congrArg (· ^^ _) (and_signMask_ne_zero size _)
    | ror => exact overflow_eq .ror size (y.setWidth size.bits)
  unfold updateFlagsCarryRotate updateFlagsRotate RotateOp.carryFlags
  rw [if_neg (by omega)]
  dsimp only
  rw [hoverflow]
  split_ifs
  · rw [setFlag_eq hexc, setFlag_rflags hexc]
  · exact setFlag_eq hexc _ _

theorem run_carryRotateRm (hm : ManagerOk cpu.memory) (hexc : cpu.context.hasException = false)
    (op : RotateOp) (operand : RmOperand) (size : OperandWidth) (rawCount : U8) :
    (carryRotateRm op operand size rawCount).run viewOp cpu =
      transferred (cpu.carryRotated op operand size
        (maskedCount size rawCount % (size.bits + 1))) := by
  have hlt : maskedCount size rawCount % (size.bits + 1) < size.bits + 1 :=
    Nat.mod_lt _ (Nat.succ_pos _)
  unfold carryRotateRm Cpu.carryRotated
  rw [getRclCount_eq]
  generalize maskedCount size rawCount % (size.bits + 1) = count at hlt ⊢
  refine run_rmRead hm hexc operand size fun value hread => ?_
  by_cases hzero : count = 0
  · rw [if_pos hzero, if_pos hzero]
    rfl
  rw [if_neg hzero, if_neg hzero]
  obtain ⟨turns, rfl⟩ : ∃ turns, count = turns + 1 := ⟨count - 1, by omega⟩
  have hvalue := rmValue_lt hread
  have hword : value &&& operandMask size = (value.setWidth size.bits).setWidth 64 := by
    rw [and_operandMask hvalue]
    exact eq_setWidth hvalue
  generalize value.setWidth size.bits = x at hword ⊢
  have hturns := carryTurns_eq op size turns x false hexc hlt
  dsimp only at hturns ⊢
  generalize op.rotated (carryOperand cpu.context.rflags x) (turns + 1) = y at hturns ⊢
  show (do
    modifyContext fun _ => ((op.carryTurn size)^[turns + 1]
      ⟨value &&& operandMask size, false, cpu.context⟩).ctx
    writeRmOperand operand size ((op.carryTurn size)^[turns + 1]
      ⟨value &&& operandMask size, false, cpu.context⟩).result
    modifyContext fun ctx => updateFlagsCarryRotate op size ctx ((op.carryTurn size)^[turns + 1]
      ⟨value &&& operandMask size, false, cpu.context⟩).result (turns + 1)
        ((op.carryTurn size)^[turns + 1]
          ⟨value &&& operandMask size, false, cpu.context⟩).carryOut : CpuProgram Unit).run viewOp
    cpu = _
  rw [hword, hturns, Program.run_bind, run_modifyContext]
  dsimp only
  refine @run_rmWrite (cpu.edit fun ctx => ctx.withCarry y.msb) hm hexc operand size _ _ _ ?_ ?_ ?_
  · intro ctx hpending
    unfold updateFlagsCarryRotate updateFlagsRotate
    split_ifs
    · rfl
    · rw [setFlag_pending hpending, setFlag_pending hpending]
    · exact setFlag_pending hpending _ _
  · intro ctx hclear
    exact updateFlagsCarryRotate_eq hclear op size y (Nat.succ_pos turns)
  · intro ctx
    unfold updateFlagsCarryRotate updateFlagsRotate
    split_ifs
    · rfl
    · exact keepMode_setFlag (keepMode_setFlag rfl _ _) _ _
    · exact keepMode_setFlag rfl _ _

/-! ## The law -/

/-- The flags that a shift by a count other than zero should leave. -/
structure ShiftFlags (op : ShiftOp) {n : ℕ} (x : BitVec n) (count : ℕ) (old new : U64) : Prop where
  carry : hasFlag new .cf = op.lastOut x count
  sign : hasFlag new .sf = (op.shifted x count).msb
  zero : hasFlag new .zf = decide (op.shifted x count = 0)
  parity : hasFlag new .pf = evenParity (op.shifted x count)
  others : SameFlagsBut [.cf, .of, .sf, .zf, .pf] old new

theorem shiftFlags_flags (op : ShiftOp) (rflags : U64) {n : ℕ} (x : BitVec n) (count : ℕ) :
    ShiftFlags op x count rflags (op.flags rflags x count) := by
  have hcf : rflagsCf = StatusFlag.cf.mask := rfl
  have hof : rflagsOf = StatusFlag.of.mask := rfl
  have hsf : rflagsSf = StatusFlag.sf.mask := rfl
  have hzf : rflagsZf = StatusFlag.zf.mask := rfl
  have hpf : rflagsPf = StatusFlag.pf.mask := rfl
  unfold ShiftOp.flags
  rw [hcf, hof, hsf, hzf, hpf]
  dsimp only
  refine ⟨?_, ?_, ?_, ?_, ?_⟩
  · split_ifs <;> simp only [hasFlag_withFlag] <;> rfl
  · split_ifs <;> simp only [hasFlag_withFlag] <;> rfl
  · split_ifs <;> simp only [hasFlag_withFlag] <;> rfl
  · split_ifs <;> simp only [hasFlag_withFlag] <;> rfl
  · have hset : SameFlagsBut [.cf, .of, .sf, .zf, .pf] rflags
        (withFlag rflags StatusFlag.cf.mask (op.lastOut x count)) :=
      (SameFlagsBut.refl _ rflags).withFlag (by decide) _
    split_ifs
    · exact (((hset.withFlag (by decide) _).withFlag (by decide) _).withFlag (by decide) _).withFlag
        (by decide) _
    · exact ((hset.withFlag (by decide) _).withFlag (by decide) _).withFlag (by decide) _

/-- What a shift by a masked count should do. -/
inductive ShiftOutcome (op : ShiftOp) (operand : RmOperand) (size : OperandWidth) (masked : ℕ)
    (cpu : Cpu) : Cpu → Prop where
  | unread {refused : Cpu} (hread : cpu.rmValue operand size = .error refused) :
    ShiftOutcome op operand size masked cpu refused
  | same {value : U64} (hread : cpu.rmValue operand size = .ok value) (hzero : masked = 0) :
    ShiftOutcome op operand size masked cpu cpu
  | unwritten {value : U64} {refused : Cpu} (hread : cpu.rmValue operand size = .ok value)
    (hcount : masked ≠ 0)
    (hstored : cpu.rmStored operand size
      ((op.shifted (value.setWidth size.bits) masked).setWidth 64) = .error refused) :
    ShiftOutcome op operand size masked cpu refused
  | shifted {value : U64} {stored : Cpu} {rflags : U64}
    (hread : cpu.rmValue operand size = .ok value) (hcount : masked ≠ 0)
    (hstored : cpu.rmStored operand size
      ((op.shifted (value.setWidth size.bits) masked).setWidth 64) = .ok stored)
    (hflags : ShiftFlags op (value.setWidth size.bits) masked cpu.context.rflags rflags) :
    ShiftOutcome op operand size masked cpu
      (stored.edit fun ctx => { ctx with rflags := rflags })

/-- The flags that a rotate through the carry by a count other than zero should leave: the carry
is the bit above the operand in the rotated number. -/
structure CarryFlags {n : ℕ} (y : BitVec (n + 1)) (old new : U64) : Prop where
  carry : hasFlag new .cf = y.msb
  others : SameFlagsBut [.cf, .of] old new

theorem carryFlags_carryFlags (op : RotateOp) (rflags : U64) {n : ℕ} (y : BitVec (n + 1))
    (count : ℕ) :
    CarryFlags y rflags (op.carryFlags (withFlag rflags rflagsCf y.msb) y count) := by
  have hcf : rflagsCf = StatusFlag.cf.mask := rfl
  have hof : rflagsOf = StatusFlag.of.mask := rfl
  unfold RotateOp.carryFlags
  rw [hcf, hof]
  dsimp only
  refine ⟨?_, ?_⟩
  · split_ifs <;> simp only [hasFlag_withFlag] <;> rfl
  · have hset : SameFlagsBut [.cf, .of] rflags
        (withFlag (withFlag rflags StatusFlag.cf.mask y.msb) StatusFlag.cf.mask y.msb) :=
      ((SameFlagsBut.refl _ rflags).withFlag (by decide) _).withFlag (by decide) _
    split_ifs
    · exact hset.withFlag (by decide) _
    · exact hset

/-- What a rotate through the carry by a masked count should do: the carry and the operand turn
as one number of one bit more. -/
inductive CarryRotateOutcome (op : RotateOp) (operand : RmOperand) (size : OperandWidth)
    (masked : ℕ) (cpu : Cpu) : Cpu → Prop where
  | unread {refused : Cpu} (hread : cpu.rmValue operand size = .error refused) :
    CarryRotateOutcome op operand size masked cpu refused
  | same {value : U64} (hread : cpu.rmValue operand size = .ok value)
    (hzero : masked % (size.bits + 1) = 0) :
    CarryRotateOutcome op operand size masked cpu cpu
  | unwritten {value : U64} {y : BitVec (size.bits + 1)} {refused : Cpu}
    (hread : cpu.rmValue operand size = .ok value) (hcount : masked % (size.bits + 1) ≠ 0)
    (hturned : y = op.rotated (carryOperand cpu.context.rflags (value.setWidth size.bits))
      (masked % (size.bits + 1)))
    (hstored : (cpu.edit fun ctx => ctx.withCarry y.msb).rmStored operand size
      ((y.setWidth size.bits).setWidth 64) = .error refused) :
    CarryRotateOutcome op operand size masked cpu refused
  | rotated {value : U64} {y : BitVec (size.bits + 1)} {stored : Cpu} {rflags : U64}
    (hread : cpu.rmValue operand size = .ok value) (hcount : masked % (size.bits + 1) ≠ 0)
    (hturned : y = op.rotated (carryOperand cpu.context.rflags (value.setWidth size.bits))
      (masked % (size.bits + 1)))
    (hstored : (cpu.edit fun ctx => ctx.withCarry y.msb).rmStored operand size
      ((y.setWidth size.bits).setWidth 64) = .ok stored)
    (hflags : CarryFlags y cpu.context.rflags rflags) :
    CarryRotateOutcome op operand size masked cpu
      (stored.edit fun ctx => { ctx with rflags := rflags })

/-- A shift does what it should. -/
theorem shiftOutcome_shifted (op : ShiftOp) (operand : RmOperand) (size : OperandWidth)
    (masked : ℕ) (cpu : Cpu) :
    ShiftOutcome op operand size masked cpu
      (transferred (cpu.shifted op operand size masked)).2 := by
  unfold Cpu.shifted
  cases hread : cpu.rmValue operand size with
  | error refused => exact .unread hread
  | ok value =>
    show ShiftOutcome op operand size masked cpu (transferred (if masked = 0 then _ else _)).2
    by_cases hzero : masked = 0
    · rw [if_pos hzero]
      exact .same hread hzero
    · rw [if_neg hzero]
      cases hstored : cpu.rmStored operand size
          ((op.shifted (value.setWidth size.bits) masked).setWidth 64) with
      | error refused => exact .unwritten hread hzero hstored
      | ok stored =>
        refine .shifted hread hzero hstored ?_
        rw [rmStored_rflags hstored]
        exact shiftFlags_flags op cpu.context.rflags (value.setWidth size.bits) masked

/-- A rotate through the carry does what it should. -/
theorem carryRotateOutcome_carryRotated (op : RotateOp) (operand : RmOperand)
    (size : OperandWidth) (masked : ℕ) (cpu : Cpu) :
    CarryRotateOutcome op operand size masked cpu
      (transferred (cpu.carryRotated op operand size (masked % (size.bits + 1)))).2 := by
  unfold Cpu.carryRotated
  cases hread : cpu.rmValue operand size with
  | error refused => exact .unread hread
  | ok value =>
    show CarryRotateOutcome op operand size masked cpu
      (transferred (if masked % (size.bits + 1) = 0 then _ else _)).2
    by_cases hzero : masked % (size.bits + 1) = 0
    · rw [if_pos hzero]
      exact .same hread hzero
    · rw [if_neg hzero]
      generalize hturned : op.rotated (carryOperand cpu.context.rflags (value.setWidth size.bits))
        (masked % (size.bits + 1)) = y
      cases hstored : (cpu.edit fun ctx => ctx.withCarry y.msb).rmStored operand size
          ((y.setWidth size.bits).setWidth 64) with
      | error refused => exact .unwritten hread hzero hturned.symm hstored
      | ok stored =>
        refine .rotated hread hzero hturned.symm hstored ?_
        rw [rmStored_rflags hstored]
        exact carryFlags_carryFlags op cpu.context.rflags y _

/-- **Shifts** multiply and divide by a power of two, and **rotates through the carry** rotate
the carry and the operand as one number, so that one undoes the other. -/
theorem shift_law (operand : RmOperand) (size : OperandWidth) (rawCount : U8)
    (hm : MemoryOk cpu.memory) (hexc : cpu.context.hasException = false) :
    (∀ op : ShiftOp, ∃ cpu', UpToCache ((shiftRm op operand size rawCount).run cpuOp cpu).2 cpu' ∧
      ShiftOutcome op operand size (maskedCount size rawCount) cpu cpu') ∧
    (∀ op : RotateOp, ∃ cpu',
      UpToCache ((carryRotateRm op operand size rawCount).run cpuOp cpu).2 cpu' ∧
      CarryRotateOutcome op operand size (maskedCount size rawCount) cpu cpu') ∧
    (∀ (y : BitVec (size.bits + 1)) (count : ℕ),
      RotateOp.ror.rotated (RotateOp.rol.rotated y count) count = y) := by
  refine ⟨fun op => ?_, fun op => ?_, rotated_undo⟩
  · exact ⟨_, endsIn hm (run_shiftRm hm.manager hexc op operand size rawCount),
      shiftOutcome_shifted op operand size _ cpu⟩
  · exact ⟨_, endsIn hm (run_carryRotateRm hm.manager hexc op operand size rawCount),
      carryRotateOutcome_carryRotated op operand size _ cpu⟩

/-- `SAR AL, 9` and `RCL AL, 9` of a CPU with 1 in its registers. -/
theorem shift_law_example :
    (∀ op : ShiftOp, ∃ cpu',
      UpToCache ((shiftRm op ⟨0xC0, 0⟩ .byte 9).run cpuOp onesCpu).2 cpu' ∧
      ShiftOutcome op ⟨0xC0, 0⟩ .byte 9 onesCpu cpu') ∧
    (∀ op : RotateOp, ∃ cpu',
      UpToCache ((carryRotateRm op ⟨0xC0, 0⟩ .byte 9).run cpuOp onesCpu).2 cpu' ∧
      CarryRotateOutcome op ⟨0xC0, 0⟩ .byte 9 onesCpu cpu') ∧
    (∀ (y : BitVec 9) (count : ℕ),
      RotateOp.ror.rotated (RotateOp.rol.rotated y count) count = y) :=
  shift_law ⟨0xC0, 0⟩ .byte 9 onesCpu_memoryOk rfl

end Cpueaxh
