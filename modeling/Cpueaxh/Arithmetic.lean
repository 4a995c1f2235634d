/-
# ADD, ADC, SUB and SBB

The helpers of `cpu/calc.hpp` that set the flags behind sums and differences, and the values
that `instructions/add.hpp`, `adc.hpp`, `sub.hpp` and `sbb.hpp` compute with them.  Sums of 8
to 32 bits are computed in words of twice the size; those of 64 bits wrap.
-/
import Cpueaxh.RegisterOperands

namespace Cpueaxh

/-! ## The flags -/

/-- The flags in the order in which all the helpers set them. -/
def setArithmeticFlags {w : ℕ} (ctx : CpuContext) (carry overflow adjust : Bool)
    (result : BitVec w) : CpuContext :=
  let ctx := setFlag ctx rflagsCf carry
  let ctx := setFlag ctx rflagsOf overflow
  let ctx := setFlag ctx rflagsSf (result &&& BitVec.intMin w != 0)
  let ctx := setFlag ctx rflagsZf (result == 0)
  let ctx := setFlag ctx rflagsAf adjust
  setFlag ctx rflagsPf (calcParity (result.setWidth 8))

/-- The signed overflow of a sum, by the signs. -/
def sumOverflows {w : ℕ} (dst src result : BitVec w) : Bool :=
  (dst ^^^ result) &&& (src ^^^ result) &&& BitVec.intMin w != 0

/-- The signed overflow of a difference, by the signs. -/
def differenceOverflows {w : ℕ} (dst src result : BitVec w) : Bool :=
  (dst ^^^ src) &&& (dst ^^^ result) &&& BitVec.intMin w != 0

/-- `update_flags_add8`, `update_flags_add16` and `update_flags_add32`. -/
def updateFlagsAdd {w : ℕ} (ctx : CpuContext) (dst src : BitVec w) (result : BitVec (2 * w)) :
    CpuContext :=
  let res := result.setWidth w
  setArithmeticFlags ctx (decide ((BitVec.allOnes w).setWidth (2 * w) < result))
    (sumOverflows dst src res) ((dst ^^^ src ^^^ res) &&& 0x10 != 0) res

/-- `update_flags_add64`. -/
def updateFlagsAdd64 (ctx : CpuContext) (dst src result : U64) : CpuContext :=
  setArithmeticFlags ctx (decide (result < dst)) (sumOverflows dst src result)
    ((dst ^^^ src ^^^ result) &&& 0x10 != 0) result

/-- `update_flags_adc8`, `update_flags_adc16` and `update_flags_adc32`. -/
def updateFlagsAdc {w : ℕ} (ctx : CpuContext) (dst src : BitVec w) (carryIn : Bool)
    (result : BitVec (2 * w)) : CpuContext :=
  let res := result.setWidth w
  let carry := if carryIn then 1 else 0
  setArithmeticFlags ctx (decide ((BitVec.allOnes w).setWidth (2 * w) < result))
    (sumOverflows dst src res) (((dst &&& 0x0F) + (src &&& 0x0F) + carry) &&& 0x10 != 0) res

/-- `update_flags_adc64`. -/
def updateFlagsAdc64 (ctx : CpuContext) (dst src : U64) (carryIn : Bool) (result : U64) :
    CpuContext :=
  let carry := if carryIn then 1 else 0
  setArithmeticFlags ctx (decide (result < dst) || (carryIn && result == dst))
    (sumOverflows dst src result) (((dst &&& 0x0F) + (src &&& 0x0F) + carry) &&& 0x10 != 0) result

/-- `update_flags_sbb8`, `update_flags_sbb16`, `update_flags_sbb32` and `update_flags_sbb64`,
which look at the low word of the result. -/
def updateFlagsSbb {w : ℕ} (ctx : CpuContext) (dst src : BitVec w) (borrowIn : Bool)
    (result : BitVec w) : CpuContext :=
  let borrow := if borrowIn then 1 else 0
  setArithmeticFlags ctx (decide (dst < src) || (borrowIn && dst == src))
    (differenceOverflows dst src result) (decide ((dst &&& 0x0F) < (src &&& 0x0F) + borrow)) result

/-! ## The values -/

/-- The carry that `adc_value` and the borrow that `sbb_value` take in. -/
def carryIn (ctx : CpuContext) : Bool := ctx.rflags &&& rflagsCf != 0

/-- The value and the flags of the `ADD` handlers of 8 to 32 bits. -/
def addValue {w : ℕ} (ctx : CpuContext) (dst src : BitVec w) : BitVec w × CpuContext :=
  let result := dst.setWidth (2 * w) + src.setWidth (2 * w)
  (result.setWidth w, updateFlagsAdd ctx dst src result)

/-- The value and the flags of the `ADD` handlers of 64 bits. -/
def addValue64 (ctx : CpuContext) (dst src : U64) : U64 × CpuContext :=
  let result := dst + src
  (result, updateFlagsAdd64 ctx dst src result)

/-- `adc_value8`, `adc_value16` and `adc_value32`. -/
def adcValue {w : ℕ} (ctx : CpuContext) (dst src : BitVec w) : BitVec w × CpuContext :=
  let carry := if carryIn ctx then 1 else 0
  let result := dst.setWidth (2 * w) + src.setWidth (2 * w) + carry
  (result.setWidth w, updateFlagsAdc ctx dst src (carryIn ctx) result)

/-- `adc_value64`. -/
def adcValue64 (ctx : CpuContext) (dst src : U64) : U64 × CpuContext :=
  let carry := if carryIn ctx then 1 else 0
  let result := dst + src + carry
  (result, updateFlagsAdc64 ctx dst src (carryIn ctx) result)

/-- The value and the flags of the `SUB` handlers. -/
def subValue {w : ℕ} (ctx : CpuContext) (dst src : BitVec w) : BitVec w × CpuContext :=
  let result := dst - src
  (result, updateFlagsSub ctx dst src result)

/-- `sbb_value8`, `sbb_value16`, `sbb_value32` and `sbb_value64`. -/
def sbbValue {w : ℕ} (ctx : CpuContext) (dst src : BitVec w) : BitVec w × CpuContext :=
  let borrow := if carryIn ctx then 1 else 0
  let result := dst - src - borrow
  (result, updateFlagsSbb ctx dst src (carryIn ctx) result)

/-- The four instructions. -/
inductive ArithmeticOp where
  | add | adc | sub | sbb
  deriving DecidableEq, Repr

/-- The value and the flags of an instruction at a size. -/
def ArithmeticOp.value (op : ArithmeticOp) (size : OperandWidth) (ctx : CpuContext)
    (dst src : BitVec size.bits) : BitVec size.bits × CpuContext :=
  match op, size with
  | add, .qword => addValue64 ctx dst src
  | add, _ => addValue ctx dst src
  | adc, .qword => adcValue64 ctx dst src
  | adc, _ => adcValue ctx dst src
  | sub, _ => subValue ctx dst src
  | sbb, _ => sbbValue ctx dst src

/-! ## The handlers -/

/-- The handlers whose destination is the operand of the ModRM byte: `add_rm8_r8`,
`add_rm8_imm8` and their like. -/
def arithmeticToRm (op : ArithmeticOp) (size : OperandWidth) (operand : RmOperand)
    (source : CpuContext → U64) : CpuProgram Unit := do
  let dst ← readRmOperand operand size
  let ctx ← getContext
  let result := op.value size ctx (dst.setWidth size.bits) ((source ctx).setWidth size.bits)
  modifyContext fun _ => result.2
  writeRmOperand operand size (result.1.setWidth 64)

/-- The handlers whose destination is the register of the ModRM byte: `add_r8_rm8` and its
like. -/
def arithmeticToReg (op : ArithmeticOp) (size : OperandWidth) (operand : RmOperand) :
    CpuProgram Unit := do
  let src ← readRmOperand operand size
  let ctx ← getContext
  let reg := decodeRegIndex ctx operand.modrm
  let result := op.value size ctx ((getRegister size ctx reg).setWidth size.bits)
    (src.setWidth size.bits)
  modifyContext fun _ => setRegister size result.2 reg (result.1.setWidth 64)

end Cpueaxh
