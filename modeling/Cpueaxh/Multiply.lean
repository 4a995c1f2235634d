/-
# MUL, IMUL and MULX

The instructions of `instructions/mul.hpp` and `instructions/imul.hpp` behind their decoders, and
`MULX` of `instructions/bmi.hpp`.  A product is computed in a word of twice the size; for 64 bits
that word is the pair of `_umul128` or `_mul128`.
-/
import Cpueaxh.RegisterOperands

namespace Cpueaxh

/-! ## Products -/

/-- The product of two words in a word of twice the size. -/
def mulWide (signed : Bool) {n : ℕ} (lhs rhs : BitVec n) : BitVec (2 * n) :=
  if signed then lhs.signExtend (2 * n) * rhs.signExtend (2 * n)
  else lhs.setWidth (2 * n) * rhs.setWidth (2 * n)

/-- The low word of a product. -/
def lowWord {n : ℕ} (product : BitVec (2 * n)) : BitVec n := product.setWidth n

/-- The high word of a product. -/
def highWord {n : ℕ} (product : BitVec (2 * n)) : BitVec n := (product >>> n).setWidth n

/-- The overflow of `mul_rm8` to `mul_rm32`, and that of `mul_rm64`. -/
def mulOverflows (size : OperandWidth) (product : BitVec (2 * size.bits)) : Bool :=
  match size with
  | .qword => highWord product != 0
  | size => product >>> size.bits != 0

/-- The overflow of the `IMUL` handlers of 8 to 32 bits, and that of those of 64 bits. -/
def imulOverflows (size : OperandWidth) (product : BitVec (2 * size.bits)) : Bool :=
  match size with
  | .qword => highWord product != if (lowWord product).toInt < 0 then -1 else 0
  | size => product != (lowWord product).signExtend (2 * size.bits)

/-- `update_flags_mul` and `update_flags_imul`. -/
def updateFlagsMul (ctx : CpuContext) (overflow : Bool) : CpuContext :=
  setFlag (setFlag ctx rflagsCf overflow) rflagsOf overflow

/-- Write a product to `AX`, or to `DX:AX` and its like. -/
def setProduct (size : OperandWidth) (ctx : CpuContext) (product : BitVec (2 * size.bits)) :
    CpuContext :=
  match size with
  | .byte => setReg 16 ctx regRax (product.setWidth 64)
  | size =>
    setReg size.bits (setReg size.bits ctx regRax ((lowWord product).setWidth 64)) regRdx
      ((highWord product).setWidth 64)

/-! ## The instructions -/

/-- `mul_rm8` and `imul_rm8` and their like of the other sizes. -/
def executeMultiply (signed : Bool) (size : OperandWidth) (op : RmOperand) : CpuProgram Unit := do
  let ctx ← getContext
  let lhs := getRegister size ctx regRax
  let rhs ← readRmOperand op size
  if ← cpuHasException then return ()
  let product := mulWide signed (lhs.setWidth size.bits) (rhs.setWidth size.bits)
  modifyContext fun ctx => updateFlagsMul (setProduct size ctx product)
    (if signed then imulOverflows size product else mulOverflows size product)

/-- The end of the `IMUL` handlers with a destination register: `write_imul_reg_operand` and the
flags. -/
def writeImulProduct (size : OperandWidth) (op : RmOperand) (product : BitVec (2 * size.bits)) :
    CpuProgram Unit :=
  modifyContext fun ctx => updateFlagsMul
    (setRegister size ctx (decodeRegIndex ctx op.modrm) ((lowWord product).setWidth 64))
    (imulOverflows size product)

/-- `imul_r16_rm16`, `imul_r32_rm32` and `imul_r64_rm64`. -/
def imulRegRm (size : OperandWidth) (op : RmOperand) : CpuProgram Unit := do
  let ctx ← getContext
  let lhs := getRegister size ctx (decodeRegIndex ctx op.modrm)
  let rhs ← readRmOperand op size
  if ← cpuHasException then return ()
  writeImulProduct size op (mulWide true (lhs.setWidth size.bits) (rhs.setWidth size.bits))

/-- `imul_r16_rm16_imm8`, `imul_r16_rm16_imm16` and their like, for the sign-extended immediate of
the encoding. -/
def imulRegRmImm (size : OperandWidth) (op : RmOperand) (immediate : U64) : CpuProgram Unit := do
  let src ← readRmOperand op size
  if ← cpuHasException then return ()
  writeImulProduct size op (mulWide true (src.setWidth size.bits) (immediate.setWidth size.bits))

/-- `MULX` in `try_execute_bmi_vex`, of 32 or 64 bits, behind its checks and its decoder: the
register of the `vvvv` field takes the low word, and then that of the `reg` field the high word. -/
def executeMulx (size : OperandWidth) (vex : Fin 16) (op : RmOperand) : CpuProgram Unit := do
  let source ← readRmOperand op size
  if ← cpuHasException then return ()
  let ctx ← getContext
  let product := mulWide false ((getRegister size ctx regRdx).setWidth size.bits)
    ((source &&& operandMask size).setWidth size.bits)
  modifyContext fun ctx =>
    let ctx := setRegister size ctx vex ((lowWord product).setWidth 64)
    setRegister size ctx (decodeRegIndex ctx op.modrm) ((highWord product).setWidth 64)

end Cpueaxh
