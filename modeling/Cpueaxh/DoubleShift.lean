/-
# SHLD and SHRD

The instructions of `instructions/shld.hpp` behind their decoder.  A masked count above the
width, which operands of 16 bits alone can have, is reduced by the width.
-/
import Cpueaxh.RegisterOperands
import Cpueaxh.SegmentLoad

namespace Cpueaxh

/-- `decode_shld_count`. -/
def decodeShldCount (ctx : CpuContext) (opcode immediate : U8) : U8 :=
  if opcode = 0xA4 ∨ opcode = 0xAC then immediate else getReg8 ctx regRcx

/-- `read_shld_reg_operand`, which knows no operands of 8 bits. -/
def readShldRegOperand (operand : RmOperand) (size : OperandWidth) : CpuProgram U64 :=
  match size with
  | .byte => do
    raiseUd
    return 0
  | size => do
    let ctx ← getContext
    return getReg size.bits ctx (decodeRegIndex ctx operand.modrm)

/-- The count by which `shld_shrd_rm` shifts. -/
def reducedCount (size : OperandWidth) (count : ℕ) : ℕ :=
  if size.bits < count then
    if count % size.bits = 0 then size.bits else count % size.bits
  else count

/-- The value that `shld_shrd_rm` writes. -/
def shldShrdValue (size : OperandWidth) (isShrd : Bool) (oldValue source : U64) (count : ℕ) : U64 :=
  let result :=
    if isShrd then
      if count = size.bits then source
      else oldValue >>> count ||| source <<< (size.bits - count)
    else
      if count = size.bits then source
      else oldValue <<< count ||| source >>> (size.bits - count)
  result &&& operandMask size

/-- `update_flags_shld_shrd`. -/
def updateFlagsShldShrd (size : OperandWidth) (isShrd : Bool) (ctx : CpuContext)
    (oldValue result : U64) (count : ℕ) : CpuContext :=
  if count = 0 then ctx
  else
    let carryBit :=
      if isShrd then oldValue >>> (count - 1) &&& 1 else oldValue >>> (size.bits - count) &&& 1
    let oldMsb := oldValue &&& signMask size != 0
    let newMsb := result &&& signMask size != 0
    let ctx := setFlag ctx rflagsCf (carryBit != 0)
    let ctx := if count = 1 then setFlag ctx rflagsOf (oldMsb ^^ newMsb) else ctx
    let ctx := setFlag ctx rflagsSf newMsb
    let ctx := setFlag ctx rflagsZf (result == 0)
    setFlag ctx rflagsPf (calcParity (result.setWidth 8))

/-- `shld_shrd_rm`. -/
def shldShrdRm (operand : RmOperand) (size : OperandWidth) (rawCount : U8) (isShrd : Bool) :
    CpuProgram Unit := do
  let count := maskedCount size rawCount
  let value ← readRmOperand operand size
  if ← cpuHasException then return ()
  if count = 0 then return ()
  let source ← readShldRegOperand operand size
  if ← cpuHasException then return ()
  let oldValue := value &&& operandMask size
  let count := reducedCount size count
  let result := shldShrdValue size isShrd oldValue (source &&& operandMask size) count
  writeRmOperand operand size result
  if ← cpuHasException then return ()
  modifyContext fun ctx => updateFlagsShldShrd size isShrd ctx oldValue result count

/-- `execute_shld_with_decoded` and `execute_shrd_with_decoded`. -/
def executeShldWithDecoded (isShrd : Bool) (opcode immediate : U8) (operand : RmOperand)
    (size : OperandWidth) : CpuProgram Unit := do
  let ctx ← getContext
  shldShrdRm operand size (decodeShldCount ctx opcode immediate) isShrd

end Cpueaxh
