/-
# ROL and ROR

The instructions of `instructions/rol.hpp` and `instructions/ror.hpp` behind their decoders:
the count is masked and reduced to the width, and the operand is turned by one bit at a time.
-/
import Cpueaxh.RegisterOperands

namespace Cpueaxh

/-! ## The count -/

/-- The directions of a rotate. -/
inductive RotateOp where
  | rol | ror
  deriving DecidableEq, Repr

/-- `decode_rol_count` and `decode_ror_count`. -/
def decodeRotateCount (ctx : CpuContext) (opcode immediate : U8) : U8 :=
  if opcode = 0xD0 ∨ opcode = 0xD1 then 1
  else if opcode = 0xD2 ∨ opcode = 0xD3 then getReg8 ctx regRcx
  else immediate

/-! ## The turns -/

/-- One turn of the loop of `rol_rm`: the new value and `carry_out`. -/
def rolTurn (size : OperandWidth) (result : U64) : U64 × Bool :=
  let carryOut := result &&& signMask size != 0
  ((result <<< 1 ||| (if carryOut then 1 else 0)) &&& operandMask size, carryOut)

/-- One turn of the loop of `ror_rm`. -/
def rorTurn (size : OperandWidth) (result : U64) : U64 × Bool :=
  let carryOut := result &&& 1 != 0
  ((result >>> 1 ||| (if carryOut then signMask size else 0)) &&& operandMask size, carryOut)

/-- A turn in a direction. -/
def RotateOp.turn : RotateOp → OperandWidth → U64 → U64 × Bool
  | rol => rolTurn
  | ror => rorTurn

/-- The loop of `rol_rm` and `ror_rm`. -/
def rotateLoop (op : RotateOp) (size : OperandWidth) : ℕ → U64 × Bool → U64 × Bool
  | 0, state => state
  | count + 1, state => rotateLoop op size count (op.turn size state.1)

/-! ## The flags -/

/-- What `update_flags_rol` and `update_flags_ror` set `OF` to. -/
def RotateOp.overflow (op : RotateOp) (size : OperandWidth) (result : U64) (carryOut : Bool) :
    Bool :=
  let msb := result &&& signMask size != 0
  match op with
  | rol => msb ^^ carryOut
  | ror => msb ^^ (result &&& (signMask size >>> 1) != 0)

/-- `update_flags_rol` and `update_flags_ror`. -/
def updateFlagsRotate (op : RotateOp) (size : OperandWidth) (ctx : CpuContext) (result : U64)
    (count : ℕ) (carryOut : Bool) : CpuContext :=
  if count = 0 then ctx
  else
    let ctx := setFlag ctx rflagsCf carryOut
    if count = 1 then setFlag ctx rflagsOf (op.overflow size result carryOut) else ctx

/-! ## The instructions -/

/-- The body of `rol_rm` and `ror_rm`. -/
def rotateRm (op : RotateOp) (operand : RmOperand) (size : OperandWidth) (rawCount : U8) :
    CpuProgram Unit := do
  let count := maskedCount size rawCount % size.bits
  let value ← readRmOperand operand size
  if ← cpuHasException then return ()
  if count = 0 then return ()
  let (result, carryOut) := rotateLoop op size count (value &&& operandMask size, false)
  writeRmOperand operand size result
  modifyContext fun ctx => updateFlagsRotate op size ctx result count carryOut

/-- `rol_rm`. -/
def rolRm : RmOperand → OperandWidth → U8 → CpuProgram Unit := rotateRm .rol

/-- `ror_rm`. -/
def rorRm : RmOperand → OperandWidth → U8 → CpuProgram Unit := rotateRm .ror

/-- `execute_rol_with_decoded` and `execute_ror_with_decoded`. -/
def executeRotateWithDecoded (op : RotateOp) (opcode immediate : U8) (operand : RmOperand)
    (size : OperandWidth) : CpuProgram Unit := do
  let ctx ← getContext
  match op with
  | .rol => rolRm operand size (decodeRotateCount ctx opcode immediate)
  | .ror => rorRm operand size (decodeRotateCount ctx opcode immediate)

end Cpueaxh
