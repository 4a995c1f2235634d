/-
# SHL, SHR, SAR, RCL and RCR

The instructions of `instructions/shl.hpp`, `shr.hpp`, `sar.hpp`, `rcl.hpp` and `rcr.hpp` behind
their decoders.  The operand is moved by one bit at a time; the rotates through the carry take
the carry from the flags register and put it back in every turn.
-/
import Cpueaxh.Rotate

namespace Cpueaxh

/-! ## Shifts -/

/-- The shifts. -/
inductive ShiftOp where
  | shl | shr | sar
  deriving DecidableEq, Repr

/-- One turn of the loop of `shl_rm`: the new value and `carry_out`. -/
def shlTurn (size : OperandWidth) (result : U64) : U64 × Bool :=
  let carryOut := result &&& signMask size != 0
  (result <<< 1 &&& operandMask size, carryOut)

/-- One turn of the loop of `shr_rm`. -/
def shrTurn (result : U64) : U64 × Bool :=
  let carryOut := result &&& 1 != 0
  (result >>> 1, carryOut)

/-- One turn of the loop of `sar_rm`. -/
def sarTurn (size : OperandWidth) (result : U64) : U64 × Bool :=
  let sign := result &&& signMask size != 0
  let carryOut := result &&& 1 != 0
  let result := result >>> 1
  let result := if sign then result ||| signMask size else result
  (result &&& operandMask size, carryOut)

/-- A turn of a shift. -/
def ShiftOp.turn : ShiftOp → OperandWidth → U64 → U64 × Bool
  | shl, size => shlTurn size
  | shr, _ => shrTurn
  | sar, size => sarTurn size

/-- The loop of `shl_rm`, `shr_rm` and `sar_rm`. -/
def shiftLoop (op : ShiftOp) (size : OperandWidth) : ℕ → U64 × Bool → U64 × Bool
  | 0, state => state
  | count + 1, state => shiftLoop op size count (op.turn size state.1)

/-- The result behind the loop, which `shr_rm` masks only there. -/
def ShiftOp.masked (op : ShiftOp) (size : OperandWidth) (result : U64) : U64 :=
  match op with
  | shl => result
  | shr => result &&& operandMask size
  | sar => result

/-- What a shift by one bit sets `OF` to. -/
def ShiftOp.overflow (op : ShiftOp) (size : OperandWidth) (original result : U64)
    (carryOut : Bool) : Bool :=
  match op with
  | shl => (result &&& signMask size != 0) ^^ carryOut
  | shr => original &&& signMask size != 0
  | sar => false

/-- `update_flags_shl`, `update_flags_shr` and `update_flags_sar`. -/
def updateFlagsShift (op : ShiftOp) (size : OperandWidth) (ctx : CpuContext)
    (original result : U64) (count : ℕ) (carryOut : Bool) : CpuContext :=
  if count = 0 then ctx
  else
    let ctx := setFlag ctx rflagsCf carryOut
    let ctx :=
      if count = 1 then setFlag ctx rflagsOf (op.overflow size original result carryOut) else ctx
    let ctx := setFlag ctx rflagsSf (result &&& signMask size != 0)
    let ctx := setFlag ctx rflagsZf (result == 0)
    setFlag ctx rflagsPf (calcParity (result.setWidth 8))

/-- The body of `shl_rm`, `shr_rm` and `sar_rm`. -/
def shiftRm (op : ShiftOp) (operand : RmOperand) (size : OperandWidth) (rawCount : U8) :
    CpuProgram Unit := do
  let count := maskedCount size rawCount
  let value ← readRmOperand operand size
  if ← cpuHasException then return ()
  if count = 0 then return ()
  let original := value &&& operandMask size
  let (shifted, carryOut) := shiftLoop op size count (original, false)
  let result := op.masked size shifted
  writeRmOperand operand size result
  modifyContext fun ctx => updateFlagsShift op size ctx original result count carryOut

/-- `shl_rm`. -/
def shlRm : RmOperand → OperandWidth → U8 → CpuProgram Unit := shiftRm .shl

/-- `shr_rm`. -/
def shrRm : RmOperand → OperandWidth → U8 → CpuProgram Unit := shiftRm .shr

/-- `sar_rm`. -/
def sarRm : RmOperand → OperandWidth → U8 → CpuProgram Unit := shiftRm .sar

/-! ## Rotates through the carry -/

/-- `get_rcl_count`. -/
def getRclCount (size : OperandWidth) (rawCount : U8) : ℕ :=
  let count := maskedCount size rawCount
  match size with
  | .byte => count % 9
  | .word => count % 17
  | .dword => count
  | .qword => count

/-- The variables of the loops of `rcl_rm` and `rcr_rm`, and the context with the carry. -/
structure CarryRotation where
  result : U64
  carryOut : Bool
  ctx : CpuContext

/-- One turn of the loop of `rcl_rm`. -/
def rclTurn (size : OperandWidth) (s : CarryRotation) : CarryRotation :=
  let carryIn := s.ctx.rflags &&& rflagsCf != 0
  let carryOut := s.result &&& signMask size != 0
  { result := (s.result <<< 1 ||| (if carryIn then 1 else 0)) &&& operandMask size
    carryOut := carryOut
    ctx := setFlag s.ctx rflagsCf carryOut }

/-- One turn of the loop of `rcr_rm`. -/
def rcrTurn (size : OperandWidth) (s : CarryRotation) : CarryRotation :=
  let carryIn := s.ctx.rflags &&& rflagsCf != 0
  let carryOut := s.result &&& 1 != 0
  { result := (s.result >>> 1 ||| (if carryIn then signMask size else 0)) &&& operandMask size
    carryOut := carryOut
    ctx := setFlag s.ctx rflagsCf carryOut }

/-- A turn through the carry in a direction. -/
def RotateOp.carryTurn : RotateOp → OperandWidth → CarryRotation → CarryRotation
  | rol => rclTurn
  | ror => rcrTurn

/-- `update_flags_rcl` and `update_flags_rcr`, which do what those of the rotates do. -/
def updateFlagsCarryRotate : RotateOp → OperandWidth → CpuContext → U64 → ℕ → Bool → CpuContext :=
  updateFlagsRotate

/-- The body of `rcl_rm` and `rcr_rm`. -/
def carryRotateRm (op : RotateOp) (operand : RmOperand) (size : OperandWidth) (rawCount : U8) :
    CpuProgram Unit := do
  let count := getRclCount size rawCount
  let value ← readRmOperand operand size
  if ← cpuHasException then return ()
  if count = 0 then return ()
  let ctx ← getContext
  let s := (op.carryTurn size)^[count] ⟨value &&& operandMask size, false, ctx⟩
  modifyContext fun _ => s.ctx
  writeRmOperand operand size s.result
  modifyContext fun ctx => updateFlagsCarryRotate op size ctx s.result count s.carryOut

/-- `rcl_rm`. -/
def rclRm : RmOperand → OperandWidth → U8 → CpuProgram Unit := carryRotateRm .rol

/-- `rcr_rm`. -/
def rcrRm : RmOperand → OperandWidth → U8 → CpuProgram Unit := carryRotateRm .ror

end Cpueaxh
