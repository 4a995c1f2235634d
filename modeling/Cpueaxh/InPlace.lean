/-
# Instructions that change their operand in place

`OR`, `XOR`, `INC`, `DEC`, `NEG`, `NOT`, `XADD`, `XCHG` and `CMPXCHG`, behind their decoders.
Each has two paths to an operand in memory.  The plain one reads the operand and writes it
back.  The one behind a `LOCK` prefix, which `XCHG` always takes, compares and exchanges through
one host pointer, and goes round again with what it found when another writer was faster.
-/
import Cpueaxh.AtomicAccess
import Cpueaxh.Arithmetic

namespace Cpueaxh

/-! ## Reading, changing and writing at once -/

/-- `read_memory_operand_checked`; `none` is a result that is not `ok`. -/
def readMemoryOperandChecked (address : U64) (size : OperandWidth) : CpuProgram (Option U64) := do
  if ← cpuHasException then return none
  let value ← readMemoryOperand address size
  if ← cpuHasException then return none
  return some value

/-- The loop of `cpu_atomic_rmw_memory`: the value before and the value behind the exchange.
`none` outside stands for turns that are still to come, `none` inside for `false`. -/
def atomicRmwLoop (fuel : ℕ) (address : U64) (size : OperandWidth) (callback : U64 → U64) :
    ℕ → U64 → CpuProgram (Option (Option (U64 × U64)))
  | 0, _ => return none
  | turns + 1, currentValue => do
    let desiredValue := callback currentValue &&& operandMask size
    match ← cpuAtomicCompareExchangeMemory fuel address size currentValue desiredValue with
    | none => return none
    | some (false, observedValue) =>
      -- no exchange: a fault, or another writer has been faster
      if ← cpuHasException then return some none
      atomicRmwLoop fuel address size callback turns (observedValue &&& operandMask size)
    | some (true, _) => return some (some (currentValue, desiredValue))

/-- `cpu_atomic_rmw_memory`. -/
def cpuAtomicRmwMemory (fuel : ℕ) (address : U64) (size : OperandWidth) (callback : U64 → U64) :
    CpuProgram (Option (Option (U64 × U64))) := do
  match ← readMemoryOperandChecked address size with
  | none => return some none
  | some value => atomicRmwLoop fuel address size callback fuel (value &&& operandMask size)

/-- `cpu_atomic_add_callback`. -/
def cpuAtomicAddCallback (operand currentValue : U64) : U64 := currentValue + operand

/-- `cpu_atomic_sub_callback`. -/
def cpuAtomicSubCallback (operand currentValue : U64) : U64 := currentValue - operand

/-- `cpu_atomic_or_callback`. -/
def cpuAtomicOrCallback (operand currentValue : U64) : U64 := currentValue ||| operand

/-- `cpu_atomic_xor_callback`. -/
def cpuAtomicXorCallback (operand currentValue : U64) : U64 := currentValue ^^^ operand

/-- `cpu_atomic_exchange_callback`. -/
def cpuAtomicExchangeCallback (operand _currentValue : U64) : U64 := operand

/-! ## The flags -/

/-- `update_flags_and8`, `update_flags_and16`, `update_flags_and32` and `update_flags_and64`,
which the helpers of `OR` and `XOR` call; those of `TEST` are the same. -/
def updateFlagsAnd {w : ℕ} (ctx : CpuContext) (result : BitVec w) : CpuContext :=
  let ctx := setFlag ctx rflagsCf false
  let ctx := setFlag ctx rflagsOf false
  let ctx := setFlag ctx rflagsSf (result &&& BitVec.intMin w != 0)
  let ctx := setFlag ctx rflagsZf (result == 0)
  setFlag ctx rflagsPf (calcParity (result.setWidth 8))

/-- `update_or_logic_flags` and `update_xor_logic_flags`. -/
def updateLogicFlags (size : OperandWidth) (ctx : CpuContext) (result : U64) : CpuContext :=
  updateFlagsAnd ctx (result.setWidth size.bits)

/-- The flags of a sum at a size, with the result as wide as the operands. -/
def updateFlagsSum (size : OperandWidth) (ctx : CpuContext) (dst src result : BitVec size.bits) :
    CpuContext :=
  match size with
  | .qword => updateFlagsAdd64 ctx dst src result
  | _ => updateFlagsAdd ctx dst src (result.setWidth _)

/-- `update_flags_inc8`, `update_flags_inc16`, `update_flags_inc32` and `update_flags_inc64`. -/
def updateFlagsInc (size : OperandWidth) (ctx : CpuContext) (dst result : BitVec size.bits) :
    CpuContext :=
  let carry := ctx.rflags &&& rflagsCf != 0
  setFlag (updateFlagsSum size ctx dst 1 result) rflagsCf carry

/-- `update_flags_dec8`, `update_flags_dec16`, `update_flags_dec32` and `update_flags_dec64`. -/
def updateFlagsDec (size : OperandWidth) (ctx : CpuContext) (dst result : BitVec size.bits) :
    CpuContext :=
  let carry := ctx.rflags &&& rflagsCf != 0
  setFlag (updateFlagsSub ctx dst 1 result) rflagsCf carry

/-! ## OR and XOR -/

/-- `or_rm_imm`, `or_rm_r`, `xor_rm_imm` and `xor_rm_r`. -/
def logicToRm (fuel : ℕ) (operation : U64 → U64 → U64) (size : OperandWidth) (operand : RmOperand)
    (source : CpuContext → U64) (hasLockPrefix : Bool) : CpuProgram (Option Unit) := do
  let ctx ← getContext
  let src := source ctx
  if hasLockPrefix && !operand.isRegister then
    match ← cpuAtomicRmwMemory fuel operand.memAddress size (operation src) with
    | none => return none
    | some none => return some ()
    | some (some (_, newValue)) =>
      modifyContext fun ctx => updateLogicFlags size ctx newValue
      return some ()
  else
    let dst ← readRmOperand operand size
    let result := operation src dst
    modifyContext fun ctx => updateLogicFlags size ctx result
    writeRmOperand operand size result
    return some ()

/-- `or_r_rm` and `xor_r_rm`. -/
def logicToReg (operation : U64 → U64 → U64) (size : OperandWidth) (operand : RmOperand) :
    CpuProgram Unit := do
  let ctx ← getContext
  let dst := getRegister size ctx (decodeRegIndex ctx operand.modrm)
  let src ← readRmOperand operand size
  let result := operation src dst
  modifyContext fun ctx => updateLogicFlags size ctx result
  modifyContext fun ctx => setRegister size ctx (decodeRegIndex ctx operand.modrm) result

/-- `or_rm_imm`. -/
def orRmImm (fuel : ℕ) (size : OperandWidth) (operand : RmOperand) (imm : U64) :
    Bool → CpuProgram (Option Unit) :=
  logicToRm fuel cpuAtomicOrCallback size operand fun _ => imm

/-- `or_rm_r`. -/
def orRmR (fuel : ℕ) (size : OperandWidth) (operand : RmOperand) : Bool → CpuProgram (Option Unit) :=
  logicToRm fuel cpuAtomicOrCallback size operand fun ctx =>
    getRegister size ctx (decodeRegIndex ctx operand.modrm)

/-- `xor_rm_imm`. -/
def xorRmImm (fuel : ℕ) (size : OperandWidth) (operand : RmOperand) (imm : U64) :
    Bool → CpuProgram (Option Unit) :=
  logicToRm fuel cpuAtomicXorCallback size operand fun _ => imm

/-- `xor_rm_r`. -/
def xorRmR (fuel : ℕ) (size : OperandWidth) (operand : RmOperand) : Bool → CpuProgram (Option Unit) :=
  logicToRm fuel cpuAtomicXorCallback size operand fun ctx =>
    getRegister size ctx (decodeRegIndex ctx operand.modrm)

/-! ## INC, DEC, NEG and NOT -/

/-- The handlers of an instruction with one operand: `callback` computes the value in a quadword,
and `flags` sets the flags of the old value and the new one. -/
def unaryRm (fuel : ℕ) (callback : U64 → U64) (size : OperandWidth)
    (flags : CpuContext → BitVec size.bits → BitVec size.bits → CpuContext) (operand : RmOperand)
    (hasLockPrefix : Bool) : CpuProgram (Option Unit) := do
  if hasLockPrefix && !operand.isRegister then
    match ← cpuAtomicRmwMemory fuel operand.memAddress size callback with
    | none => return none
    | some none => return some ()
    | some (some (oldValue, newValue)) =>
      modifyContext fun ctx =>
        flags ctx (oldValue.setWidth size.bits) (newValue.setWidth size.bits)
      return some ()
  else
    let src ← readRmOperand operand size
    let result := (callback src).setWidth size.bits
    modifyContext fun ctx => flags ctx (src.setWidth size.bits) result
    writeRmOperand operand size (result.setWidth 64)
    return some ()

/-- `inc_rm8`, `inc_rm16`, `inc_rm32` and `inc_rm64`, with `inc_rm_atomic`. -/
def incRm (fuel : ℕ) (size : OperandWidth) : RmOperand → Bool → CpuProgram (Option Unit) :=
  unaryRm fuel (cpuAtomicAddCallback 1) size (updateFlagsInc size)

/-- `dec_rm8`, `dec_rm16`, `dec_rm32` and `dec_rm64`, with `dec_rm_atomic`. -/
def decRm (fuel : ℕ) (size : OperandWidth) : RmOperand → Bool → CpuProgram (Option Unit) :=
  unaryRm fuel (cpuAtomicSubCallback 1) size (updateFlagsDec size)

/-- `neg_rm8`, `neg_rm16`, `neg_rm32` and `neg_rm64`.  The loop of `neg_rm_atomic` is that of
`cpu_atomic_rmw_memory` for the difference from zero. -/
def negRm (fuel : ℕ) (size : OperandWidth) : RmOperand → Bool → CpuProgram (Option Unit) :=
  unaryRm fuel (fun currentValue => 0 - currentValue) size fun ctx src result =>
    updateFlagsSub ctx 0 src result

/-- The part of `not_rm_atomic` for host memory, with the interlocked exclusive or; it asks for
no access for reading. -/
def notPassthrough (fuel : ℕ) (address : U64) (size : OperandWidth) : CpuProgram (Option Unit) := do
  match ← getMemoryWritePtr address (size.bits / 8) fuel with
  | none => return none
  | some none => return some ()
  | some (some p) =>
    let oldValue ← loadBytes p (size.bits / 8) 0
    storeValue (consecutive p (size.bits / 8) 0) (oldValue ^^^ operandMask size)
    return some ()

/-- `not_rm8`, `not_rm16`, `not_rm32` and `not_rm64`, with `not_rm_atomic`.  They set no flags. -/
def notRm (fuel : ℕ) (size : OperandWidth) (operand : RmOperand) (hasLockPrefix : Bool) :
    CpuProgram (Option Unit) := do
  let host ← perform .isHostWritePassthrough
  if (hasLockPrefix && !operand.isRegister) && host then
    notPassthrough fuel operand.memAddress size
  else
    unaryRm fuel (fun currentValue => ~~~currentValue) size (fun ctx _ _ => ctx) operand hasLockPrefix

/-! ## XADD, XCHG and CMPXCHG -/

/-- `xadd_compute_result`. -/
def xaddComputeResult (size : OperandWidth) (ctx : CpuContext) (dstValue srcValue : U64) :
    BitVec size.bits × CpuContext :=
  ArithmeticOp.add.value size ctx (dstValue.setWidth size.bits) (srcValue.setWidth size.bits)

/-- `xadd_rm_reg`. -/
def xaddRmReg (fuel : ℕ) (size : OperandWidth) (operand : RmOperand) (hasLockPrefix : Bool) :
    CpuProgram (Option Unit) := do
  let ctx ← getContext
  let regIndex := decodeRegIndex ctx operand.modrm
  let srcValue := getRegister size ctx regIndex
  if hasLockPrefix && !operand.isRegister then
    match ← cpuAtomicRmwMemory fuel operand.memAddress size (cpuAtomicAddCallback srcValue) with
    | none => return none
    | some none => return some ()
    | some (some (dstValue, _)) =>
      modifyContext fun ctx => (xaddComputeResult size ctx dstValue srcValue).2
      modifyContext fun ctx => setRegister size ctx regIndex dstValue
      return some ()
  else
    let dstValue ← readRmOperand operand size
    if ← cpuHasException then return some ()
    let ctx ← getContext
    let result := xaddComputeResult size ctx dstValue srcValue
    modifyContext fun _ => result.2
    modifyContext fun ctx => setRegister size ctx regIndex dstValue
    writeRmOperand operand size (result.1.setWidth 64)
    return some ()

/-- `xchg_rm_reg`: memory is always exchanged at once. -/
def xchgRmReg (fuel : ℕ) (size : OperandWidth) (operand : RmOperand) :
    CpuProgram (Option Unit) := do
  let ctx ← getContext
  let regIndex := decodeRegIndex ctx operand.modrm
  let regValue := getRegister size ctx regIndex
  if !operand.isRegister then
    match ← cpuAtomicRmwMemory fuel operand.memAddress size (cpuAtomicExchangeCallback regValue) with
    | none => return none
    | some none => return some ()
    | some (some (rmValue, _)) =>
      modifyContext fun ctx => setRegister size ctx regIndex rmValue
      return some ()
  else
    let rmValue ← readRmOperand operand size
    modifyContext fun ctx => setRegister size ctx regIndex rmValue
    writeRmOperand operand size regValue
    return some ()

/-- `cmpxchg_update_flags`. -/
def cmpxchgUpdateFlags (size : OperandWidth) (ctx : CpuContext) (accumulatorValue dstValue : U64) :
    CpuContext :=
  updateFlagsCompare size.bits ctx accumulatorValue dstValue

/-- `cmpxchg_rm_reg`. -/
def cmpxchgRmReg (fuel : ℕ) (size : OperandWidth) (operand : RmOperand) (hasLockPrefix : Bool) :
    CpuProgram (Option Unit) := do
  let ctx ← getContext
  let srcValue := getRegister size ctx (decodeRegIndex ctx operand.modrm)
  let accumulatorValue := getRegister size ctx regRax
  if hasLockPrefix && !operand.isRegister then
    match ← cpuAtomicCompareExchangeMemory fuel operand.memAddress size accumulatorValue srcValue with
    | none => return none
    | some (_, dstValue) =>
      if ← cpuHasException then return some ()
      modifyContext fun ctx => cmpxchgUpdateFlags size ctx accumulatorValue dstValue
      if accumulatorValue ≠ dstValue then
        modifyContext fun ctx => setRegister size ctx regRax dstValue
      return some ()
  else
    let dstValue ← readRmOperand operand size
    if ← cpuHasException then return some ()
    modifyContext fun ctx => cmpxchgUpdateFlags size ctx accumulatorValue dstValue
    if accumulatorValue = dstValue then
      writeRmOperand operand size srcValue
    else modifyContext fun ctx => setRegister size ctx regRax dstValue
    return some ()

/-! ## The instructions -/

/-- The instructions of this module; an operand that is no register of the ModRM byte is an
immediate. -/
inductive InPlaceOp where
  | or (imm : Option U64)
  | xor (imm : Option U64)
  | inc | dec | neg | not | xadd | xchg | cmpxchg
  deriving DecidableEq, Repr

/-- The handler of an instruction. -/
def InPlaceOp.execute (op : InPlaceOp) (fuel : ℕ) (size : OperandWidth) (operand : RmOperand)
    (hasLockPrefix : Bool) : CpuProgram (Option Unit) :=
  match op with
  | or none => orRmR fuel size operand hasLockPrefix
  | or (some imm) => orRmImm fuel size operand imm hasLockPrefix
  | xor none => xorRmR fuel size operand hasLockPrefix
  | xor (some imm) => xorRmImm fuel size operand imm hasLockPrefix
  | inc => incRm fuel size operand hasLockPrefix
  | dec => decRm fuel size operand hasLockPrefix
  | neg => negRm fuel size operand hasLockPrefix
  | not => notRm fuel size operand hasLockPrefix
  | xadd => xaddRmReg fuel size operand hasLockPrefix
  | xchg => xchgRmReg fuel size operand
  | cmpxchg => cmpxchgRmReg fuel size operand hasLockPrefix

end Cpueaxh
