/-
# String instructions

`MOVS`, `CMPS`, `STOS`, `LODS` and `SCAS` behind their decoders, and the repetition of
`instructions/rep.hpp` around them.  The five decoders find the operand size, the address
size and the segment of the source; these sizes are among those that the register and
memory functions have a case for.
-/
import Cpueaxh.Executor
import Cpueaxh.Operands

namespace Cpueaxh

/-! ## Decoded string instructions -/

/-- The pairs of opcodes, for bytes and for longer elements. -/
inductive StringOp where
  | movs | cmps | stos | lods | scas
  deriving DecidableEq, Repr

/-- The fields of a `DecodedInstruction` that a string instruction uses. -/
structure StringInst where
  op : StringOp
  operandSize : ℕ
  addressSize : ℕ
  sourceSegment : SegmentRegisterIndex
  operandSize_ok : operandSize = 8 ∨ operandSize = 16 ∨ operandSize = 32 ∨ operandSize = 64
  addressSize_ok : addressSize = 16 ∨ addressSize = 32 ∨ addressSize = 64

/-- The prefixes `F3` and `F2`. -/
inductive RepPrefix where
  | repe | repne
  deriving DecidableEq, Repr

/-- What the decoders of the string instructions leave in the prefix state, and the length. -/
structure StringPrefix where
  bits : PrefixBits
  size : ℕ
  size_pos : 0 < size

/-! ## Registers and flags -/

def regRax : Fin 16 := 0
def regRcx : Fin 16 := 1
def regRsi : Fin 16 := 6
def regRdi : Fin 16 := 7

def rflagsCf : U64 := 0x1
def rflagsPf : U64 := 0x4
def rflagsAf : U64 := 0x10
def rflagsZf : U64 := 0x40
def rflagsSf : U64 := 0x80
def rflagsDf : U64 := 0x400
def rflagsOf : U64 := 0x800

/-- `get_reg16`, `get_reg32` and `get_reg64` for their sizes. -/
def getReg (size : ℕ) (ctx : CpuContext) (reg : Fin 16) : U64 := truncateTo size (ctx.regs reg)

/-- The value of a register behind `set_reg16`, `set_reg32` and `set_reg64`. -/
def regMerge (size : ℕ) (old value : U64) : U64 :=
  if size = 64 then value
  else if size = 32 then value &&& 0xFFFFFFFF
  else (old &&& ~~~0xFFFF) ||| (value &&& 0xFFFF)

/-- `set_reg16`, `set_reg32` and `set_reg64` for their sizes. -/
def setReg (size : ℕ) (ctx : CpuContext) (reg : Fin 16) (value : U64) : CpuContext :=
  let merged := regMerge size (ctx.regs reg) value
  { ctx with regs := Function.update ctx.regs reg merged }

/-- `read_stos_accumulator` and `read_scas_accumulator`. -/
def readAccumulator (operandSize : ℕ) (ctx : CpuContext) : U64 :=
  if operandSize = 8 then ctx.regs regRax &&& 0xFF else getReg operandSize ctx regRax

/-- `write_lods_accumulator`. -/
def writeLodsAccumulator (operandSize : ℕ) (ctx : CpuContext) (value : U64) : CpuContext :=
  if operandSize = 8 then
    let merged := (ctx.regs regRax &&& ~~~0xFF) ||| (value &&& 0xFF)
    { ctx with regs := Function.update ctx.regs regRax merged }
  else setReg operandSize ctx regRax value

/-- `calc_parity`. -/
def calcParity (val : U8) : Bool :=
  let val := val ^^^ (val >>> 4)
  let val := val ^^^ (val >>> 2)
  let val := val ^^^ (val >>> 1)
  val &&& 1 == 0

/-- `set_flag`. -/
def setFlag (ctx : CpuContext) (flag : U64) (value : Bool) : CpuContext :=
  if ctx.hasException then ctx
  else { ctx with rflags := if value then ctx.rflags ||| flag else ctx.rflags &&& ~~~flag }

/-- `update_flags_sub8`, `update_flags_sub16`, `update_flags_sub32` and `update_flags_sub64`
for their widths. -/
def updateFlagsSub {w : ℕ} (ctx : CpuContext) (dst src result : BitVec w) : CpuContext :=
  let ctx := setFlag ctx rflagsCf (decide (dst < src))
  let ctx := setFlag ctx rflagsOf ((dst ^^^ src) &&& (dst ^^^ result) &&& BitVec.intMin w != 0)
  let ctx := setFlag ctx rflagsSf (result &&& BitVec.intMin w != 0)
  let ctx := setFlag ctx rflagsZf (result == 0)
  let ctx := setFlag ctx rflagsAf ((dst ^^^ src ^^^ result) &&& 0x10 != 0)
  setFlag ctx rflagsPf (calcParity (result.setWidth 8))

/-- The comparison of two values of some width. -/
def updateFlagsCompare (w : ℕ) (ctx : CpuContext) (lhs rhs : U64) : CpuContext :=
  updateFlagsSub ctx (lhs.setWidth w) (rhs.setWidth w) (lhs.setWidth w - rhs.setWidth w)

/-- `update_cmps_flags`. -/
def updateCmpsFlags (operandSize : ℕ) (ctx : CpuContext) (sourceValue destValue : U64) :
    CpuContext :=
  updateFlagsCompare operandSize ctx sourceValue destValue

/-- `update_scas_flags`. -/
def updateScasFlags (operandSize : ℕ) (ctx : CpuContext) (accumulator memoryValue : U64) :
    CpuContext :=
  updateFlagsCompare operandSize ctx accumulator memoryValue

/-! ## Addresses and elements -/

namespace CpuContext

/-- The segment register of an index. -/
def segment (ctx : CpuContext) : SegmentRegisterIndex → SegmentRegister
  | .es => ctx.es
  | .cs => ctx.cs
  | .ss => ctx.ss
  | .ds => ctx.ds
  | .fs => ctx.fs
  | .gs => ctx.gs

/-- `cpu_segment_base_for_addressing`. -/
def segmentBaseForAddressing (ctx : CpuContext) (index : SegmentRegisterIndex) : U64 :=
  if ctx.is64BitCode = true ∧ index ≠ .fs ∧ index ≠ .gs then 0
  else (ctx.segment index).descriptor.base

end CpuContext

/-- `cpu_validate_linear_address` as a part of an instruction. -/
def validateLinearAddress (address : U64) (segment : SegmentRegisterIndex) : CpuProgram Bool := do
  let ctx ← getContext
  if ctx.is64BitCode && !cpuIsCanonicalAddress address then
    cpuRaiseException (if segment = .ss then .ss else .gp) 0
    return false
  else return true

/-- `read_movs_value`, `read_cmps_value`, `read_lods_value` and `read_scas_value`. -/
def readStringValue (address : U64) (operandSize : ℕ) : CpuProgram U64 :=
  if operandSize = 8 then do
    let value ← readMemoryByte address
    return value.setWidth 64
  else readMemory (operandSize / 8) address

/-- `write_movs_value` and `write_stos_value`. -/
def writeStringValue (address : U64) (operandSize : ℕ) (value : U64) : CpuProgram Unit :=
  if operandSize = 8 then writeMemoryByte address (value.setWidth 8)
  else writeMemory (operandSize / 8) address value

/-- An index register behind an element: `step` bytes on in the direction of `DF`. -/
def stepIndex (ctx : CpuContext) (index step : U64) : U64 :=
  if ctx.rflags &&& rflagsDf != 0 then index - step else index + step

namespace StringInst

variable (inst : StringInst)

/-- The number of bytes of an element. -/
def step : U64 := BitVec.ofNat 64 (inst.operandSize / 8)

/-- The linear address of the source element. -/
def sourceAddress (ctx : CpuContext) : U64 :=
  ctx.segmentBaseForAddressing inst.sourceSegment + getReg inst.addressSize ctx regRsi

/-- The linear address of the destination element. -/
def destAddress (ctx : CpuContext) : U64 :=
  ctx.segmentBaseForAddressing .es + getReg inst.addressSize ctx regRdi

/-- `set_movs_index`, `set_cmps_index`, `set_stos_index`, `set_lods_index` and
`set_scas_index` behind an element, from the index before it. -/
def advance (ctx : CpuContext) (reg : Fin 16) (index : U64) : CpuContext :=
  setReg inst.addressSize ctx reg (stepIndex ctx index inst.step)

/-! ## The five instructions -/

/-- `execute_movs_with_decoded`. -/
def executeMovs : CpuProgram Unit := do
  let ctx ← getContext
  let sourceIndex := getReg inst.addressSize ctx regRsi
  let destIndex := getReg inst.addressSize ctx regRdi
  if !(← validateLinearAddress (inst.sourceAddress ctx) inst.sourceSegment) then return ()
  if !(← validateLinearAddress (inst.destAddress ctx) .es) then return ()
  let value ← readStringValue (inst.sourceAddress ctx) inst.operandSize
  if ← cpuHasException then return ()
  writeStringValue (inst.destAddress ctx) inst.operandSize value
  if ← cpuHasException then return ()
  modifyContext fun ctx => inst.advance (inst.advance ctx regRsi sourceIndex) regRdi destIndex

/-- `execute_cmps_with_decoded`. -/
def executeCmps : CpuProgram Unit := do
  let ctx ← getContext
  let sourceIndex := getReg inst.addressSize ctx regRsi
  let destIndex := getReg inst.addressSize ctx regRdi
  if !(← validateLinearAddress (inst.sourceAddress ctx) inst.sourceSegment) then return ()
  if !(← validateLinearAddress (inst.destAddress ctx) .es) then return ()
  let sourceValue ← readStringValue (inst.sourceAddress ctx) inst.operandSize
  if ← cpuHasException then return ()
  let destValue ← readStringValue (inst.destAddress ctx) inst.operandSize
  if ← cpuHasException then return ()
  modifyContext fun ctx => updateCmpsFlags inst.operandSize ctx sourceValue destValue
  modifyContext fun ctx => inst.advance (inst.advance ctx regRsi sourceIndex) regRdi destIndex

/-- `execute_stos_with_decoded`. -/
def executeStos : CpuProgram Unit := do
  let ctx ← getContext
  let destIndex := getReg inst.addressSize ctx regRdi
  writeStringValue (inst.destAddress ctx) inst.operandSize (readAccumulator inst.operandSize ctx)
  if ← cpuHasException then return ()
  modifyContext fun ctx => inst.advance ctx regRdi destIndex

/-- `execute_lods_with_decoded`. -/
def executeLods : CpuProgram Unit := do
  let ctx ← getContext
  let sourceIndex := getReg inst.addressSize ctx regRsi
  if !(← validateLinearAddress (inst.sourceAddress ctx) inst.sourceSegment) then return ()
  let value ← readStringValue (inst.sourceAddress ctx) inst.operandSize
  if ← cpuHasException then return ()
  modifyContext fun ctx => writeLodsAccumulator inst.operandSize ctx value
  modifyContext fun ctx => inst.advance ctx regRsi sourceIndex

/-- `execute_scas_with_decoded`. -/
def executeScas : CpuProgram Unit := do
  let ctx ← getContext
  let destIndex := getReg inst.addressSize ctx regRdi
  let accumulator := readAccumulator inst.operandSize ctx
  let memoryValue ← readStringValue (inst.destAddress ctx) inst.operandSize
  if ← cpuHasException then return ()
  modifyContext fun ctx => updateScasFlags inst.operandSize ctx accumulator memoryValue
  modifyContext fun ctx => inst.advance ctx regRdi destIndex

/-- `execute_rep_iteration_with_decoded`. -/
def executeIteration : CpuProgram Unit :=
  match inst.op with
  | .movs => inst.executeMovs
  | .cmps => inst.executeCmps
  | .stos => inst.executeStos
  | .lods => inst.executeLods
  | .scas => inst.executeScas

/-! ## The repetition -/

/-- `get_rep_count`. -/
def getRepCount (ctx : CpuContext) : U64 := getReg inst.addressSize ctx regRcx

/-- `set_rep_count`. -/
def setRepCount (ctx : CpuContext) (count : U64) : CpuContext :=
  setReg inst.addressSize ctx regRcx count

/-- `conditional_scan`: the instructions that `ZF` ends. -/
def conditionalScan : Bool := inst.op == .cmps || inst.op == .scas

/-- The repetition ends behind an iteration before its count is used up. -/
def stops (rep : RepPrefix) (ctx : CpuContext) : Bool :=
  inst.conditionalScan &&
    (let zf := ctx.rflags &&& rflagsZf != 0
     match rep with
     | .repe => !zf
     | .repne => zf)

/-- The loop of `execute_rep_fast`, for its local `count`. -/
def repLoop (rep : RepPrefix) : ℕ → CpuProgram Unit
  | 0 => return ()
  | count + 1 => do
    inst.executeIteration
    if ← cpuHasException then return ()
    modifyContext fun ctx => inst.setRepCount ctx (BitVec.ofNat 64 count)
    let ctx ← getContext
    if count = 0 ∨ inst.stops rep ctx = true then return ()
    repLoop rep count

/-- `decoded_inst_apply_prefix` and `ctx->last_inst_size = dec->length`. -/
def applyPrefix (pre : StringPrefix) : CpuProgram Unit :=
  modifyContext fun ctx => { ctx with prefixBits := pre.bits, lastInstSize := pre.size }

/-- `execute_movs_fast`, `execute_cmps_fast`, `execute_stos_fast`, `execute_lods_fast` and
`execute_scas_fast`. -/
def executeFast (pre : StringPrefix) : CpuProgram Unit := do
  applyPrefix pre
  inst.executeIteration

/-- `execute_rep_fast`. -/
def executeRepFast (rep : RepPrefix) (pre : StringPrefix) : CpuProgram Unit := do
  applyPrefix pre
  let ctx ← getContext
  inst.repLoop rep (inst.getRepCount ctx).toNat

/-- A decoded instruction with a fast handler.  A string instruction is no branch and may
fault; the repeated ones make partial progress. -/
def decodedWith (dec : DecodedInst) (pre : StringPrefix) (code : CpuProgram Unit)
    (partialProgress : Bool) : DecodedInst :=
  { dec with
    fastHandler := some (handlerOf code)
    inlineKind := .none
    length := pre.size
    flags := { dec.flags with
      branch := false
      inlineRet := false
      ud := false
      bp := false
      noFault := false
      partialProgress := partialProgress
      db := false } }

/-- The instruction without a repeat prefix. -/
def decoded (dec : DecodedInst) (pre : StringPrefix) : DecodedInst :=
  decodedWith dec pre (inst.executeFast pre) false

/-- The instruction with a repeat prefix. -/
def decodedRep (dec : DecodedInst) (rep : RepPrefix) (pre : StringPrefix) : DecodedInst :=
  decodedWith dec pre (inst.executeRepFast rep pre) true

end StringInst

end Cpueaxh
