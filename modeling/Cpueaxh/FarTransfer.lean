/-
# Far transfers

The five functions of the instruction set that load the code segment: far jumps, far
calls through memory and with a pointer, far returns and interrupt returns.  Each one
checks the new selector, writes `cs` and then marks the cached mode key as stale.

Everything before the write is an ordinary program of the CPU; the two operations that
only far transfers have are the write of `cs` and the invalidation of the key.
-/
import Cpueaxh.GuestMemory

namespace Cpueaxh

/-! ## Descriptors -/

/-- `is_null_selector`. -/
def isNullSelector (selector : U16) : Bool := selector &&& 0xFFFC == 0

/-- `is_code_segment`. -/
def isCodeSegment (type : U8) : Bool := type &&& 0x08 != 0

/-- `is_conforming_code_segment`. -/
def isConformingCodeSegment (type : U8) : Bool := isCodeSegment type && type &&& 0x04 != 0

/-- The descriptor in the two words of a table entry. -/
def decodeDescriptor (low high : U32) : SegmentDescriptor :=
  let granularity := (high >>> 23) &&& 1 == 1
  let limit := (low &&& 0xFFFF) ||| (high &&& 0x000F0000)
  { base := ((low >>> 16) ||| ((high &&& 0xFF) <<< 16) ||| ((high >>> 24) <<< 24)).setWidth 64
    limit := if granularity then (limit <<< 12) ||| 0xFFF else limit
    type := ((high >>> 8) &&& 0x0F).setWidth 8
    dpl := ((high >>> 13) &&& 0x03).setWidth 8
    present := (high >>> 15) &&& 1 == 1
    granularity := granularity
    db := (high >>> 22) &&& 1 == 1
    longMode := (high >>> 21) &&& 1 == 1 }

/-- The error code of a fault on a selector. -/
def selectorError (selector : U16) : U32 := (selector &&& 0xFFFC).setWidth 32

/-- `load_descriptor_from_table`. -/
def loadDescriptorFromTable (selector : U16) : CpuProgram SegmentDescriptor := do
  let ctx ← getContext
  let useLdt := (selector >>> 2) &&& 1 == 1
  let tableBase := if useLdt then ctx.ldtrBase else ctx.gdtrBase
  let tableLimit := if useLdt then ctx.ldtrLimit else ctx.gdtrLimit
  let descOffset : U64 := (selector >>> 3).setWidth 64 * 8
  if tableLimit.setWidth 64 < descOffset + 7 then
    raiseGp (selectorError selector)
    return .zero
  let descAddr := tableBase + descOffset
  let low ← readMemoryDword descAddr
  let high ← readMemoryDword (descAddr + 4)
  return decodeDescriptor (low.setWidth 32) (high.setWidth 32)

/-! ## Checks of a selector -/

/-- The requested privilege level of a selector. -/
def selectorRpl (selector : U16) : U8 := (selector &&& 0x03).setWidth 8

/-- Load the descriptor of a code segment.  `checkModes` is the check that the segment
is not both a 64-bit and a 32-bit one, which `call_far_ptr` does not make. -/
def loadCodeDescriptor (selector : U16) (checkModes : Bool) :
    CpuProgram (Option SegmentDescriptor) := do
  if isNullSelector selector then
    raiseGp 0
    return none
  let desc ← loadDescriptorFromTable selector
  let ctx ← getContext
  if ctx.hasException then return none
  if !isCodeSegment desc.type then
    raiseGp (selectorError selector)
    return none
  if checkModes && ctx.longModeActive && desc.longMode && desc.db then
    raiseGp (selectorError selector)
    return none
  return some desc

/-- The privilege checks of a far jump and a far call. -/
def validateFarSelector (selector : U16) (checkModes : Bool) :
    CpuProgram (Option SegmentDescriptor) := do
  match ← loadCodeDescriptor selector checkModes with
  | none => return none
  | some desc =>
    let ctx ← getContext
    let allowed :=
      if isConformingCodeSegment desc.type then decide (desc.dpl ≤ ctx.cpl)
      else desc.dpl == ctx.cpl && decide (selectorRpl selector ≤ ctx.cpl)
    if !allowed then
      raiseGp (selectorError selector)
      return none
    if !desc.present then
      raiseNp (selectorError selector)
      return none
    return some desc

/-- `validate_ret_far_selector`. -/
def validateRetFarSelector (selector : U16) : CpuProgram (Option SegmentDescriptor) := do
  match ← loadCodeDescriptor selector true with
  | none => return none
  | some desc =>
    let ctx ← getContext
    let allowed :=
      if isConformingCodeSegment desc.type then decide (desc.dpl ≤ ctx.cpl)
      else desc.dpl == ctx.cpl
    if selectorRpl selector != ctx.cpl || !allowed then
      raiseGp (selectorError selector)
      return none
    if !desc.present then
      raiseNp (selectorError selector)
      return none
    return some desc

/-- `cpu_validate_code_offset`. -/
def cpuValidateCodeOffset (value : U64) (operandSize : ℕ) : CpuProgram Bool := do
  let ctx ← getContext
  if ctx.is64BitCode && !cpuIsCanonicalAddress (cpuMaskCodeOffset value operandSize) then
    raiseGp 0
    return false
  return true

/-! ## Programs that write `cs` -/

/-- An operation of a far transfer. -/
inductive FarOp where
  | cpu (o : CpuOp)
  | writeCs (selector : U16) (descriptor : SegmentDescriptor)
  | invalidateModeKey

/-- What an operation answers. -/
abbrev FarOp.Reply : FarOp → Type
  | .cpu o => o.Reply
  | .writeCs _ _ => Unit
  | .invalidateModeKey => Unit

/-- The effect of an operation. -/
def farOp : Program.Interpreter Cpu FarOp FarOp.Reply
  | .cpu o, cpu => cpuOp o cpu
  | .writeCs selector descriptor, cpu =>
    ((), { cpu with context := { cpu.context with
      cs := { selector := selector, descriptor := descriptor } } })
  | .invalidateModeKey, cpu =>
    ((), { cpu with context := { cpu.context with cachedModeKeyValid := false } })

/-- A program over these operations. -/
abbrev FarProgram := Program FarOp FarOp.Reply

/-- An ordinary program as part of a far transfer. -/
def ordinary {α : Type} (p : CpuProgram α) : FarProgram α := p.lift FarOp.cpu fun _ r => r

/-- `ctx->cs.selector = (new_selector & 0xFFFC) | ctx->cpl` and
`ctx->cs.descriptor = new_desc`. -/
def loadCs (selector : U16) (desc : SegmentDescriptor) : FarProgram Unit := do
  let ctx ← ordinary getContext
  Program.perform (FarOp.writeCs ((selector &&& 0xFFFC) ||| ctx.cpl.setWidth 16) desc)

/-- `ctx->cached_mode_key_valid = 0`. -/
def invalidateModeKey : FarProgram Unit := Program.perform FarOp.invalidateModeKey

/-- Change the rest of the context. -/
def modify (f : CpuContext → CpuContext) : FarProgram Unit := ordinary (modifyContext f)

/-! ## The five functions -/

/-- The checks of `jmp_far`: the new descriptor and the new instruction pointer. -/
def jmpFarTarget (selector : U16) (offset : U64) (operandSize : ℕ) :
    CpuProgram (Option (SegmentDescriptor × U64)) := do
  match ← validateFarSelector selector true with
  | none => return none
  | some desc =>
    let target := cpuMaskCodeOffset offset operandSize
    if ← cpuValidateCodeOffset target (if desc.longMode then 64 else operandSize) then
      return some (desc, target)
    else return none

/-- `jmp_far`. -/
def jmpFar (selector : U16) (offset : U64) (operandSize : ℕ) : FarProgram Unit := do
  match ← ordinary (jmpFarTarget selector offset operandSize) with
  | none => return ()
  | some (desc, target) =>
    loadCs selector desc
    invalidateModeKey
    modify fun ctx => { ctx with rip := target }

/-- The pushes of a far call: the old `cs` and the return address. -/
def pushReturn (size : ℕ) (returnRip : U64) : CpuProgram Unit := do
  let ctx ← getContext
  pushTwoStackValues (ctx.cs.selector.setWidth 64) (truncateTo (size * 8) returnRip) size

/-- `call_far_mem` up to the load of `cs`: the selector, the new descriptor and the new
instruction pointer. -/
def callFarMemTarget (memAddr : U64) (operandSize : ℕ) (returnRip : U64) :
    CpuProgram (Option (U16 × SegmentDescriptor × U64)) := do
  let offsetSize := if operandSize = 64 then 8 else if operandSize = 32 then 4 else 2
  let offset ← readMemory offsetSize memAddr
  let selector ← readMemoryWord (memAddr + BitVec.ofNat 64 offsetSize)
  let selector : U16 := selector.setWidth 16
  if ← cpuHasException then return none
  match ← validateFarSelector selector true with
  | none => return none
  | some desc =>
    let target :=
      if desc.longMode then offset
      else if operandSize = 16 then offset &&& 0xFFFF else offset &&& 0xFFFFFFFF
    if ← cpuValidateCodeOffset target (if desc.longMode then 64 else operandSize) then
      let ctx ← getContext
      pushReturn (if ctx.is64BitCode then 8 else if operandSize = 32 then 4 else 2) returnRip
      if ← cpuHasException then return none
      return some (selector, desc, target)
    else return none

/-- `call_far_mem`. -/
def callFarMem (memAddr : U64) (operandSize : ℕ) (returnRip : U64) : FarProgram Unit := do
  match ← ordinary (callFarMemTarget memAddr operandSize returnRip) with
  | none => return ()
  | some (selector, desc, target) =>
    loadCs selector desc
    invalidateModeKey
    modify fun ctx => { ctx with rip := target }

/-- `call_far_ptr` up to the load of `cs`. -/
def callFarPtrTarget (selector : U16) (offset : U32) (operandSize : ℕ) (returnRip : U64) :
    CpuProgram (Option (SegmentDescriptor × U64)) := do
  match ← validateFarSelector selector false with
  | none => return none
  | some desc =>
    let target := if operandSize = 16 then offset.setWidth 64 &&& 0xFFFF else offset.setWidth 64
    if ← cpuValidateCodeOffset target operandSize then
      pushReturn (if operandSize = 32 then 4 else 2) returnRip
      if ← cpuHasException then return none
      return some (desc, target)
    else return none

/-- `call_far_ptr`. -/
def callFarPtr (selector : U16) (offset : U32) (operandSize : ℕ) (returnRip : U64) :
    FarProgram Unit := do
  match ← ordinary (callFarPtrTarget selector offset operandSize returnRip) with
  | none => return ()
  | some (desc, target) =>
    loadCs selector desc
    invalidateModeKey
    modify fun ctx => { ctx with rip := target }

/-- The number of bytes of an operand. -/
def operandBytes (operandSize : ℕ) : ℕ :=
  if operandSize = 64 then 8 else if operandSize = 32 then 4 else 2

/-- The values that a far return finds on the stack. -/
structure ReturnFrame where
  values : List U64
  stackAfterPops : U64
  selector : U16
  descriptor : SegmentDescriptor

/-- The checks of a far return: pop `count` values and validate the second of them as
the new selector, the first as the new instruction pointer. -/
def returnFrame (operandSize count : ℕ) : CpuProgram (Option ReturnFrame) := do
  match ← peekStackValues (operandBytes operandSize) count with
  | none => return none
  | some (values, stackAfterPops) =>
    let selector : U16 := (values.getD 1 0).setWidth 16
    match ← validateRetFarSelector selector with
    | none => return none
    | some desc =>
      if ← cpuValidateCodeOffset (values.getD 0 0) (if desc.longMode then 64 else operandSize) then
        return some { values := values, stackAfterPops := stackAfterPops, selector := selector,
                      descriptor := desc }
      else return none

/-- `execute_ret` behind its decoder. -/
def executeRet (operandSize addressSize : ℕ) (immediate : U16) : FarProgram Unit := do
  match ← ordinary (returnFrame operandSize 2) with
  | none => return ()
  | some frame =>
    modify fun ctx =>
      let ctx := cpuSetStackPointerValue ctx addressSize frame.stackAfterPops
      cpuSetStackPointerValue ctx ctx.stackAddressSize
        (ctx.regs regRsp + immediate.setWidth 64)
    loadCs frame.selector frame.descriptor
    invalidateModeKey
    modify fun ctx => { ctx with rip := cpuMaskCodeOffset (frame.values.getD 0 0) operandSize }

/-- `execute_iret` behind its decoder. -/
def executeIret (operandSize addressSize : ℕ) : FarProgram Unit := do
  match ← ordinary (returnFrame operandSize (if operandSize = 64 then 5 else 3)) with
  | none => return ()
  | some frame =>
    let targetSize := if frame.descriptor.longMode then 64 else operandSize
    loadCs frame.selector frame.descriptor
    modify fun ctx => { ctx with rflags := frame.values.getD 2 0 }
    invalidateModeKey
    if targetSize = 64 then
      modify fun ctx => { ctx with
        rip := frame.values.getD 0 0
        regs := Function.update ctx.regs regRsp (frame.values.getD 3 0)
        ss := { ctx.ss with selector := (frame.values.getD 4 0).setWidth 16 } }
    else
      modify fun ctx =>
        { cpuSetStackPointerValue ctx addressSize frame.stackAfterPops with
          rip := cpuMaskCodeOffset (frame.values.getD 0 0) targetSize }

/-- A call of one of the five functions. -/
inductive FarTransfer where
  | jmpFar (selector : U16) (offset : U64) (operandSize : ℕ)
  | callFarMem (memAddr : U64) (operandSize : ℕ) (returnRip : U64)
  | callFarPtr (selector : U16) (offset : U32) (operandSize : ℕ) (returnRip : U64)
  | ret (operandSize addressSize : ℕ) (immediate : U16)
  | iret (operandSize addressSize : ℕ)

/-- The code of a far transfer. -/
def FarTransfer.program : FarTransfer → FarProgram Unit
  | .jmpFar selector offset operandSize => Cpueaxh.jmpFar selector offset operandSize
  | .callFarMem memAddr operandSize returnRip =>
    Cpueaxh.callFarMem memAddr operandSize returnRip
  | .callFarPtr selector offset operandSize returnRip =>
    Cpueaxh.callFarPtr selector offset operandSize returnRip
  | .ret operandSize addressSize immediate => executeRet operandSize addressSize immediate
  | .iret operandSize addressSize => executeIret operandSize addressSize

/-- The CPU after a far transfer. -/
def farTransfer (t : FarTransfer) (cpu : Cpu) : Cpu := (t.program.run farOp cpu).2

end Cpueaxh
