/-
# POP

The instruction of `instructions/pop.hpp`.  All its forms look at the stack first, then
write their operand, and step the stack pointer last, so that a fault leaves it alone.  The
address of an operand in memory is computed when the stack pointer has its new value, by
`pop_compute_memory_destination_after_stack_advance`; what the decoder has computed before
is not used.
-/
import Cpueaxh.EffectiveAddress
import Cpueaxh.SegmentLoad

namespace Cpueaxh

/-! ## Decoding -/

/-- The bits that `cpu_try_apply_rex_prefix` takes from a REX prefix. -/
def PrefixBits.withRex (bits : PrefixBits) (b : U8) : PrefixBits :=
  { bits with
    rexPresent := true
    rexW := b.getLsbD 3
    rexR := b.getLsbD 2
    rexX := b.getLsbD 1
    rexB := b.getLsbD 0 }

/-- The prefixes that `POP` skips: segment overrides and `REP`. -/
def skippedPrefixes : List U8 := [0x26, 0x2E, 0x36, 0x3E, 0x64, 0x65, 0xF2, 0xF3]

/-- The prefix loop of `decode_pop_instruction`: the prefix bits, and the bytes from the
opcode on unless there is a `LOCK`. -/
def scanPopPrefixes (allowsRex : Bool) (bits : PrefixBits) :
    List U8 → PrefixBits × Option (List U8)
  | [] => (bits, some [])
  | b :: code =>
    if b = 0x66 then scanPopPrefixes allowsRex { bits with operandSizeOverride := true } code
    else if b = 0x67 then scanPopPrefixes allowsRex { bits with addressSizeOverride := true } code
    else if allowsRex = true ∧ 0x40 ≤ b ∧ b ≤ 0x4F then
      scanPopPrefixes allowsRex (bits.withRex b) code
    else if b = 0xF0 then (bits, none)
    else if skippedPrefixes.contains b then scanPopPrefixes allowsRex bits code
    else (bits, some (b :: code))

/-- The operand size of `decode_pop_instruction`. -/
def CpuContext.popOperandSize (ctx : CpuContext) : ℕ :=
  if ctx.is64BitCode then if ctx.prefixBits.operandSizeOverride then 16 else 64
  else if ctx.prefixBits.rexW then 64
  else if ctx.prefixBits.operandSizeOverride then 16
  else 32

/-- The segment whose base an operand adds. -/
def CpuContext.operandSegment (ctx : CpuContext) (op : MemOperand) : SegmentRegisterIndex :=
  ctx.effectiveSegmentOverrideOrDefault (ctx.defaultSegmentForMemoryOperand op)

/-- `get_effective_address` as a part of an instruction. -/
def getEffectiveAddress (op : MemOperand) (instSize : ℕ) : CpuProgram U64 := do
  let ctx ← getContext
  let addr := ctx.getEffectiveOffset op instSize
  if modField op.modrm = 3 then return addr
  else
    let addr := addr + ctx.segmentBaseForAddressing (ctx.operandSegment op)
    let _ ← validateLinearAddress addr (ctx.operandSegment op)
    return addr

/-- `finalize_rip_relative_address`; its address is not used by `POP`. -/
def finalizeRipRelativeAddress (op : MemOperand) (instSize : ℕ) : CpuProgram Unit := do
  if op.finalized then
    let _ ← getEffectiveAddress op instSize
    return ()
  else return ()

/-! ## Execution -/

/-- `pop_peek_stack_value`: the value and the stack pointer behind it. -/
def popPeekStackValue (operandSize : ℕ) : CpuProgram (Option (U64 × U64)) := do
  match ← peekStackValues (operandBytes operandSize) 1 with
  | none => return none
  | some (values, finalSp) => return some (values.headD 0, finalSp)

/-- `pop_commit_stack_pointer`. -/
def popCommitStackPointer (finalSp : U64) : CpuProgram Unit :=
  modifyContext fun ctx => cpuSetStackPointerValue ctx ctx.stackAddressSize finalSp

/-- `pop_write_memory_value`. -/
def popWriteMemoryValue (address : U64) (operandSize : ℕ) (value : U64) : CpuProgram Bool := do
  match ← cpuResolveStackSlotWrite address (operandBytes operandSize) 0 with
  | none => return false
  | some ptrs =>
    cpuCommitStackSlotWrite address (operandBytes operandSize) value ptrs
    return true

/-- `pop_compute_memory_destination_after_stack_advance`. -/
def popComputeMemoryDestinationAfterStackAdvance (op : MemOperand) (finalSp : U64) :
    CpuProgram (Option U64) := do
  let ctx ← getContext
  let savedRsp := ctx.regs regRsp
  popCommitStackPointer finalSp
  -- the length of the instruction is not passed on here
  let address ← getEffectiveAddress op 0
  modifyContext fun ctx => { ctx with regs := Function.update ctx.regs regRsp savedRsp }
  if ← cpuHasException then return none
  else return some address

/-- `pop_rm16`, `pop_rm32` and `pop_rm64` for their sizes. -/
def popRm (operandSize : ℕ) (op : MemOperand) : CpuProgram Unit := do
  match ← popPeekStackValue operandSize with
  | none => return ()
  | some (value, finalSp) =>
    if modField op.modrm = 3 then
      popCommitStackPointer finalSp
      modifyContext fun ctx => setReg operandSize ctx
        (CpuContext.reg (CpuContext.extended ctx.prefixBits.rexB true (rmField op.modrm))) value
    else
      match ← popComputeMemoryDestinationAfterStackAdvance op finalSp with
      | none => return ()
      | some address =>
        if ← popWriteMemoryValue address operandSize value then popCommitStackPointer finalSp
        else return ()

/-- `pop_r16`, `pop_r32` and `pop_r64` for their sizes. -/
def popR (operandSize : ℕ) (reg : Fin 16) : CpuProgram Unit := do
  match ← popPeekStackValue operandSize with
  | none => return ()
  | some (value, finalSp) =>
    popCommitStackPointer finalSp
    modifyContext fun ctx => setReg operandSize ctx reg value

/-- `pop_sreg16`, `pop_sreg32` and `pop_sreg64` for their sizes. -/
def popSreg (operandSize : ℕ) (index : SegmentRegisterIndex) : CpuProgram Unit := do
  match ← popPeekStackValue operandSize with
  | none => return ()
  | some (value, finalSp) =>
    loadSegmentRegister (some index) (value.setWidth 16)
    if ← cpuHasException then return ()
    else popCommitStackPointer finalSp

/-- The end of `decode_pop_instruction` for the opcode `8F`, which ends at the offset. -/
def decodePopRm (offset : ℕ) (decoded : OperandBytes) : CpuProgram Unit := do
  if !decoded.complete then raiseGp 0
  if regField decoded.operand.modrm ≠ 0 then raiseUd
  finalizeRipRelativeAddress decoded.operand (offset + decoded.used)
  modifyContext fun ctx => { ctx with lastInstSize := offset + decoded.used }

/-- `execute_pop` for the opcode `8F`. -/
def executePopRm (offset : ℕ) (code : List U8) : CpuProgram Unit := do
  let ctx ← getContext
  let decoded := decodeModrm ctx.modeAddressSize code
  decodePopRm offset decoded
  if ← cpuHasException then return ()
  else popRm ctx.popOperandSize decoded.operand

/-- `execute_pop` for `POP ES`, `POP SS` and `POP DS`, which 64-bit code does not have. -/
def executePopSegment (offset : ℕ) (index : SegmentRegisterIndex) : CpuProgram Unit := do
  let ctx ← getContext
  if ctx.is64BitCode then raiseUd
  modifyContext fun ctx => { ctx with lastInstSize := offset }
  if ← cpuHasException then return ()
  else popSreg (if ctx.popOperandSize = 16 then 16 else 32) index

/-- `execute_pop` for the opcodes behind `0F`: `POP FS` and `POP GS`. -/
def executePopTwoByte (offset : ℕ) (opcode : U8) : CpuProgram Unit := do
  let ctx ← getContext
  if opcode ≠ 0xA1 ∧ opcode ≠ 0xA9 then raiseUd
  modifyContext fun ctx => { ctx with lastInstSize := offset }
  if ← cpuHasException then return ()
  else
    popSreg (if ctx.prefixBits.operandSizeOverride then 16 else if ctx.is64BitCode then 64 else 32)
      (if opcode = 0xA1 then .fs else .gs)

/-- `execute_pop`. -/
def executePop (code : List U8) : CpuProgram Unit := do
  let ctx ← getContext
  match scanPopPrefixes ctx.is64BitCode .clear code with
  | (bits, scanned) =>
    modifyContext fun ctx => { ctx with prefixBits := bits }
    match scanned with
    | none => raiseUd
    | some [] => raiseGp 0
    | some (opcode :: rest) =>
      let offset := code.length - rest.length
      if opcode = 0x8F then executePopRm offset rest
      else if 0x58 ≤ opcode ∧ opcode ≤ 0x5F then
        modifyContext fun ctx => { ctx with lastInstSize := offset }
        let ctx ← getContext
        if ctx.hasException then return ()
        else
          popR ctx.popOperandSize
            (CpuContext.reg (CpuContext.extended ctx.prefixBits.rexB true (rmField opcode)))
      else if opcode = 0x1F then executePopSegment offset .ds
      else if opcode = 0x07 then executePopSegment offset .es
      else if opcode = 0x17 then executePopSegment offset .ss
      else if opcode = 0x0F then
        match rest with
        | [] => raiseGp 0
        | opcode :: rest => executePopTwoByte (code.length - rest.length) opcode
      else
        raiseUd
        modifyContext fun ctx => { ctx with lastInstSize := offset }

end Cpueaxh
