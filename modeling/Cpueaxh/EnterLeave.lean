/-
# ENTER and LEAVE

The instructions of `instructions/enter.hpp` and `instructions/leave.hpp`.  `ENTER` reads the
frame pointers of all outer frames first, resolves the slots of all its pushes next, and stores
them when nothing can fail any more.

The helpers of `enter.hpp` that push one value and read one frame pointer are not called by it.
They are the parts of the definition level by level, which is `enterSequential` here.
-/
import Cpueaxh.InlineBranches

namespace Cpueaxh

/-! ## Decoding -/

/-- The operand size of `ENTER` and `LEAVE`. -/
def CpuContext.frameOperandSize (ctx : CpuContext) : ℕ :=
  if ctx.is64BitCode then if ctx.prefixBits.operandSizeOverride then 16 else 64
  else if ctx.prefixBits.operandSizeOverride then 16 else 32

/-- The stack address size of `ENTER` and `LEAVE`, which the address size prefix changes. -/
def CpuContext.frameStackAddrSize (ctx : CpuContext) : ℕ :=
  if ctx.is64BitCode then if ctx.prefixBits.addressSizeOverride then 32 else 64
  else
    let defaultSize := if ctx.ss.descriptor.db then 32 else 16
    if ctx.prefixBits.addressSizeOverride then if defaultSize = 32 then 16 else 32
    else defaultSize

/-- `decode_enter_operand_size`. -/
def decodeEnterOperandSize (ctx : CpuContext) : ℕ := ctx.frameOperandSize

/-- `decode_enter_stack_addr_size`. -/
def decodeEnterStackAddrSize (ctx : CpuContext) : ℕ := ctx.frameStackAddrSize

/-- `decode_leave_operand_size`. -/
def decodeLeaveOperandSize (ctx : CpuContext) : ℕ := ctx.frameOperandSize

/-- `decode_leave_stack_addr_size`. -/
def decodeLeaveStackAddrSize (ctx : CpuContext) : ℕ := ctx.frameStackAddrSize

/-- What the execution of `ENTER` and `LEAVE` reads of the decoded instruction. -/
structure FrameInst where
  operandSize : ℕ
  addressSize : ℕ
  immediate : U64
  deriving DecidableEq, Repr

namespace FrameInst

/-- `value_size`. -/
def valueSize (inst : FrameInst) : ℕ :=
  if inst.operandSize = 16 then 2 else if inst.operandSize = 32 then 4 else 8

/-- `alloc_size`. -/
def allocSize (inst : FrameInst) : U16 := (inst.immediate &&& 0xFFFF).setWidth 16

/-- `nesting_level`. -/
def nestingLevel (inst : FrameInst) : ℕ := ((inst.immediate >>> 16) &&& 0x1F).toNat

end FrameInst

/-- `decode_enter_instruction`. -/
def decodeEnterInstruction (code : List U8) : CpuProgram FrameInst := do
  let ctx ← getContext
  match scanRetPrefixes ctx.is64BitCode .clear false code with
  | (bits, hasLock, rest) =>
    modifyContext fun ctx => { ctx with prefixBits := bits }
    match rest with
    | [] =>
      raiseGp 0
      return ⟨0, 0, 0⟩
    | opcode :: operand =>
      if opcode ≠ 0xC8 then raiseUd
      if hasLock then raiseUd
      match operand with
      | low :: high :: level :: rest =>
        let allocSize : U16 := low.setWidth 16 ||| high.setWidth 16 <<< 8
        let ctx ← getContext
        modifyContext fun ctx => { ctx with lastInstSize := code.length - rest.length }
        return ⟨decodeEnterOperandSize ctx, decodeEnterStackAddrSize ctx,
          allocSize.setWidth 64 ||| level.setWidth 64 <<< 16⟩
      | _ =>
        raiseGp 0
        return ⟨0, 0, 0⟩

/-- `decode_leave_instruction`. -/
def decodeLeaveInstruction (code : List U8) : CpuProgram FrameInst := do
  let ctx ← getContext
  match scanRetPrefixes ctx.is64BitCode .clear false code with
  | (bits, hasLock, rest) =>
    modifyContext fun ctx => { ctx with prefixBits := bits }
    match rest with
    | [] =>
      raiseGp 0
      return ⟨0, 0, 0⟩
    | opcode :: rest =>
      if opcode ≠ 0xC9 then raiseUd
      if hasLock then raiseUd
      let ctx ← getContext
      modifyContext fun ctx => { ctx with lastInstSize := code.length - rest.length }
      return ⟨decodeLeaveOperandSize ctx, decodeLeaveStackAddrSize ctx, 0⟩

/-! ## ENTER -/

/-- `enter_sub_stack_pointer_value`. -/
def enterSubStackPointerValue (stackAddrSize : ℕ) (value delta : U64) : U64 :=
  truncateTo stackAddrSize (value - delta)

/-- `enter_sub_frame_pointer_value`. -/
def enterSubFramePointerValue (rbp : U64) (operandSize : ℕ) : U64 :=
  if operandSize = 16 then (rbp &&& ~~~0xFFFF) ||| ((rbp - 2) &&& 0xFFFF)
  else if operandSize = 32 then (rbp &&& ~~~0xFFFFFFFF) ||| ((rbp - 4) &&& 0xFFFFFFFF)
  else rbp - 8

/-- `enter_read_frame_value`. -/
def enterReadFrameValue (inst : FrameInst) (rbp : U64) : CpuProgram U64 := do
  let address := truncateTo inst.addressSize rbp
  if inst.operandSize = 16 then readMemoryWord address
  else if inst.operandSize = 32 then readMemoryDword address
  else if inst.addressSize = 16 then
    raiseGp 0
    return 0
  else readMemoryQword address

/-- The loop of `execute_enter` over the outer frames, from the working `RBP` and the current
stack pointer on: the addresses and the values of its pushes, and the stack pointer behind
them. -/
def enterOuterFrames (inst : FrameInst) :
    ℕ → U64 → U64 → CpuProgram (Option (List (U64 × U64) × U64))
  | 0, _, currentSp => return some ([], currentSp)
  | left + 1, workingRbp, currentSp => do
    let workingRbp := enterSubFramePointerValue workingRbp inst.operandSize
    let value ← enterReadFrameValue inst workingRbp
    if ← cpuHasException then return none
    let currentSp := enterSubStackPointerValue inst.addressSize currentSp
      (BitVec.ofNat 64 inst.valueSize)
    match ← enterOuterFrames inst left workingRbp currentSp with
    | none => return none
    | some (pushes, lastSp) => return some ((currentSp, value) :: pushes, lastSp)

/-- The pushes of `execute_enter` behind that of `RBP`, and the stack pointer behind them. -/
def enterDisplay (inst : FrameInst) (rbp frameTemp : U64) :
    CpuProgram (Option (List (U64 × U64) × U64)) := do
  if inst.nestingLevel = 0 then return some ([], frameTemp)
  else
    match ← enterOuterFrames inst (inst.nestingLevel - 1) rbp frameTemp with
    | none => return none
    | some (pushes, currentSp) =>
      let currentSp := enterSubStackPointerValue inst.addressSize currentSp
        (BitVec.ofNat 64 inst.valueSize)
      return some (pushes ++ [(currentSp, frameTemp)], currentSp)

/-- The loop of `execute_enter` that resolves the slots of the pushes. -/
def enterResolve (size : ℕ) : List (U64 × U64) → CpuProgram (Option (List (List HostPtr)))
  | [] => return some []
  | (address, _) :: pushes => do
    match ← cpuResolveStackSlotWrite address size 0 with
    | none => return none
    | some ptrs =>
      match ← enterResolve size pushes with
      | none => return none
      | some rest => return some (ptrs :: rest)

/-- The loop of `execute_enter` that commits the pushes. -/
def enterCommit (size : ℕ) : List (U64 × U64) → List (List HostPtr) → CpuProgram Unit
  | (address, value) :: pushes, ptrs :: rest => do
    cpuCommitStackSlotWrite address size value ptrs
    enterCommit size pushes rest
  | _, _ => return ()

/-- The registers behind `ENTER`. -/
def enterFinish (inst : FrameInst) (frameTemp currentSp : U64) : CpuProgram Unit := do
  modifyContext fun ctx => setReg inst.operandSize ctx regRbp frameTemp
  let currentSp := enterSubStackPointerValue inst.addressSize currentSp (inst.allocSize.setWidth 64)
  modifyContext fun ctx => cpuSetStackPointerValue ctx inst.addressSize currentSp

/-- `execute_enter_with_decoded`. -/
def executeEnterWithDecoded (inst : FrameInst) : CpuProgram Unit := do
  if inst.addressSize = 16 ∧ inst.valueSize = 8 then raiseGp 0
  else
    let ctx ← getContext
    let frameTemp := enterSubStackPointerValue inst.addressSize
      (truncateTo inst.addressSize (ctx.regs regRsp)) (BitVec.ofNat 64 inst.valueSize)
    match ← enterDisplay inst (ctx.regs regRbp) frameTemp with
    | none => return ()
    | some (display, currentSp) =>
      let pushes := (frameTemp, getReg inst.operandSize ctx regRbp) :: display
      match ← enterResolve inst.valueSize pushes with
      | none => return ()
      | some ptrs =>
        enterCommit inst.valueSize pushes ptrs
        enterFinish inst frameTemp currentSp

/-- `execute_enter`. -/
def executeEnter (code : List U8) : CpuProgram Unit := do
  let inst ← decodeEnterInstruction code
  if ← cpuHasException then return ()
  executeEnterWithDecoded inst

/-! ## LEAVE -/

/-- The value that `execute_leave` reads, of the operand size. -/
def leaveReadValue (inst : FrameInst) (frameSp : U64) : CpuProgram U64 := do
  if inst.operandSize = 16 then readMemoryWord frameSp
  else if inst.operandSize = 32 then readMemoryDword frameSp
  else if inst.addressSize = 16 then
    raiseGp 0
    return 0
  else readMemoryQword frameSp

/-- `execute_leave_with_decoded`. -/
def executeLeaveWithDecoded (inst : FrameInst) : CpuProgram Unit := do
  let ctx ← getContext
  let frameSp := truncateTo inst.addressSize (ctx.regs regRbp)
  let value ← leaveReadValue inst frameSp
  if ← cpuHasException then return ()
  let finalSp := truncateTo inst.addressSize (frameSp + BitVec.ofNat 64 inst.valueSize)
  modifyContext fun ctx => cpuSetStackPointerValue ctx inst.addressSize finalSp
  modifyContext fun ctx => setReg inst.operandSize ctx regRbp value

/-- `execute_leave`. -/
def executeLeave (code : List U8) : CpuProgram Unit := do
  let inst ← decodeLeaveInstruction code
  if ← cpuHasException then return ()
  executeLeaveWithDecoded inst

/-! ## ENTER level by level -/

/-- `enter_push16`, `enter_push32` and `enter_push64` for their sizes. -/
def enterPush (inst : FrameInst) (value : U64) : CpuProgram Unit := do
  if inst.addressSize = 16 ∧ inst.valueSize = 8 then raiseGp 0
  else
    let ctx ← getContext
    let sp := enterSubStackPointerValue inst.addressSize
      (truncateTo inst.addressSize (ctx.regs regRsp)) (BitVec.ofNat 64 inst.valueSize)
    writeMemory inst.valueSize sp value
    if ← cpuHasException then return ()
    modifyContext fun ctx => cpuSetStackPointerValue ctx inst.addressSize sp

/-- One outer frame pointer: `RBP` steps down, and what it points to is read and pushed. -/
def enterCopyFrame (inst : FrameInst) : CpuProgram Unit := do
  modifyContext fun ctx =>
    let rbp := enterSubFramePointerValue (ctx.regs regRbp) inst.operandSize
    { ctx with regs := Function.update ctx.regs regRbp rbp }
  let ctx ← getContext
  let value ← enterReadFrameValue inst (ctx.regs regRbp)
  if ← cpuHasException then return ()
  enterPush inst value

/-- The outer frame pointers, one level at a time. -/
def enterCopyFrames (inst : FrameInst) : ℕ → CpuProgram Unit
  | 0 => return ()
  | left + 1 => do
    enterCopyFrame inst
    if ← cpuHasException then return ()
    enterCopyFrames inst left

/-- The outer frame pointers and the frame pointer, unless the level is 0. -/
def enterSequentialDisplay (inst : FrameInst) (frameTemp : U64) : CpuProgram Unit := do
  if inst.nestingLevel = 0 then return ()
  else
    enterCopyFrames inst (inst.nestingLevel - 1)
    if ← cpuHasException then return ()
    enterPush inst frameTemp

/-- **ENTER level by level**: a push of `RBP`, a read and a push for each outer frame pointer, a
push of the frame pointer, and the subtraction of the size. -/
def enterSequential (inst : FrameInst) : CpuProgram Unit := do
  let ctx ← getContext
  enterPush inst (getReg inst.operandSize ctx regRbp)
  if ← cpuHasException then return ()
  let ctx ← getContext
  let frameTemp := truncateTo inst.addressSize (ctx.regs regRsp)
  enterSequentialDisplay inst frameTemp
  if ← cpuHasException then return ()
  let ctx ← getContext
  enterFinish inst frameTemp (truncateTo inst.addressSize (ctx.regs regRsp))

end Cpueaxh
