/-
# Control flow

The instructions that write the instruction pointer: the advance of `rip` behind every
other instruction, near jumps, calls and returns, and the far transfers behind their
decoders.  A machine runs them one after the other, each one as a decoded instruction
under the executor, with its rollback.

A near branch masks its target by the operand size that its decoder has found.  What the
other instructions compute is left open: a part of the code is any program that keeps
the instruction pointer.
-/
import Cpueaxh.IretFrame

namespace Cpueaxh

/-! ## Operand sizes -/

/-- How a near branch finds its target. -/
inductive BranchForm where
  | relative | indirect | conditional
  deriving DecidableEq, Repr

/-- The operand size of a near branch: that of `jmp`, `call` and `ret`, which the forms with
a register or memory operand fix in 64-bit code, and that of `execute_jcc`. -/
def BranchForm.operandSize (form : BranchForm) (ctx : CpuContext) (operandSizeOverride : Bool) :
    ℕ :=
  let narrow := if operandSizeOverride then 16 else 32
  match form with
  | .relative => if ctx.is64BitCode then (if operandSizeOverride then 16 else 64) else narrow
  | .indirect => if ctx.is64BitCode then 64 else narrow
  | .conditional => if ctx.cs.descriptor.longMode then 64 else narrow

/-- The operand size of a far jump or call through memory. -/
def farPointerSize (ctx : CpuContext) (rexW operandSizeOverride : Bool) : ℕ :=
  if ctx.is64BitCode && rexW then 64 else if operandSizeOverride then 16 else 32

/-! ## Near branches -/

/-- `push_value16`, `push_value32` and `push_value64` for their sizes. -/
def pushValue (size : ℕ) (value : U64) : CpuProgram Unit := do
  if ← cpuHasException then return ()
  let ctx ← getContext
  let stackAddrSize := ctx.stackAddressSize
  if stackAddrSize = 16 ∧ size = 8 then
    raiseGp 0
    return ()
  let newSp := truncateTo stackAddrSize (ctx.regs regRsp - BitVec.ofNat 64 size)
  writeMemory size newSp value
  if ← cpuHasException then return ()
  modifyContext fun ctx => cpuSetStackPointerValue ctx stackAddrSize newSp

/-- `call_near_rel*` and `call_near_abs*`, for the target in the type of the operand. -/
def callNear (target returnRip : U64) (operandSize : ℕ) : CpuProgram Unit := do
  let target := cpuMaskCodeOffset target operandSize
  if ← cpuValidateCodeOffset target operandSize then
    pushValue (operandBytes operandSize) returnRip
    if ← cpuHasException then return ()
    modifyContext fun ctx => { ctx with rip := target }

/-! ## Instructions -/

/-- What the decoders find in the prefixes and the length of an instruction. -/
structure FlowPrefix where
  size : ℕ
  rexW : Bool
  operandSizeOverride : Bool

/-- A part of an instruction that leaves the instruction pointer and the size alone. -/
structure SequentialPart where
  code : CpuProgram Unit
  rip_eq : ∀ cpu, (code.run cpuOp cpu).2.context.rip = cpu.context.rip
  size_eq : ∀ cpu, (code.run cpuOp cpu).2.context.lastInstSize = cpu.context.lastInstSize

/-- An instruction.  The target of a jump or call is what its operand holds; a loop counts
down in its target part. -/
inductive FlowInst where
  | sequential (part : SequentialPart)
  | jump (form : BranchForm) (target : CpuProgram U64)
  | jcc (near : Bool) (cond : U8) (disp : U32)
  | call (form : BranchForm) (target : CpuProgram U64)
  | ret (immediate : Option U16)
  | jmpFarMem (address : U64)
  | jmpFarPtr (selector : U16) (offset : U64)
  | callFarMem (address : U64)
  | callFarPtr (selector : U16) (offset : U32)
  | retFar (immediate : U16)
  | iret

/-- The decoders of the branches leave the prefixes and the size in the context. -/
def recordPrefix (pre : FlowPrefix) : CpuProgram Unit :=
  modifyContext fun ctx => { ctx with
    prefixBits := { ctx.prefixBits with
      rexW := pre.rexW
      operandSizeOverride := pre.operandSizeOverride }
    lastInstSize := pre.size }

/-- `jmp_rel*`, `jmp_abs*`, `execute_jcxz` and `execute_loopcc` behind their decoders. -/
def executeJump (pre : FlowPrefix) (form : BranchForm) (target : CpuProgram U64) :
    CpuProgram Unit := do
  recordPrefix pre
  let ctx ← getContext
  let target ← target
  if ← cpuHasException then return ()
  let _ ← cpuAssignRipChecked target (form.operandSize ctx pre.operandSizeOverride)

/-- The target of a conditional jump. -/
def jccTarget (size : ℕ) (cond : U8) (disp : U64) : CpuProgram U64 := do
  let ctx ← getContext
  let nextRip := ctx.rip + BitVec.ofNat 64 size
  return if cpuExecutorEvalJccCondition ctx.rflags cond then nextRip + disp else nextRip

/-- The displacement of a conditional jump. -/
def jccDisp (near : Bool) (disp : U32) : U64 :=
  if near then disp.signExtend 64 else (disp.setWidth 8).signExtend 64

/-- The near calls behind their decoder. -/
def executeCall (pre : FlowPrefix) (form : BranchForm) (target : CpuProgram U64) :
    CpuProgram Unit := do
  recordPrefix pre
  let ctx ← getContext
  let target ← target
  if ← cpuHasException then return ()
  callNear target (ctx.rip + BitVec.ofNat 64 pre.size)
    (form.operandSize ctx pre.operandSizeOverride)

/-- A program of the CPU as a part of a handler. -/
def cpuPart {α : Type} (p : CpuProgram α) : Program HandlerOp HandlerOp.Reply α :=
  p.lift HandlerOp.cpu fun _ r => r

/-- `jcc_*` inline, behind its decoder, or `execute_jcc`. -/
def executeJcc (pre : FlowPrefix) (near : Bool) (cond : U8) (disp : U32) : CpuProgram Unit :=
  executeJump pre .conditional (jccTarget pre.size cond (jccDisp near disp))

/-- The far pointer of `execute_jmp`: the operand size, the offset and the selector. -/
def readFarPointer (pre : FlowPrefix) (address : U64) : CpuProgram (Option (ℕ × U64 × U16)) := do
  let ctx ← getContext
  let size := farPointerSize ctx pre.rexW pre.operandSizeOverride
  let offset ← readMemory (operandBytes size) address
  let selector ← readMemoryWord (address + BitVec.ofNat 64 (operandBytes size))
  if ← cpuHasException then return none
  return some (size, offset, selector.setWidth 16)

/-- A far transfer that its decoder makes of the context. -/
def executeFar (pre : FlowPrefix) (decode : CpuContext → Option FarTransfer) : Handler := do
  cpuPart (recordPrefix pre)
  match decode (← cpuPart getContext) with
  | none => cpuPart (cpuRaiseException .ud 0)
  | some t => Program.perform (HandlerOp.far t)

/-- A far jump through memory. -/
def executeJmpFarMem (pre : FlowPrefix) (address : U64) : Handler := do
  cpuPart (recordPrefix pre)
  match ← cpuPart (readFarPointer pre address) with
  | none => return ()
  | some (size, offset, selector) => Program.perform (HandlerOp.far (.jmpFar selector offset size))

/-- The operand size of a far jump or call with a pointer, which 64-bit code does not have. -/
def directSize (ctx : CpuContext) : Option ℕ :=
  if ctx.is64BitCode then none else if ctx.prefixBits.operandSizeOverride then some 16 else some 32

/-- The far transfers but for the jump through memory. -/
def FlowInst.transfer (pre : FlowPrefix) (ctx : CpuContext) : FlowInst → Option FarTransfer
  | .jmpFarPtr selector offset => (directSize ctx).map (.jmpFar selector offset)
  | .callFarMem address =>
    some (.callFarMem address (farPointerSize ctx pre.rexW pre.operandSizeOverride)
      (ctx.rip + BitVec.ofNat 64 pre.size))
  | .callFarPtr selector offset => (directSize ctx).map fun size =>
    .callFarPtr selector offset size (ctx.rip + BitVec.ofNat 64 pre.size)
  | .retFar immediate => some (.ret (decodeRetFarOperandSize ctx) ctx.stackAddressSize immediate)
  | .iret => some (decodeIret ctx)
  | _ => none

/-- The code of an instruction that is not inlined. -/
def FlowInst.handler (pre : FlowPrefix) (inst : FlowInst) : Handler :=
  match inst with
  | .sequential part => cpuPart do
    modifyContext fun ctx => { ctx with lastInstSize := pre.size }
    part.code
  | .jump form target => cpuPart (executeJump pre form target)
  | .jcc near cond disp => cpuPart (executeJcc pre near cond disp)
  | .call form target => cpuPart (executeCall pre form target)
  | .jmpFarMem address => executeJmpFarMem pre address
  | inst => executeFar pre fun ctx => inst.transfer pre ctx

/-- A decoded instruction with a handler.  A branch is never known not to fault, and it makes
no partial progress. -/
def DecodedInst.withHandler (dec : DecodedInst) (code : Handler) (branch : Bool) : DecodedInst :=
  { dec with
    handler := some fun _ => code
    fastHandler := none
    inlineKind := .none
    flags := { dec.flags with
      branch := branch
      inlineRet := false
      noFault := dec.flags.noFault && !branch
      partialProgress := dec.flags.partialProgress && !branch } }

/-- A decoded branch that is inlined. -/
def DecodedInst.inlined (dec : DecodedInst) (kind : DecodedInlineKind) (isRet : Bool) :
    DecodedInst :=
  { dec with
    inlineKind := kind
    flags := { dec.flags with
      branch := true
      inlineRet := isRet
      noFault := false
      partialProgress := false } }

/-- An instruction among the bytes: what the decoder has recorded besides its code. -/
structure FlowEvent where
  dec : DecodedInst
  pre : FlowPrefix
  inst : FlowInst

/-- The part of `cpu_decode_instruction` on control flow. -/
def FlowEvent.decoded (event : FlowEvent) (ctx : CpuContext) : DecodedInst :=
  match event.inst with
  | .sequential part => event.dec.withHandler (FlowInst.handler event.pre (.sequential part)) false
  | .ret immediate =>
    { event.dec.inlined (match immediate with
        | none => .retNearNoImm
        | some _ => .retNearImm16) true with
      inlineImm16 := immediate.getD 0
      nearRetPrefixLen := event.pre.size - (match immediate with
        | none => 1
        | some _ => 3)
      nearRetOpSize := BranchForm.relative.operandSize ctx event.pre.operandSizeOverride }
  | .jcc near cond disp =>
    if ctx.cs.descriptor.longMode && event.pre.size == (if near then 6 else 2) then
      { event.dec.inlined (if near then .jccNearLongmode else .jccShortLongmode) false with
        inlineJccCond := cond
        inlineJccDisp := disp.setWidth 8
        inlineJccDisp32 := disp }
    else event.dec.withHandler (FlowInst.handler event.pre event.inst) true
  | inst => event.dec.withHandler (inst.handler event.pre) true

/-- **One instruction.** -/
def Cpu.flow (cpu : Cpu) (event : FlowEvent) : Cpu :=
  if cpu.context.hasException then cpu
  else (cpu.dispatchDecoded (event.decoded cpu.context) cpu.context.rip).2

end Cpueaxh
