/-
# The flags image

`PUSHF` and `POPF`, and the instructions that a run at a privilege level consists of: these
two, `STI` and `CLI`, and those of the control flow, with the returns among them.

The filter of `POPF` is a mask.  Which flags it may write is written down once more, bit by
bit, from the privilege level, `IOPL` and the operand size.
-/
import Cpueaxh.CompatRip
import Cpueaxh.StackTransfers

namespace Cpueaxh

/-! ## The instructions -/

def pushfRfBit : U64 := (1 : U64) <<< 16
def pushfVmBit : U64 := (1 : U64) <<< 17
def pushfIfBit : U64 := (1 : U64) <<< 9
def pushfIoplMask : U64 := (3 : U64) <<< 12
def pushfVifBit : U64 := (1 : U64) <<< 19
def pushfVipBit : U64 := (1 : U64) <<< 20
def pushfLow16WritableMask : U64 := 0x7FD5
def pushfExtendedWritableMask : U64 := 0x247FD5

/-- `decode_pushf_operand_size`. -/
def decodePushfOperandSize (ctx : CpuContext) : ℕ :=
  if ctx.is64BitCode then
    if ctx.prefixBits.operandSizeOverride then 16 else 64
  else if ctx.prefixBits.operandSizeOverride then 16 else 32

/-- The I/O privilege level. -/
def CpuContext.iopl (ctx : CpuContext) : U64 := (ctx.rflags >>> 12) &&& 3

/-- `get_pushf_image`, for the operand sizes of the decoder. -/
def getPushfImage (ctx : CpuContext) (operandSize : ℕ) : U64 :=
  truncateTo operandSize (ctx.rflags &&& ~~~(pushfRfBit ||| pushfVmBit))

/-- The mask of `write_popf_flags`. -/
def popfWritableMask (ctx : CpuContext) (operandSize : ℕ) : U64 :=
  let writable := if operandSize = 16 then pushfLow16WritableMask else pushfExtendedWritableMask
  let writable :=
    if ctx.controlRegs regCr0 &&& 1 ≠ 0 ∧ ctx.cpl ≠ 0 then
      let writable := writable &&& ~~~pushfIoplMask
      if ctx.iopl < ctx.cpl.setWidth 64 then writable &&& ~~~pushfIfBit else writable
    else writable
  writable &&& ~~~(pushfRfBit ||| pushfVmBit ||| pushfVifBit ||| pushfVipBit)

/-- The flags that `write_popf_flags` leaves; it clears `RF`. -/
def popfFlags (ctx : CpuContext) (operandSize : ℕ) (value : U64) : U64 :=
  let writable := popfWritableMask ctx operandSize
  ((ctx.rflags &&& ~~~writable) ||| (value &&& writable)) &&& ~~~pushfRfBit

/-- `write_popf_flags`. -/
def writePopfFlags (operandSize : ℕ) (value : U64) : CpuProgram Unit :=
  modifyContext fun ctx => { ctx with rflags := popfFlags ctx operandSize value }

/-- `execute_pushf_with_decoded`: opcode `9C` pushes the flags, `9D` pops them. -/
def executePushfWithDecoded (opcode : U8) (operandSize : ℕ) : CpuProgram Unit := do
  if opcode = 0x9C then
    let ctx ← getContext
    pushValue (operandBytes operandSize) (getPushfImage ctx operandSize)
  else
    let value ← popValue (operandBytes operandSize)
    if ← cpuHasException then return ()
    writePopfFlags operandSize value

/-- The decoder leaves the prefixes in the context. -/
def CpuContext.withPrefix (ctx : CpuContext) (pre : FlowPrefix) : CpuContext :=
  { ctx with prefixBits := { ctx.prefixBits with
      rexW := pre.rexW
      operandSizeOverride := pre.operandSizeOverride } }

/-- `execute_pushf`, behind the prefixes. -/
def executePushf (pre : FlowPrefix) (opcode : U8) : CpuProgram Unit := do
  modifyContext fun ctx => ctx.withPrefix pre
  let ctx ← getContext
  executePushfWithDecoded opcode (decodePushfOperandSize ctx)

/-! ## The flags that may be written -/

/-- The flags that `POPF` may write: the status flags, `TF`, `DF` and `NT` always, `IF` up
to `IOPL`, `IOPL` at the top privilege level, and `AC` and `ID` with a wide operand. -/
def PopfWrites (ctx : CpuContext) (operandSize : ℕ) : ℕ → Prop
  | 0 | 2 | 4 | 6 | 7 | 8 | 10 | 11 | 14 => True
  | 9 => ctx.privileged = true ∨ ctx.cpl.setWidth 64 ≤ ctx.iopl
  | 12 | 13 => ctx.privileged = true
  | 18 | 21 => operandSize ≠ 16
  | _ => False

/-- The flags that code at privilege level 3 may not change: `IOPL`, and `IF` while `IOPL`
is below 3. -/
def CpuContext.heldFlags (ctx : CpuContext) : U64 :=
  if ctx.iopl < 3 then pushfIoplMask ||| pushfIfBit else pushfIoplMask

/-- The held flags are as they were. -/
def FlagsHeld (cpu cpu' : Cpu) : Prop :=
  cpu'.context.rflags &&& cpu.context.heldFlags = cpu.context.rflags &&& cpu.context.heldFlags

/-! ## Runs -/

/-- The flags that only privileged code may change. -/
def guardedFlags : U64 := pushfIoplMask ||| pushfIfBit

/-- A program leaves the guarded flags alone. -/
def KeepsGuarded {α : Type} (p : CpuProgram α) : Prop :=
  ∀ cpu : Cpu, MemoryOk cpu.memory →
    (p.run cpuOp cpu).2.context.rflags &&& guardedFlags = cpu.context.rflags &&& guardedFlags

/-- The parts of an instruction that are left open leave the guarded flags alone. -/
def FlowInst.KeepsGuarded : FlowInst → Prop
  | .sequential part => Cpueaxh.KeepsGuarded part.code
  | .jump _ target | .call _ target => Cpueaxh.KeepsGuarded target
  | _ => True

/-- A guest instruction.  There is no decoder for `STI` and `CLI`. -/
inductive FlagInst where
  | pushf | popf | sti | cli
  | flow (inst : FlowInst) (keeps : inst.KeepsGuarded)

/-- An instruction among the bytes: what the decoder has recorded besides its code. -/
structure FlagEvent where
  dec : DecodedInst
  pre : FlowPrefix
  inst : FlagInst

/-- The code of `PUSHF` or `POPF`. -/
def pushfHandler (pre : FlowPrefix) (opcode : U8) : Handler :=
  cpuPart do
    modifyContext fun ctx => { ctx with lastInstSize := pre.size }
    executePushf pre opcode

/-- The part of `cpu_decode_instruction` on these instructions. -/
def FlagEvent.decoded (event : FlagEvent) (ctx : CpuContext) : DecodedInst :=
  match event.inst with
  | .pushf => event.dec.withHandler (pushfHandler event.pre 0x9C) false
  | .popf => event.dec.withHandler (pushfHandler event.pre 0x9D) false
  | .sti | .cli => { event.dec with flags := { event.dec.flags with ud := true } }
  | .flow inst _ => FlowEvent.decoded { dec := event.dec, pre := event.pre, inst := inst } ctx

/-- **One instruction.** -/
def Cpu.guest (cpu : Cpu) (event : FlagEvent) : Cpu :=
  if cpu.context.hasException then cpu
  else (cpu.dispatchDecoded (event.decoded cpu.context) cpu.context.rip).2

/-- The CPU in which the code of an instruction finds its operands. -/
def FlagEvent.recorded (event : FlagEvent) (cpu : Cpu) : Cpu :=
  ((recordPrefix event.pre).run cpuOp (cpu.setSegmentOverride event.dec.segmentOverride)).2

/-- The slot that a `PUSHF` stores to. -/
def FlagEvent.slot (event : FlagEvent) (cpu : Cpu) : U64 :=
  (event.recorded cpu).stackSlot
    (-BitVec.ofNat 64 (operandBytes (decodePushfOperandSize (event.recorded cpu).context)))

/-- The slot of a `PUSHF` holds the flags that are stored to it, as far as a `POPF` writes
them. -/
def FlagEvent.SlotHolds (event : FlagEvent) (cpu : Cpu) : Prop :=
  let operandSize := decodePushfOperandSize (event.recorded cpu).context
  ∀ ptrs, (event.recorded cpu).operandPtrs true (event.slot cpu) (operandBytes operandSize) 0 =
      .ok ptrs →
    (loadValue (storeBytes cpu.memory.host ptrs (getPushfImage cpu.context operandSize))
      ptrs ^^^ cpu.context.rflags) &&& popfWritableMask cpu.context operandSize = 0

/-- A value has the held flags of the CPU. -/
def HasHeldFlags (cpu : Cpu) (value : U64) : Prop :=
  value &&& cpu.context.heldFlags = cpu.context.rflags &&& cpu.context.heldFlags

/-- **The condition**: an `IRET` that completes takes flags from its frame that have the held
ones.  A `POPF` pops such flags if protected mode is off. -/
def FlagsFit (cpu : Cpu) (event : FlagEvent) : Prop :=
  (cpu.guest event).context.hasException = false →
    match event.inst with
    | .popf => cpu.context.privileged = true →
      ∀ value after, (event.recorded cpu).poppedOne (operandBytes
        (decodePushfOperandSize (event.recorded cpu).context)) = .ok (value, after) →
          HasHeldFlags cpu value
    | .flow .iret _ =>
      let operandSize := decodeRetFarOperandSize (event.recorded cpu).context
      ∀ frame, (event.recorded cpu).frame operandSize (iretCount operandSize) = .ok frame →
        HasHeldFlags cpu (frame.values.getD 2 0)
    | _ => True

end Cpueaxh
