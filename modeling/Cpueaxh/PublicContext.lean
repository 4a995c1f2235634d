/-
# The public context

`cpueaxh_x86_context` is what the host program sees of a CPU: `cpueaxh_context_out` fills
it in, and `cpueaxh_context_in` takes it over.  The x87 state, the prefixes and the size
of the last instruction, and the override of the segment are not in it.
-/
import Cpueaxh.EngineApi

namespace Cpueaxh

/-! ## Segments -/

/-- `cpueaxh_x86_segment`, without its reserved field; a flag is a byte. -/
structure X86Segment where
  selector : U16
  base : U64
  limit : U32
  type : U8
  dpl : U8
  present : U8
  granularity : U8
  db : U8
  longMode : U8
  deriving DecidableEq, Repr

/-- A flag as a byte. -/
def flagOut (flag : Bool) : U8 := if flag then 1 else 0

/-- `cpueaxh_copy_segment_out`. -/
def cpueaxhCopySegmentOut (segment : SegmentRegister) : X86Segment where
  selector := segment.selector
  base := segment.descriptor.base
  limit := segment.descriptor.limit
  type := segment.descriptor.type
  dpl := segment.descriptor.dpl
  present := flagOut segment.descriptor.present
  granularity := flagOut segment.descriptor.granularity
  db := flagOut segment.descriptor.db
  longMode := flagOut segment.descriptor.longMode

/-- `cpueaxh_copy_segment_in`. -/
def cpueaxhCopySegmentIn (segment : X86Segment) : SegmentRegister where
  selector := segment.selector
  descriptor :=
    { base := segment.base
      limit := segment.limit
      type := segment.type
      dpl := segment.dpl
      present := segment.present != 0
      granularity := segment.granularity != 0
      db := segment.db != 0
      longMode := segment.longMode != 0 }

theorem flagOut_ne_zero (flag : Bool) : (flagOut flag != 0) = flag := by
  cases flag <;> rfl

@[simp] theorem copySegmentIn_out (segment : SegmentRegister) :
    cpueaxhCopySegmentIn (cpueaxhCopySegmentOut segment) = segment := by
  simp only [cpueaxhCopySegmentIn, cpueaxhCopySegmentOut, flagOut_ne_zero]

/-! ## Contexts -/

/-- `cpueaxh_x86_context`, without its reserved fields and the pointer of the bridge. -/
structure X86Context where
  regs : Fin 16 → U64
  rip : U64
  rflags : U64
  vector : VectorRegisters
  es : X86Segment
  cs : X86Segment
  ss : X86Segment
  ds : X86Segment
  fs : X86Segment
  gs : X86Segment
  gdtrBase : U64
  gdtrLimit : U16
  ldtrBase : U64
  ldtrLimit : U16
  cpl : U8
  exception : CpuExceptionState
  controlRegs : Fin 16 → U64
  processorId : U32
  deriving DecidableEq

/-- `cpueaxh_context_out`. -/
def cpueaxhContextOut (ctx : CpuContext) : X86Context where
  regs := ctx.regs
  rip := ctx.rip
  rflags := ctx.rflags
  vector := ctx.vector
  es := cpueaxhCopySegmentOut ctx.es
  cs := cpueaxhCopySegmentOut ctx.cs
  ss := cpueaxhCopySegmentOut ctx.ss
  ds := cpueaxhCopySegmentOut ctx.ds
  fs := cpueaxhCopySegmentOut ctx.fs
  gs := cpueaxhCopySegmentOut ctx.gs
  gdtrBase := ctx.gdtrBase
  gdtrLimit := ctx.gdtrLimit
  ldtrBase := ctx.ldtrBase
  ldtrLimit := ctx.ldtrLimit
  cpl := ctx.cpl
  exception := ctx.exception
  controlRegs := ctx.controlRegs
  processorId := ctx.processorId

/-- The fields of the public context in a CPU context, over those of `ctx`. -/
def X86Context.over (input : X86Context) (ctx : CpuContext) : CpuContext :=
  { ctx with
    regs := input.regs
    vector := input.vector
    rip := input.rip
    rflags := input.rflags
    es := cpueaxhCopySegmentIn input.es
    cs := cpueaxhCopySegmentIn input.cs
    ss := cpueaxhCopySegmentIn input.ss
    ds := cpueaxhCopySegmentIn input.ds
    fs := cpueaxhCopySegmentIn input.fs
    gs := cpueaxhCopySegmentIn input.gs
    gdtrBase := input.gdtrBase
    gdtrLimit := input.gdtrLimit
    ldtrBase := input.ldtrBase
    ldtrLimit := input.ldtrLimit
    cpl := input.cpl
    exception := input.exception
    controlRegs := input.controlRegs
    processorId := input.processorId }

/-- `cpueaxh_context_in`. -/
def cpueaxhContextIn (ctx : CpuContext) (input : X86Context) : CpuContext :=
  { input.over ctx with longModeActive := true, cachedModeKeyValid := false }

/-- The context that is taken over is one in which the same fields are set. -/
theorem contextIn_over (ctx : CpuContext) (input : X86Context) :
    cpueaxhContextIn ctx input = contextIn ctx (input.over ctx) := rfl

/-- The context with its flags as the CPU keeps them: every flag is 0 or 1. -/
def X86Context.normalized (input : X86Context) : X86Context :=
  { input with
    es := cpueaxhCopySegmentOut (cpueaxhCopySegmentIn input.es)
    cs := cpueaxhCopySegmentOut (cpueaxhCopySegmentIn input.cs)
    ss := cpueaxhCopySegmentOut (cpueaxhCopySegmentIn input.ss)
    ds := cpueaxhCopySegmentOut (cpueaxhCopySegmentIn input.ds)
    fs := cpueaxhCopySegmentOut (cpueaxhCopySegmentIn input.fs)
    gs := cpueaxhCopySegmentOut (cpueaxhCopySegmentIn input.gs) }

/-- **What is written is read back**, whatever the CPU was. -/
theorem contextOut_contextIn (ctx : CpuContext) (input : X86Context) :
    cpueaxhContextOut (cpueaxhContextIn ctx input) = input.normalized := rfl

/-- A context that was read is normal. -/
theorem normalized_contextOut (ctx : CpuContext) :
    (cpueaxhContextOut ctx).normalized = cpueaxhContextOut ctx := by
  simp [X86Context.normalized, cpueaxhContextOut]

/-- The public context holds the fields that it sets. -/
theorem contextOut_over (ctx : CpuContext) : (cpueaxhContextOut ctx).over ctx = ctx := by
  simp [X86Context.over, cpueaxhContextOut]

end Cpueaxh
