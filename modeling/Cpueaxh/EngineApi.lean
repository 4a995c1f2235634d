/-
# Runs of an engine

An engine is opened, and from then on the guest executes steps and the host program
calls the public functions: it writes registers or the whole context, raises and clears
exceptions, installs hooks, and calls the memory manager.  Any sequence of these is a run.

The checks that the public functions make on their arguments before they call the memory
manager are the ones that the manager repeats, so a rejected call is a call of the
manager that is rejected.
-/
import Cpueaxh.EmuStart

namespace Cpueaxh

/-! ## Register writes -/

/-- The fields of a segment register, with the value that is written. -/
inductive SegmentField where
  | selector (value : U16)
  | base (value : U64)
  | limit (value : U32)
  | type (value : U32)
  | dpl (value : U32)
  | present (value : U32)
  | granularity (value : U32)
  | db (value : U32)
  | longMode (value : U32)
  deriving DecidableEq, Repr

/-- The registers of `cpueaxh_reg_write`, with the value that is written. -/
inductive RegWrite where
  | gpr (index : Fin 16) (value : U64)
  | xmm (index : Fin 16) (value : XMMRegister)
  | ymm (index : Fin 16) (lower upper : XMMRegister)
  | zmm (index : Fin 16) (lower upper : XMMRegister) (rest : ZMMUpperRegister)
  | opmask (index : Fin 8) (value : U64)
  | mm (index : Fin 8) (value : U64)
  | control (index : Fin 16) (value : U64)
  | rip (value : U64)
  | eflags (value : U64)
  | cpl (value : U64)
  | mxcsr (value : U32)
  | gdtrBase (value : U64)
  | gdtrLimit (value : U16)
  | ldtrBase (value : U64)
  | ldtrLimit (value : U16)
  | exceptionCode (value : U32)
  | exceptionErrorCode (value : U32)
  | processorId (value : U32)
  | segment (register : SegmentRegisterIndex) (field : SegmentField)
  deriving DecidableEq, Repr

/-- The lowest bit of a value, as the flags of a descriptor take it. -/
def lowBit (value : U32) : Bool := value &&& 0x1 != 0

/-- A write to one field of a segment register. -/
def SegmentRegister.write (register : SegmentRegister) : SegmentField → SegmentRegister
  | .selector value => { register with selector := value }
  | .base value => { register with descriptor := { register.descriptor with base := value } }
  | .limit value => { register with descriptor := { register.descriptor with limit := value } }
  | .type value =>
    { register with descriptor := { register.descriptor with type := (value &&& 0x1F).setWidth 8 } }
  | .dpl value =>
    { register with descriptor := { register.descriptor with dpl := (value &&& 0x3).setWidth 8 } }
  | .present value =>
    { register with descriptor := { register.descriptor with present := lowBit value } }
  | .granularity value =>
    { register with descriptor := { register.descriptor with granularity := lowBit value } }
  | .db value => { register with descriptor := { register.descriptor with db := lowBit value } }
  | .longMode value =>
    { register with descriptor := { register.descriptor with longMode := lowBit value } }

/-- A write to a vector register. -/
def VectorRegisters.write (vector : VectorRegisters) (index : Fin 16) (lower : XMMRegister)
    (upper : Option XMMRegister) (rest : Option ZMMUpperRegister) : VectorRegisters :=
  { vector with
    xmm := Function.update vector.xmm index lower
    ymmUpper := Function.update vector.ymmUpper index (upper.getD (vector.ymmUpper index))
    zmmUpper := Function.update vector.zmmUpper index (rest.getD (vector.zmmUpper index)) }

/-- `cpueaxh_reg_write_raw`. -/
def regWrite (ctx : CpuContext) : RegWrite → CpuContext
  | .gpr index value => { ctx with regs := Function.update ctx.regs index value }
  | .xmm index value => { ctx with vector := ctx.vector.write index value none none }
  | .ymm index lower upper => { ctx with vector := ctx.vector.write index lower (some upper) none }
  | .zmm index lower upper rest =>
    { ctx with vector := ctx.vector.write index lower (some upper) (some rest) }
  | .opmask index value =>
    { ctx with vector := { ctx.vector with opmask := Function.update ctx.vector.opmask index value } }
  | .mm index value =>
    { ctx with vector := { ctx.vector with mm := Function.update ctx.vector.mm index value } }
  | .control index value => { ctx with controlRegs := Function.update ctx.controlRegs index value }
  | .rip value => { ctx with rip := value }
  | .eflags value => { ctx with rflags := value }
  | .cpl value => { ctx with cpl := (value &&& 0x3).setWidth 8 }
  | .mxcsr value => { ctx with vector := { ctx.vector with mxcsr := value } }
  | .gdtrBase value => { ctx with gdtrBase := value }
  | .gdtrLimit value => { ctx with gdtrLimit := value }
  | .ldtrBase value => { ctx with ldtrBase := value }
  | .ldtrLimit value => { ctx with ldtrLimit := value }
  | .exceptionCode value => { ctx with exception := { ctx.exception with code := value } }
  | .exceptionErrorCode value => { ctx with exception := { ctx.exception with errorCode := value } }
  | .processorId value => { ctx with processorId := value }
  | .segment .es field => { ctx with es := ctx.es.write field }
  | .segment .cs field => { ctx with cs := ctx.cs.write field }
  | .segment .ss field => { ctx with ss := ctx.ss.write field }
  | .segment .ds field => { ctx with ds := ctx.ds.write field }
  | .segment .fs field => { ctx with fs := ctx.fs.write field }
  | .segment .gs field => { ctx with gs := ctx.gs.write field }

/-- `cpu_is_exception_code`. -/
def cpuIsExceptionCode (code : U32) : Bool := decide (0xE0000000 ≤ code ∧ code ≤ 0xE000000B)

/-! ## Runs -/

/-- `cpueaxh_open`, in one of the two modes; `cached` tells whether the instruction cache
could be allocated. -/
def openEngine (compat32 cached : Bool) (host : HostMemory) : Engine where
  cpu :=
    { context := initCpuContext compat32
      memory := mmSetHostPassthrough (mmInit host) (mmProtRead ||| mmProtWrite ||| mmProtExec) false
      hooks := .none
      asked := 0 }
  instCache := if cached then some fun _ => .zero else none
  escapes := []

/-- What happens to an engine: a guest step in one of the two loops of
`cpueaxh_emu_start`, or a call of the host program.  `rawWrite` is the write of
`cpueaxh_emu_start_function` to the guest stack. -/
inductive EngineEvent where
  | step
  | hookedStep
  | regWrite (write : RegWrite)
  | contextWrite (input : CpuContext)
  | memory (call : MemoryCall)
  | rawWrite (address : U64) (bytes : U64 → U8) (size : U64)
  | exceptionRaise (code errorCode : U32)
  | exceptionClear
  | setHooks (hooks : Hooks)
  | setEscapes (escapes : List EscapeEntry)

namespace Engine

/-- The engine with another memory manager. -/
def setMemory (engine : Engine) (memory : MemoryManager) : Engine :=
  { engine with cpu := { engine.cpu with memory := memory } }

/-- The engine after an event. -/
def apply (isa : InstructionSet) (engine : Engine) : EngineEvent → Engine
  | .step => (engine.step isa).2
  | .hookedStep => (engine.hookedStep isa).2
  | .regWrite write => engine.setContext (Cpueaxh.regWrite engine.cpu.context write)
  | .contextWrite input => engine.setContext (contextIn engine.cpu.context input)
  | .memory call => engine.setMemory (memoryCall engine.cpu.memory call)
  | .rawWrite address bytes size =>
    engine.setMemory (memWriteRaw engine.cpu.memory address bytes size).2
  | .exceptionRaise code errorCode =>
    if cpuIsExceptionCode code then
      engine.setContext (engine.cpu.context.raiseException code errorCode)
    else engine
  | .exceptionClear => engine.setContext engine.cpu.context.clearException
  | .setHooks hooks => { engine with cpu := { engine.cpu with hooks := hooks } }
  | .setEscapes escapes => { engine with escapes := escapes }

end Engine

end Cpueaxh
