/-
# The CPU context

`CPU_CONTEXT` of `cpu/def.h` with the predicates on the execution mode, the exception
record, the two snapshots that the executor takes around an instruction, and the key
under which decoded instructions are cached.

The fields of the context that a snapshot or the decoder handles as a group are kept
as a group: the vector registers, the x87 control state and the prefix bits.
-/
import Cpueaxh.MemoryManager

namespace Cpueaxh

/-! ## Registers -/

/-- `SegmentDescriptor`. -/
structure SegmentDescriptor where
  base : U64
  limit : U32
  type : U8
  dpl : U8
  present : Bool
  granularity : Bool
  db : Bool
  longMode : Bool
  deriving DecidableEq, Repr

/-- The descriptor `{}`. -/
def SegmentDescriptor.zero : SegmentDescriptor :=
  { base := 0, limit := 0, type := 0, dpl := 0, present := false, granularity := false,
    db := false, longMode := false }

/-- `SegmentRegister`. -/
structure SegmentRegister where
  selector : U16
  descriptor : SegmentDescriptor
  deriving DecidableEq, Repr

/-- `SegmentRegisterIndex`. -/
inductive SegmentRegisterIndex where
  | es | cs | ss | ds | fs | gs
  deriving DecidableEq, Repr

/-- `XMMRegister`. -/
structure XMMRegister where
  low : U64
  high : U64
  deriving DecidableEq, Repr

/-- `ZMMUpperRegister`. -/
structure ZMMUpperRegister where
  lower : XMMRegister
  upper : XMMRegister
  deriving DecidableEq, Repr

/-- The fields of `CPU_CONTEXT` that `CPU_VECTOR_SNAPSHOT` holds. -/
structure VectorRegisters where
  xmm : Fin 16 → XMMRegister
  ymmUpper : Fin 16 → XMMRegister
  zmmUpper : Fin 16 → ZMMUpperRegister
  opmask : Fin 8 → U64
  mm : Fin 8 → U64
  mxcsr : U32
  deriving DecidableEq

/-- The x87 fields of `CPU_CONTEXT`. -/
structure X87State where
  controlWord : U16
  statusWord : U16
  tagWord : U16
  lastOpcode : U16
  instructionPointer : U64
  dataPointer : U64
  pendingException : Bool
  deriving DecidableEq, Repr

/-- The prefix bits that a decoder leaves in the context. -/
structure PrefixBits where
  rexPresent : Bool
  rexW : Bool
  rexR : Bool
  rexX : Bool
  rexB : Bool
  operandSizeOverride : Bool
  addressSizeOverride : Bool
  deriving DecidableEq, Repr

/-- `CPU_EXCEPTION_STATE`. -/
structure CpuExceptionState where
  code : U32
  errorCode : U32
  deriving DecidableEq, Repr

/-- `CPU_CONTEXT`, without its pointers to the memory manager, the engine and the
instruction cache. -/
structure CpuContext where
  regs : Fin 16 → U64
  controlRegs : Fin 16 → U64
  processorId : U32
  longModeActive : Bool
  vector : VectorRegisters
  x87 : X87State
  es : SegmentRegister
  cs : SegmentRegister
  ss : SegmentRegister
  ds : SegmentRegister
  fs : SegmentRegister
  gs : SegmentRegister
  rip : U64
  rflags : U64
  cpl : U8
  gdtrBase : U64
  gdtrLimit : U16
  ldtrBase : U64
  ldtrLimit : U16
  prefixBits : PrefixBits
  segmentOverride : ℤ
  lastInstSize : ℤ
  exception : CpuExceptionState
  cachedModeKeyBits : U8
  cachedModeKeyValid : Bool
  deriving DecidableEq

def regRsp : Fin 16 := 4

def regCr0 : Fin 16 := 0
def regCr2 : Fin 16 := 2
def regCr4 : Fin 16 := 4

/-! ## Exceptions -/

def cpuExceptionNone : U32 := 0
def cpuExceptionDe : U32 := 0xE0000000
def cpuExceptionGp : U32 := 0xE0000001
def cpuExceptionSs : U32 := 0xE0000002
def cpuExceptionNp : U32 := 0xE0000003
def cpuExceptionUd : U32 := 0xE0000004
def cpuExceptionPf : U32 := 0xE0000005
def cpuExceptionAc : U32 := 0xE0000006
def cpuExceptionBp : U32 := 0xE0000007
def cpuExceptionDb : U32 := 0xE0000008
def cpuExceptionOf : U32 := 0xE0000009
def cpuExceptionNm : U32 := 0xE000000A
def cpuExceptionMf : U32 := 0xE000000B

namespace CpuContext

/-- `cpu_has_exception`. -/
def hasException (ctx : CpuContext) : Bool := ctx.exception.code != cpuExceptionNone

/-- `cpu_clear_exception`. -/
def clearException (ctx : CpuContext) : CpuContext :=
  { ctx with exception := { code := cpuExceptionNone, errorCode := 0 } }

/-- `cpu_raise_exception`: the first exception stays. -/
def raiseException (ctx : CpuContext) (code errorCode : U32) : CpuContext :=
  if ctx.hasException then ctx
  else { ctx with exception := { code := code, errorCode := errorCode } }

/-! ## Execution mode -/

/-- `cpu_is_64bit_code`. -/
def is64BitCode (ctx : CpuContext) : Bool :=
  ctx.longModeActive && ctx.cs.descriptor.longMode

/-- `cpu_stack_address_size`. -/
def stackAddressSize (ctx : CpuContext) : ℕ :=
  if ctx.is64BitCode then 64 else if ctx.ss.descriptor.db then 32 else 16

end CpuContext

/-- `cpu_mask_code_offset`. -/
def cpuMaskCodeOffset (value : U64) (operandSize : ℕ) : U64 :=
  if operandSize = 16 then value &&& 0xFFFF
  else if operandSize = 32 then value &&& 0xFFFFFFFF
  else value

/-- `cpu_is_canonical_address`. -/
def cpuIsCanonicalAddress (address : U64) : Bool :=
  address >>> 48 == if (address >>> 47) &&& 1 == 1 then 0xFFFF else 0

/-! ## The mode key -/

/-- `cpu_inst_cache_compute_mode_key_bits`. -/
def cpuInstCacheComputeModeKeyBits (ctx : CpuContext) : U8 :=
  (if ctx.longModeActive then 0x1 else 0)
    ||| (if ctx.cs.descriptor.longMode then 0x2 else 0)
    ||| (if ctx.cs.descriptor.db then 0x4 else 0)

/-- `cpu_inst_cache_mode_key`: the cached bits when they are valid; otherwise they are
computed and cached. -/
def cpuInstCacheModeKey (ctx : CpuContext) : U8 × CpuContext :=
  if ctx.cachedModeKeyValid then (ctx.cachedModeKeyBits, ctx)
  else
    (cpuInstCacheComputeModeKeyBits ctx,
      { ctx with
        cachedModeKeyBits := cpuInstCacheComputeModeKeyBits ctx
        cachedModeKeyValid := true })

/-- Two contexts in the same mode have the same key. -/
theorem computeModeKeyBits_congr {ctx ctx' : CpuContext}
    (hlong : ctx'.longModeActive = ctx.longModeActive) (hcs : ctx'.cs = ctx.cs) :
    cpuInstCacheComputeModeKeyBits ctx' = cpuInstCacheComputeModeKeyBits ctx := by
  simp only [cpuInstCacheComputeModeKeyBits, hlong, hcs]

/-- The key determines whether the code is 64-bit code. -/
theorem is64BitCode_eq_of_modeKey {ctx ctx' : CpuContext}
    (h : cpuInstCacheComputeModeKeyBits ctx' = cpuInstCacheComputeModeKeyBits ctx) :
    ctx'.is64BitCode = ctx.is64BitCode := by
  unfold cpuInstCacheComputeModeKeyBits at h
  unfold CpuContext.is64BitCode
  revert h
  cases ctx.longModeActive <;> cases ctx.cs.descriptor.longMode <;>
    cases ctx.cs.descriptor.db <;> cases ctx'.longModeActive <;>
    cases ctx'.cs.descriptor.longMode <;> cases ctx'.cs.descriptor.db <;> decide

/-! ## Snapshots -/

/-- `cpu_restore_scalar_snapshot`.  A snapshot holds all fields of the context but the
vector registers, the processor number, the exception and the cached key, so the
saved context itself stands for it. -/
def cpuRestoreScalarSnapshot (ctx snapshot : CpuContext) : CpuContext :=
  { snapshot with
    processorId := ctx.processorId
    vector := ctx.vector
    exception := ctx.exception
    cachedModeKeyBits := ctx.cachedModeKeyBits
    cachedModeKeyValid := false }

/-- `cpu_restore_decode_transient_snapshot`. -/
def cpuRestoreDecodeTransientSnapshot (ctx snapshot : CpuContext) : CpuContext :=
  { ctx with
    prefixBits := snapshot.prefixBits
    segmentOverride := snapshot.segmentOverride
    lastInstSize := snapshot.lastInstSize }

/-- `cpu_restore_vector_snapshot`. -/
def cpuRestoreVectorSnapshot (ctx snapshot : CpuContext) : CpuContext :=
  { ctx with vector := snapshot.vector }

/-! ## The initial context -/

/-- A cleared vector state with the initial `mxcsr`. -/
def VectorRegisters.initial : VectorRegisters where
  xmm := fun _ => ⟨0, 0⟩
  ymmUpper := fun _ => ⟨0, 0⟩
  zmmUpper := fun _ => ⟨⟨0, 0⟩, ⟨0, 0⟩⟩
  opmask := fun _ => 0
  mm := fun _ => 0
  mxcsr := 0x1F80

/-- `cpu_reset_x87_state`. -/
def X87State.initial : X87State where
  controlWord := 0x037F
  statusWord := 0
  tagWord := 0xFFFF
  lastOpcode := 0
  instructionPointer := 0
  dataPointer := 0
  pendingException := false

/-- The data segment that `init_cpu_context` loads. -/
def initialDataSegment : SegmentRegister where
  selector := 0x10
  descriptor :=
    { base := 0, limit := 0xFFFFFFFF, type := 0x03, dpl := 0, present := true,
      granularity := true, db := true, longMode := false }

/-- `init_cpu_context`. -/
def initCpuContext (startInCompat32 : Bool) : CpuContext where
  regs := fun _ => 0
  controlRegs := fun i => if i = regCr0 then 0x80000011 else if i = regCr4 then 0x20 else 0
  processorId := 0
  longModeActive := true
  vector := .initial
  x87 := .initial
  es := initialDataSegment
  cs :=
    { selector := 0x08
      descriptor :=
        { base := 0, limit := 0xFFFFFFFF, type := 0x0B, dpl := 0, present := true,
          granularity := true, db := startInCompat32, longMode := !startInCompat32 } }
  ss := { initialDataSegment with selector := 0x18 }
  ds := initialDataSegment
  fs := initialDataSegment
  gs := initialDataSegment
  rip := 0
  rflags := 0
  cpl := 0
  gdtrBase := 0
  gdtrLimit := 0
  ldtrBase := 0
  ldtrLimit := 0
  prefixBits :=
    { rexPresent := false, rexW := false, rexR := false, rexX := false, rexB := false,
      operandSizeOverride := false, addressSizeOverride := false }
  segmentOverride := -1
  lastInstSize := 0
  exception := { code := cpuExceptionNone, errorCode := 0 }
  cachedModeKeyBits := 0
  cachedModeKeyValid := false

end Cpueaxh
