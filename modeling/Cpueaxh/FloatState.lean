/-
# Saved floating-point state

`FXSAVE` and `FXRSTOR` of `instructions/sse_state.hpp`, `FNSTENV` and `FLDENV` of
`instructions/x87_env.hpp`, behind their decoders: with the linear address of the operand,
the operand size, and whether the instruction waits for the x87 unit.

The first pair keeps an image of 416 bytes in an area of 512, the second one of seven
entries of two or four bytes.
-/
import Cpueaxh.LinearBytes
import Cpueaxh.ByteOrder

namespace Cpueaxh

open ByteOrder

/-! ## Observers -/

/-- The notifications of the fields of an image. -/
def notifyFields (type : HookType) (address : U64) (bytes : List U8) :
    List (ℕ × ℕ) → CpuProgram Unit
  | [] => return ()
  | (offset, size) :: fields => do
    perform (.notify type (address + BitVec.ofNat 64 offset) size
      (littleEndian 64 ((bytes.drop offset).take size)))
    notifyFields type address bytes fields

/-! ## `FXSAVE` and `FXRSTOR` -/

/-- `kSseStateFxImageSize`. -/
def sseStateFxImageSize : ℕ := 0x1A0

/-- The x87 words of `sse_state_pack_fxsave`. -/
def fxsaveX87Words : List U8 :=
  littleEndianBytes 2 (0x037F : U16) ++ littleEndianBytes 2 (0 : U16) ++ [0x00, 0x00] ++
    littleEndianBytes 2 (0 : U16) ++ littleEndianBytes 8 (0 : U64) ++ littleEndianBytes 8 (0 : U64)

/-- The bytes of an `MMX` register in its slot. -/
def fxsaveMm (value : U64) : List U8 := littleEndianBytes 8 value ++ littleEndianBytes 8 (0 : U64)

/-- The bytes of an `XMM` register. -/
def fxsaveXmm (value : XMMRegister) : List U8 :=
  littleEndianBytes 8 value.low ++ littleEndianBytes 8 value.high

/-- `sse_state_pack_fxsave`. -/
def VectorRegisters.packFxsave (vector : VectorRegisters) : List U8 :=
  fxsaveX87Words ++ (littleEndianBytes 4 (vector.mxcsr &&& 0x0000FFFF) ++
    (littleEndianBytes 4 (0x0000FFFF : U32) ++
      ((List.finRange 8).flatMap (fun i => fxsaveMm (vector.mm i)) ++
        (List.finRange 16).flatMap fun i => fxsaveXmm (vector.xmm i))))

/-- The registers that `sse_state_read_fxrstor` takes from an image. -/
def VectorRegisters.unpackFxrstor (vector : VectorRegisters) (bytes : List U8) :
    VectorRegisters :=
  { vector with
    mxcsr := field 32 bytes 0x18 &&& 0x0000FFFF
    mm := fun i => field 64 bytes (0x20 + i.val * 0x10)
    xmm := fun i =>
      { low := field 64 bytes (0xA0 + i.val * 0x10)
        high := field 64 bytes (0xA0 + i.val * 0x10 + 0x08) } }

/-- The offsets of the low halves of an array of 16-byte registers. -/
def registerOffsets (base count : ℕ) : List ℕ := (List.range count).map fun i => base + i * 0x10

/-- The fields that `sse_state_notify_fxsave_write_hooks` reports. -/
def fxsaveFields : List (ℕ × ℕ) :=
  [(0x00, 2), (0x02, 2), (0x04, 1), (0x05, 1), (0x06, 2), (0x08, 8), (0x10, 8), (0x18, 4),
    (0x1C, 4)] ++
  (registerOffsets 0x20 8 ++ registerOffsets 0xA0 16).flatMap fun offset =>
    [(offset, 8), (offset + 0x08, 8)]

/-- The fields that `sse_state_notify_fxrstor_read_hooks` reports. -/
def fxrstorFields : List (ℕ × ℕ) :=
  (registerOffsets 0x20 8).map (·, 8) ++
  (registerOffsets 0xA0 16).flatMap fun offset => [(offset, 8), (offset + 0x08, 8)]

/-- `sse_state_validate_fx_area`. -/
def sseStateValidateFxArea (address : U64) : CpuProgram Unit := do
  if address &&& 0x0F ≠ 0 then raiseGp 0

/-- `sse_state_validate_mxcsr`. -/
def sseStateValidateMxcsr (value : U32) : CpuProgram Unit := do
  if value &&& 0xFFFF0000 ≠ 0 then raiseGp 0

/-- `sse_state_write_fxsave`. -/
def sseStateWriteFxsave (address : U64) : CpuProgram Unit := do
  sseStateValidateFxArea address
  let ctx ← getContext
  if ctx.hasException then return ()
  let bytes := ctx.vector.packFxsave
  match ← resolveLinearWrite address sseStateFxImageSize with
  | none => return ()
  | some ptrs =>
    notifyFields .memWrite address bytes fxsaveFields
    commitBytes ptrs bytes

/-- `sse_state_read_fxrstor`. -/
def sseStateReadFxrstor (address : U64) : CpuProgram Unit := do
  sseStateValidateFxArea address
  if ← cpuHasException then return ()
  match ← readLinearBytes address sseStateFxImageSize with
  | none => return ()
  | some bytes =>
    notifyFields .memRead address bytes [(0x18, 4)]
    sseStateValidateMxcsr (field 32 bytes 0x18)
    if ← cpuHasException then return ()
    notifyFields .memRead address bytes fxrstorFields
    modifyContext fun ctx => { ctx with vector := ctx.vector.unpackFxrstor bytes }

/-! ## `FNSTENV` and `FLDENV` -/

/-- `cpu_x87_device_unavailable`. -/
def CpuContext.x87DeviceUnavailable (ctx : CpuContext) : Bool :=
  ctx.controlRegs regCr0 &&& 0xC != 0

/-- `cpu_x87_recompute_pending_exception`. -/
def X87State.recomputePendingException (x87 : X87State) : X87State :=
  { x87 with
    pendingException := (x87.statusWord &&& 0x003F) &&& ~~~x87.controlWord &&& 0x003F != 0 }

/-- `cpu_x87_check_device_available` and `cpu_x87_check_wait`. -/
def cpuX87Check (waiting : Bool) : CpuProgram Bool := do
  let ctx ← getContext
  if ctx.x87DeviceUnavailable then
    cpuRaiseException .nm 0
    return false
  if waiting && ctx.x87.pendingException then
    cpuRaiseException .mf 0
    return false
  return true

/-- The bytes of an entry of the environment. -/
def envEntrySize (operandSize : ℕ) : ℕ := if operandSize = 16 then 2 else 4

/-- The image of `x87_env_write16` and `x87_env_write32`. -/
def X87State.envImage (x87 : X87State) (operandSize : ℕ) : List U8 :=
  if operandSize = 16 then
    [x87.controlWord, x87.statusWord, x87.tagWord, x87.instructionPointer.setWidth 16,
      x87.lastOpcode, x87.dataPointer.setWidth 16, 0].flatMap (littleEndianBytes 2)
  else
    [x87.controlWord.setWidth 32, x87.statusWord.setWidth 32, x87.tagWord.setWidth 32,
      x87.instructionPointer.setWidth 32, x87.lastOpcode.setWidth 32 <<< 16,
      x87.dataPointer.setWidth 32, (0 : U32)].flatMap (littleEndianBytes 4)

/-- What `x87_env_read16` and `x87_env_read32` take from an image. -/
def X87State.readEnv (x87 : X87State) (operandSize : ℕ) (bytes : List U8) : X87State :=
  if operandSize = 16 then
    { x87 with
      controlWord := field 16 bytes 0x00
      statusWord := field 16 bytes 0x02
      tagWord := field 16 bytes 0x04
      instructionPointer := (field 16 bytes 0x06).setWidth 64
      lastOpcode := field 16 bytes 0x08
      dataPointer := (field 16 bytes 0x0A).setWidth 64 }
  else
    { x87 with
      controlWord := (field 32 bytes 0x00).setWidth 16
      statusWord := (field 32 bytes 0x04).setWidth 16
      tagWord := (field 32 bytes 0x08).setWidth 16
      instructionPointer := (field 32 bytes 0x0C).setWidth 64
      lastOpcode := (field 32 bytes 0x10 >>> 16).setWidth 16
      dataPointer := (field 32 bytes 0x14).setWidth 64 }

/-- The fields of the environment. -/
def envFields (operandSize : ℕ) : List (ℕ × ℕ) :=
  (List.range 7).map fun i => (i * envEntrySize operandSize, envEntrySize operandSize)

/-- `FNSTENV`, and `FSTENV` if it waits. -/
def x87StoreEnv (operandSize : ℕ) (waiting : Bool) (address : U64) : CpuProgram Unit := do
  if !(← cpuX87Check waiting) then return ()
  let ctx ← getContext
  let bytes := ctx.x87.envImage operandSize
  match ← resolveLinearWrite address (7 * envEntrySize operandSize) with
  | none => return ()
  | some ptrs =>
    notifyFields .memWrite address bytes (envFields operandSize)
    commitBytes ptrs bytes
    modifyContext fun ctx => { ctx with
      x87 := { ctx.x87 with
        controlWord := ctx.x87.controlWord ||| 0x003F }.recomputePendingException }

/-- `FLDENV`. -/
def x87LoadEnv (operandSize : ℕ) (address : U64) : CpuProgram Unit := do
  if !(← cpuX87Check true) then return ()
  match ← readLinearBytes address (7 * envEntrySize operandSize) with
  | none => return ()
  | some bytes =>
    notifyFields .memRead address bytes (envFields operandSize)
    modifyContext fun ctx => { ctx with
      x87 := (ctx.x87.readEnv operandSize bytes).recomputePendingException }

end Cpueaxh
