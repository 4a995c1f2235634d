/-
# Effective addresses

How an instruction finds its operand in memory: the ModRM byte, the SIB byte and the
displacement behind it, `get_effective_offset` of `cpu/helper.hpp` for all instructions but
`LEA`, and `calculate_lea_address` of `instructions/lea.hpp` for `LEA`.

All decoders read these bytes in the same way, and then give an operand relative to the
instruction pointer its address anew once the length of the instruction is known.
-/
import Cpueaxh.StringOps
import Cpueaxh.ByteOrder

namespace Cpueaxh

open ByteOrder

def regRbx : Fin 16 := 3
def regRbp : Fin 16 := 5

/-! ## The bytes of an operand -/

/-- The upper field of a ModRM or SIB byte: `mod` or the scale. -/
def modField (b : U8) : ℕ := ((b >>> 6) &&& 0x03).toNat

/-- The middle field: `reg` or the index. -/
def regField (b : U8) : ℕ := ((b >>> 3) &&& 0x07).toNat

/-- The lower field: `rm` or the base. -/
def rmField (b : U8) : ℕ := (b &&& 0x07).toNat

/-- The fields of a `DecodedInstruction` that the bytes of an operand fill. -/
structure MemOperand where
  addressSize : ℕ
  hasModrm : Bool
  modrm : U8
  hasSib : Bool
  sib : U8
  displacement : U32
  deriving DecidableEq, Repr

/-- The size of the displacement. -/
def MemOperand.dispSize (op : MemOperand) : ℕ :=
  if modField op.modrm = 0 ∧ rmField op.modrm = 5 then
    if op.addressSize = 16 then 2 else 4
  else if modField op.modrm = 0 ∧ op.hasSib = true ∧ rmField op.sib = 5 then 4
  else if modField op.modrm = 1 then 1
  else if modField op.modrm = 2 then if op.addressSize = 16 then 2 else 4
  else 0

/-- A displacement as a 32-bit integer: one and two bytes are extended with their sign. -/
def displacementValue (bytes : List U8) : U32 :=
  let value : U32 := littleEndian 32 bytes
  if bytes.length = 1 then (value.setWidth 8).signExtend 32
  else if bytes.length = 2 then (value.setWidth 16).signExtend 32
  else value

/-- What the decoders make of the bytes behind the opcode: the operand, the number of bytes
that they have taken, and whether there were enough of them. -/
structure OperandBytes where
  operand : MemOperand
  used : ℕ
  complete : Bool
  deriving DecidableEq, Repr

/-- The displacement behind the bytes of an operand. -/
def decodeDisplacement (op : MemOperand) (used : ℕ) (rest : List U8) : OperandBytes :=
  if rest.length < op.dispSize then { operand := op, used := used, complete := false }
  else
    let value := if op.dispSize = 0 then 0 else displacementValue (rest.take op.dispSize)
    { operand := { op with displacement := value }, used := used + op.dispSize, complete := true }

/-- `decode_modrm_add`, `decode_modrm_lea` and their copies, up to the address. -/
def decodeModrm (addressSize : ℕ) (code : List U8) : OperandBytes :=
  match code with
  | [] => { operand := ⟨addressSize, false, 0, false, 0, 0⟩, used := 0, complete := false }
  | modrm :: rest =>
    let op : MemOperand := ⟨addressSize, true, modrm, false, 0, 0⟩
    if modField modrm ≠ 3 ∧ rmField modrm = 4 ∧ addressSize ≠ 16 then
      match rest with
      | [] => { operand := op, used := 1, complete := false }
      | sib :: rest => decodeDisplacement { op with hasSib := true, sib := sib } 2 rest
    else decodeDisplacement op 1 rest

/-! ## Offsets -/

namespace CpuContext

variable (ctx : CpuContext)

/-- The register of a number. -/
def reg (n : ℕ) : Fin 16 := Fin.ofNat 16 n

/-- `if (bit && long_mode) n |= 0x08`. -/
def extended (bit longMode : Bool) (n : ℕ) : ℕ := if bit && longMode then n ||| 0x08 else n

/-- What the displacement adds for `mod` 1 and 2. -/
def displacementTerm (mod : ℕ) (displacement : U32) : U64 :=
  if mod = 1 then (displacement.setWidth 8).signExtend 64
  else if mod = 2 then displacement.signExtend 64
  else 0

/-- The registers of a 16-bit address in `get_effective_offset`. -/
def registers16 (mod rm : ℕ) (displacement : U32) : U64 :=
  match rm with
  | 0 => (ctx.regs regRbx + ctx.regs regRsi) &&& 0xFFFF
  | 1 => (ctx.regs regRbx + ctx.regs regRdi) &&& 0xFFFF
  | 2 => (ctx.regs regRbp + ctx.regs regRsi) &&& 0xFFFF
  | 3 => (ctx.regs regRbp + ctx.regs regRdi) &&& 0xFFFF
  | 4 => ctx.regs regRsi &&& 0xFFFF
  | 5 => ctx.regs regRdi &&& 0xFFFF
  | 6 => if mod = 0 then (displacement &&& 0xFFFF).setWidth 64 else ctx.regs regRbp &&& 0xFFFF
  | 7 => ctx.regs regRbx &&& 0xFFFF
  | _ => 0

/-- The case of `get_effective_offset` for 16-bit addresses. -/
def effectiveOffset16 (mod rm : ℕ) (displacement : U32) : U64 :=
  let addr := ctx.registers16 mod rm displacement
  if mod = 1 then (addr + (displacement.setWidth 8).signExtend 64) &&& 0xFFFF
  else if mod = 2 then (addr + (displacement &&& 0xFFFF).setWidth 64) &&& 0xFFFF
  else addr

/-- The part of `get_effective_offset` for a SIB byte. -/
def sibOffset (mod : ℕ) (sib : U8) (displacement : U32) : U64 :=
  let longMode := ctx.is64BitCode
  let index := extended ctx.prefixBits.rexX longMode (regField sib)
  let base := extended ctx.prefixBits.rexB longMode (rmField sib)
  let hasIndex := !(regField sib == 4 && !(longMode && ctx.prefixBits.rexX))
  let addr : U64 :=
    if mod = 0 ∧ rmField sib = 5 then displacement.setWidth 64 else ctx.regs (reg base)
  if hasIndex then addr + (ctx.regs (reg index) <<< modField sib) else addr

/-- `get_effective_offset`. -/
def getEffectiveOffset (op : MemOperand) (instSize : ℕ) : U64 :=
  let mod := modField op.modrm
  let rm := extended ctx.prefixBits.rexB ctx.is64BitCode (rmField op.modrm)
  if mod = 3 then 0
  else if op.addressSize = 32 ∨ op.addressSize = 64 then
    let addr : U64 :=
      if rm % 8 = 4 then ctx.sibOffset mod op.sib op.displacement
      else if rm % 8 = 5 ∧ mod = 0 then
        if op.addressSize = 64 then
          ctx.rip + BitVec.ofNat 64 instSize + op.displacement.signExtend 64
        else op.displacement.setWidth 64
      else ctx.regs (reg rm)
    let addr := addr + displacementTerm mod op.displacement
    if op.addressSize = 32 then addr &&& 0xFFFFFFFF else addr
  else ctx.effectiveOffset16 mod rm op.displacement

/-- `cpu_memory_base_register_uses_ss`. -/
def memoryBaseRegisterUsesSs (n : ℕ) : Bool := n == 4 || n == 5 || n == 13

/-- `cpu_default_segment_for_memory_operand`, where the SIB byte is always at hand. -/
def defaultSegmentForMemoryOperand (op : MemOperand) : SegmentRegisterIndex :=
  let mod := modField op.modrm
  let rm := rmField op.modrm
  let rexB := ctx.prefixBits.rexB
  if mod = 3 then .ds
  else if op.addressSize ≠ 16 then
    if rm = 4 then
      let base := extended rexB ctx.is64BitCode (rmField op.sib)
      if !(base == 5 && mod == 0) && memoryBaseRegisterUsesSs base then .ss else .ds
    else if !(mod == 0 && rm == 5) &&
        memoryBaseRegisterUsesSs (extended rexB ctx.is64BitCode rm) then .ss
    else .ds
  else if rm = 2 ∨ rm = 3 ∨ (rm = 6 ∧ mod ≠ 0) then .ss
  else .ds

/-- `cpu_effective_segment_override_or_default`. -/
def effectiveSegmentOverrideOrDefault (default : SegmentRegisterIndex) : SegmentRegisterIndex :=
  if ctx.segmentOverride = 0 then .es
  else if ctx.segmentOverride = 1 then .cs
  else if ctx.segmentOverride = 2 then .ss
  else if ctx.segmentOverride = 3 then .ds
  else if ctx.segmentOverride = 4 then .fs
  else if ctx.segmentOverride = 5 then .gs
  else default

/-- `get_effective_address`: the linear address, and the context behind its check. -/
def getEffectiveAddress (op : MemOperand) (instSize : ℕ) : U64 × CpuContext :=
  let addr := ctx.getEffectiveOffset op instSize
  if modField op.modrm = 3 then (addr, ctx)
  else
    let segment := ctx.effectiveSegmentOverrideOrDefault (ctx.defaultSegmentForMemoryOperand op)
    let addr := addr + ctx.segmentBaseForAddressing segment
    (addr, (cpuValidateLinearAddress ctx addr segment).2)

end CpuContext

/-- The operand gets its address again from `finalize_rip_relative_address`. -/
def MemOperand.finalized (op : MemOperand) : Bool :=
  op.hasModrm && modField op.modrm != 3 && op.addressSize == 64
    && (rmField op.modrm != 4 || !op.hasSib) && rmField op.modrm == 5 && modField op.modrm == 0

/-! ## The decoders of operands in memory -/

namespace CpuContext

variable (ctx : CpuContext)

/-- The address size in most of the decoders. -/
def decodedAddressSize : ℕ :=
  if ctx.cs.descriptor.longMode then if ctx.prefixBits.addressSizeOverride then 32 else 64
  else if ctx.prefixBits.addressSizeOverride then 16 else 32

/-- `cpu_default_address_size`. -/
def defaultAddressSize : ℕ :=
  if ctx.is64BitCode then 64 else if ctx.cs.descriptor.db then 32 else 16

/-- The address size in the decoders of `CALL`, `DEC`, `INC`, `JMP`, `POP` and `PUSH`. -/
def modeAddressSize : ℕ :=
  if ctx.prefixBits.addressSizeOverride then if ctx.defaultAddressSize = 64 then 32 else 16
  else ctx.defaultAddressSize

/-- The offset in memory of an operand of an instruction with some length: the decoders
compute it without the length, and again with it for an operand to be finalized. -/
def operandOffset (op : MemOperand) (instSize : ℕ) : U64 :=
  ctx.getEffectiveOffset op (if op.finalized then instSize else 0)

/-- The offset that the bytes behind an opcode give; `none` when there are not enough. -/
def memoryOffset (size : ℕ) (code : List U8) (instSize : ℕ) : Option U64 :=
  let decoded := decodeModrm size code
  if decoded.complete then some (ctx.operandOffset decoded.operand instSize) else none

end CpuContext

/-- The kinds of decoders: most of them, those that ask for the default address size, and
that of `POP`, which computes its address once more behind the step of the stack pointer. -/
inductive OperandDecoder where
  | common
  | sized
  | pop
  deriving DecidableEq, Repr

namespace OperandDecoder

/-- The address size of a decoder. -/
def addressSize (decoder : OperandDecoder) (ctx : CpuContext) : ℕ :=
  match decoder with
  | common => ctx.decodedAddressSize
  | sized | pop => ctx.modeAddressSize

/-- The length in the last computation of the offset:
`pop_compute_memory_destination_after_stack_advance` gives none. -/
def finalSize (decoder : OperandDecoder) (instSize : ℕ) : ℕ :=
  match decoder with
  | common | sized => instSize
  | pop => 0

/-- The offset of an operand in memory, in the context of its last computation. -/
def memoryOffset (decoder : OperandDecoder) (ctx : CpuContext) (code : List U8) (instSize : ℕ) :
    Option U64 :=
  ctx.memoryOffset (decoder.addressSize ctx) code (decoder.finalSize instSize)

end OperandDecoder

/-! ## `LEA` -/

/-- The prefix loop of the decoders: the prefix bits, whether there is a `LOCK`, and the
bytes behind the prefixes. -/
def scanPrefixes (bits : PrefixBits) (hasLock : Bool) : List U8 → PrefixBits × Bool × List U8
  | [] => (bits, hasLock, [])
  | b :: code =>
    if b = 0x66 then scanPrefixes { bits with operandSizeOverride := true } hasLock code
    else if b = 0x67 then scanPrefixes { bits with addressSizeOverride := true } hasLock code
    else if 0x40 ≤ b ∧ b ≤ 0x4F then
      let bits := { bits with
        rexPresent := true
        rexW := b.getLsbD 3
        rexR := b.getLsbD 2
        rexX := b.getLsbD 1
        rexB := b.getLsbD 0 }
      scanPrefixes bits hasLock code
    else if b = 0xF0 then scanPrefixes bits true code
    else if [0x26, 0x2E, 0x36, 0x3E, 0x64, 0x65, 0xF2, 0xF3].contains b then
      scanPrefixes bits hasLock code
    else (bits, hasLock, b :: code)

/-- The prefix state with which a decoder starts. -/
def PrefixBits.clear : PrefixBits :=
  { rexPresent := false, rexW := false, rexR := false, rexX := false, rexB := false,
    operandSizeOverride := false, addressSizeOverride := false }

namespace CpuContext

variable (ctx : CpuContext)

/-- The operand size of `LEA`. -/
def leaOperandSize : ℕ :=
  if ctx.prefixBits.rexW then 64 else if ctx.prefixBits.operandSizeOverride then 16 else 32

/-- `calculate_lea_address`, but for the exception of the register form. -/
def calculateLeaAddress (op : MemOperand) (nextRip : U64) : U64 :=
  let mod := modField op.modrm
  if op.addressSize = 64 ∨ op.addressSize = 32 then
    let longModeAddr := ctx.cs.descriptor.longMode
    let addr : U64 :=
      if op.hasSib then
        let index := extended ctx.prefixBits.rexX longModeAddr (regField op.sib)
        let base := extended ctx.prefixBits.rexB longModeAddr (rmField op.sib)
        let hasIndex := !(regField op.sib == 4 && !(longModeAddr && ctx.prefixBits.rexX))
        let addr : U64 :=
          if mod = 0 ∧ rmField op.sib = 5 then
            if op.addressSize = 64 then op.displacement.signExtend 64
            else op.displacement.setWidth 64
          else getReg op.addressSize ctx (reg base)
        if hasIndex then addr + (getReg op.addressSize ctx (reg index) <<< modField op.sib)
        else addr
      else if mod = 0 ∧ rmField op.modrm = 5 then
        if op.addressSize = 64 then nextRip + op.displacement.signExtend 64
        else op.displacement.setWidth 64
      else
        getReg op.addressSize ctx
          (reg (extended ctx.prefixBits.rexB longModeAddr (rmField op.modrm)))
    let addr := addr + displacementTerm mod op.displacement
    if op.addressSize = 32 then addr &&& 0xFFFFFFFF else addr
  else ctx.getEffectiveOffset op 0

/-- `decode_modrm_lea`, with the length of the instruction up to the bytes. -/
def decodeModrmLea (hasLock : Bool) (offset : ℕ) (code : List U8) : U64 × CpuContext :=
  let decoded := decodeModrm ctx.decodedAddressSize code
  let op := decoded.operand
  let ctx' :=
    if op.hasModrm = true ∧ modField op.modrm = 3 then ctx.raiseException cpuExceptionUd 0 else ctx
  if !decoded.complete then (0, ctx'.raiseException cpuExceptionGp 0)
  else
    (ctx.calculateLeaAddress op (ctx.rip + BitVec.ofNat 64 (offset + decoded.used)),
      if hasLock then ctx'.raiseException cpuExceptionUd 0 else ctx')

/-- `write_lea_reg_operand` when there is no exception. -/
def writeLeaRegOperand (modrm : U8) (address : U64) : CpuContext :=
  if ctx.hasException then ctx
  else
    setReg ctx.leaOperandSize ctx
      (reg (extended ctx.prefixBits.rexR true (regField modrm))) address

/-- `execute_lea` behind the opcode, whose end has the offset. -/
def executeLeaOperand (hasLock : Bool) (offset : ℕ) (code : List U8) : CpuContext :=
  let decoded := decodeModrm ctx.decodedAddressSize code
  let op := decoded.operand
  let instSize := offset + decoded.used
  let lea := ctx.decodeModrmLea hasLock offset code
  let final := if op.finalized then lea.2.getEffectiveAddress op instSize else lea
  ({ final.2 with lastInstSize := instSize } : CpuContext).writeLeaRegOperand op.modrm final.1

/-- `execute_lea` with `decode_lea_instruction`. -/
def executeLea (code : List U8) : CpuContext :=
  match scanPrefixes .clear false code with
  | (bits, hasLock, rest) =>
    let ctx := { ctx with prefixBits := bits }
    match rest with
    | [] => ctx.raiseException cpuExceptionGp 0
    | opcode :: rest =>
      let ctx := if opcode ≠ 0x8D then ctx.raiseException cpuExceptionUd 0 else ctx
      ctx.executeLeaOperand hasLock (code.length - rest.length) rest

end CpuContext

/-! ## Addresses of the architecture -/

/-- The address size of the architecture: the prefix changes the one of the mode. -/
def CpuContext.archAddressSize (ctx : CpuContext) : ℕ :=
  if ctx.is64BitCode then if ctx.prefixBits.addressSizeOverride then 32 else 64
  else if ctx.cs.descriptor.db != ctx.prefixBits.addressSizeOverride then 32
  else 16

/-- What an encoding names: a base, an index with its scale, the address of the next
instruction, and a displacement. -/
structure AddressForm where
  base : Option (Fin 16)
  index : Option (Fin 16 × ℕ)
  ripRelative : Bool
  displacement : ℤ
  deriving DecidableEq, Repr

/-- The sum of the parts, cut to the address size. -/
def AddressForm.offset (form : AddressForm) (regs : Fin 16 → U64) (nextRip : U64)
    (addressSize : ℕ) : U64 :=
  let base := form.base.elim 0 regs
  let index := form.index.elim 0 fun index => regs index.1 <<< index.2
  let origin := if form.ripRelative then nextRip else 0
  truncateTo addressSize (base + index + origin + BitVec.ofInt 64 form.displacement)

/-- A signed displacement of some bytes. -/
def signedDisplacement (size : ℕ) (bytes : List U8) : Option ℤ :=
  if bytes.length < size then none else some (littleEndian (8 * size) (bytes.take size)).toInt

/-- The bytes of the displacement for a value of `mod`. -/
def archDisplacementSize (mod wide : ℕ) : ℕ := if mod = 1 then 1 else if mod = 2 then wide else 0

/-- The registers of the 16-bit forms. -/
def archRegisters16 : ℕ → Fin 16 × Option (Fin 16 × ℕ)
  | 0 => (regRbx, some (regRsi, 0))
  | 1 => (regRbx, some (regRdi, 0))
  | 2 => (regRbp, some (regRsi, 0))
  | 3 => (regRbp, some (regRdi, 0))
  | 4 => (regRsi, none)
  | 5 => (regRdi, none)
  | 6 => (regRbp, none)
  | _ => (regRbx, none)

/-- A register number with its bit from the REX prefix. -/
def archRegister (rex : Bool) (n : ℕ) : Fin 16 := Fin.ofNat 16 (if rex then n + 8 else n)

/-- The form with a SIB byte. -/
def archSibForm (mod : ℕ) (rexX rexB : Bool) (sib : U8) (rest : List U8) : Option AddressForm :=
  let noBase := decide (mod = 0 ∧ rmField sib = 5)
  let index := archRegister rexX (regField sib)
  let size := if noBase then 4 else archDisplacementSize mod 4
  (signedDisplacement size rest).map fun displacement =>
    { base := if noBase then none else some (archRegister rexB (rmField sib))
      index := if index = regRsp then none else some (index, modField sib)
      ripRelative := false
      displacement := displacement }

/-- **The architectural form** of the bytes behind an opcode; `none` when they name a
register or are not all there. -/
def archForm (mode64 : Bool) (addressSize : ℕ) (rexX rexB : Bool) : List U8 → Option AddressForm
  | [] => none
  | modrm :: rest =>
    let mod := modField modrm
    let rm := rmField modrm
    if mod = 3 then none
    else if addressSize = 16 then
      if mod = 0 ∧ rm = 6 then (signedDisplacement 2 rest).map fun d => ⟨none, none, false, d⟩
      else
        (signedDisplacement (archDisplacementSize mod 2) rest).map fun d =>
          ⟨some (archRegisters16 rm).1, (archRegisters16 rm).2, false, d⟩
    else if rm = 4 then
      match rest with
      | [] => none
      | sib :: rest => archSibForm mod rexX rexB sib rest
    else if mod = 0 ∧ rm = 5 then
      -- relative to the next instruction in 64-bit mode, and absolute elsewhere
      (signedDisplacement 4 rest).map fun d => ⟨none, none, mode64, d⟩
    else
      (signedDisplacement (archDisplacementSize mod 4) rest).map fun d =>
        ⟨some (archRegister rexB rm), none, false, d⟩

/-- The form of an operand in the mode and under the prefixes of a context. -/
def CpuContext.archOperand (ctx : CpuContext) (code : List U8) : Option AddressForm :=
  archForm ctx.is64BitCode ctx.archAddressSize (ctx.is64BitCode && ctx.prefixBits.rexX)
    (ctx.is64BitCode && ctx.prefixBits.rexB) code

end Cpueaxh
