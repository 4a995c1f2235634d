/-
# Instructions with an EVEX prefix

`instructions/evex.hpp` with the instructions that the decoder takes to it: `VPALIGNR`,
`VPINSRB`, `VPINSRW`, `VPINSRD`, `VPINSRQ`, `VPEXTRB`, `VPEXTRD` and `VPEXTRQ`.  The fields of
the prefix become the bits of a REX prefix, and the bytes behind the opcode are those of a
legacy instruction for `decode_modrm_movdq`.
-/
import Cpueaxh.MaskedLanes
import Cpueaxh.Pop
import Cpueaxh.RegisterOperands

namespace Cpueaxh

open ByteOrder

/-! ## The prefix -/

/-- `EVEXPrefix`. -/
structure EVEXPrefix where
  byte1 : U8
  byte2 : U8
  byte3 : U8
  opcode : U8
  deriving DecidableEq, Repr

/-- What the handler of an instruction asks of its prefix. -/
structure EvexFormat where
  opcode : U8
  mapSelect : U8
  mandatoryPrefix : U8
  allowedVectorBits : List ℕ
  allowWritemask : Bool
  allowZeroing : Bool
  deriving DecidableEq, Repr

/-- `EVEXDecodedInstructionInfo`, without the prefix itself. -/
structure EVEXDecodedInstructionInfo where
  vectorBits : ℕ
  source1 : Fin 16
  writemask : Fin 8
  zeroing : Bool
  deriving DecidableEq, Repr

namespace EVEXPrefix

variable (p : EVEXPrefix)

/-- `evex_source1_index`. -/
def source1Index : Fin 16 := Fin.ofNat 16 (~~~((p.byte2 >>> 3) &&& 0x0F) &&& 0x0F).toNat

/-- `evex_writemask_index`. -/
def writemaskIndex : Fin 8 := Fin.ofNat 8 (p.byte3 &&& 0x07).toNat

/-- `evex_zeroing`. -/
def zeroing : Bool := p.byte3 &&& 0x80 != 0

/-- The length of the vectors; `none` where `evex_decode_vector_bits` raises `#UD`. -/
def vectorBits (allowed : List ℕ) : Option ℕ :=
  let bits : Option ℕ :=
    if p.byte3 &&& 0x60 = 0x00 then some 128
    else if p.byte3 &&& 0x60 = 0x20 then some 256
    else if p.byte3 &&& 0x60 = 0x40 then some 512
    else none
  bits.filter allowed.contains

/-- The prefix bits behind `apply_evex_state`. -/
def state : PrefixBits where
  rexPresent := true
  rexW := (p.byte2 >>> 7) &&& 1 != 0
  rexR := p.byte1 &&& 0x10 == 0
  rexX := p.byte1 &&& 0x40 == 0
  rexB := p.byte1 &&& 0x20 == 0
  operandSizeOverride := false
  addressSizeOverride := false

/-- What `evex_validate_common` makes of the prefix; `none` where it raises `#UD`. -/
def validate (format : EvexFormat) : Option EVEXDecodedInstructionInfo :=
  if p.opcode ≠ format.opcode ∨ p.byte1 &&& 0x03 ≠ format.mapSelect ∨
      p.byte2 &&& 0x03 ≠ format.mandatoryPrefix ∨ p.byte2 &&& 0x04 = 0 ∨
      p.byte3 &&& 0x18 ≠ 0x08 then none
  else
    match p.vectorBits format.allowedVectorBits with
    | none => none
    | some bits =>
      if !format.allowWritemask && p.writemaskIndex != 0 then none
      else if !format.allowZeroing && p.zeroing then none
      else
        some { vectorBits := bits, source1 := p.source1Index, writemask := p.writemaskIndex,
               zeroing := p.zeroing }

end EVEXPrefix

/-! ## Decoding -/

/-- The fields of the `DecodedInstruction` of an instruction with an EVEX prefix. -/
structure EvexInstruction where
  operand : MemOperand
  memAddress : U64
  opcode : U8
  immediate : U8
  instSize : ℕ
  deriving DecidableEq, Repr

/-- The bytes of the prefix and the opcode. -/
def evexPrefixOf (code : List U8) : EVEXPrefix :=
  ⟨code.getD 1 0, code.getD 2 0, code.getD 3 0, code.getD 4 0⟩

/-- `decode_evex_prefix`; the prefix is not used when it raises an exception. -/
def decodeEvexPrefix (code : List U8) : CpuProgram EVEXPrefix := do
  if code.length < 7 then raiseGp 0
  else if code.headD 0 ≠ 0x62 then raiseUd
  return evexPrefixOf code

/-- `decode_modrm_movdq` without a `LOCK` prefix: the operand and its address. -/
def decodeModrmMovdq (addressSize : ℕ) (code : List U8) : CpuProgram (OperandBytes × U64) := do
  let decoded := decodeModrm addressSize code
  if !decoded.complete then
    raiseGp 0
    return (decoded, 0)
  else if modField decoded.operand.modrm ≠ 3 then
    let address ← getEffectiveAddress decoded.operand 0
    return (decoded, address)
  else return (decoded, 0)

/-- The address of an operand behind `finalize_rip_relative_address`. -/
def finalizedAddress (op : MemOperand) (address : U64) (instSize : ℕ) : CpuProgram U64 :=
  if op.finalized then getEffectiveAddress op instSize else return address

/-- The address size of an instruction with an EVEX prefix. -/
def CpuContext.evexAddressSize (ctx : CpuContext) : ℕ :=
  if ctx.cs.descriptor.longMode then 64 else 32

/-- The part of `decode_evex_modrm_imm_instruction` behind the prefix. -/
def decodeEvexOperand (format : EvexFormat) (code : List U8) :
    CpuProgram (Option EvexInstruction) := do
  let ctx ← getContext
  let (decoded, address) ← decodeModrmMovdq ctx.evexAddressSize (code.drop 5)
  if ← cpuHasException then return none
  match code.drop (5 + decoded.used) with
  | [] =>
    raiseGp 0
    return none
  | immediate :: _ =>
    let instSize := 5 + decoded.used + 1
    let memAddress ← finalizedAddress decoded.operand address instSize
    modifyContext fun ctx => { ctx with lastInstSize := instSize }
    return some ⟨decoded.operand, memAddress, format.opcode, immediate, instSize⟩

/-- `decode_evex_modrm_imm_instruction`. -/
def decodeEvexModrmImmInstruction (format : EvexFormat) (code : List U8) :
    CpuProgram (Option (EVEXDecodedInstructionInfo × EvexInstruction)) := do
  let p ← decodeEvexPrefix code
  if ← cpuHasException then return none
  match p.validate format with
  | none =>
    raiseUd
    return none
  | some info =>
    modifyContext fun ctx => { ctx with prefixBits := p.state }
    match ← decodeEvexOperand format code with
    | none => return none
    | some inst => return some (info, inst)

/-! ## Registers -/

/-- `decode_movdq_xmm_reg_index`. -/
def decodeMovdqXmmRegIndex (ctx : CpuContext) (modrm : U8) : Fin 16 :=
  CpuContext.reg (if ctx.prefixBits.rexR then regField modrm ||| 0x08 else regField modrm)

/-- `decode_movdq_xmm_rm_index` and `decode_movdq_gpr_rm_index`. -/
def decodeMovdqRmIndex (ctx : CpuContext) (modrm : U8) : Fin 16 :=
  CpuContext.reg (if ctx.prefixBits.rexB then rmField modrm ||| 0x08 else rmField modrm)

/-- `ZMMRegister`. -/
structure ZMMRegister where
  xmm0 : XMMRegister
  xmm1 : XMMRegister
  xmm2 : XMMRegister
  xmm3 : XMMRegister
  deriving DecidableEq, Repr

/-- `ZMMRegister value = {}`. -/
def ZMMRegister.zero : ZMMRegister := ⟨.zero, .zero, .zero, .zero⟩

/-- `get_zmm512`. -/
def VectorRegisters.getZmm512 (vector : VectorRegisters) (reg : Fin 16) : ZMMRegister :=
  ⟨vector.xmm reg, vector.ymmUpper reg, (vector.zmmUpper reg).lower, (vector.zmmUpper reg).upper⟩

/-- `set_zmm512`. -/
def VectorRegisters.setZmm512 (vector : VectorRegisters) (reg : Fin 16) (value : ZMMRegister) :
    VectorRegisters :=
  { vector with
    xmm := Function.update vector.xmm reg value.xmm0
    ymmUpper := Function.update vector.ymmUpper reg value.xmm1
    zmmUpper := Function.update vector.zmmUpper reg ⟨value.xmm2, value.xmm3⟩ }

/-- `palignr_pack_zmm_to_bytes`. -/
def ZMMRegister.toBytes (value : ZMMRegister) : List U8 :=
  xmmToBytes value.xmm0 ++ xmmToBytes value.xmm1 ++ xmmToBytes value.xmm2 ++ xmmToBytes value.xmm3

/-- `sse2_pack_bytes_to_xmm` of the bytes from an offset on. -/
def sse2PackBytesToXmm (bytes : List U8) (offset : ℕ) : XMMRegister :=
  { low := field 64 bytes offset, high := field 64 bytes (offset + 8) }

/-- `palignr_pack_bytes_to_zmm`. -/
def ZMMRegister.ofBytes (bytes : List U8) : ZMMRegister :=
  ⟨sse2PackBytesToXmm bytes 0, sse2PackBytesToXmm bytes 16, sse2PackBytesToXmm bytes 32,
    sse2PackBytesToXmm bytes 48⟩

/-- `read_zmm_memory`. -/
def readZmmMemory (address : U64) : CpuProgram ZMMRegister := do
  match ← readLinearBytes address 64 with
  | none => return .zero
  | some bytes =>
    notifyFields .memRead address bytes
      [(0, 8), (8, 8), (16, 8), (24, 8), (32, 8), (40, 8), (48, 8), (56, 8)]
    return .ofBytes bytes

/-! ## `VPALIGNR` -/

/-- `apply_avx2_palignr128`. -/
def applyPalignr128 (src1 src2 : XMMRegister) (imm8 : U8) : XMMRegister :=
  let concat := xmmToBytes src2 ++ xmmToBytes src1
  sse2PackBytesToXmm ((List.range 16).map fun i => concat.getD (imm8.toNat + i) 0) 0

/-- `apply_palignr512`. -/
def applyPalignr512 (src1 src2 : ZMMRegister) (vectorBits : ℕ) (imm8 : U8) : ZMMRegister :=
  let lane (n : ℕ) (lane1 lane2 : XMMRegister) : XMMRegister :=
    if n < vectorBits / 128 then applyPalignr128 lane1 lane2 imm8 else .zero
  ⟨lane 0 src1.xmm0 src2.xmm0, lane 1 src1.xmm1 src2.xmm1, lane 2 src1.xmm2 src2.xmm2,
    lane 3 src1.xmm3 src2.xmm3⟩

/-- The bytes that `execute_evex_palignr` leaves in its destination. -/
def palignrFinalBytes (info : EVEXDecodedInstructionInfo) (opmask : Fin 8 → U64)
    (destOld computed : ZMMRegister) : List U8 :=
  let hasWritemask : Bool := info.writemask != 0
  let maskBits := if hasWritemask then opmask info.writemask else BitVec.allOnes 64
  (List.range 64).map fun i =>
    if i < info.vectorBits / 8 then
      if !hasWritemask || maskBits.getLsbD i then computed.toBytes.getD i 0
      else if info.zeroing then 0
      else destOld.toBytes.getD i 0
    else 0

/-- The second source of `VPALIGNR`. -/
def readPalignrSource (info : EVEXDecodedInstructionInfo) (inst : EvexInstruction) :
    CpuProgram ZMMRegister := do
  let ctx ← getContext
  let src2Index := decodeMovdqRmIndex ctx inst.operand.modrm
  let isReg : Bool := modField inst.operand.modrm == 3
  if info.vectorBits = 512 then
    if isReg then return ctx.vector.getZmm512 src2Index else readZmmMemory inst.memAddress
  else if info.vectorBits = 256 then
    let value ← if isReg then pure (ctx.vector.getYmm256 src2Index)
      else readYmmMemory inst.memAddress
    return ⟨value.low, value.high, .zero, .zero⟩
  else
    let value ← if isReg then pure (ctx.vector.xmm src2Index) else readXmmMemory inst.memAddress
    return ⟨value, .zero, .zero, .zero⟩

/-- `execute_evex_palignr` behind the decoder. -/
def evexPalignr (info : EVEXDecodedInstructionInfo) (inst : EvexInstruction) :
    CpuProgram Unit := do
  let ctx ← getContext
  let dest := decodeMovdqXmmRegIndex ctx inst.operand.modrm
  let destOld := ctx.vector.getZmm512 dest
  let src1 := ctx.vector.getZmm512 info.source1
  let src2 ← readPalignrSource info inst
  let computed := applyPalignr512 src1 src2 info.vectorBits inst.immediate
  let final := palignrFinalBytes info ctx.vector.opmask destOld computed
  modifyContext fun ctx => { ctx with vector := ctx.vector.setZmm512 dest (.ofBytes final) }

/-! ## `VPINSRB`, `VPINSRW`, `VPINSRD` and `VPINSRQ` -/

/-- `read_pinsr_source_byte`, `read_pinsrw_source_word`, `read_pinsr_source_dword` and
`read_pinsr_source_qword` for their numbers of bytes. -/
def readPinsrSource (size : ℕ) (inst : EvexInstruction) : CpuProgram U64 := do
  let ctx ← getContext
  let reg := decodeMovdqRmIndex ctx inst.operand.modrm
  if size = 1 then
    if modField inst.operand.modrm = 3 then return (getReg8 ctx reg).setWidth 64
    else
      let value ← readMemoryByte inst.memAddress
      return value.setWidth 64
  else if modField inst.operand.modrm = 3 then return getReg (8 * size) ctx reg
  else readMemory size inst.memAddress

/-- `apply_avx_pinsrb128`, `apply_avx_pinsrw128`, `apply_avx_pinsrd128` and
`apply_avx_pinsrq128` for their numbers of bytes. -/
def applyPinsr128 (size : ℕ) (src1 : XMMRegister) (value : U64) (imm8 : U8) : XMMRegister :=
  if size = 1 then
    sse2PackBytesToXmm ((xmmToBytes src1).set (imm8 &&& 0x0F).toNat (value.setWidth 8)) 0
  else if size = 2 then
    let destByte := (imm8 &&& 0x07).toNat * 2
    sse2PackBytesToXmm (((xmmToBytes src1).set destByte (value.setWidth 8)).set (destByte + 1)
      ((value >>> 8).setWidth 8)) 0
  else if size = 4 then setXmmLaneBits src1 (imm8 &&& 0x03).toNat (value.setWidth 32)
  else if imm8 &&& 0x01 ≠ 0 then { src1 with high := value }
  else { src1 with low := value }

/-- `execute_pinsr_common`, and the same part of `execute_evex_pinsrw`. -/
def executePinsrCommon (size : ℕ) (inst : EvexInstruction) (base : XMMRegister) :
    CpuProgram Unit := do
  let value ← readPinsrSource size inst
  modifyContext fun ctx =>
    let dest := decodeMovdqXmmRegIndex ctx inst.operand.modrm
    let result := applyPinsr128 size base value inst.immediate
    { ctx with vector := ctx.vector.setXmm128 dest result }

/-- The part of `execute_evex_pinsr` and `execute_evex_pinsrw` that ends both. -/
def clearPinsrUpper (inst : EvexInstruction) : CpuProgram Unit :=
  modifyContext fun ctx =>
    { ctx with
      vector := ctx.vector.clearYmmUpper128 (decodeMovdqXmmRegIndex ctx inst.operand.modrm) }

/-- `execute_evex_pinsrw` behind the decoder. -/
def evexPinsrw (info : EVEXDecodedInstructionInfo) (inst : EvexInstruction) :
    CpuProgram Unit := do
  let value ← readPinsrSource 2 inst
  if ← cpuHasException then return ()
  modifyContext fun ctx =>
    let dest := decodeMovdqXmmRegIndex ctx inst.operand.modrm
    let result := applyPinsr128 2 (ctx.vector.xmm info.source1) value inst.immediate
    { ctx with vector := ctx.vector.setXmm128 dest result }
  clearPinsrUpper inst

/-- `execute_evex_pinsr` behind the decoder. -/
def evexPinsr (info : EVEXDecodedInstructionInfo) (inst : EvexInstruction) :
    CpuProgram Unit := do
  let ctx ← getContext
  let useQword : Bool :=
    inst.opcode == 0x22 && ctx.cs.descriptor.longMode && ctx.prefixBits.rexW
  let size := if inst.opcode = 0x20 then 1 else if useQword then 8 else 4
  executePinsrCommon size inst (ctx.vector.xmm info.source1)
  if ← cpuHasException then return ()
  clearPinsrUpper inst

/-! ## `VPEXTRB`, `VPEXTRD` and `VPEXTRQ` -/

/-- `pextr_extract_byte`, `pextr_extract_dword` and `pextr_extract_qword` for their numbers of
bytes. -/
def pextrExtract (size : ℕ) (source : XMMRegister) (imm8 : U8) : U64 :=
  if size = 1 then ((xmmToBytes source).getD (imm8 &&& 0x0F).toNat 0).setWidth 64
  else if size = 4 then (getXmmLaneBits source (imm8 &&& 0x03).toNat).setWidth 64
  else if imm8 &&& 0x01 ≠ 0 then source.high
  else source.low

/-- `pextr_write_byte_destination`, `pextr_write_dword_destination` and
`pextr_write_qword_destination` for their numbers of bytes. -/
def pextrWriteDestination (size : ℕ) (inst : EvexInstruction) (value : U64) :
    CpuProgram Unit := do
  if modField inst.operand.modrm = 3 then
    modifyContext fun ctx =>
      let regSize := if size = 1 then if ctx.cs.descriptor.longMode then 64 else 32 else 8 * size
      setReg regSize ctx (decodeMovdqRmIndex ctx inst.operand.modrm) value
  else if size = 1 then writeMemoryByte inst.memAddress (value.setWidth 8)
  else writeMemory size inst.memAddress value

/-- `execute_pextr_common`. -/
def executePextrCommon (inst : EvexInstruction) (useQword : Bool) : CpuProgram Unit := do
  let ctx ← getContext
  let source := ctx.vector.xmm (decodeMovdqXmmRegIndex ctx inst.operand.modrm)
  let size := if inst.opcode = 0x14 then 1 else if useQword then 8 else 4
  pextrWriteDestination size inst (pextrExtract size source inst.immediate)

/-- `execute_evex_pextr` behind the decoder. -/
def evexPextr (info : EVEXDecodedInstructionInfo) (inst : EvexInstruction) :
    CpuProgram Unit := do
  if info.source1 ≠ 0x0F then raiseUd
  else
    let ctx ← getContext
    let useQword : Bool :=
      inst.opcode == 0x16 && ctx.cs.descriptor.longMode && ctx.prefixBits.rexW
    executePextrCommon inst useQword

/-! ## The handlers -/

/-- The instructions with an EVEX prefix, by their opcodes. -/
inductive EvexOp where
  | palignr
  | pinsrw
  | pinsrb
  | pinsrd
  | pextrb
  | pextrd
  deriving DecidableEq, Repr

namespace EvexOp

/-- The opcode. -/
def opcode : EvexOp → U8
  | palignr => 0x0F
  | pinsrw => 0xC4
  | pinsrb => 0x20
  | pinsrd => 0x22
  | pextrb => 0x14
  | pextrd => 0x16

/-- The arguments with which the handler calls `decode_evex_modrm_imm_instruction`. -/
def format : EvexOp → EvexFormat
  | palignr => ⟨0x0F, 0x03, 0x01, [128, 256, 512], true, true⟩
  | pinsrw => ⟨0xC4, 0x01, 0x01, [128], false, false⟩
  | pinsrb => ⟨0x20, 0x03, 0x01, [128], false, false⟩
  | pinsrd => ⟨0x22, 0x03, 0x01, [128], false, false⟩
  | pextrb => ⟨0x14, 0x03, 0x01, [128], false, false⟩
  | pextrd => ⟨0x16, 0x03, 0x01, [128], false, false⟩

/-- What the handler does with the decoded instruction. -/
def body : EvexOp → EVEXDecodedInstructionInfo → EvexInstruction → CpuProgram Unit
  | palignr => evexPalignr
  | pinsrw => evexPinsrw
  | pinsrb | pinsrd => evexPinsr
  | pextrb | pextrd => evexPextr

/-- `execute_evex_palignr`, `execute_evex_pinsrw`, `execute_evex_pinsr` and
`execute_evex_pextr`. -/
def execute (op : EvexOp) (code : List U8) : CpuProgram Unit := do
  match ← decodeEvexModrmImmInstruction op.format code with
  | none => return ()
  | some (info, inst) =>
    if ← cpuHasException then return ()
    op.body info inst

/-- The instruction of an opcode. -/
def ofOpcode (opcode : U8) : Option EvexOp :=
  [palignr, pinsrw, pinsrb, pinsrd, pextrb, pextrd].find? fun op => op.opcode == opcode

end EvexOp

/-- The handler that `cpu_decode_instruction` takes for bytes with an EVEX prefix, if any. -/
def evexHandler (code : List U8) : Option (CpuProgram Unit) :=
  if code.headD 0 = 0x62 ∧ 7 ≤ code.length then
    (EvexOp.ofOpcode (code.getD 4 0)).map fun op => op.execute code
  else none

end Cpueaxh
