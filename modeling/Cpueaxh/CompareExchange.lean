/-
# CMPXCHG8B and CMPXCHG16B

The instructions of `instructions/cmpxchg8b16b.hpp`.  The decoder computes the address of the
operand and checks its alignment before it knows the length of the instruction; an operand
relative to the instruction pointer then gets its address anew.  A `LOCK` prefix is skipped.
-/
import Cpueaxh.Evex
import Cpueaxh.RegisterOperands

namespace Cpueaxh

open ByteOrder HostMemory

/-! ## Sixteen bytes -/

/-- `cpu_write_linear_bytes`. -/
def writeLinearBytes (address : U64) (bytes : List U8) : CpuProgram Unit := do
  if ← cpuHasException then return ()
  match ← cpuTryGetContiguousPtr address bytes.length true with
  | some p => commitBytes (consecutive p bytes.length 0) bytes
  | none =>
    if ← cpuHasException then return ()
    match ← resolveBytes true address bytes.length 0 with
    | none => return ()
    | some ptrs => commitBytes ptrs bytes

/-- `write_xmm_memory`. -/
def writeXmmMemory (address : U64) (value : XMMRegister) : CpuProgram Unit := do
  let bytes := littleEndianBytes 8 value.low ++ littleEndianBytes 8 value.high
  if ← cpuHasException then return ()
  let contiguous ← cpuTryGetContiguousPtr address bytes.length true
  if contiguous.isNone && (← cpuHasException) then return ()
  notifyFields .memWrite address bytes [(0, 8), (8, 8)]
  match contiguous with
  | some p => commitBytes (consecutive p bytes.length 0) bytes
  | none => writeLinearBytes address bytes

/-! ## Decoding -/

/-- The bytes that `decode_modrm_cmpxchg8b16b` reads: it looks for a SIB byte behind a register
form too, which it has refused then. -/
def cmpxchgOperandBytes (addressSize : ℕ) (code : List U8) : OperandBytes :=
  match code with
  | [] => { operand := ⟨addressSize, false, 0, false, 0, 0⟩, used := 0, complete := false }
  | modrm :: rest =>
    let op : MemOperand := ⟨addressSize, true, modrm, false, 0, 0⟩
    if rmField modrm = 4 ∧ addressSize ≠ 16 then
      match rest with
      | [] => { operand := op, used := 1, complete := false }
      | sib :: rest => decodeDisplacement { op with hasSib := true, sib := sib } 2 rest
    else decodeDisplacement op 1 rest

/-- `decode_modrm_cmpxchg8b16b`: the operand and its address. -/
def decodeModrmCmpxchg8b16b (code : List U8) : CpuProgram (OperandBytes × U64) := do
  let ctx ← getContext
  let decoded := cmpxchgOperandBytes ctx.decodedAddressSize code
  if decoded.operand.hasModrm = true ∧ regField decoded.operand.modrm ≠ 1 then raiseUd
  if decoded.operand.hasModrm = true ∧ modField decoded.operand.modrm = 3 then raiseUd
  if !decoded.complete then
    raiseGp 0
    return (decoded, 0)
  else
    let address ← getEffectiveAddress decoded.operand 0
    return (decoded, address)

/-- What the execution reads of the decoded instruction. -/
structure CmpxchgInst where
  operandSize : ℕ
  memAddress : U64
  deriving DecidableEq, Repr

/-- The part of `decode_cmpxchg8b16b_instruction` behind the opcode, which ends at the offset.
The answer of `cpu_has_cmpxchg16b_feature` is the host's. -/
def decodeCmpxchgOperand (hasFeature : Bool) (offset : ℕ) (code : List U8) :
    CpuProgram CmpxchgInst := do
  let ctx ← getContext
  let operandSize := if ctx.prefixBits.rexW then 128 else 64
  let (decoded, address) ← decodeModrmCmpxchg8b16b code
  if operandSize = 128 ∧ address &&& 0x0F ≠ 0 then
    raiseGp 0
    return ⟨operandSize, address⟩
  else if operandSize = 128 ∧ hasFeature = false then
    raiseGp 0
    return ⟨operandSize, address⟩
  else
    let instSize := offset + decoded.used
    let address ← finalizedAddress decoded.operand address instSize
    modifyContext fun ctx => { ctx with lastInstSize := instSize }
    return ⟨operandSize, address⟩

/-- `decode_cmpxchg8b16b_instruction`. -/
def decodeCmpxchg8b16bInstruction (hasFeature : Bool) (code : List U8) :
    CpuProgram CmpxchgInst := do
  match scanPrefixes .clear false code with
  | (bits, _, rest) =>
    modifyContext fun ctx => { ctx with prefixBits := bits }
    match rest with
    | escape :: opcode :: operand =>
      if escape ≠ 0x0F then raiseUd
      if opcode ≠ 0xC7 then raiseUd
      decodeCmpxchgOperand hasFeature (code.length - operand.length) operand
    | _ =>
      raiseGp 0
      return ⟨0, 0⟩

/-! ## Execution -/

/-- `execute_cmpxchg8b_memory`. -/
def executeCmpxchg8bMemory (memAddress : U64) : CpuProgram Unit := do
  let destination ← readMemory 8 memAddress
  let ctx ← getContext
  let compareValue := (getReg 32 ctx regRdx <<< 32) ||| getReg 32 ctx regRax
  if destination = compareValue then
    let sourceValue := (getReg 32 ctx regRcx <<< 32) ||| getReg 32 ctx regRbx
    writeMemory 8 memAddress sourceValue
    modifyContext fun ctx => setFlag ctx rflagsZf true
  else
    modifyContext fun ctx => setReg 32 ctx regRax destination
    modifyContext fun ctx => setReg 32 ctx regRdx (destination >>> 32)
    modifyContext fun ctx => setFlag ctx rflagsZf false

/-- `execute_cmpxchg16b_memory`. -/
def executeCmpxchg16bMemory (memAddress : U64) : CpuProgram Unit := do
  let destination ← readXmmMemory memAddress
  let ctx ← getContext
  if destination.low = getReg 64 ctx regRax ∧ destination.high = getReg 64 ctx regRdx then
    writeXmmMemory memAddress { low := getReg 64 ctx regRbx, high := getReg 64 ctx regRcx }
    modifyContext fun ctx => setFlag ctx rflagsZf true
  else
    modifyContext fun ctx => setReg 64 ctx regRax destination.low
    modifyContext fun ctx => setReg 64 ctx regRdx destination.high
    modifyContext fun ctx => setFlag ctx rflagsZf false

/-- `execute_cmpxchg8b16b`. -/
def executeCmpxchg8b16b (hasFeature : Bool) (code : List U8) : CpuProgram Unit := do
  let inst ← decodeCmpxchg8b16bInstruction hasFeature code
  if ← cpuHasException then return ()
  else if inst.operandSize = 128 then executeCmpxchg16bMemory inst.memAddress
  else if inst.operandSize = 64 then executeCmpxchg8bMemory inst.memAddress
  else raiseUd

end Cpueaxh
