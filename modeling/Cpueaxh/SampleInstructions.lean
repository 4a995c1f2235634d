/-
# Three instructions

`NOP`, `MOV byte [RDI], imm8` and `LEA RAX, [RDI]` of 64-bit code as an instruction set of
their own: enough code for the examples of what a run can do.  All other bytes are
undefined here, but for the escapes.

A fast handler is attached when the probe of the decoder raises nothing, so not over a
pending exception; `LEA` has none at all, and so its length is not recorded.
-/
import Cpueaxh.EngineApi

namespace Cpueaxh

/-- The prefix bits of an instruction with one REX prefix at most. -/
def rexBits (present w : Bool) : PrefixBits where
  rexPresent := present
  rexW := w
  rexR := false
  rexX := false
  rexB := false
  operandSizeOverride := false
  addressSizeOverride := false

/-- Record the prefixes and the size of the instruction. -/
def recordDecode (bits : PrefixBits) (size : ℕ) : CpuProgram Unit :=
  modifyContext fun ctx => { ctx with prefixBits := bits, lastInstSize := size }

/-- `execute_nop`. -/
def executeNop : CpuProgram Unit := recordDecode (rexBits false false) 1

/-- `execute_mov` on `C6 07 ib`. -/
def executeMovByte (imm : U8) : CpuProgram Unit := do
  recordDecode (rexBits false false) 3
  let ctx ← getContext
  writeMemoryByte (ctx.regs 7) imm

/-- `execute_lea` on `48 8D 07`. -/
def executeLea : CpuProgram Unit := do
  recordDecode (rexBits true true) 3
  if ← cpuHasException then return ()
  modifyContext fun ctx => { ctx with regs := Function.update ctx.regs 0 (ctx.regs 7) }

/-- An instruction with a handler; `fast` is its length if it has a fast handler too. -/
def decodedWith (ctx : CpuContext) (bytes : List U8) (code : CpuProgram Unit) (fast : Option ℕ)
    (noFault : Bool) : DecodedInst :=
  let length := if ctx.hasException then none else fast
  { DecodedInst.clear with
    handler := some fun _ => handlerOf code
    fastHandler := length.map fun _ => handlerOf code
    length := length.getD 0
    flags := { DecodedFlags.none with noFault := noFault, knownNotEscape := true }
    bytes := bytes
    segmentOverride := -1 }

/-- An instruction that raises an exception at once. -/
def decodedFault (bytes : List U8) (fault : U32) : DecodedInst :=
  { DecodedInst.clear with
    flags := { DecodedFlags.none with
      ud := fault == cpuExceptionUd
      bp := fault == cpuExceptionBp
      db := fault == cpuExceptionDb }
    bytes := bytes
    segmentOverride := -1 }

/-- The decoder. -/
def sampleDecode (ctx : CpuContext) (bytes : List U8) : DecodedInst :=
  match classifyEscapeInstruction ctx bytes with
  | some (id, _) => decodedFault bytes id.fault
  | none =>
    if ctx.is64BitCode then
      match bytes with
      | 0x90 :: _ => decodedWith ctx bytes executeNop (some 1) true
      | 0xC6 :: 0x07 :: imm :: _ => decodedWith ctx bytes (executeMovByte imm) (some 3) false
      | 0x48 :: 0x8D :: 0x07 :: _ => decodedWith ctx bytes executeLea none true
      | _ => decodedFault bytes cpuExceptionUd
    else decodedFault bytes cpuExceptionUd

theorem sampleDecode_bytes (ctx : CpuContext) (bytes : List U8) :
    (sampleDecode ctx bytes).bytes = bytes := by
  unfold sampleDecode
  split
  · rfl
  · split_ifs
    · split <;> rfl
    · rfl

/-- The flags raise the exception of the escape. -/
theorem decodedFault_fault (bytes : List U8) (id : EscapeInsnId) :
    (decodedFault bytes id.fault).flags.fault = some id.fault := by
  cases id <;> rfl

/-- The three instructions. -/
def sampleSet : InstructionSet where
  decode := sampleDecode
  bytes_eq ctx bytes := Or.inr (sampleDecode_bytes ctx bytes)
  escape_fault ctx bytes id size h _ := by
    refine ⟨sampleDecode_bytes ctx bytes, ?_⟩
    unfold sampleDecode
    rw [h]
    exact decodedFault_fault bytes id
  not_escape ctx bytes h := by
    unfold sampleDecode at h
    split at h
    · cases h
    · assumption

end Cpueaxh
