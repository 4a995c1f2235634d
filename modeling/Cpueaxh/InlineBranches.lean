/-
# Branches in line and out of line

Conditional jumps and near returns are executed in line when the decoder finds them in
their common form.  The conditional jumps have a handler as well, `execute_jcc` of
`instructions/jcc.hpp`, for all other forms.  The near returns have none: `execute_ret` of
`instructions/ret.hpp` is the far return.

Here are the bytes of both: the part of `cpu_decode_instruction` that chooses the inline
forms, and the two handlers from their prefix loops on.
-/
import Cpueaxh.ControlFlow
import Cpueaxh.Pop

namespace Cpueaxh

/-! ## The inline forms -/

/-- `cpu_decode_segment_override`. -/
def cpuDecodeSegmentOverride (b : U8) : ℤ :=
  if b = 0x26 then 0
  else if b = 0x2E then 1
  else if b = 0x36 then 2
  else if b = 0x3E then 3
  else if b = 0x64 then 4
  else if b = 0x65 then 5
  else -1

/-- `peek_segment_override`: the last override among the prefixes. -/
def peekSegmentOverride (prefixes : List U8) : ℤ :=
  prefixes.foldl (fun found b =>
    if 0 ≤ cpuDecodeSegmentOverride b then cpuDecodeSegmentOverride b else found) (-1)

/-- The loop of `decode_near_ret_operand_size`: the number of prefixes, and whether there is
an operand size prefix among them. -/
def scanNearRet (allowsRex : Bool) (len : ℕ) (override : Bool) : List U8 → ℕ × Bool
  | [] => (len, override)
  | b :: buf =>
    if b = 0x66 then scanNearRet allowsRex (len + 1) true buf
    else if [0x67, 0xF0, 0xF2, 0xF3, 0x26, 0x2E, 0x36, 0x3E, 0x64, 0x65].contains b then
      scanNearRet allowsRex (len + 1) override buf
    else if allowsRex && isRexPrefix b then scanNearRet allowsRex (len + 1) override buf
    else (len, override)

/-- `decode_near_ret_operand_size`: the number of prefixes and the operand size. -/
def decodeNearRetOperandSize (ctx : CpuContext) (buf : List U8) : ℕ × ℕ :=
  match scanNearRet ctx.is64BitCode 0 false buf with
  | (len, override) =>
    (len, if ctx.is64BitCode then if override then 16 else 64 else if override then 16 else 32)

/-- `cpu_decoder_set_inline_ret`. -/
def cpuDecoderSetInlineRet (dec : DecodedInst) (prefixLen operandSize : ℕ) (imm16 : Option U16) :
    DecodedInst :=
  { dec with
    inlineKind := if imm16.isSome then .retNearImm16 else .retNearNoImm
    nearRetPrefixLen := prefixLen
    nearRetOpSize := operandSize
    inlineImm16 := imm16.getD 0
    length := prefixLen + if imm16.isSome then 3 else 1
    flags := { dec.flags with branch := true, inlineRet := true } }

/-- What `cpu_decode_instruction` has recorded when it comes to the inline forms.  Their
opcodes are branches, none is an escape, and none touches the vector state. -/
def decodedBranch (buf : List U8) (prefixLen : ℕ) : DecodedInst :=
  { DecodedInst.clear with
    flags := { DecodedFlags.none with branch := true, knownNotEscape := true }
    bytes := buf
    segmentOverride := peekSegmentOverride (buf.take prefixLen) }

/-- The part of `cpu_decode_instruction` on the inline forms; `none` is any other outcome. -/
def cpuDecodeInline (ctx : CpuContext) (buf : List U8) : Option DecodedInst :=
  match peekOpcode ctx buf with
  | none => none
  | some (opc, prefixLen) =>
    let dec := decodedBranch buf prefixLen
    if opc = 0xC3 then
      match decodeNearRetOperandSize ctx buf with
      | (len, size) => some (cpuDecoderSetInlineRet dec len size none)
    else if opc = 0xC2 then
      match decodeNearRetOperandSize ctx buf with
      | (len, size) =>
        match buf.drop (len + 1) with
        | low :: high :: _ =>
          some (cpuDecoderSetInlineRet dec len size
            (some (low.setWidth 16 ||| high.setWidth 16 <<< 8)))
        | _ => none
    else if prefixLen = 0 ∧ 0x70 ≤ opc ∧ opc ≤ 0x7F ∧ ctx.cs.descriptor.longMode = true then
      match buf with
      | _ :: disp :: _ =>
        some { dec with
          inlineKind := .jccShortLongmode
          inlineJccCond := opc.setWidth 8 &&& 0x0F
          inlineJccDisp := disp
          length := 2 }
      | _ => none
    else if prefixLen = 0 ∧ 0x0F80 ≤ opc ∧ opc ≤ 0x0F8F ∧ ctx.cs.descriptor.longMode = true then
      match buf with
      | _ :: _ :: b₀ :: b₁ :: b₂ :: b₃ :: _ =>
        some { dec with
          inlineKind := .jccNearLongmode
          inlineJccCond := opc.setWidth 8 &&& 0x0F
          inlineJccDisp32 := b₀.setWidth 32 ||| b₁.setWidth 32 <<< 8 ||| b₂.setWidth 32 <<< 16
            ||| b₃.setWidth 32 <<< 24
          length := 6 }
      | _ => none
    else none

/-- The decoded instruction with a handler in the place of the inline form. -/
def DecodedInst.outOfLine (dec : DecodedInst) (handler : List U8 → Handler) : DecodedInst :=
  { dec with
    handler := some handler
    fastHandler := none
    inlineKind := .none
    flags := { dec.flags with inlineRet := false } }

/-! ## Conditional jumps -/

/-- `eval_condition`. -/
def evalCondition (ctx : CpuContext) (cond : U8) : Bool :=
  let cf := ctx.rflags &&& 0x1 != 0
  let pf := ctx.rflags &&& 0x4 != 0
  let zf := ctx.rflags &&& 0x40 != 0
  let sf := ctx.rflags &&& 0x80 != 0
  let of := ctx.rflags &&& 0x800 != 0
  match (cond &&& 0x0F).toNat with
  | 0x0 => of
  | 0x1 => !of
  | 0x2 => cf
  | 0x3 => !cf
  | 0x4 => zf
  | 0x5 => !zf
  | 0x6 => cf || zf
  | 0x7 => !cf && !zf
  | 0x8 => sf
  | 0x9 => !sf
  | 0xA => pf
  | 0xB => !pf
  | 0xC => sf != of
  | 0xD => sf == of
  | 0xE => zf || (sf != of)
  | _ => !zf && (sf == of)

/-- `jcc_branch` or the instruction behind, as `execute_jcc_short` and its siblings do. -/
def branchIf (taken : Bool) (nextRip disp : U64) (operandSize : ℕ) : CpuProgram Unit := do
  let _ ← cpuAssignRipChecked (if taken then nextRip + disp else nextRip) operandSize

/-- `execute_jcc_short` and `execute_jcc_near`. -/
def executeJccRel (cond : U8) (rel nextRip : U64) (operandSize : ℕ) : CpuProgram Unit := do
  let ctx ← getContext
  branchIf (evalCondition ctx cond) nextRip rel operandSize

/-- `RCX`, `ECX` or `CX`. -/
def CpuContext.loopCount (ctx : CpuContext) (addrSize : ℕ) : U64 :=
  if addrSize = 64 then ctx.regs 1
  else if addrSize = 32 then ctx.regs 1 &&& 0xFFFFFFFF
  else ctx.regs 1 &&& 0xFFFF

/-- `execute_jcxz`. -/
def executeJcxz (rel8 : U8) (nextRip : U64) (addrSize operandSize : ℕ) : CpuProgram Unit := do
  let ctx ← getContext
  branchIf (ctx.loopCount addrSize == 0) nextRip (rel8.signExtend 64) operandSize

/-- `decrement_loop_count`. -/
def decrementLoopCount (addrSize : ℕ) : CpuProgram U64 := do
  let ctx ← getContext
  let mask : U64 :=
    if addrSize = 64 then BitVec.allOnes 64 else if addrSize = 32 then 0xFFFFFFFF else 0xFFFF
  let count := (ctx.regs 1 - 1) &&& mask
  modifyContext fun ctx =>
    { ctx with regs := Function.update ctx.regs 1 (ctx.regs 1 &&& ~~~mask ||| count) }
  return count

/-- `execute_loopcc`. -/
def executeLoopcc (opcode rel8 : U8) (nextRip : U64) (addrSize operandSize : ℕ) :
    CpuProgram Unit := do
  let count ← decrementLoopCount addrSize
  let ctx ← getContext
  let zf := ctx.rflags &&& 0x40 != 0
  let branch := count != 0 && if opcode = 0xE0 then !zf else if opcode = 0xE1 then zf else true
  branchIf branch nextRip (rel8.signExtend 64) operandSize

/-- The local variables of the prefix loop of `execute_jcc`. -/
structure JccPrefixes where
  rexW : Bool
  operandSizeOverride : Bool
  addressSizeOverride : Bool
  hasLock : Bool
  deriving DecidableEq, Repr

/-- The prefix loop of `execute_jcc`, which takes REX prefixes in every mode. -/
def scanJccPrefixes (bits : PrefixBits) (found : JccPrefixes) :
    List U8 → PrefixBits × JccPrefixes × List U8
  | [] => (bits, found, [])
  | b :: code =>
    if b = 0x66 then scanJccPrefixes bits { found with operandSizeOverride := true } code
    else if b = 0x67 then scanJccPrefixes bits { found with addressSizeOverride := true } code
    else if isRexPrefix b then
      scanJccPrefixes (bits.withRex b) { found with rexW := b.getLsbD 3 } code
    else if b = 0xF0 then scanJccPrefixes bits { found with hasLock := true } code
    else if skippedPrefixes.contains b then scanJccPrefixes bits found code
    else (bits, found, b :: code)

/-- The operand size of `execute_jcc`. -/
def CpuContext.jccOperandSize (ctx : CpuContext) (found : JccPrefixes) : ℕ :=
  if ctx.cs.descriptor.longMode then 64
  else if found.rexW then 64
  else if found.operandSizeOverride then 16
  else 32

/-- The address size of `execute_jcc`. -/
def CpuContext.jccAddressSize (ctx : CpuContext) (found : JccPrefixes) : ℕ :=
  if ctx.cs.descriptor.longMode then if found.addressSizeOverride then 32 else 64
  else if found.addressSizeOverride then 16 else 32

/-- The loop over the bytes of a displacement, the lowest first. -/
def relBytes : List U8 → U32
  | [] => 0
  | b :: bytes => b.setWidth 32 ||| relBytes bytes <<< 8

/-- `last_inst_size` and the address of the instruction behind. -/
def endAt (offset : ℕ) : CpuProgram U64 := do
  let ctx ← getContext
  modifyContext fun ctx => { ctx with lastInstSize := offset }
  return ctx.rip + BitVec.ofNat 64 offset

/-- `execute_jcc` for the opcodes of two bytes; the displacement begins at the offset. -/
def executeJccTwoByte (found : JccPrefixes) (offset : ℕ) (opcode2 : U8) (code : List U8) :
    CpuProgram Unit := do
  if opcode2 < 0x80 ∨ 0x8F < opcode2 then raiseUd
  let ctx ← getContext
  let long := ctx.cs.descriptor.longMode
  if long && found.operandSizeOverride then raiseUd
  let immSize := if !long && found.operandSizeOverride then 2 else 4
  if code.length < immSize then raiseGp 0
  else
    let rel := relBytes (code.take immSize)
    let rel : U64 := if immSize = 2 then (rel.setWidth 16).signExtend 64 else rel.signExtend 64
    let nextRip ← endAt (offset + immSize)
    executeJccRel (opcode2 &&& 0x0F) rel nextRip (ctx.jccOperandSize found)

/-- `execute_jcc` behind its prefixes, which are so many bytes. -/
def executeJccOpcode (found : JccPrefixes) (offset : ℕ) : List U8 → CpuProgram Unit
  | [] => raiseGp 0
  | opcode :: code => do
    let ctx ← getContext
    if ctx.hasException then return ()
    if 0xE0 ≤ opcode ∧ opcode ≤ 0xE3 then
      match code with
      | [] => raiseGp 0
      | rel8 :: _ =>
        let nextRip ← endAt (offset + 2)
        if opcode = 0xE3 then
          executeJcxz rel8 nextRip (ctx.jccAddressSize found) (ctx.jccOperandSize found)
        else
          executeLoopcc opcode rel8 nextRip (ctx.jccAddressSize found) (ctx.jccOperandSize found)
    else if 0x70 ≤ opcode ∧ opcode ≤ 0x7F then
      match code with
      | [] => raiseGp 0
      | rel8 :: _ =>
        let nextRip ← endAt (offset + 2)
        executeJccRel (opcode &&& 0x0F) (rel8.signExtend 64) nextRip (ctx.jccOperandSize found)
    else if opcode = 0x0F then
      match code with
      | [] => raiseGp 0
      | opcode2 :: code => executeJccTwoByte found (offset + 2) opcode2 code
    else raiseUd

/-- `execute_jcc`. -/
def executeJccBytes (code : List U8) : CpuProgram Unit := do
  let ctx ← getContext
  match scanJccPrefixes ctx.prefixBits ⟨false, false, false, false⟩ code with
  | (bits, found, rest) =>
    modifyContext fun ctx => { ctx with prefixBits := bits }
    if found.hasLock then raiseUd
    executeJccOpcode found (code.length - rest.length) rest

/-! ## Returns -/

/-- The prefix loop of `decode_ret_instruction`: the prefix bits, whether there is a `LOCK`, and
the bytes from the opcode on. -/
def scanRetPrefixes (allowsRex : Bool) (bits : PrefixBits) (hasLock : Bool) :
    List U8 → PrefixBits × Bool × List U8
  | [] => (bits, hasLock, [])
  | b :: code =>
    if b = 0x66 then
      scanRetPrefixes allowsRex { bits with operandSizeOverride := true } hasLock code
    else if b = 0x67 then
      scanRetPrefixes allowsRex { bits with addressSizeOverride := true } hasLock code
    else if allowsRex && isRexPrefix b then
      scanRetPrefixes allowsRex (bits.withRex b) hasLock code
    else if b = 0xF0 then scanRetPrefixes allowsRex bits true code
    else if skippedPrefixes.contains b then scanRetPrefixes allowsRex bits hasLock code
    else (bits, hasLock, b :: code)

/-- What the execution of a return reads of the decoded instruction. -/
structure RetInst where
  operandSize : ℕ
  addressSize : ℕ
  immediate : U16
  deriving DecidableEq, Repr

/-- The end of `decode_ret_instruction`, with the size of the instruction. -/
def finishRet (size : ℕ) (immediate : U16) : CpuProgram RetInst := do
  let ctx ← getContext
  modifyContext fun ctx => { ctx with lastInstSize := size }
  return ⟨decodeRetFarOperandSize ctx, ctx.stackAddressSize, immediate⟩

/-- `decode_ret_instruction` for the opcode of the form that releases an immediate and that of
the form that does not. -/
def decodeReturn (release plain : U8) (code : List U8) : CpuProgram RetInst := do
  let ctx ← getContext
  match scanRetPrefixes ctx.is64BitCode .clear false code with
  | (bits, hasLock, rest) =>
    modifyContext fun ctx => { ctx with prefixBits := bits }
    match rest with
    | [] =>
      raiseGp 0
      return ⟨0, 0, 0⟩
    | opcode :: operand =>
      if opcode ≠ release ∧ opcode ≠ plain then raiseUd
      if hasLock then raiseUd
      if opcode = release then
        match operand with
        | low :: high :: rest =>
          finishRet (code.length - rest.length) (low.setWidth 16 ||| high.setWidth 16 <<< 8)
        | _ =>
          raiseGp 0
          return ⟨0, 0, 0⟩
      else finishRet (code.length - operand.length) 0

/-- `decode_ret_instruction`. -/
def decodeRetInstruction (code : List U8) : CpuProgram RetInst := decodeReturn 0xCA 0xCB code

/-- `execute_ret`. -/
def executeRetBytes (code : List U8) : Handler := do
  let inst ← cpuPart (decodeRetInstruction code)
  if ← cpuPart cpuHasException then return ()
  Program.perform (HandlerOp.far (.ret inst.operandSize inst.addressSize inst.immediate))

/-- `ret_far_adjust_stack`. -/
def retFarAdjustStack (adjustment : U16) : CpuProgram Unit :=
  modifyContext fun ctx =>
    cpuSetStackPointerValue ctx ctx.stackAddressSize (ctx.regs regRsp + adjustment.setWidth 64)

end Cpueaxh
