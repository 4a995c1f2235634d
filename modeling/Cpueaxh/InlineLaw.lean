/-
# Inline branches do what their handlers do

A step with an inline form is compared with the step with a handler in its place, on the
same bytes and from the same CPU.  The conditional jumps have `execute_jcc`.  For the near
returns the source has no handler, and its `execute_ret` refuses their opcodes; they are
compared with a plain near return that is put together from the parts of the other
handlers.

A `LOCK` prefix, which every handler refuses, is not looked at in line.
-/
import Cpueaxh.InlineBranches
import Cpueaxh.BlindPrograms
import Cpueaxh.EscapeEncoding
import Cpueaxh.FarRoundTrip

namespace Cpueaxh

open Program (Related)

variable {cpu : Cpu} {ctx : CpuContext} {bytes : List U8} {dec : DecodedInst}

/-! ## Steps that agree -/

/-- **A near return out of line**, of the parts that the handlers have: the decoder of the far
return with the opcodes of the near one, a pop of the operand size, the checked assignment of
`rip`, and `ret_far_adjust_stack`. -/
def plainNearRet (code : List U8) : CpuProgram Unit := do
  let inst ← decodeReturn 0xC2 0xC3 code
  if ← cpuHasException then return ()
  let target ← popValue (operandBytes inst.operandSize)
  if ← cpuHasException then return ()
  if ← cpuAssignRipChecked target inst.operandSize then retFarAdjustStack inst.immediate
  else return ()

/-- **The step with the handler** has the result of the step with the inline form, and leaves
the same memory and the same context, scratch fields excepted. -/
def Cpu.AgreesWith (cpu : Cpu) (dec : DecodedInst) (handler : List U8 → Handler) : Prop :=
  let inline := cpu.dispatchDecoded dec cpu.context.rip
  let plain := cpu.dispatchDecoded (dec.outOfLine handler) cpu.context.rip
  plain.1 = inline.1 ∧ SameButScratch inline.2 plain.2

/-- **The step with the handler** raises `#UD` and does nothing else. -/
def Cpu.RefusedBy (cpu : Cpu) (dec : DecodedInst) (handler : List U8 → Handler) : Prop :=
  let plain := cpu.dispatchDecoded (dec.outOfLine handler) cpu.context.rip
  plain.1 = .exception ∧ SameButScratch (cpu.raised .ud 0) plain.2

/-- The code of an instruction ends in the same CPU, or in a fault that is rolled back to the
same CPU. -/
inductive FinishesAlike (c c' : Cpu) : Prop
  | same (h : SameButScratch c c')
  | fault (hexc : c.context.hasException = true) (eq : c' = c.setContext c'.context)
      (exception_eq : c'.context.exception = c.context.exception)
      (vector_eq : c'.context.vector = c.context.vector)
      (processorId_eq : c'.context.processorId = c.context.processorId)
      (cr2_eq : c'.context.controlRegs regCr2 = c.context.controlRegs regCr2)

/-- The decoded instruction is an inline branch. -/
structure DecodedInst.InlineBranch (dec : DecodedInst) : Prop where
  flags : dec.flags = { DecodedFlags.none with
    branch := true
    knownNotEscape := true
    inlineRet := dec.flags.inlineRet }
  length : dec.length ≠ 0
  code : dec.code.2 = false

/-- The CPU when the code of the instruction begins. -/
def Cpu.beginning (cpu : Cpu) (dec : DecodedInst) : Cpu :=
  cpu.setSegmentOverride dec.segmentOverride

/-- A branch that is decoded runs its code under a snapshot. -/
theorem dispatchDecoded_branch (dec' : DecodedInst) (hflags : dec'.flags.fault = none)
    (hfaults : dec'.flags.noFault = false) (hlength : dec'.length ≠ 0) (hcode : dec'.code.2 = false)
    (ripPre : U64) :
    cpu.dispatchDecoded dec' ripPre =
      ((dec'.code.1.run handlerOp (cpu.beginning dec')).2).finish dec'
        (some (cpu.beginning dec').context) .ok := by
  unfold DecodedFlags.fault at hflags
  split_ifs at hflags with hud hbp hdb
  have hnotify : cpu.notifyFetchedBytes dec' = cpu := by
    unfold Cpu.notifyFetchedBytes
    rw [if_neg]
    simp [hlength]
  unfold Cpu.dispatchDecoded Cpu.runCode
  rw [hnotify, if_neg hud, if_neg hbp, if_neg hdb, hcode, hfaults]
  simp only [Bool.and_false, Bool.false_eq_true, if_false]
  rfl

namespace DecodedInst.InlineBranch

variable (h : dec.InlineBranch) (handler : List U8 → Handler) (ripPre : U64)

include h

theorem fault_eq : dec.flags.fault = none := by
  rw [h.flags]
  rfl

theorem noFault_eq : dec.flags.noFault = false := by
  rw [h.flags]
  rfl

theorem partialProgress_eq : ¬ (dec.flags.partialProgress = true) := by
  rw [h.flags]
  exact Bool.false_ne_true

theorem touchesVector_eq : ¬ (dec.flags.touchesVector = true) := by
  rw [h.flags]
  exact Bool.false_ne_true

theorem dispatch_inline : cpu.dispatchDecoded dec ripPre =
    ((dec.code.1.run handlerOp (cpu.beginning dec)).2).finish dec
      (some (cpu.beginning dec).context) .ok :=
  dispatchDecoded_branch dec h.fault_eq h.noFault_eq h.length h.code ripPre

theorem dispatch_outOfLine : cpu.dispatchDecoded (dec.outOfLine handler) ripPre =
    (((handler dec.bytes).run handlerOp (cpu.beginning dec)).2).finish dec
      (some (cpu.beginning dec).context) .ok := by
  have hbranch : dec.flags.branch = true := by
    rw [h.flags]
  have hcode : (dec.outOfLine handler).code = (handler dec.bytes, false) := by
    unfold DecodedInst.code DecodedInst.outOfLine
    rw [hbranch]
    rfl
  rw [dispatchDecoded_branch (dec.outOfLine handler) h.fault_eq h.noFault_eq h.length
    (congrArg Prod.snd hcode), hcode]
  rfl

end DecodedInst.InlineBranch

/-- **Steps whose codes end alike** agree. -/
theorem agreesWith_of_finishesAlike (h : dec.InlineBranch) {handler : List U8 → Handler}
    (hends : FinishesAlike (dec.code.1.run handlerOp (cpu.beginning dec)).2
      ((handler dec.bytes).run handlerOp (cpu.beginning dec)).2) :
    cpu.AgreesWith dec handler := by
  unfold Cpu.AgreesWith
  rw [h.dispatch_inline, h.dispatch_outOfLine]
  revert hends
  generalize (dec.code.1.run handlerOp (cpu.beginning dec)).2 = c
  generalize ((handler dec.bytes).run handlerOp (cpu.beginning dec)).2 = c'
  rintro (hsame | ⟨hexc, heq, hexception, hvectors, hprocessor, hcr2⟩)
  · exact hsame.finish rfl dec .ok
  · have hexc' : c'.context.hasException = true := by
      unfold CpuContext.hasException at hexc ⊢
      rw [hexception]
      exact hexc
    unfold Cpu.finish
    rw [if_pos hexc, if_pos hexc']
    refine ⟨rfl, ?_, ?_⟩
    · rw [heq]
      rfl
    · unfold Cpu.rollback
      dsimp only
      rw [if_neg h.partialProgress_eq, if_neg h.partialProgress_eq, if_neg h.touchesVector_eq,
        if_neg h.touchesVector_eq]
      unfold cpuRestoreScalarSnapshot
      show CpuContext.visible _ = CpuContext.visible _
      unfold Cpu.setSegmentOverride Cpu.setContext CpuContext.visible
      dsimp only
      rw [hexception, hvectors, hprocessor, hcr2]

/-- **A step whose code raises `#UD`** and does nothing else is refused. -/
theorem refusedBy_of_raised (hexc : cpu.context.hasException = false) (h : dec.InlineBranch)
    {handler : List U8 → Handler}
    (hraised : SameButScratch ((cpu.beginning dec).raised .ud 0)
      ((handler dec.bytes).run handlerOp (cpu.beginning dec)).2) :
    cpu.RefusedBy dec handler := by
  have hstart : (cpu.beginning dec).context.hasException = false := hexc
  have hpending := raised_pending hstart .ud 0
  have hfinish := hraised.finish (rfl : (some (cpu.beginning dec).context).map CpuContext.visible =
    (some (cpu.beginning dec).context).map CpuContext.visible) dec .ok
  unfold Cpu.RefusedBy
  rw [h.dispatch_outOfLine]
  revert hfinish
  generalize (((handler dec.bytes).run handlerOp (cpu.beginning dec)).2).finish dec
    (some (cpu.beginning dec).context) .ok = finished
  unfold Cpu.finish
  rw [if_pos hpending]
  rintro ⟨hresult, heq, hvisible⟩
  refine ⟨hresult, heq, hvisible.trans ?_⟩
  -- the rollback gives back what the code has found, but for the exception
  unfold Cpu.rollback
  dsimp only
  rw [if_neg h.partialProgress_eq, if_neg h.touchesVector_eq]
  unfold Cpu.raised
  rw [raiseException_of_none hstart, raiseException_of_none hexc]
  unfold cpuRestoreScalarSnapshot Cpu.setSegmentOverride Cpu.setContext Cpu.beginning
  dsimp only
  rw [Function.update_eq_self]
  rfl

/-! ## Opcodes -/

/-- What `peek_opcode` has found: a byte, or two bytes behind the escape. -/
theorem peekOpcode_cases {opc : U16} {prefixLen : ℕ} (h : peekOpcode ctx bytes = some (opc, prefixLen)) :
    prefixLen = (instructionPrefixes ctx.is64BitCode bytes).length ∧
      ((∃ b rest, afterPrefixes ctx.is64BitCode bytes = b :: rest ∧ opc = b.setWidth 16) ∨
        ∃ b rest, afterPrefixes ctx.is64BitCode bytes = 0x0F :: b :: rest ∧
          opc = 0x0F00 ||| b.setWidth 16) := by
  unfold peekOpcode at h
  dsimp only at h
  split at h
  · cases h
  · rename_i b hafter
    obtain ⟨hopc, hlen⟩ := Prod.mk.inj (Option.some.inj h)
    exact ⟨hlen.symm, Or.inl ⟨b, [], hafter, hopc.symm⟩⟩
  · rename_i b b' rest hafter
    obtain ⟨hopc, hlen⟩ := Prod.mk.inj (Option.some.inj h)
    refine ⟨hlen.symm, ?_⟩
    by_cases hescape : b = 0x0F
    · rw [if_pos hescape] at hopc
      subst hescape
      exact Or.inr ⟨b', rest, hafter, hopc.symm⟩
    · rw [if_neg hescape] at hopc
      exact Or.inl ⟨b, b' :: rest, hafter, hopc.symm⟩

/-- The opcodes of the short conditional jumps. -/
theorem shortJcc_opcode : ∀ b : U8,
    ((0x70 : U16) ≤ b.setWidth 16 → b.setWidth 16 ≤ (0x7F : U16) → 0x70 ≤ b ∧ b ≤ 0x7F) ∧
      ¬ ((0x0F00 : U16) ||| b.setWidth 16 ≤ 0x7F) := by
  decide +kernel

/-- The opcodes of the near conditional jumps. -/
theorem nearJcc_opcode : ∀ b : U8,
    (((0x0F80 : U16) ≤ 0x0F00 ||| b.setWidth 16) →
      ((0x0F00 : U16) ||| b.setWidth 16 ≤ 0x0F8F) → ¬ (b < 0x80 ∨ 0x8F < b)) ∧
      ¬ ((0x0F80 : U16) ≤ b.setWidth 16) := by
  decide +kernel

/-- The opcodes of the conditional jumps are not prefixes. -/
theorem jccOpcode_notPrefix : ∀ b : U8, (0x70 ≤ b ∧ b ≤ 0x7F) ∨ b = 0x0F →
    b ≠ 0x66 ∧ b ≠ 0x67 ∧ isRexPrefix b = false ∧ b ≠ 0xF0 ∧ skippedPrefixes.contains b = false := by
  decide +kernel

/-! ## Conditional jumps -/

/-- The two tables of the conditions are the same. -/
theorem evalCondition_eq (ctx : CpuContext) (cond : U8) :
    cpuExecutorEvalJccCondition ctx.rflags (cond &&& 0x0F) = evalCondition ctx cond := by
  unfold cpuExecutorEvalJccCondition evalCondition
  generalize (ctx.rflags &&& 0x1 != 0) = cf, (ctx.rflags &&& 0x4 != 0) = pf,
    (ctx.rflags &&& 0x40 != 0) = zf, (ctx.rflags &&& 0x80 != 0) = sf,
    (ctx.rflags &&& 0x800 != 0) = of
  revert cond cf pf zf sf of
  decide +kernel

theorem evalCondition_masked (ctx : CpuContext) (cond : U8) :
    evalCondition ctx (cond &&& 0x0F) = evalCondition ctx cond := by
  unfold evalCondition
  rw [BitVec.and_assoc, BitVec.and_self]

/-- The CPU when `execute_jcc` has read the bytes of the jump. -/
def Cpu.jumping (cpu : Cpu) (size : ℕ) : Cpu :=
  cpu.setContext { cpu.context with lastInstSize := size }

/-- A conditional jump in line ends as the branch of `execute_jcc` does, started at the end of
its bytes. -/
theorem inlineJcc_finishesAlike {cond : U8} (hcond : dec.inlineJccCond = cond &&& 0x0F) (size : ℕ)
    (rel : U64) :
    SameButScratch ((inlineJcc dec size rel).run cpuOp cpu).2
      ((executeJccRel (cond &&& 0x0F) rel (cpu.context.rip + BitVec.ofNat 64 size) 64).run cpuOp
        (cpu.jumping size)).2 := by
  have hjumping : SameButScratch cpu (cpu.jumping size) := ⟨rfl, rfl⟩
  have htaken : evalCondition (cpu.jumping size).context (cond &&& 0x0F) =
      cpuExecutorEvalJccCondition cpu.context.rflags dec.inlineJccCond := by
    rw [evalCondition_masked, hcond, evalCondition_eq]
    rfl
  let target :=
    if cpuExecutorEvalJccCondition cpu.context.rflags dec.inlineJccCond then
      cpu.context.rip + BitVec.ofNat 64 size + rel
    else cpu.context.rip + BitVec.ofNat 64 size
  have hassigned := (blind_assignRipChecked target 64 cpu (cpu.jumping size) hjumping).2
  unfold inlineJcc executeJccRel branchIf
  simp only [Program.run_bind]
  show SameButScratch _ ((cpuAssignRipChecked
    (if evalCondition (cpu.jumping size).context (cond &&& 0x0F) then
      cpu.context.rip + BitVec.ofNat 64 size + rel
    else cpu.context.rip + BitVec.ofNat 64 size) 64).run cpuOp (cpu.jumping size)).2
  rw [htaken]
  -- the inline form notes its size behind the assignment
  exact hassigned.setContext hassigned.visible_eq

/-- The prefix loop stops at once. -/
theorem scanJccPrefixes_opcode {bits : PrefixBits} {found : JccPrefixes} {opcode : U8}
    {code : List U8} (h : (0x70 ≤ opcode ∧ opcode ≤ 0x7F) ∨ opcode = 0x0F) :
    scanJccPrefixes bits found (opcode :: code) = (bits, found, opcode :: code) := by
  obtain ⟨h66, h67, hrex, hlock, hskip⟩ := jccOpcode_notPrefix opcode h
  unfold scanJccPrefixes
  rw [if_neg h66, if_neg h67, hrex, if_neg (by decide), if_neg hlock, hskip, if_neg (by decide)]

/-- The jump has no prefix. -/
def JccPrefixes.none : JccPrefixes := ⟨false, false, false, false⟩

/-- Without a prefix `execute_jcc` begins with the opcode. -/
theorem run_executeJccBytes {opcode : U8} {code : List U8}
    (h : (0x70 ≤ opcode ∧ opcode ≤ 0x7F) ∨ opcode = 0x0F) :
    (executeJccBytes (opcode :: code)).run cpuOp cpu =
      (executeJccOpcode .none 0 (opcode :: code)).run cpuOp cpu := by
  have hscan : scanJccPrefixes (getContext.run cpuOp cpu).1.prefixBits ⟨false, false, false, false⟩
      (opcode :: code) = (cpu.context.prefixBits, .none, opcode :: code) :=
    scanJccPrefixes_opcode h
  have hlock : ¬ (JccPrefixes.none.hasLock = true) := Bool.false_ne_true
  unfold executeJccBytes
  rw [Program.run_bind, hscan]
  dsimp only
  rw [Program.run_bind, if_neg hlock, Nat.sub_self]
  rfl

/-- **A short jump**: what `execute_jcc` does with it in long mode. -/
theorem run_executeJccBytes_short (hexc : cpu.context.hasException = false)
    (hlong : cpu.context.cs.descriptor.longMode = true) {opcode disp : U8} {rest : List U8}
    (hopcode : 0x70 ≤ opcode ∧ opcode ≤ 0x7F) :
    (executeJccBytes (opcode :: disp :: rest)).run cpuOp cpu =
      (executeJccRel (opcode &&& 0x0F) (disp.signExtend 64) (cpu.context.rip + BitVec.ofNat 64 2)
        64).run cpuOp (cpu.jumping 2) := by
  have hloop : ¬ (0xE0 ≤ opcode ∧ opcode ≤ 0xE3) := by bv_omega
  have hsize : (getContext.run cpuOp cpu).1.jccOperandSize .none = 64 := if_pos hlong
  rw [run_executeJccBytes (Or.inl hopcode)]
  unfold executeJccOpcode
  rw [Program.run_bind]
  show Program.run cpuOp (if cpu.context.hasException then pure () else _) cpu = _
  rw [hexc, if_neg Bool.false_ne_true]
  show Program.run cpuOp (if 0xE0 ≤ opcode ∧ opcode ≤ 0xE3 then _ else _) cpu = _
  rw [if_neg hloop, if_pos hopcode]
  dsimp only
  rw [Program.run_bind, hsize]
  rfl

/-- The bytes of a displacement. -/
theorem relBytes_four (b₀ b₁ b₂ b₃ : U8) :
    relBytes [b₀, b₁, b₂, b₃] = b₀.setWidth 32 ||| b₁.setWidth 32 <<< 8 ||| b₂.setWidth 32 <<< 16
      ||| b₃.setWidth 32 <<< 24 := by
  simp [relBytes, BitVec.shiftLeft_or_distrib, ← BitVec.shiftLeft_add, BitVec.or_assoc]

/-- **A near jump**: what `execute_jcc` does with it in long mode. -/
theorem run_executeJccBytes_near (hexc : cpu.context.hasException = false)
    (hlong : cpu.context.cs.descriptor.longMode = true) {opcode2 b₀ b₁ b₂ b₃ : U8} {rest : List U8}
    (hopcode : ¬ (opcode2 < 0x80 ∨ 0x8F < opcode2)) :
    (executeJccBytes (0x0F :: opcode2 :: b₀ :: b₁ :: b₂ :: b₃ :: rest)).run cpuOp cpu =
      (executeJccRel (opcode2 &&& 0x0F)
        ((b₀.setWidth 32 ||| b₁.setWidth 32 <<< 8 ||| b₂.setWidth 32 <<< 16
          ||| b₃.setWidth 32 <<< 24 : U32).signExtend 64) (cpu.context.rip + BitVec.ofNat 64 6)
        64).run cpuOp (cpu.jumping 6) := by
  have hsize : (getContext.run cpuOp cpu).1.jccOperandSize .none = 64 := if_pos hlong
  rw [run_executeJccBytes (Or.inr rfl), ← relBytes_four]
  unfold executeJccOpcode
  rw [Program.run_bind]
  show Program.run cpuOp (if cpu.context.hasException then pure () else _) cpu = _
  rw [hexc, if_neg Bool.false_ne_true]
  show Program.run cpuOp (executeJccTwoByte .none 2 opcode2 (b₀ :: b₁ :: b₂ :: b₃ :: rest)) cpu = _
  have hnarrow : ¬ (((getContext.run cpuOp cpu).1.cs.descriptor.longMode &&
      JccPrefixes.none.operandSizeOverride) = true) := by
    rw [show JccPrefixes.none.operandSizeOverride = false from rfl, Bool.and_false]
    exact Bool.false_ne_true
  have hwide : ¬ ((!(getContext.run cpuOp cpu).1.cs.descriptor.longMode &&
      JccPrefixes.none.operandSizeOverride) = true) := by
    rw [show JccPrefixes.none.operandSizeOverride = false from rfl, Bool.and_false]
    exact Bool.false_ne_true
  have hlength : ¬ ((b₀ :: b₁ :: b₂ :: b₃ :: rest).length < 4) := by
    simp only [List.length_cons]
    omega
  unfold executeJccTwoByte
  rw [if_neg hopcode, Program.run_bind, if_neg hnarrow, if_neg hwide]
  dsimp only
  rw [if_neg hlength, Program.run_bind, hsize]
  rfl

/-! ## What the decoder chooses -/

/-- The prefixes of the bytes, in the mode of the context. -/
abbrev CpuContext.prefixesOf (ctx : CpuContext) (bytes : List U8) : List U8 :=
  instructionPrefixes ctx.is64BitCode bytes

/-- The decoded return, with what it releases. -/
def decodedRet (ctx : CpuContext) (bytes : List U8) (imm16 : Option U16) : DecodedInst :=
  cpuDecoderSetInlineRet (decodedBranch bytes (ctx.prefixesOf bytes).length)
    (decodeNearRetOperandSize ctx bytes).1 (decodeNearRetOperandSize ctx bytes).2 imm16

/-- The decoded short jump. -/
def decodedShort (bytes : List U8) (opcode disp : U8) : DecodedInst :=
  { decodedBranch bytes 0 with
    inlineKind := .jccShortLongmode
    inlineJccCond := opcode &&& 0x0F
    inlineJccDisp := disp
    length := 2 }

/-- The decoded near jump. -/
def decodedNear (bytes : List U8) (opcode : U8) (disp : U32) : DecodedInst :=
  { decodedBranch bytes 0 with
    inlineKind := .jccNearLongmode
    inlineJccCond := opcode &&& 0x0F
    inlineJccDisp32 := disp
    length := 6 }

/-- The four inline forms. -/
inductive InlineForm (ctx : CpuContext) (bytes : List U8) : DecodedInst → Prop
  | ret (rest : List U8) (hafter : afterPrefixes ctx.is64BitCode bytes = 0xC3 :: rest) :
    InlineForm ctx bytes (decodedRet ctx bytes none)
  | retImm (operand : List U8) (low high : U8) (rest : List U8)
    (hafter : afterPrefixes ctx.is64BitCode bytes = 0xC2 :: operand)
    (hdrop : bytes.drop ((decodeNearRetOperandSize ctx bytes).1 + 1) = low :: high :: rest) :
    InlineForm ctx bytes (decodedRet ctx bytes
      (some (low.setWidth 16 ||| high.setWidth 16 <<< 8)))
  | jccShort (opcode disp : U8) (rest : List U8) (hbytes : bytes = opcode :: disp :: rest)
    (hopcode : 0x70 ≤ opcode ∧ opcode ≤ 0x7F) (hlong : ctx.cs.descriptor.longMode = true) :
    InlineForm ctx bytes (decodedShort bytes opcode disp)
  | jccNear (opcode b₀ b₁ b₂ b₃ : U8) (rest : List U8)
    (hbytes : bytes = 0x0F :: opcode :: b₀ :: b₁ :: b₂ :: b₃ :: rest)
    (hopcode : ¬ (opcode < 0x80 ∨ 0x8F < opcode)) (hlong : ctx.cs.descriptor.longMode = true) :
    InlineForm ctx bytes (decodedNear bytes opcode
      (b₀.setWidth 32 ||| b₁.setWidth 32 <<< 8 ||| b₂.setWidth 32 <<< 16 ||| b₃.setWidth 32 <<< 24))

/-- Without prefixes the opcode comes first. -/
theorem afterPrefixes_of_nil {allowsRex : Bool} (h : 0 = (instructionPrefixes allowsRex bytes).length) :
    afterPrefixes allowsRex bytes = bytes := by
  unfold afterPrefixes
  rw [← h, List.drop_zero]

/-- A one-byte opcode is known from the word that `peek_opcode` returns. -/
theorem byteOpcode_of_word : ∀ b : U8, (b.setWidth 16 = (0xC3 : U16) → b = 0xC3) ∧
    (b.setWidth 16 = (0xC2 : U16) → b = 0xC2) ∧ (0x0F00 ||| b.setWidth 16 : U16) ≠ 0xC3 ∧
      (0x0F00 ||| b.setWidth 16 : U16) ≠ 0xC2 := by
  decide +kernel

/-- **The decoder** chooses one of the four forms. -/
theorem inlineForm_of_decode (hdec : cpuDecodeInline ctx bytes = some dec) :
    InlineForm ctx bytes dec := by
  unfold cpuDecodeInline at hdec
  split at hdec
  · cases hdec
  rename_i opc prefixLen hpeek
  obtain ⟨hlen, hopc⟩ := peekOpcode_cases hpeek
  dsimp only at hdec
  split_ifs at hdec with hc3 hc2 hshort hnear
  · rcases hopc with ⟨b, rest, hafter, rfl⟩ | ⟨b, rest, hafter, rfl⟩
    · obtain rfl := (byteOpcode_of_word b).1 hc3
      subst hlen
      obtain rfl := Option.some.inj hdec
      exact .ret rest hafter
    · exact absurd hc3 (byteOpcode_of_word b).2.2.1
  · rcases hopc with ⟨b, rest, hafter, rfl⟩ | ⟨b, rest, hafter, rfl⟩
    · obtain rfl := (byteOpcode_of_word b).2.1 hc2
      subst hlen
      split at hdec
      · rename_i low high rest' hdrop
        obtain rfl := Option.some.inj hdec
        exact .retImm rest low high rest' hafter hdrop
      · cases hdec
    · exact absurd hc2 (byteOpcode_of_word b).2.2.2
  · obtain ⟨rfl, hlow, hhigh, hlong⟩ := hshort
    rw [afterPrefixes_of_nil hlen] at hopc
    rcases hopc with ⟨b, rest, hbytes, rfl⟩ | ⟨b, rest, hbytes, rfl⟩
    · split at hdec
      · rename_i b' disp rest'
        obtain ⟨rfl, -⟩ := List.cons.inj hbytes
        obtain rfl := Option.some.inj hdec
        rw [(byte_ne_twoByte b').2.2.2]
        exact .jccShort b' disp rest' rfl ((shortJcc_opcode b').1 hlow hhigh) hlong
      · cases hdec
    · exact absurd hhigh (shortJcc_opcode b).2
  · obtain ⟨rfl, hlow, hhigh, hlong⟩ := hnear
    rw [afterPrefixes_of_nil hlen] at hopc
    rcases hopc with ⟨b, rest, hbytes, rfl⟩ | ⟨b, rest, hbytes, rfl⟩
    · exact absurd hlow (nearJcc_opcode b).2
    · split at hdec
      · rename_i b' b'' b₀ b₁ b₂ b₃ rest'
        obtain ⟨rfl, htail⟩ := List.cons.inj hbytes
        obtain ⟨rfl, -⟩ := List.cons.inj htail
        obtain rfl := Option.some.inj hdec
        rw [(byte_ne_twoByte b'').2.1]
        exact .jccNear b'' b₀ b₁ b₂ b₃ rest' rfl ((nearJcc_opcode b'').1 hlow hhigh) hlong
      · cases hdec

/-- The forms are inline branches. -/
theorem InlineForm.inlineBranch (h : InlineForm ctx bytes dec) : dec.InlineBranch := by
  cases h with
  | ret => exact ⟨rfl, Nat.succ_ne_zero _, rfl⟩
  | retImm => exact ⟨rfl, Nat.succ_ne_zero _, rfl⟩
  | jccShort => exact ⟨rfl, Nat.succ_ne_zero _, rfl⟩
  | jccNear => exact ⟨rfl, Nat.succ_ne_zero _, rfl⟩

theorem run_handlerOf (p : CpuProgram Unit) : (handlerOf p).run handlerOp cpu = p.run cpuOp cpu :=
  run_cpuPart p cpu

/-- A conditional jump in line, and what `execute_jcc` comes to on its bytes. -/
theorem jcc_finishesAlike {cond : U8} (hcond : dec.inlineJccCond = cond &&& 0x0F) {size : ℕ} {rel : U64}
    (hcode : dec.code.1 = handlerOf (inlineJcc dec size rel)) {code : List U8}
    (hrun : (executeJccBytes code).run cpuOp cpu =
      (executeJccRel (cond &&& 0x0F) rel (cpu.context.rip + BitVec.ofNat 64 size) 64).run cpuOp
        (cpu.jumping size)) :
    FinishesAlike (dec.code.1.run handlerOp cpu).2
      ((handlerOf (executeJccBytes code)).run handlerOp cpu).2 := by
  rw [hcode, run_handlerOf, run_handlerOf, hrun]
  exact .same (inlineJcc_finishesAlike hcond size rel)

/-- **Conditional jumps**: `execute_jcc` does what the inline form does. -/
theorem jcc_agreesWith (hexc : cpu.context.hasException = false)
    (hmode : cpu.context.cs.descriptor.longMode = ctx.cs.descriptor.longMode)
    (hform : InlineForm ctx bytes dec) (hjcc : dec.flags.inlineRet = false) :
    cpu.AgreesWith dec fun code => handlerOf (executeJccBytes code) := by
  apply agreesWith_of_finishesAlike hform.inlineBranch
  have hstart : (cpu.beginning dec).context.hasException = false := hexc
  cases hform with
  | ret => cases hjcc
  | retImm => cases hjcc
  | jccShort opcode disp rest hbytes hopcode hlong =>
    rw [← hmode] at hlong
    subst hbytes
    exact jcc_finishesAlike rfl rfl (run_executeJccBytes_short hstart hlong hopcode)
  | jccNear opcode b₀ b₁ b₂ b₃ rest hbytes hopcode hlong =>
    rw [← hmode] at hlong
    subst hbytes
    exact jcc_finishesAlike rfl rfl (run_executeJccBytes_near hstart hlong hopcode)

/-! ## The prefixes of a return -/

/-- The legacy prefixes, as the prefix loops list them. -/
theorem isLegacyPrefix_eq : ∀ b : U8, isLegacyPrefix b =
    (b == 0x66 || b == 0x67 || b == 0xF0 || skippedPrefixes.contains b) := by
  decide +kernel

/-- The prefixes that `decode_near_ret_operand_size` skips. -/
theorem nearRetSkipped_eq : ∀ b : U8,
    [0x67, 0xF0, 0xF2, 0xF3, 0x26, 0x2E, 0x36, 0x3E, 0x64, 0x65].contains b =
      (b == 0x67 || b == 0xF0 || skippedPrefixes.contains b) := by
  decide +kernel

section PrefixLoops

variable {allowsRex : Bool} {b : U8} {code : List U8}

/-- A byte that is no legacy prefix but a prefix is a REX prefix. -/
theorem rex_not_legacy (h : isPrefixByte allowsRex b = true) (h66 : b ≠ 0x66)
    (hskip : [0x67, 0xF0, 0xF2, 0xF3, 0x26, 0x2E, 0x36, 0x3E, 0x64, 0x65].contains b = false) :
    (allowsRex && isRexPrefix b) = true := by
  have hlegacy : isLegacyPrefix b = false := by
    rw [nearRetSkipped_eq] at hskip
    rw [isLegacyPrefix_eq, beq_eq_false_iff_ne.mpr h66, Bool.false_or]
    exact hskip
  unfold isPrefixByte at h
  rwa [hlegacy, Bool.false_or] at h

theorem scanNearRet_cons (h : isPrefixByte allowsRex b = true) (len : ℕ) (override : Bool) :
    scanNearRet allowsRex len override (b :: code) =
      scanNearRet allowsRex (len + 1) (override || b == 0x66) code := by
  rw [scanNearRet]
  by_cases h66 : b = 0x66
  · rw [if_pos h66, h66]
    rw [show (override || (0x66 : U8) == 0x66) = true from Bool.or_true override]
  · rw [if_neg h66, beq_eq_false_iff_ne.mpr h66, Bool.or_false]
    by_cases hskip : [0x67, 0xF0, 0xF2, 0xF3, 0x26, 0x2E, 0x36, 0x3E, 0x64, 0x65].contains b = true
    · rw [if_pos hskip]
    · rw [if_neg hskip, if_pos (rex_not_legacy h h66 (Bool.eq_false_iff.mpr hskip))]

theorem scanRetPrefixes_cons (h : isPrefixByte allowsRex b = true) (bits : PrefixBits)
    (hasLock : Bool) : ∃ bits', bits'.operandSizeOverride = (bits.operandSizeOverride || b == 0x66) ∧
      scanRetPrefixes allowsRex bits hasLock (b :: code) =
        scanRetPrefixes allowsRex bits' (hasLock || b == 0xF0) code := by
  rw [scanRetPrefixes]
  by_cases h66 : b = 0x66
  · subst h66
    refine ⟨{ bits with operandSizeOverride := true }, ?_, ?_⟩
    · exact (Bool.or_true _).symm
    · rw [if_pos rfl, show (hasLock || (0x66 : U8) == 0xF0) = hasLock from Bool.or_false hasLock]
  have hoverride : (bits.operandSizeOverride || b == 0x66) = bits.operandSizeOverride := by
    rw [beq_eq_false_iff_ne.mpr h66, Bool.or_false]
  rw [if_neg h66, hoverride]
  by_cases h67 : b = 0x67
  · subst h67
    refine ⟨{ bits with addressSizeOverride := true }, rfl, ?_⟩
    rw [if_pos rfl, show (hasLock || (0x67 : U8) == 0xF0) = hasLock from Bool.or_false hasLock]
  rw [if_neg h67]
  by_cases hrex : (allowsRex && isRexPrefix b) = true
  · have hlock : (b == 0xF0) = false := by
      rw [beq_eq_false_iff_ne]
      rintro rfl
      rw [show isRexPrefix 0xF0 = false from by decide, Bool.and_false] at hrex
      cases hrex
    refine ⟨bits.withRex b, rfl, ?_⟩
    rw [if_pos hrex, hlock, Bool.or_false]
  rw [if_neg hrex]
  refine ⟨bits, rfl, ?_⟩
  by_cases hlock : b = 0xF0
  · subst hlock
    rw [if_pos rfl, show (hasLock || (0xF0 : U8) == 0xF0) = true from Bool.or_true hasLock]
  · have hskip : skippedPrefixes.contains b = true := by
      unfold isPrefixByte at h
      rw [Bool.eq_false_iff.mpr hrex, Bool.or_false, isLegacyPrefix_eq,
        beq_eq_false_iff_ne.mpr h66, beq_eq_false_iff_ne.mpr h67,
        beq_eq_false_iff_ne.mpr hlock, Bool.false_or, Bool.false_or, Bool.false_or] at h
      exact h
    rw [if_neg hlock, if_pos hskip, beq_eq_false_iff_ne.mpr hlock, Bool.or_false]

/-- At a byte that is no prefix both loops stop. -/
theorem scanRet_stop (h : isPrefixByte allowsRex b = false) (len : ℕ) (bits : PrefixBits)
    (override hasLock : Bool) :
    scanNearRet allowsRex len override (b :: code) = (len, override) ∧
      scanRetPrefixes allowsRex bits hasLock (b :: code) = (bits, hasLock, b :: code) := by
  obtain ⟨hlegacy, hrex⟩ := Bool.or_eq_false_iff.mp h
  rw [isLegacyPrefix_eq] at hlegacy
  simp only [Bool.or_eq_false_iff, beq_eq_false_iff_ne] at hlegacy
  obtain ⟨⟨⟨h66, h67⟩, hlock⟩, hskip⟩ := hlegacy
  have hnear : [0x67, 0xF0, 0xF2, 0xF3, 0x26, 0x2E, 0x36, 0x3E, 0x64, 0x65].contains b = false := by
    rw [nearRetSkipped_eq, beq_eq_false_iff_ne.mpr h67, beq_eq_false_iff_ne.mpr hlock, hskip]
    rfl
  rw [scanNearRet, scanRetPrefixes, if_neg h66, if_neg (ne_true_of_eq_false hnear),
    if_neg (ne_true_of_eq_false hrex), if_neg h66, if_neg h67, if_neg (ne_true_of_eq_false hrex),
    if_neg hlock, if_neg (ne_true_of_eq_false hskip)]
  exact ⟨rfl, rfl⟩

end PrefixLoops

/-- **The two prefix loops** stop at the same byte and find the same operand size prefix. -/
theorem scanRet_agree (allowsRex : Bool) (code : List U8) :
    ∀ (len : ℕ) (bits : PrefixBits) (hasLock : Bool), ∃ bits',
      scanNearRet allowsRex len bits.operandSizeOverride code =
          (len + (instructionPrefixes allowsRex code).length, bits'.operandSizeOverride) ∧
        scanRetPrefixes allowsRex bits hasLock code =
          (bits', hasLock || (instructionPrefixes allowsRex code).contains 0xF0,
            afterPrefixes allowsRex code) := by
  induction code with
  | nil =>
    intro len bits hasLock
    exact ⟨bits, rfl, by simp [scanRetPrefixes, instructionPrefixes, afterPrefixes]⟩
  | cons b code ih =>
    intro len bits hasLock
    by_cases hprefix : isPrefixByte allowsRex b = true
    · have hprefixes : instructionPrefixes allowsRex (b :: code) =
          b :: instructionPrefixes allowsRex code := List.takeWhile_cons_of_pos hprefix
      have hafter : afterPrefixes allowsRex (b :: code) = afterPrefixes allowsRex code := by
        unfold afterPrefixes
        rw [hprefixes]
        rfl
      obtain ⟨read, hread, hscan⟩ := scanRetPrefixes_cons hprefix bits hasLock
      obtain ⟨bits', hnear, hret⟩ := ih (len + 1) read (hasLock || b == 0xF0)
      refine ⟨bits', ?_, ?_⟩
      · rw [scanNearRet_cons hprefix, ← hread, hnear, hprefixes, List.length_cons,
          Nat.add_right_comm, Nat.add_assoc]
      · rw [hscan, hret, hprefixes, hafter, List.contains_cons, Bool.or_assoc]
        rw [show ((0xF0 : U8) == b) = (b == 0xF0) from Bool.beq_comm]
    · have hstop := Bool.eq_false_iff.mpr hprefix
      have hprefixes : instructionPrefixes allowsRex (b :: code) = [] :=
        List.takeWhile_cons_of_neg hprefix
      obtain ⟨hnear, hret⟩ := scanRet_stop hstop len bits
        bits.operandSizeOverride hasLock
      refine ⟨bits, ?_, ?_⟩
      · rw [hnear, hprefixes]
        rfl
      · rw [hret, hprefixes, afterPrefixes, hprefixes]
        simp

/-! ## The decoder of a return -/

/-- `decode_near_ret_operand_size` by what the decoder of the handlers finds. -/
theorem decodeNearRet_eq (ctx : CpuContext) (bytes : List U8) : ∃ bits,
    decodeNearRetOperandSize ctx bytes = ((ctx.prefixesOf bytes).length,
      decodeRetFarOperandSize { ctx with prefixBits := bits }) ∧
    scanRetPrefixes ctx.is64BitCode .clear false bytes =
      (bits, (ctx.prefixesOf bytes).contains 0xF0, afterPrefixes ctx.is64BitCode bytes) := by
  obtain ⟨bits, hnear, hret⟩ := scanRet_agree ctx.is64BitCode bytes 0 .clear false
  refine ⟨bits, ?_, ?_⟩
  · unfold decodeNearRetOperandSize
    rw [show (false : Bool) = PrefixBits.clear.operandSizeOverride from rfl, hnear, Nat.zero_add]
    rfl
  · rw [hret, Bool.false_or]

/-- **The decoder of the near returns** does no more than to set scratch fields. -/
theorem run_decodeReturn (hlock : 0xF0 ∉ cpu.context.prefixesOf bytes) {opcode : U8}
    {operand : List U8} {imm16 : U16}
    (hafter : afterPrefixes cpu.context.is64BitCode bytes = opcode :: operand)
    (hopcode : (opcode = 0xC3 ∧ imm16 = 0) ∨ (opcode = 0xC2 ∧ ∃ low high rest,
      operand = low :: high :: rest ∧ imm16 = (low.setWidth 16 ||| high.setWidth 16 <<< 8))) :
    ∃ c, SameButScratch cpu c ∧ (decodeReturn 0xC2 0xC3 bytes).run cpuOp cpu =
      (⟨(decodeNearRetOperandSize cpu.context bytes).2, cpu.context.stackAddressSize, imm16⟩, c) := by
  obtain ⟨bits, hnear, hscan⟩ := decodeNearRet_eq cpu.context bytes
  have hnone : (cpu.context.prefixesOf bytes).contains 0xF0 = false := by
    rw [Bool.eq_false_iff, Ne, List.contains_iff_mem]
    exact hlock
  rw [hnone, hafter] at hscan
  have hread : scanRetPrefixes (getContext.run cpuOp cpu).1.is64BitCode .clear false bytes =
      (bits, false, opcode :: operand) := hscan
  rw [hnear]
  unfold decodeReturn
  rw [Program.run_bind, hread]
  dsimp only
  rw [Program.run_bind]
  rcases hopcode with ⟨rfl, rfl⟩ | ⟨rfl, low, high, rest, rfl, rfl⟩
  · rw [if_neg (by decide), if_neg (by decide), if_neg (by decide)]
    exact ⟨(cpu.setContext { cpu.context with prefixBits := bits }).jumping
      (bytes.length - operand.length), ⟨rfl, rfl⟩, rfl⟩
  · rw [if_neg (by decide), if_neg (by decide), if_pos rfl]
    exact ⟨(cpu.setContext { cpu.context with prefixBits := bits }).jumping
      (bytes.length - rest.length), ⟨rfl, rfl⟩, rfl⟩

/-! ## Near returns -/

theorem decodeNearRet_size (ctx : CpuContext) (bytes : List U8) :
    (decodeNearRetOperandSize ctx bytes).2 = 16 ∨ (decodeNearRetOperandSize ctx bytes).2 = 32 ∨
      (decodeNearRetOperandSize ctx bytes).2 = 64 := by
  unfold decodeNearRetOperandSize
  dsimp only
  split_ifs <;> simp

/-- An assignment that is rejected leaves an exception. -/
theorem assignRip_rejected {value : U64} {operandSize : ℕ}
    (h : ((cpuAssignRipChecked value operandSize).run cpuOp cpu).1 = false) :
    ((cpuAssignRipChecked value operandSize).run cpuOp cpu).2.context.hasException = true := by
  unfold cpuAssignRipChecked cpuValidateCodeOffset at h ⊢
  rw [Program.run_bind, Program.run_bind] at h ⊢
  by_cases hbad : ((getContext.run cpuOp cpu).1.is64BitCode &&
      !cpuIsCanonicalAddress (cpuMaskCodeOffset value operandSize)) = true
  · rw [if_pos hbad] at h ⊢
    exact raiseException_pending cpu.context .gp 0
  · rw [if_neg hbad] at h
    cases h

/-- A release of nothing leaves the stack pointer. -/
theorem setStackPointer_zero (ctx : CpuContext) :
    cpuSetStackPointerValue ctx ctx.stackAddressSize (ctx.regs regRsp + (0 : U16).setWidth 64) =
      ctx := by
  rw [show (0 : U16).setWidth 64 = 0#64 from rfl, BitVec.add_zero, cpuSetStackPointerValue_eq,
    stackWrite_self]
  dsimp only
  rw [Function.update_eq_self]

/-- A release is blind to the scratch fields. -/
theorem blind_retFarAdjustStack (adjustment : U16) : Blind (retFarAdjustStack adjustment) := by
  apply blind_modifyContext
  intro ctx ctx' hctx
  rw [visible_stackAddressSize hctx, visible_regs hctx]
  exact visible_setStackPointer hctx _ _

theorem run_retFarAdjustStack_zero : (retFarAdjustStack 0).run cpuOp cpu = ((), cpu) :=
  congrArg (fun ctx => ((), cpu.setContext (cpu.context.keepMode ctx)))
    (setStackPointer_zero cpu.context)

/-- What is left of an inline return when the target is off the stack. -/
def inlineRetTail (size : ℕ) (imm16 : Option U16) (target : U64) : CpuProgram Unit := do
  let assigned ← cpuAssignRipChecked target size
  match imm16 with
  | none => return ()
  | some imm16 =>
    if size = 64 ∧ !assigned then return ()
    retFarAdjustStack imm16

/-- **The last part** of an inline return ends as that of the plain return does. -/
theorem inlineRetTail_finishesAlike {c : Cpu} (h : SameButScratch cpu c) (size : ℕ)
    (imm16 : Option U16) (target : U64) :
    FinishesAlike ((inlineRetTail size imm16 target).run cpuOp cpu).2
      ((do
        if ← cpuAssignRipChecked target size then retFarAdjustStack (imm16.getD 0)
        else return () : CpuProgram Unit).run cpuOp c).2 := by
  obtain ⟨hvalue, hsame⟩ := blind_assignRipChecked target size cpu c h
  have hrejected := @assignRip_rejected cpu target size
  unfold inlineRetTail
  rw [Program.run_bind, Program.run_bind, ← hvalue]
  revert hsame hrejected
  generalize ((cpuAssignRipChecked target size).run cpuOp cpu) = assigned
  generalize ((cpuAssignRipChecked target size).run cpuOp c).2 = d
  obtain ⟨valid, e⟩ := assigned
  intro hsame hrejected
  dsimp only at hsame hrejected ⊢
  cases valid with
  | true =>
    rw [if_pos rfl]
    cases imm16 with
    | none =>
      rw [Option.getD_none, run_retFarAdjustStack_zero]
      exact .same hsame
    | some imm16 =>
      dsimp only
      rw [if_neg fun hrefused => Bool.false_ne_true hrefused.2]
      exact .same (blind_retFarAdjustStack imm16 e d hsame).2
  | false =>
    rw [if_neg Bool.false_ne_true]
    cases imm16 with
    | none => exact .same hsame
    | some imm16 =>
      dsimp only
      by_cases hsize : size = 64
      · rw [if_pos ⟨hsize, rfl⟩]
        exact .same hsame
      · -- the narrow forms release the bytes over the fault, which takes them back
        rw [if_neg fun hwide => hsize hwide.1]
        obtain ⟨bits, override, n, key, valid, rfl⟩ := hsame.exists_withScratch
        exact .fault (hrejected rfl) rfl rfl rfl rfl rfl

/-- The inline returns, one part after the other. -/
def inlineRet (size lastInstSize : ℕ) (imm16 : Option U16) : CpuProgram Unit := do
  modifyContext fun ctx => { ctx with lastInstSize := lastInstSize }
  let target ← popValue (operandBytes size)
  if ← cpuHasException then return ()
  inlineRetTail size imm16 target

theorem decodedRet_code (ctx : CpuContext) (bytes : List U8) (imm16 : Option U16) :
    ∃ n, (decodedRet ctx bytes imm16).code.1 =
      handlerOf (inlineRet (decodeNearRetOperandSize ctx bytes).2 n imm16) := by
  have hsize : (decodedRet ctx bytes imm16).nearRetSize = (decodeNearRetOperandSize ctx bytes).2 ∧
      (decodedRet ctx bytes imm16).nearRetSize / 8 =
        operandBytes (decodeNearRetOperandSize ctx bytes).2 := by
    show (if (decodeNearRetOperandSize ctx bytes).2 = 16 then 16
        else if (decodeNearRetOperandSize ctx bytes).2 = 32 then 32 else 64) = _ ∧
      (if (decodeNearRetOperandSize ctx bytes).2 = 16 then 16
        else if (decodeNearRetOperandSize ctx bytes).2 = 32 then 32 else 64) / 8 = _
    rcases decodeNearRet_size ctx bytes with h | h | h <;> rw [h] <;> decide
  cases imm16 with
  | none =>
    refine ⟨(decodeNearRetOperandSize ctx bytes).1 + 1, ?_⟩
    unfold inlineRet
    rw [← hsize.2, ← hsize.1]
    rfl
  | some imm16 =>
    refine ⟨(decodeNearRetOperandSize ctx bytes).1 + 3, ?_⟩
    unfold inlineRet
    rw [← hsize.2, ← hsize.1]
    rfl

/-- The assignment and the release of the plain return. -/
def plainRetTail (inst : RetInst) (target : U64) : CpuProgram Unit := do
  if ← cpuAssignRipChecked target inst.operandSize then retFarAdjustStack inst.immediate
  else return ()

/-- What is done with a popped value, unless the pop has faulted. -/
def unlessFaulted (popped : U64 × Cpu) (next : U64 → CpuProgram Unit) : Cpu :=
  if popped.2.context.hasException then popped.2 else ((next popped.1).run cpuOp popped.2).2

theorem run_unlessFaulted (pop : CpuProgram U64) (next : U64 → CpuProgram Unit) (c : Cpu) :
    ((do
      let target ← pop
      if ← cpuHasException then return ()
      next target : CpuProgram Unit).run cpuOp c).2 = unlessFaulted (pop.run cpuOp c) next := by
  rw [Program.run_bind]
  generalize pop.run cpuOp c = popped
  unfold unlessFaulted
  show Prod.snd (Program.run cpuOp (if popped.2.context.hasException = true then pure () else
    next popped.1) popped.2) = _
  split_ifs <;> rfl

theorem run_inlineRet (size n : ℕ) (imm16 : Option U16) :
    ((inlineRet size n imm16).run cpuOp cpu).2 =
      unlessFaulted ((popValue (operandBytes size)).run cpuOp (cpu.jumping n))
        (inlineRetTail size imm16) := by
  unfold inlineRet
  rw [Program.run_bind, ← run_unlessFaulted]
  rfl

theorem run_plainNearRet {inst : RetInst} {c : Cpu} (hclear : c.context.hasException = false)
    (hrun : (decodeReturn 0xC2 0xC3 bytes).run cpuOp cpu = (inst, c)) :
    ((plainNearRet bytes).run cpuOp cpu).2 =
      unlessFaulted ((popValue (operandBytes inst.operandSize)).run cpuOp c) (plainRetTail inst) := by
  have hpending : (cpuHasException.run cpuOp c) = (false, c) := congrArg (Prod.mk · c) hclear
  unfold plainNearRet
  rw [Program.run_bind, hrun]
  dsimp only
  rw [Program.run_bind, hpending]
  dsimp only
  rw [if_neg Bool.false_ne_true, ← run_unlessFaulted]
  rfl

/-- **A near return** in line ends as the plain one does. -/
theorem inlineRet_finishesAlike (hexc : cpu.context.hasException = false) {c : Cpu}
    (h : SameButScratch cpu c) {inst : RetInst} (imm16 : Option U16)
    (himm : inst.immediate = imm16.getD 0) (n : ℕ)
    (hrun : (decodeReturn 0xC2 0xC3 bytes).run cpuOp cpu = (inst, c)) :
    FinishesAlike ((inlineRet inst.operandSize n imm16).run cpuOp cpu).2
      ((plainNearRet bytes).run cpuOp cpu).2 := by
  have hsized : SameButScratch (cpu.jumping n) c := ⟨h.eq, h.visible_eq⟩
  have hclear : c.context.hasException = false := (visible_hasException h.visible_eq).trans hexc
  obtain ⟨htarget, hpopped⟩ := blind_popValue (operandBytes inst.operandSize) (cpu.jumping n) c hsized
  have hpending := visible_hasException hpopped.visible_eq
  rw [run_inlineRet, run_plainNearRet hclear hrun]
  unfold unlessFaulted
  rw [hpending, ← htarget]
  split_ifs with hfault
  · exact .same hpopped
  · have htail := inlineRetTail_finishesAlike hpopped inst.operandSize imm16
      ((popValue (operandBytes inst.operandSize)).run cpuOp (cpu.jumping n)).1
    rw [← himm] at htail
    exact htail

/-- What an inline return releases, by its bytes. -/
inductive Releases (ctx : CpuContext) (bytes : List U8) : Option U16 → Prop
  | none (rest : List U8) (hafter : afterPrefixes ctx.is64BitCode bytes = 0xC3 :: rest) :
    Releases ctx bytes none
  | some (low high : U8) (rest : List U8)
    (hafter : afterPrefixes ctx.is64BitCode bytes = 0xC2 :: low :: high :: rest) :
    Releases ctx bytes (some (low.setWidth 16 ||| high.setWidth 16 <<< 8))

/-- The inline returns among the forms. -/
theorem InlineForm.ret_iff (hform : InlineForm ctx bytes dec) (hret : dec.flags.inlineRet = true) :
    ∃ imm16, Releases ctx bytes imm16 ∧ dec = decodedRet ctx bytes imm16 := by
  cases hform with
  | ret rest hafter => exact ⟨_, .none rest hafter, rfl⟩
  | retImm operand low high rest hafter hdrop =>
    obtain ⟨bits, hnear, -⟩ := decodeNearRet_eq ctx bytes
    have hoperand : bytes.drop ((ctx.prefixesOf bytes).length + 1) = operand := by
      have htail := congrArg List.tail hafter
      unfold afterPrefixes at htail
      rwa [List.tail_drop, List.tail_cons] at htail
    rw [hnear, hoperand] at hdrop
    subst hdrop
    exact ⟨_, .some low high rest hafter, rfl⟩
  | jccShort => cases hret
  | jccNear => cases hret

/-- **Near returns**: the plain return does what the inline form does. -/
theorem ret_agreesWith (hexc : cpu.context.hasException = false)
    (hmode : cpu.context.is64BitCode = ctx.is64BitCode) (hform : InlineForm ctx bytes dec)
    (hret : dec.flags.inlineRet = true) (hlock : 0xF0 ∉ ctx.prefixesOf bytes) :
    cpu.AgreesWith dec fun code => handlerOf (plainNearRet code) := by
  apply agreesWith_of_finishesAlike hform.inlineBranch
  obtain ⟨imm16, hreleases, rfl⟩ := hform.ret_iff hret
  have hstart : (cpu.beginning (decodedRet ctx bytes imm16)).context.hasException = false := hexc
  have hmode' : (cpu.beginning (decodedRet ctx bytes imm16)).context.is64BitCode =
      ctx.is64BitCode := hmode
  have hbytes : (decodedRet ctx bytes imm16).bytes = bytes := rfl
  obtain ⟨n, hcode⟩ := decodedRet_code ctx bytes imm16
  rw [hcode, hbytes, run_handlerOf, run_handlerOf]
  revert hstart hmode'
  generalize cpu.beginning (decodedRet ctx bytes imm16) = start
  intro hstart hmode'
  have hsize : decodeNearRetOperandSize start.context bytes = decodeNearRetOperandSize ctx bytes := by
    unfold decodeNearRetOperandSize
    rw [hmode']
  have hlock' : 0xF0 ∉ start.context.prefixesOf bytes := by
    unfold CpuContext.prefixesOf
    rw [hmode']
    exact hlock
  cases hreleases with
  | none rest hafter =>
    rw [← hmode'] at hafter
    obtain ⟨c, hsame, hrun⟩ := run_decodeReturn hlock' hafter (Or.inl ⟨rfl, rfl⟩)
    have hends := inlineRet_finishesAlike hstart hsame none rfl n hrun
    rwa [hsize] at hends
  | some low high rest hafter =>
    rw [← hmode'] at hafter
    obtain ⟨c, hsame, hrun⟩ := run_decodeReturn hlock' hafter (Or.inr ⟨rfl, low, high, rest, rfl, rfl⟩)
    have hends := inlineRet_finishesAlike hstart hsame (some _) rfl n hrun
    rwa [hsize] at hends

/-! ## The far return on a near opcode -/

theorem sameButScratch_raised {c : Cpu} (h : SameButScratch cpu c) (fault : RaisedFault) :
    SameButScratch (cpu.raised fault 0) (c.raised fault 0) :=
  h.setContext (visible_raiseException h.visible_eq fault.code 0)

/-- **`decode_ret_instruction`** raises `#UD` for the opcodes of the near returns. -/
theorem run_decodeRetInstruction (hexc : cpu.context.hasException = false) {imm16 : Option U16}
    (h : Releases cpu.context bytes imm16) :
    SameButScratch (cpu.raised .ud 0) ((decodeRetInstruction bytes).run cpuOp cpu).2 := by
  obtain ⟨bits, -, hscan⟩ := decodeNearRet_eq cpu.context bytes
  obtain ⟨opcode, operand, hafter, hfar⟩ : ∃ (opcode : U8) (operand : List U8),
      afterPrefixes cpu.context.is64BitCode bytes = opcode :: operand ∧
        opcode ≠ 0xCA ∧ opcode ≠ 0xCB := by
    cases h with
    | none rest hafter => exact ⟨_, _, hafter, by decide, by decide⟩
    | some low high rest hafter => exact ⟨_, _, hafter, by decide, by decide⟩
  rw [hafter] at hscan
  generalize (cpu.context.prefixesOf bytes).contains 0xF0 = hasLock at hscan
  have hread : scanRetPrefixes (getContext.run cpuOp cpu).1.is64BitCode .clear false bytes =
      (bits, hasLock, opcode :: operand) := hscan
  let prefixed := cpu.setContext { cpu.context with prefixBits := bits }
  have hraised : SameButScratch (cpu.raised .ud 0) (prefixed.raised .ud 0) :=
    @sameButScratch_raised cpu prefixed ⟨rfl, rfl⟩ .ud
  have hagain : (prefixed.raised .ud 0).raised .ud 0 = prefixed.raised .ud 0 :=
    raised_of_pending (@raised_pending prefixed hexc .ud 0) .ud 0
  unfold decodeRetInstruction decodeReturn
  rw [Program.run_bind, hread]
  dsimp only
  rw [Program.run_bind, if_pos hfar, Program.run_bind]
  cases hasLock with
  | false =>
    rw [if_neg Bool.false_ne_true, if_neg hfar.1]
    exact hraised.setContext hraised.visible_eq
  | true =>
    -- a second exception leaves the first
    rw [if_pos rfl, Program.run_bind, if_neg hfar.1]
    show SameButScratch _ ((finishRet _ 0).run cpuOp ((prefixed.raised .ud 0).raised .ud 0)).2
    rw [hagain]
    exact hraised.setContext hraised.visible_eq

/-- **`execute_ret`** refuses the near returns, whatever their prefixes. -/
theorem ret_refusedBy (hexc : cpu.context.hasException = false)
    (hmode : cpu.context.is64BitCode = ctx.is64BitCode) (hform : InlineForm ctx bytes dec)
    (hret : dec.flags.inlineRet = true) : cpu.RefusedBy dec executeRetBytes := by
  have hinline := hform.inlineBranch
  obtain ⟨imm16, hreleases, rfl⟩ := hform.ret_iff hret
  have hbytes : (decodedRet ctx bytes imm16).bytes = bytes := rfl
  have hstart : (cpu.beginning (decodedRet ctx bytes imm16)).context.hasException = false := hexc
  have hreleases' : Releases (cpu.beginning (decodedRet ctx bytes imm16)).context bytes imm16 := by
    cases hreleases with
    | none rest hafter => exact .none rest (by rw [← hafter, ← hmode]; rfl)
    | some low high rest hafter => exact .some low high rest (by rw [← hafter, ← hmode]; rfl)
  have hdecoded := run_decodeRetInstruction hstart hreleases'
  have hpending : (cpuHasException.run cpuOp ((decodeRetInstruction bytes).run cpuOp
      (cpu.beginning (decodedRet ctx bytes imm16))).2).1 = true :=
    (visible_hasException hdecoded.visible_eq).trans (raised_pending hstart .ud 0)
  have hrun : ((executeRetBytes bytes).run handlerOp
      (cpu.beginning (decodedRet ctx bytes imm16))).2 =
        ((decodeRetInstruction bytes).run cpuOp (cpu.beginning (decodedRet ctx bytes imm16))).2 := by
    unfold executeRetBytes
    rw [Program.run_bind, run_cpuPart, Program.run_bind, run_cpuPart, hpending, if_pos rfl]
    rfl
  apply refusedBy_of_raised hexc hinline
  rw [hbytes, hrun]
  exact hdecoded

/-! ## The law -/

/-- The mode key tells whether the code segment is one of long mode. -/
theorem longMode_eq_of_modeKey {ctx ctx' : CpuContext}
    (h : cpuInstCacheComputeModeKeyBits ctx' = cpuInstCacheComputeModeKeyBits ctx) :
    ctx'.cs.descriptor.longMode = ctx.cs.descriptor.longMode := by
  unfold cpuInstCacheComputeModeKeyBits at h
  revert h
  cases ctx.longModeActive <;> cases ctx.cs.descriptor.longMode <;>
    cases ctx.cs.descriptor.db <;> cases ctx'.longModeActive <;>
    cases ctx'.cs.descriptor.longMode <;> cases ctx'.cs.descriptor.db <;> decide

/-- **Inline branches and their handlers**: whenever the decoder chooses an inline form, in the
mode in which its instruction is executed, a conditional jump does what `execute_jcc` does on
its bytes.  A near return is refused by `execute_ret`; it does what the plain near return does,
unless there is a `LOCK` among its prefixes. -/
theorem inline_branch_law (hexc : cpu.context.hasException = false)
    (hmode : cpuInstCacheComputeModeKeyBits cpu.context = cpuInstCacheComputeModeKeyBits ctx)
    (hdec : cpuDecodeInline ctx bytes = some dec) :
    (dec.flags.inlineRet = false →
      cpu.AgreesWith dec fun code => handlerOf (executeJccBytes code)) ∧
    (dec.flags.inlineRet = true →
      cpu.RefusedBy dec executeRetBytes ∧
        (0xF0 ∉ ctx.prefixesOf bytes →
          cpu.AgreesWith dec fun code => handlerOf (plainNearRet code))) := by
  have hform := inlineForm_of_decode hdec
  have hcode := is64BitCode_eq_of_modeKey hmode
  constructor
  · exact fun hjcc => jcc_agreesWith hexc (longMode_eq_of_modeKey hmode) hform hjcc
  · intro hret
    constructor
    · exact ret_refusedBy hexc hcode hform hret
    · exact fun hlock => ret_agreesWith hexc hcode hform hret hlock

/-- A CPU in 64-bit code with a stack that holds zeros. -/
def nearRetCpu : Cpu := hostCpu { initCpuContext false with rip := 0x1000 } fun _ => 0

/-- `JE +5`, decoded there. -/
def jeInst : DecodedInst := decodedShort [0x74, 0x05] 0x74 0x05

theorem inline_branch_law_example :
    nearRetCpu.context.hasException = false ∧
      cpuDecodeInline nearRetCpu.context [0x74, 0x05] = some jeInst ∧
      nearRetCpu.AgreesWith jeInst fun code => handlerOf (executeJccBytes code) := by
  have hdec : cpuDecodeInline nearRetCpu.context [0x74, 0x05] = some jeInst := rfl
  exact ⟨rfl, hdec, (@inline_branch_law nearRetCpu nearRetCpu.context [0x74, 0x05] jeInst rfl rfl
    hdec).1 rfl⟩

/-- **A near return** is no instruction of the handler that the source has for returns. -/
theorem near_return_refused :
    cpuDecodeInline nearRetCpu.context [0xC3] = some (decodedRet nearRetCpu.context [0xC3] none) ∧
      ¬ nearRetCpu.AgreesWith (decodedRet nearRetCpu.context [0xC3] none) executeRetBytes := by
  have hdec : cpuDecodeInline nearRetCpu.context [0xC3] =
      some (decodedRet nearRetCpu.context [0xC3] none) := rfl
  refine ⟨hdec, fun hagrees => ?_⟩
  have hrefused := @ret_refusedBy nearRetCpu nearRetCpu.context [0xC3] _ rfl rfl
    (inlineForm_of_decode hdec) rfl
  have hinline : (nearRetCpu.dispatchDecoded (decodedRet nearRetCpu.context [0xC3] none)
    nearRetCpu.context.rip).1 = .ok := by decide +kernel
  have hresult := hagrees.1.symm.trans hrefused.1
  rw [hinline] at hresult
  cases hresult

end Cpueaxh
