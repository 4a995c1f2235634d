/-
# The outcome of POP to memory

A `POP` with an operand in memory stores the popped value and steps the stack pointer, or it
ends in an exception with the stack pointer and the memory as they were.
-/
import Cpueaxh.Pop
import Cpueaxh.LeaLaw
import Cpueaxh.StringElement

namespace Cpueaxh

open HostMemory

/-! ## What the decoder asks for -/

/-- The operand that a `POP` names: its size, the size of its address, its offset in its
segment, and the segment. -/
structure PopOperand where
  size : ℕ
  addressSize : ℕ
  offset : U64
  segmentBase : U64
  deriving DecidableEq, Repr

namespace CpuContext

variable (ctx : CpuContext)

/-- The context with the stack pointer behind a value of some size. -/
def advancedStack (size : ℕ) : CpuContext :=
  cpuSetStackPointerValue ctx ctx.stackAddressSize
    (truncateTo ctx.stackAddressSize
      (truncateTo ctx.stackAddressSize (ctx.regs regRsp) + BitVec.ofNat 64 (operandBytes size)))

/-- The operand of the bytes behind the opcode, as `decode_modrm_pop` and the second
computation of the address read them; `none` when the bytes are not all there. -/
def popOperandOf (code : List U8) : Option PopOperand :=
  let decoded := decodeModrm ctx.modeAddressSize code
  let advanced := ctx.advancedStack ctx.popOperandSize
  if decoded.complete then
    some
      { size := ctx.popOperandSize
        addressSize := ctx.modeAddressSize
        offset := advanced.getEffectiveOffset decoded.operand 0
        segmentBase := ctx.segmentBaseForAddressing (ctx.operandSegment decoded.operand) }
  else none

/-- The operand of a `POP` for the code. -/
def popOperand (code : List U8) : Option PopOperand :=
  match scanPopPrefixes ctx.is64BitCode .clear code with
  | (bits, some (_ :: rest)) => ({ ctx with prefixBits := bits } : CpuContext).popOperandOf rest
  | _ => none

end CpuContext

/-- **The outcome of a POP** to an operand: it is stored, or nothing has changed. -/
structure Pops (cpu out : Cpu) (operand : Option PopOperand) : Prop where
  fault : out.context.hasException = true →
    out.context.regs = cpu.context.regs ∧ out.memory.host = cpu.memory.host
  stored : out.context.hasException = false →
    ∃ op ∈ operand, ∃ popped ptrs,
      cpu.operandPtrs false (truncateTo cpu.context.stackAddressSize (cpu.context.regs regRsp))
        (operandBytes op.size) 0 = .ok popped ∧
      cpu.operandPtrs true (op.offset + op.segmentBase) (operandBytes op.size) 0 = .ok ptrs ∧
      out.context.regs = (cpu.context.advancedStack op.size).regs ∧
      out.memory.host = storeBytes cpu.memory.host ptrs (loadValue cpu.memory.host popped)

/-! ## The outcome -/

section Outcome

variable {cpu : Cpu}

namespace Cpu

/-- The popped value and the stack pointer behind it. -/
def poppedValue (cpu : Cpu) (size : ℕ) : Except Cpu (U64 × U64) := do
  let (values, finalSp) ← cpu.peeked (operandBytes size) 1
  return (values.headD 0, finalSp)

/-- The linear address of an operand when the stack pointer has its new value. -/
def popDestination (cpu : Cpu) (op : MemOperand) (finalSp : U64) : U64 :=
  (cpuSetStackPointerValue cpu.context cpu.context.stackAddressSize finalSp).getEffectiveOffset op 0
    + cpu.context.segmentBaseForAddressing (cpu.context.operandSegment op)

/-- The CPU in which a popped value has been stored. -/
def popStored (cpu : Cpu) (size : ℕ) (op : MemOperand) (value finalSp : U64) : Except Cpu Cpu := do
  cpu.validAddress (cpu.popDestination op finalSp) (cpu.context.operandSegment op)
  let ptrs ← cpu.slotPtrs (cpu.popDestination op finalSp) (operandBytes size)
  return { cpu with
    context := cpuSetStackPointerValue cpu.context cpu.context.stackAddressSize finalSp
    memory := cpu.memory.setHost (storeBytes cpu.memory.host ptrs value) }

/-- The CPU behind a `POP` to memory. -/
def poppedTo (cpu : Cpu) (size : ℕ) (op : MemOperand) : Except Cpu Cpu := do
  let (value, finalSp) ← cpu.poppedValue size
  cpu.popStored size op value finalSp

end Cpu

theorem clean_poppedValue (hexc : cpu.context.hasException = false) (size : ℕ) :
    cpu.Clean (cpu.poppedValue size) :=
  (clean_peeked hexc _ _).bind fun _ _ => .ok _

theorem clean_poppedTo (hexc : cpu.context.hasException = false) (size : ℕ) (op : MemOperand) :
    cpu.Clean (cpu.poppedTo size op) :=
  (clean_poppedValue hexc size).bind fun _ _ => (clean_validAddress hexc _ _).bind fun _ _ =>
    (clean_slotPtrs hexc _ _).bind fun _ _ => .ok _

theorem run_popPeek (hm : ManagerOk cpu.memory) (hexc : cpu.context.hasException = false)
    (size : ℕ) :
    (popPeekStackValue size).run viewOp cpu = checked cpu (cpu.poppedValue size) := by
  unfold popPeekStackValue Cpu.poppedValue
  exact run_checked_bind (run_peekStackValues hm hexc _ _) rfl fun _ _ => rfl

/-- The address of an operand, which is checked in its segment. -/
theorem run_getEffectiveAddress {op : MemOperand} (hmod : modField op.modrm ≠ 3) (n : ℕ) :
    (getEffectiveAddress op n).run viewOp cpu =
      let address := cpu.context.getEffectiveOffset op n
        + cpu.context.segmentBaseForAddressing (cpu.context.operandSegment op)
      (address, match cpu.validAddress address (cpu.context.operandSegment op) with
        | .error c => c
        | .ok _ => cpu) := by
  unfold getEffectiveAddress
  rw [Program.run_bind, run_getContext]
  simp only [hmod, if_false]
  rw [Program.run_bind, run_validateLinearAddress]
  cases cpu.validAddress _ _ <;> rfl

/-- Putting the stack pointer back when the CPU differs in it, and in the exception. -/
theorem run_restoreRsp (exception : CpuExceptionState) (finalSp : U64) :
    (modifyContext fun ctx => { ctx with
        regs := Function.update ctx.regs regRsp (cpu.context.regs regRsp) }).run viewOp
      { cpu with context :=
        { cpuSetStackPointerValue cpu.context cpu.context.stackAddressSize finalSp with
          exception := exception } } =
      ((), { cpu with context := { cpu.context with exception := exception } }) := by
  have hregs : ∀ rsp : U64, Function.update (Function.update cpu.context.regs regRsp rsp) regRsp
      (cpu.context.regs regRsp) = cpu.context.regs := by
    intro rsp
    rw [Function.update_idem, Function.update_eq_self]
  rw [run_modifyContext]
  unfold cpuSetStackPointerValue CpuContext.keepMode
  simp only [hregs]

/-- The second computation of the address: the stack pointer gets its old value back. -/
theorem run_popCompute (hexc : cpu.context.hasException = false) {op : MemOperand}
    (hmod : modField op.modrm ≠ 3) (finalSp : U64) :
    (popComputeMemoryDestinationAfterStackAdvance op finalSp).run viewOp cpu =
      checked cpu (cpu.validAddress (cpu.popDestination op finalSp) (cpu.context.operandSegment op) >>=
        fun _ => .ok (cpu.popDestination op finalSp)) := by
  -- the CPU with the new stack pointer
  let advanced : Cpu := { cpu with
    context := cpuSetStackPointerValue cpu.context cpu.context.stackAddressSize finalSp }
  have hadvanced : (popCommitStackPointer finalSp).run viewOp cpu = ((), advanced) := rfl
  have haddress := @run_getEffectiveAddress advanced op hmod 0
  have hvalid : ∀ address, advanced.validAddress address (cpu.context.operandSegment op) =
      if cpu.context.is64BitCode && !cpuIsCanonicalAddress address then
        .error (advanced.raised (if cpu.context.operandSegment op = .ss then .ss else .gp) 0)
      else .ok () := fun _ => rfl
  unfold popComputeMemoryDestinationAfterStackAdvance
  rw [Program.run_bind, run_getContext, Program.run_bind, hadvanced]
  simp only
  rw [Program.run_bind, haddress]
  show ((modifyContext _ >>= _ : CpuProgram (Option U64)).run viewOp
    (match advanced.validAddress (cpu.popDestination op finalSp) (cpu.context.operandSegment op) with
      | .error c => c
      | .ok _ => advanced)) = _
  rw [hvalid]
  unfold Cpu.validAddress
  generalize (if cpu.context.operandSegment op = .ss then RaisedFault.ss else .gp) = fault
  by_cases hcanon : (cpu.context.is64BitCode &&
      !cpuIsCanonicalAddress (cpu.popDestination op finalSp)) = true
  · rw [if_pos hcanon, if_pos hcanon]
    have hraised : advanced.raised fault 0 = { cpu with context :=
        { cpuSetStackPointerValue cpu.context cpu.context.stackAddressSize finalSp with
          exception := ⟨fault.code, 0⟩ } } := by
      have hexc' : advanced.context.hasException = false := hexc
      rw [Cpu.raised, raiseException_of_none hexc']
    have hfailed : cpu.raised fault 0 =
        { cpu with context := { cpu.context with exception := ⟨fault.code, 0⟩ } } := by
      rw [Cpu.raised, raiseException_of_none hexc]
    simp only
    rw [Program.run_bind, hraised, run_restoreRsp, ← hfailed, Program.run_bind,
      run_cpuHasException, raised_pending hexc]
    rfl
  · rw [if_neg hcanon, if_neg hcanon]
    have hrestored := @run_restoreRsp cpu cpu.context.exception finalSp
    have hsame : ({ cpu with context :=
        { cpuSetStackPointerValue cpu.context cpu.context.stackAddressSize finalSp with
          exception := cpu.context.exception } } : Cpu) = advanced := rfl
    rw [hsame] at hrestored
    simp only
    rw [Program.run_bind, hrestored, Program.run_bind, run_cpuHasException]
    simp only [hexc]
    rfl

/-- **POP to memory**: the CPU behind it, also behind a fault. -/
theorem run_popRm (hm : ManagerOk cpu.memory) (hexc : cpu.context.hasException = false)
    (size : ℕ) {op : MemOperand} (hmod : modField op.modrm ≠ 3) :
    (popRm size op).run viewOp cpu =
      match cpu.poppedTo size op with
      | .error c => ((), c)
      | .ok c => ((), c) := by
  unfold popRm Cpu.poppedTo
  rw [Program.run_bind, run_popPeek hm hexc]
  cases cpu.poppedValue size with
  | error c => rfl
  | ok popped =>
    obtain ⟨value, finalSp⟩ := popped
    simp only [checked, hmod, if_false]
    show _ = match cpu.popStored size op value finalSp with
      | .error c => ((), c)
      | .ok c => ((), c)
    unfold Cpu.popStored
    rw [Program.run_bind, run_popCompute hexc hmod]
    cases cpu.validAddress (cpu.popDestination op finalSp) (cpu.context.operandSegment op) with
    | error c => rfl
    | ok _ =>
      show ((popWriteMemoryValue (cpu.popDestination op finalSp) size value >>= _ :
        CpuProgram Unit).run viewOp cpu) = match (do
          let ptrs ← cpu.slotPtrs (cpu.popDestination op finalSp) (operandBytes size)
          return { cpu with
            context := cpuSetStackPointerValue cpu.context cpu.context.stackAddressSize finalSp
            memory := cpu.memory.setHost (storeBytes cpu.memory.host ptrs value) } :
          Except Cpu Cpu) with
        | .error c => ((), c)
        | .ok c => ((), c)
      unfold popWriteMemoryValue Cpu.slotPtrs
      rw [Program.run_bind, Program.run_bind, run_resolveSlot hexc]
      cases cpu.operandPtrs true (cpu.popDestination op finalSp) (operandBytes size) 0 with
      | error a => rfl
      | ok ptrs =>
        have hnotify : ∀ address n value (c : Cpu),
            (perform (.notify .memWrite address n value)).run viewOp c = ((), c) :=
          fun _ _ _ _ => rfl
        simp only [cpuCommitStackSlotWrite, Program.run_bind, hnotify, run_storeValue]
        rfl

end Outcome

/-! ## The whole instruction -/

section Whole

variable {cpu : Cpu}

theorem raised_hasException (cpu : Cpu) (fault : RaisedFault) (errorCode : U32) :
    (cpu.raised fault errorCode).context.hasException = true := by
  by_cases hexc : cpu.context.hasException = true
  · rw [Cpu.raised, raiseException_of_pending hexc]
    exact hexc
  · exact raised_pending (Bool.not_eq_true _ ▸ hexc) fault errorCode

theorem raised_regs (cpu : Cpu) (fault : RaisedFault) (errorCode : U32) :
    (cpu.raised fault errorCode).context.regs = cpu.context.regs := by
  unfold Cpu.raised CpuContext.raiseException
  split_ifs <;> rfl

theorem validAddress_cases (cpu : Cpu) (address : U64) (segment : SegmentRegisterIndex) :
    cpu.validAddress address segment = .ok () ∨
      ∃ fault, cpu.validAddress address segment = .error (cpu.raised fault 0) := by
  unfold Cpu.validAddress
  split_ifs
  · exact Or.inr ⟨_, rfl⟩
  · exact Or.inr ⟨_, rfl⟩
  · exact Or.inl rfl

/-- The address with the length is checked only. -/
theorem run_finalize (cpu : Cpu) {op : MemOperand} (hmod : modField op.modrm ≠ 3) (n : ℕ) :
    ∃ c : Cpu, (finalizeRipRelativeAddress op n).run viewOp cpu = ((), c) ∧
      (c = cpu ∨ ∃ fault, c = cpu.raised fault 0) := by
  unfold finalizeRipRelativeAddress
  split_ifs
  · rw [Program.run_bind, run_getEffectiveAddress hmod]
    dsimp only
    rcases validAddress_cases cpu (cpu.context.getEffectiveOffset op n
      + cpu.context.segmentBaseForAddressing (cpu.context.operandSegment op))
      (cpu.context.operandSegment op) with hvalid | ⟨fault, hvalid⟩
    · rw [hvalid]
      exact ⟨cpu, rfl, Or.inl rfl⟩
    · rw [hvalid]
      exact ⟨_, rfl, Or.inr ⟨fault, rfl⟩⟩
  · exact ⟨cpu, rfl, Or.inl rfl⟩

/-- The end of the decoder: it has raised an exception, or it leaves the length. -/
theorem run_decodePopRm (offset : ℕ) {decoded : OperandBytes}
    (hreg : regField decoded.operand.modrm = 0) (hmod : modField decoded.operand.modrm ≠ 3) :
    ∃ c : Cpu, (decodePopRm offset decoded).run viewOp cpu =
        ((), { c with context := { c.context with lastInstSize := offset + decoded.used } }) ∧
      ((c = cpu ∧ decoded.complete = true) ∨ (c.context.hasException = true ∧
        c.context.regs = cpu.context.regs ∧ c.memory = cpu.memory)) := by
  unfold decodePopRm
  rw [if_neg (not_not_intro hreg)]
  by_cases hcomplete : decoded.complete = true
  · obtain ⟨c, hrun, hc⟩ := run_finalize cpu hmod (offset + decoded.used)
    refine ⟨c, ?_, ?_⟩
    · simp only [hcomplete, Bool.not_true, Bool.false_eq_true, if_false]
      rw [Program.run_bind, hrun]
      rfl
    · rcases hc with rfl | ⟨fault, rfl⟩
      · exact Or.inl ⟨rfl, hcomplete⟩
      · exact Or.inr ⟨raised_hasException _ _ _, raised_regs _ _ _, rfl⟩
  · obtain ⟨c, hrun, hc⟩ := run_finalize (cpu.raised .gp 0) hmod (offset + decoded.used)
    refine ⟨c, ?_, Or.inr ?_⟩
    · simp only [hcomplete, Bool.not_false, if_true]
      rw [Program.run_bind, run_raiseGp, Program.run_bind, hrun]
      rfl
    · rcases hc with rfl | ⟨fault, rfl⟩
      · exact ⟨raised_hasException _ _ _, raised_regs _ _ _, rfl⟩
      · refine ⟨raised_hasException _ _ _, ?_, rfl⟩
        rw [raised_regs, raised_regs]

/-- The CPU with the prefixes and the length that a decoder leaves. -/
def Cpu.scanned (cpu : Cpu) (bits : PrefixBits) (size : ℤ) : Cpu :=
  { cpu with context := { cpu.context with prefixBits := bits, lastInstSize := size } }

theorem operandPtrs_scanned (bits : PrefixBits) (size : ℤ) (store : Bool) (address : U64) (n : ℕ) :
    (cpu.scanned bits size).operandPtrs store address n 0 = cpu.operandPtrs store address n 0 :=
  @operandPtrs_congr cpu store address (cpu.scanned bits size) (fun _ => rfl) n 0

/-- What `Pops` says about a CPU does not depend on the prefixes and the recorded length. -/
theorem Pops.of_scanned {bits : PrefixBits} {size : ℤ} {out : Cpu} {operand : Option PopOperand}
    (h : Pops (cpu.scanned bits size) out operand) : Pops cpu out operand where
  fault := h.fault
  stored := by
    intro hexc
    obtain ⟨op, hop, popped, ptrs, hpopped, hstored, hregs, hhost⟩ := h.stored hexc
    rw [operandPtrs_scanned] at hpopped hstored
    exact ⟨op, hop, popped, ptrs, hpopped, hstored, hregs, hhost⟩

theorem stackAddressSize_cases (ctx : CpuContext) :
    ctx.stackAddressSize = 16 ∨ ctx.stackAddressSize = 32 ∨ ctx.stackAddressSize = 64 := by
  unfold CpuContext.stackAddressSize
  split_ifs <;> simp

/-- A popped value is the one at the stack pointer. -/
theorem poppedValue_ok {size : ℕ} {value finalSp : U64}
    (h : cpu.poppedValue size = .ok (value, finalSp)) :
    ∃ popped, cpu.operandPtrs false
        (truncateTo cpu.context.stackAddressSize (cpu.context.regs regRsp))
        (operandBytes size) 0 = .ok popped ∧
      value = loadValue cpu.memory.host popped ∧
      cpuSetStackPointerValue cpu.context cpu.context.stackAddressSize finalSp =
        cpu.context.advancedStack size := by
  have hsize := stackAddressSize_cases cpu.context
  unfold Cpu.poppedValue Cpu.peeked at h
  obtain ⟨⟨values, sp⟩, hpeeked, h⟩ := ok_bind_iff.mp h
  obtain ⟨rfl, rfl⟩ := Prod.mk.inj (Except.ok.inj h)
  obtain ⟨_, -, hpeeked⟩ := ok_bind_iff.mp hpeeked
  obtain ⟨values', hvalues, hpeeked⟩ := ok_bind_iff.mp hpeeked
  obtain ⟨rfl, rfl⟩ := Prod.mk.inj (Except.ok.inj hpeeked)
  obtain ⟨value, hload, hvalues⟩ := ok_bind_iff.mp hvalues
  obtain ⟨rest, -, hvalues⟩ := ok_bind_iff.mp hvalues
  obtain rfl := Except.ok.inj hvalues
  -- the first value is at the stack pointer itself
  rw [Nat.zero_mul, show BitVec.ofNat 64 0 = (0 : U64) from rfl, add_zero,
    truncateTo_truncateTo hsize hsize, min_self] at hload
  unfold Cpu.loadAt at hload
  cases hptrs : cpu.operandPtrs false
      (truncateTo cpu.context.stackAddressSize (cpu.context.regs regRsp))
      (operandBytes size) 0 with
  | error a =>
    rw [hptrs] at hload
    cases hload
  | ok popped =>
    rw [hptrs] at hload
    refine ⟨popped, rfl, (Except.ok.inj hload).symm, ?_⟩
    rw [CpuContext.advancedStack, Nat.one_mul]

/-- A `POP` to memory stores its value, or nothing has changed. -/
theorem poppedTo_pops (hexc : cpu.context.hasException = false) (size : ℕ) (op : MemOperand) :
    Pops cpu (match cpu.poppedTo size op with
      | .error c => c
      | .ok c => c)
      (some
        { size := size
          addressSize := op.addressSize
          offset := (cpu.context.advancedStack size).getEffectiveOffset op 0
          segmentBase := cpu.context.segmentBaseForAddressing (cpu.context.operandSegment op) }) := by
  have hclean := clean_poppedTo hexc size op
  cases hpopped : cpu.poppedTo size op with
  | error c =>
    rw [hpopped] at hclean
    cases hclean with
    | error hfailed =>
      obtain ⟨exception, cr2, asked, rfl⟩ := hfailed.same
      constructor
      · exact fun _ => ⟨rfl, rfl⟩
      · intro hnone
        rw [hfailed.pending] at hnone
        cases hnone
  | ok c =>
    unfold Cpu.poppedTo Cpu.popStored Cpu.slotPtrs at hpopped
    obtain ⟨⟨value, finalSp⟩, hvalue, hpopped⟩ := ok_bind_iff.mp hpopped
    obtain ⟨_, -, hpopped⟩ := ok_bind_iff.mp hpopped
    obtain ⟨ptrs, hptrs, hpopped⟩ := ok_bind_iff.mp hpopped
    obtain rfl := Except.ok.inj hpopped
    obtain ⟨popped, hstack, rfl, hadvanced⟩ := poppedValue_ok hvalue
    rw [Cpu.popDestination, hadvanced] at hptrs
    constructor
    · intro hpending
      have hnone : cpu.context.hasException = true := hpending
      rw [hexc] at hnone
      cases hnone
    · intro _
      refine ⟨_, rfl, popped, ptrs, hstack, ?_, ?_, rfl⟩
      · cases hcells : cpu.operandPtrs true _ (operandBytes size) 0 with
        | error a =>
          rw [hcells] at hptrs
          cases hptrs
        | ok cells =>
          rw [hcells] at hptrs
          exact congrArg Except.ok (Except.ok.inj hptrs)
      · rw [hadvanced]

/-- The opcode `8F` with an operand in memory. -/
theorem executePopRm_pops (hm : ManagerOk cpu.memory) (hexc : cpu.context.hasException = false)
    (offset : ℕ) {modrm : U8} {rest : List U8} (hreg : regField modrm = 0)
    (hmod : modField modrm ≠ 3) :
    Pops cpu ((executePopRm offset (modrm :: rest)).run viewOp cpu).2
      (cpu.context.popOperandOf (modrm :: rest)) := by
  have hmodrm := @decodeModrm_modrm modrm rest cpu.context.modeAddressSize
  generalize hdecoded : decodeModrm cpu.context.modeAddressSize (modrm :: rest) = decoded at hmodrm
  obtain ⟨c, hrun, hc⟩ := @run_decodePopRm cpu offset decoded (by rw [hmodrm, hreg])
    (by rw [hmodrm]; exact hmod)
  unfold executePopRm
  rw [Program.run_bind, run_getContext]
  simp only [hdecoded]
  rw [Program.run_bind, hrun, Program.run_bind, run_cpuHasException]
  rcases hc with ⟨rfl, hcomplete⟩ | ⟨hpending, hregs, hmemory⟩
  · have hoperand : c.context.popOperandOf (modrm :: rest) = some
        { size := c.context.popOperandSize
          addressSize := decoded.operand.addressSize
          offset := (c.context.advancedStack c.context.popOperandSize).getEffectiveOffset
            decoded.operand 0
          segmentBase := c.context.segmentBaseForAddressing
            (c.context.operandSegment decoded.operand) } := by
      unfold CpuContext.popOperandOf
      simp only [hdecoded, hcomplete, if_true]
      rw [← hdecoded, decodeModrm_addressSize]
    have hpops := @poppedTo_pops (c.scanned c.context.prefixBits (offset + decoded.used)) hexc
      c.context.popOperandSize decoded.operand
    have hpop := @run_popRm (c.scanned c.context.prefixBits (offset + decoded.used)) hm hexc
      c.context.popOperandSize decoded.operand (by rw [hmodrm]; exact hmod)
    have hclear : ({ c.context with lastInstSize := offset + decoded.used } :
        CpuContext).hasException = false := hexc
    simp only [hclear, Bool.false_eq_true, if_false]
    rw [hoperand]
    refine @Pops.of_scanned c c.context.prefixBits (offset + decoded.used) _ _ ?_
    show Pops _ ((popRm c.context.popOperandSize decoded.operand).run viewOp
      (c.scanned c.context.prefixBits (offset + decoded.used))).2 _
    rw [hpop]
    cases hto : (c.scanned c.context.prefixBits (offset + decoded.used)).poppedTo
        c.context.popOperandSize decoded.operand with
    | error d =>
      rw [hto] at hpops
      exact hpops
    | ok d =>
      rw [hto] at hpops
      exact hpops
  · have hpending' : ({ c.context with lastInstSize := offset + decoded.used } :
        CpuContext).hasException = true := hpending
    simp only [hpending', if_true]
    constructor
    · intro _
      exact ⟨hregs, congrArg MemoryManager.host hmemory⟩
    · intro hnone
      have := hpending'.symm.trans hnone
      cases this

/-- The instruction with the opcode `8F` and an operand in memory. -/
theorem executePop_pops (hm : ManagerOk cpu.memory) (hexc : cpu.context.hasException = false)
    {code : List U8} {bits : PrefixBits} {modrm : U8} {rest : List U8}
    (hscan : scanPopPrefixes cpu.context.is64BitCode .clear code =
      (bits, some (0x8F :: modrm :: rest)))
    (hreg : regField modrm = 0) (hmod : modField modrm ≠ 3) :
    Pops cpu ((executePop code).run viewOp cpu).2 (cpu.context.popOperand code) := by
  have hpops := @executePopRm_pops (cpu.scanned bits cpu.context.lastInstSize) hm hexc
    (code.length - (modrm :: rest).length) modrm rest hreg hmod
  unfold executePop CpuContext.popOperand
  rw [Program.run_bind, run_getContext]
  simp only [hscan]
  rw [Program.run_bind, run_modifyContext]
  exact hpops.of_scanned

/-- Behind an operand whose address is not given anew, the decoder raises nothing. -/
theorem run_decodePopRm_plain (offset : ℕ) {decoded : OperandBytes}
    (hreg : regField decoded.operand.modrm = 0) (hcomplete : decoded.complete = true)
    (hfinal : decoded.operand.finalized = false) :
    (decodePopRm offset decoded).run viewOp cpu =
      ((), cpu.scanned cpu.context.prefixBits (offset + decoded.used)) := by
  unfold decodePopRm finalizeRipRelativeAddress
  rw [if_neg (not_not_intro hreg)]
  simp only [hcomplete, hfinal, Bool.not_true, Bool.false_eq_true, if_false]
  rfl

/-- The bytes of an operand are at a canonical address. -/
theorem validAddress_of_operandPtrs {address : U64} {n : ℕ} {ptrs : List HostPtr} (hn : 0 < n)
    (h : cpu.operandPtrs true address n 0 = .ok ptrs) (segment : SegmentRegisterIndex) :
    cpu.validAddress address segment = .ok () := by
  obtain ⟨left, rfl⟩ : ∃ left, n = left + 1 := ⟨n - 1, by omega⟩
  unfold Cpu.validAddress
  rw [if_neg]
  intro hcanon
  have hnone : cpu.dataPtr true address = none := by
    unfold Cpu.dataPtr grantedPtr
    rw [if_pos hcanon]
  rw [Cpu.operandPtrs, add_zero, hnone] at h
  cases h

/-- A `POP` completes when the stack can be read and the operand written. -/
theorem poppedTo_completes {size : ℕ} {op : MemOperand}
    (hnarrow : ¬ (cpu.context.stackAddressSize = 16 ∧ operandBytes size = 8))
    {popped ptrs : List HostPtr}
    (hstack : cpu.operandPtrs false
      (truncateTo cpu.context.stackAddressSize (cpu.context.regs regRsp)) (operandBytes size) 0 =
        .ok popped)
    (hptrs : cpu.operandPtrs true ((cpu.context.advancedStack size).getEffectiveOffset op 0
      + cpu.context.segmentBaseForAddressing (cpu.context.operandSegment op))
        (operandBytes size) 0 = .ok ptrs) :
    ∃ c, cpu.poppedTo size op = .ok c ∧
      c.context.hasException = cpu.context.hasException := by
  have hbytes : operandBytes size = 2 ∨ operandBytes size = 4 ∨ operandBytes size = 8 := by
    unfold operandBytes
    split_ifs <;> simp
  have hvalue : cpu.poppedValue size = .ok (loadValue cpu.memory.host popped,
      truncateTo cpu.context.stackAddressSize
        (truncateTo cpu.context.stackAddressSize (cpu.context.regs regRsp) +
          BitVec.ofNat 64 (operandBytes size))) := by
    have hvalid : cpu.validStackSize (operandBytes size) = .ok () := by
      unfold Cpu.validStackSize
      rw [if_neg (by omega), if_neg hnarrow]
    have hload : cpu.loadAt (operandBytes size) (truncateTo cpu.context.stackAddressSize
        (truncateTo cpu.context.stackAddressSize (cpu.context.regs regRsp) +
          BitVec.ofNat 64 (0 * operandBytes size))) = .ok (loadValue cpu.memory.host popped) := by
      rw [Nat.zero_mul, show BitVec.ofNat 64 0 = (0 : U64) from rfl, add_zero,
        truncateTo_truncateTo (stackAddressSize_cases _) (stackAddressSize_cases _), min_self,
        Cpu.loadAt, hstack]
    unfold Cpu.poppedValue Cpu.peeked Cpu.peekValues
    rw [hvalid, Nat.one_mul]
    dsimp only
    rw [hload]
    rfl
  have hadvanced : cpuSetStackPointerValue cpu.context cpu.context.stackAddressSize
      (truncateTo cpu.context.stackAddressSize
        (truncateTo cpu.context.stackAddressSize (cpu.context.regs regRsp) +
          BitVec.ofNat 64 (operandBytes size))) = cpu.context.advancedStack size := rfl
  unfold Cpu.poppedTo
  rw [hvalue]
  show ∃ c, cpu.popStored size op _ _ = .ok c ∧ _
  unfold Cpu.popStored Cpu.slotPtrs Cpu.popDestination
  rw [hadvanced, validAddress_of_operandPtrs (by omega) hptrs, hptrs]
  exact ⟨_, rfl, rfl⟩

/-- The opcode `8F` completes when the stack can be read and the operand written. -/
theorem executePopRm_completes (hm : ManagerOk cpu.memory)
    (hexc : cpu.context.hasException = false) (offset : ℕ) {modrm : U8} {rest : List U8}
    (hreg : regField modrm = 0) (hmod : modField modrm ≠ 3)
    (hfinal : (decodeModrm cpu.context.modeAddressSize (modrm :: rest)).operand.finalized = false)
    {op : PopOperand} (hop : cpu.context.popOperandOf (modrm :: rest) = some op)
    (hnarrow : ¬ (cpu.context.stackAddressSize = 16 ∧ operandBytes op.size = 8))
    {popped ptrs : List HostPtr}
    (hstack : cpu.operandPtrs false
      (truncateTo cpu.context.stackAddressSize (cpu.context.regs regRsp)) (operandBytes op.size) 0 =
        .ok popped)
    (hptrs : cpu.operandPtrs true (op.offset + op.segmentBase) (operandBytes op.size) 0 =
      .ok ptrs) :
    ((executePopRm offset (modrm :: rest)).run viewOp cpu).2.context.hasException = false := by
  have hmodrm := @decodeModrm_modrm modrm rest cpu.context.modeAddressSize
  unfold CpuContext.popOperandOf at hop
  generalize hdecoded : decodeModrm cpu.context.modeAddressSize (modrm :: rest) = decoded at *
  dsimp only at hop
  split_ifs at hop with hcomplete
  obtain rfl := Option.some.inj hop
  obtain ⟨c, hto, hclear⟩ := @poppedTo_completes
    (cpu.scanned cpu.context.prefixBits (offset + decoded.used)) cpu.context.popOperandSize
    decoded.operand hnarrow popped ptrs ((operandPtrs_scanned _ _ _ _ _).trans hstack)
    ((operandPtrs_scanned _ _ _ _ _).trans hptrs)
  have hclear' : (cpu.scanned cpu.context.prefixBits
      (offset + decoded.used)).context.hasException = false := hexc
  have hpop := @run_popRm (cpu.scanned cpu.context.prefixBits (offset + decoded.used)) hm hexc
    cpu.context.popOperandSize decoded.operand (by rw [hmodrm]; exact hmod)
  unfold executePopRm
  rw [Program.run_bind, run_getContext]
  simp only [hdecoded]
  rw [Program.run_bind, run_decodePopRm_plain offset (by rw [hmodrm, hreg]) hcomplete hfinal,
    Program.run_bind, run_cpuHasException]
  simp only [hclear', Bool.false_eq_true, if_false]
  rw [hpop, hto]
  exact hclear.trans hexc

/-- The instruction completes when the stack can be read and the operand written. -/
theorem executePop_completes (hm : ManagerOk cpu.memory)
    (hexc : cpu.context.hasException = false) {code : List U8} {bits : PrefixBits} {modrm : U8}
    {rest : List U8}
    (hscan : scanPopPrefixes cpu.context.is64BitCode .clear code =
      (bits, some (0x8F :: modrm :: rest)))
    (hreg : regField modrm = 0) (hmod : modField modrm ≠ 3)
    (hfinal : (decodeModrm ({ cpu.context with prefixBits := bits } : CpuContext).modeAddressSize
      (modrm :: rest)).operand.finalized = false)
    {op : PopOperand} (hop : cpu.context.popOperand code = some op)
    (hnarrow : ¬ (cpu.context.stackAddressSize = 16 ∧ operandBytes op.size = 8))
    {popped ptrs : List HostPtr}
    (hstack : cpu.operandPtrs false
      (truncateTo cpu.context.stackAddressSize (cpu.context.regs regRsp)) (operandBytes op.size) 0 =
        .ok popped)
    (hptrs : cpu.operandPtrs true (op.offset + op.segmentBase) (operandBytes op.size) 0 =
      .ok ptrs) :
    ((executePop code).run viewOp cpu).2.context.hasException = false := by
  unfold CpuContext.popOperand at hop
  simp only [hscan] at hop
  have hdone := @executePopRm_completes (cpu.scanned bits cpu.context.lastInstSize) hm hexc
    (code.length - (modrm :: rest).length) modrm rest hreg hmod hfinal op hop hnarrow popped ptrs
    ((operandPtrs_scanned _ _ _ _ _).trans hstack) ((operandPtrs_scanned _ _ _ _ _).trans hptrs)
  unfold executePop
  rw [Program.run_bind, run_getContext]
  simp only [hscan]
  rw [Program.run_bind, run_modifyContext]
  exact hdone

end Whole

end Cpueaxh
