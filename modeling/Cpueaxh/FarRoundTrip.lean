/-
# A far call and its return

`CALL` pushes items of a width that it takes from the mode and the prefixes of the caller,
and `RET` pops items of a width that it takes from those of the callee.  The return ends
behind the call exactly when the two widths are the same, the return address fits, and the
callee finds the items at its stack pointer and moves it back to where it was.
-/
import Cpueaxh.CompatRip
import Cpueaxh.IretFrame

namespace Cpueaxh

open HostMemory

/-! ## The two instructions -/

/-- A far call through memory or with a pointer. -/
def FlowInst.isFarCall : FlowInst → Bool
  | .callFarMem _ => true
  | .callFarPtr _ _ => true
  | _ => false

/-- The context behind the decoder of a branch. -/
def CpuContext.recorded (ctx : CpuContext) (pre : FlowPrefix) : CpuContext :=
  { ctx with
    prefixBits := { ctx.prefixBits with
      rexW := pre.rexW
      operandSizeOverride := pre.operandSizeOverride }
    lastInstSize := pre.size }

/-- The CPU behind the decoder of a branch. -/
def Cpu.recorded (cpu : Cpu) (pre : FlowPrefix) : Cpu :=
  { cpu with context := cpu.context.recorded pre }

/-- The CPU behind the code of an instruction. -/
def Cpu.execute (cpu : Cpu) (pre : FlowPrefix) (inst : FlowInst) : Cpu :=
  ((inst.handler pre).run handlerOp cpu).2

/-- The address behind an instruction. -/
def Cpu.nextRip (cpu : Cpu) (pre : FlowPrefix) : U64 :=
  cpu.context.rip + BitVec.ofNat 64 pre.size

/-- The bytes of an item that a far call pushes. -/
def pushedSize (ctx : CpuContext) (pre : FlowPrefix) : ℕ :=
  if ctx.is64BitCode then 8 else if pre.operandSizeOverride then 2 else 4

/-- The operand size of a far return, which `decode_ret_far_operand_size` finds. -/
def retFarSize (ctx : CpuContext) (pre : FlowPrefix) : ℕ :=
  decodeRetFarOperandSize (ctx.recorded pre)

/-- The bytes of an item that a far return pops. -/
def poppedSize (ctx : CpuContext) (pre : FlowPrefix) : ℕ := operandBytes (retFarSize ctx pre)

/-- The operand size that the prefixes of a far call or return ask for. -/
def farOperandSize (ctx : CpuContext) (pre : FlowPrefix) : ℕ :=
  farPointerSize ctx pre.rexW pre.operandSizeOverride

/-- The CPU in another code segment. -/
def Cpu.inSegment (cpu : Cpu) (desc : SegmentDescriptor) : Cpu :=
  { cpu with context := { cpu.context with cs := { cpu.context.cs with descriptor := desc } } }

/-- The CPU with the frame of a far call on its stack, in the code segment of the callee. -/
def Cpu.called (cpu : Cpu) (pre : FlowPrefix) (desc : SegmentDescriptor) : Cpu :=
  match (cpu.recorded pre).pushedReturn (pushedSize cpu.context pre) (cpu.nextRip pre) with
  | .error _ => cpu
  | .ok after => after.inSegment desc

/-! ## The law -/

/-- A far call that goes to a code segment, from a segment to which a return may go. -/
structure FarCall (cpu : Cpu) (pre : FlowPrefix) (inst : FlowInst) (desc : SegmentDescriptor) :
    Prop where
  isFarCall : inst.isFarCall = true
  completes : (cpu.execute pre inst).context.hasException = false
  segment : (cpu.execute pre inst).context.cs.descriptor = desc
  /-- The selector of the caller is valid, with the descriptor that the caller runs in. -/
  valid : (cpu.called pre desc).validSelector cpu.context.cs.selector
    ((cpu.called pre desc).retChecks cpu.context.cs.selector) = .ok cpu.context.cs.descriptor

/-- `RET` behind the call leaves the registers as they were before, at the instruction
behind the call. -/
def RoundTrip (cpu : Cpu) (pre : FlowPrefix) (inst : FlowInst) (preRet : FlowPrefix) : Prop :=
  ((cpu.execute pre inst).execute preRet (.retFar 0)).context =
    { cpu.context.recorded preRet with
      rip := cpu.nextRip pre
      cachedModeKeyValid := false }

/-- The value of the stack pointer register behind a write with a stack address size. -/
def stackWrite (stackAddrSize : ℕ) (old value : U64) : U64 :=
  if stackAddrSize = 64 then value
  else if stackAddrSize = 32 then (old &&& ~~~0xFFFFFFFF) ||| (value &&& 0xFFFFFFFF)
  else (old &&& ~~~0xFFFF) ||| (value &&& 0xFFFF)

/-- The stack pointer behind two pushes. -/
def stackPushed (stackAddrSize size : ℕ) (rsp : U64) : U64 :=
  stackWrite stackAddrSize rsp (truncateTo stackAddrSize
    (truncateTo stackAddrSize (rsp - BitVec.ofNat 64 size) - BitVec.ofNat 64 size))

/-- The stack pointer behind two pops. -/
def stackPopped (stackAddrSize size : ℕ) (rsp : U64) : U64 :=
  stackWrite stackAddrSize rsp (truncateTo stackAddrSize
    (truncateTo stackAddrSize rsp + BitVec.ofNat 64 (2 * size)))

/-- A return in a code segment fits a call. -/
structure ReturnFits (cpu : Cpu) (pre : FlowPrefix) (desc : SegmentDescriptor)
    (preRet : FlowPrefix) : Prop where
  /-- The widths are the same. -/
  sizes : poppedSize (cpu.inSegment desc).context preRet = pushedSize cpu.context pre
  /-- The return address fits the width. -/
  fits : cpuMaskCodeOffset (cpu.nextRip pre) (retFarSize (cpu.inSegment desc).context preRet) =
    cpu.nextRip pre
  /-- 64-bit code returns to a canonical address. -/
  canonical : (cpu.inSegment desc).context.is64BitCode = true →
    cpuIsCanonicalAddress (cpu.nextRip pre) = true
  /-- The stack pointer moves back, also where the stack address size has changed. -/
  stack : stackPopped (cpu.inSegment desc).context.stackAddressSize (pushedSize cpu.context pre)
    (stackPushed cpu.context.stackAddressSize (pushedSize cpu.context pre)
      (cpu.context.regs regRsp)) = cpu.context.regs regRsp
  /-- The callee finds the return address and the selector at its stack pointer. -/
  frame : ∃ selector stackAfterPops,
    (cpu.called pre desc).peeked (pushedSize cpu.context pre) 2 =
      .ok ([cpu.nextRip pre, selector], stackAfterPops) ∧
    selector.setWidth 16 = cpu.context.cs.selector

/-! ## The stack pointer -/

theorem stackWrite_self (stackAddrSize : ℕ) (rsp : U64) :
    stackWrite stackAddrSize rsp rsp = rsp := by
  unfold stackWrite
  split_ifs
  · rfl
  · exact ((merge_eq_iff rsp rsp _).mpr (by simp)).symm
  · exact ((merge_eq_iff rsp rsp _).mpr (by simp)).symm

theorem cpuSetStackPointerValue_eq (ctx : CpuContext) (stackAddrSize : ℕ) (value : U64) :
    cpuSetStackPointerValue ctx stackAddrSize value =
      let rsp := stackWrite stackAddrSize (ctx.regs regRsp) value
      { ctx with regs := Function.update ctx.regs regRsp rsp } := rfl

theorem setWidth_mask (mask value : U64) (h : mask.setWidth 16 = BitVec.allOnes 16) :
    (value &&& mask).setWidth 16 = value.setWidth 16 := by
  rw [BitVec.setWidth_and, h, BitVec.and_allOnes]

/-- The low 16 bits of the stack pointer move with every stack address size. -/
theorem stackWrite_low (stackAddrSize : ℕ) (old value : U64) :
    (stackWrite stackAddrSize old value).setWidth 16 = value.setWidth 16 := by
  have hmerge : ∀ mask : U64, mask.setWidth 16 = BitVec.allOnes 16 →
      (~~~mask).setWidth 16 = 0#16 →
      ((old &&& ~~~mask) ||| (value &&& mask)).setWidth 16 = value.setWidth 16 := by
    intro mask hmask hrest
    rw [BitVec.setWidth_or, BitVec.setWidth_and, hrest, setWidth_mask mask value hmask]
    simp
  unfold stackWrite
  split_ifs
  · rfl
  · exact hmerge _ (by decide) (by decide)
  · exact hmerge _ (by decide) (by decide)

theorem truncateTo_low (stackAddrSize : ℕ) (value : U64) :
    (truncateTo stackAddrSize value).setWidth 16 = value.setWidth 16 := by
  unfold truncateTo
  split_ifs
  · rfl
  · exact setWidth_mask _ _ (by decide)
  · exact setWidth_mask _ _ (by decide)

theorem stackPushed_low (stackAddrSize size : ℕ) (rsp : U64) :
    (stackPushed stackAddrSize size rsp).setWidth 16 =
      rsp.setWidth 16 - BitVec.ofNat 16 size - BitVec.ofNat 16 size := by
  have hsub : ∀ x : U64, (x - BitVec.ofNat 64 size).setWidth 16 =
      x.setWidth 16 - BitVec.ofNat 16 size := by
    intro x
    apply BitVec.eq_of_toNat_eq
    simp only [BitVec.toNat_setWidth, BitVec.toNat_sub, BitVec.toNat_ofNat]
    omega
  unfold stackPushed
  rw [stackWrite_low, truncateTo_low, hsub, truncateTo_low, hsub]

theorem stackPopped_low (stackAddrSize size : ℕ) (rsp : U64) :
    (stackPopped stackAddrSize size rsp).setWidth 16 =
      rsp.setWidth 16 + BitVec.ofNat 16 (2 * size) := by
  unfold stackPopped
  rw [stackWrite_low, truncateTo_low, BitVec.setWidth_add _ _ (by decide), truncateTo_low,
    BitVec.setWidth_ofNat_of_le (by decide)]

/-- The stack pointer moves back only by pops of the width of the pushes. -/
theorem sizes_of_stack {pushed popped : ℕ} (hpushed : pushed = 2 ∨ pushed = 4 ∨ pushed = 8)
    (hpopped : popped = 2 ∨ popped = 4 ∨ popped = 8) {pushAddrSize popAddrSize : ℕ} {rsp : U64}
    (h : stackPopped popAddrSize popped (stackPushed pushAddrSize pushed rsp) = rsp) :
    popped = pushed := by
  have hlow := congrArg (BitVec.setWidth 16) h
  rw [stackPopped_low, stackPushed_low] at hlow
  rcases hpushed with rfl | rfl | rfl <;> rcases hpopped with rfl | rfl | rfl <;>
    first | rfl | (exfalso; bv_omega)

/-! ## The items of a frame -/

variable {cpu : Cpu}

/-- Two items on the stack. -/
theorem peeked_two {size : ℕ} {values : List U64} {stackAfterPops : U64}
    (h : cpu.peeked size 2 = .ok (values, stackAfterPops)) :
    ∃ first second, values = [first, second] ∧ first.toNat < 2 ^ (8 * size) ∧
      stackAfterPops = truncateTo cpu.context.stackAddressSize
        (truncateTo cpu.context.stackAddressSize (cpu.context.regs regRsp) +
          BitVec.ofNat 64 (2 * size)) := by
  unfold Cpu.peeked at h
  obtain ⟨_, -, h⟩ := ok_bind_iff.mp h
  obtain ⟨values', hvalues, h⟩ := ok_bind_iff.mp h
  cases h
  simp only [Cpu.peekValues, ok_bind_iff] at hvalues
  obtain ⟨first, hfirst, rest, ⟨second, -, rest', hnil, hrest⟩, hvalues⟩ := hvalues
  cases hnil
  cases hrest
  cases hvalues
  exact ⟨first, second, rfl, loadAt_lt hfirst, rfl⟩

/-! ## What a return looks at -/

/-- Two CPUs that a return cannot tell apart: they differ in the selector of the code segment,
the instruction pointer, the prefixes and the mode key at most. -/
structure ReturnAlike (cpu cpu' : Cpu) : Prop where
  memory : cpu'.memory = cpu.memory
  context : cpu'.context = { cpu.context with
    cs := { cpu.context.cs with selector := cpu'.context.cs.selector }
    rip := cpu'.context.rip
    prefixBits := cpu'.context.prefixBits
    lastInstSize := cpu'.context.lastInstSize
    cachedModeKeyValid := cpu'.context.cachedModeKeyValid }

namespace ReturnAlike

variable {cpu' : Cpu} (h : ReturnAlike cpu cpu')

include h

theorem dataPtr (store : Bool) (address : U64) :
    cpu'.dataPtr store address = cpu.dataPtr store address := by
  unfold Cpu.dataPtr
  rw [h.memory, h.context]
  rfl

theorem operandPtrs (store : Bool) (address : U64) (left : ℕ) : ∀ offset,
    cpu'.operandPtrs store address left offset = cpu.operandPtrs store address left offset :=
  operandPtrs_congr (h.dataPtr store) left

theorem loadAt_ok {size : ℕ} {address value : U64} :
    cpu'.loadAt size address = .ok value ↔ cpu.loadAt size address = .ok value := by
  unfold Cpu.loadAt
  rw [h.operandPtrs, h.memory]
  cases cpu.operandPtrs false address size 0 with
  | error a => simp only [reduceCtorEq]
  | ok ptrs => exact Iff.rfl

theorem stackAddressSize : cpu'.context.stackAddressSize = cpu.context.stackAddressSize := by
  rw [h.context]
  rfl

theorem peekValues_ok {baseSp : U64} {size : ℕ} (left : ℕ) : ∀ {index : ℕ} {values : List U64},
    cpu'.peekValues baseSp size left index = .ok values ↔
      cpu.peekValues baseSp size left index = .ok values := by
  induction left with
  | zero => exact Iff.rfl
  | succ left ih =>
    intro index values
    rw [Cpu.peekValues, Cpu.peekValues, h.stackAddressSize, ok_bind_iff, ok_bind_iff]
    refine exists_congr fun value => and_congr h.loadAt_ok ?_
    rw [ok_bind_iff, ok_bind_iff]
    exact exists_congr fun rest => and_congr_left fun _ => ih

theorem validStackSize_ok {size : ℕ} {u : Unit} :
    cpu'.validStackSize size = .ok u ↔ cpu.validStackSize size = .ok u := by
  unfold Cpu.validStackSize
  rw [h.stackAddressSize]
  split_ifs
  · exact Iff.rfl
  · exact Iff.rfl
  · exact Iff.rfl

theorem peeked_ok {size count : ℕ} {r : List U64 × U64} :
    cpu'.peeked size count = .ok r ↔ cpu.peeked size count = .ok r := by
  unfold Cpu.peeked
  have hrsp : cpu'.context.regs regRsp = cpu.context.regs regRsp := by rw [h.context]
  rw [h.stackAddressSize, hrsp]
  simp only [ok_bind_iff]
  refine exists_congr fun _ => and_congr h.validStackSize_ok ?_
  exact exists_congr fun values => and_congr_left fun _ => h.peekValues_ok count

theorem retChecks (selector : U16) : cpu'.retChecks selector = cpu.retChecks selector := by
  funext desc
  unfold Cpu.retChecks Cpu.codeFault Cpu.retPrivilegeFault
  rw [h.context]

theorem descriptorWords_ok {selector : U16} {words : U32 × U32} :
    cpu'.descriptorWords selector = .ok words ↔ cpu.descriptorWords selector = .ok words := by
  have hctx := h.context
  have hg : cpu'.context.gdtrBase = cpu.context.gdtrBase := by rw [hctx]
  have hl : cpu'.context.ldtrBase = cpu.context.ldtrBase := by rw [hctx]
  have hgl : cpu'.context.gdtrLimit = cpu.context.gdtrLimit := by rw [hctx]
  have hll : cpu'.context.ldtrLimit = cpu.context.ldtrLimit := by rw [hctx]
  unfold Cpu.descriptorWords
  rw [hg, hl, hgl, hll]
  dsimp only
  split_ifs
  · exact Iff.rfl
  · simp only [ok_bind_iff, h.loadAt_ok]
  · exact Iff.rfl
  · simp only [ok_bind_iff, h.loadAt_ok]

theorem validSelector_ok {selector : U16} {desc : SegmentDescriptor} :
    cpu'.validSelector selector (cpu'.retChecks selector) = .ok desc ↔
      cpu.validSelector selector (cpu.retChecks selector) = .ok desc := by
  rw [Cpueaxh.validSelector_ok, Cpueaxh.validSelector_ok, h.retChecks]
  refine and_congr_right fun _ => exists_congr fun low => exists_congr fun high => ?_
  exact and_congr_left fun _ => h.descriptorWords_ok

end ReturnAlike

/-! ## The call -/

/-- The items of a far call through memory have the pushed size. -/
theorem callItemSize_eq (pre : FlowPrefix) :
    (cpu.recorded pre).callItemSize (farPointerSize cpu.context pre.rexW pre.operandSizeOverride) =
      pushedSize cpu.context pre := by
  have hcode : (cpu.recorded pre).context.is64BitCode = cpu.context.is64BitCode := rfl
  unfold Cpu.callItemSize pushedSize farPointerSize
  rw [hcode]
  cases cpu.context.is64BitCode with
  | true => rfl
  | false => cases pre.operandSizeOverride <;> rfl

/-- A far transfer that completes ends in its outcome. -/
theorem farTransfer_completes (hm : MemoryOk cpu.memory)
    (hexc : cpu.context.hasException = false) {t : FarTransfer}
    (hdone : (farTransfer t cpu).context.hasException = false) :
    ∃ c, t.outcome cpu = .ok c ∧ UpToCache (farTransfer t cpu) c := by
  obtain ⟨c, hc⟩ := (farTransfer_done hexc hm t).mp hdone
  have hstate := farTransfer_outcome hexc (.refl hm) t
  rw [hc] at hstate
  exact ⟨c, hc, hstate⟩

/-- The CPU behind a far call: the frame is on the stack, and the callee is entered. -/
theorem FarCall.callee {pre : FlowPrefix} {inst : FlowInst} {desc : SegmentDescriptor}
    (hm : MemoryOk cpu.memory) (hexc : cpu.context.hasException = false)
    (h : FarCall cpu pre inst desc) :
    ∃ after selector target,
      (cpu.recorded pre).pushedReturn (pushedSize cpu.context pre) (cpu.nextRip pre) = .ok after ∧
      UpToCache (cpu.execute pre inst) (after.enter selector desc target) := by
  have hexecute : cpu.execute pre inst =
      ((executeFar pre fun ctx => inst.transfer pre ctx).run handlerOp cpu).2 := by
    have hfar := h.isFarCall
    cases inst with
    | callFarMem address => rfl
    | callFarPtr selector offset => rfl
    | _ => cases hfar
  rw [run_executeFar, show ((recordPrefix pre).run cpuOp cpu).2 = cpu.recorded pre from rfl]
    at hexecute
  have hdone := h.completes
  have hsegment := h.segment
  have hm' : MemoryOk (cpu.recorded pre).memory := hm
  have hexc' : (cpu.recorded pre).context.hasException = false := hexc
  -- the segment that is entered is that of the descriptor that the call has checked
  have henter : ∀ {after : Cpu} {selector : U16} {desc' : SegmentDescriptor} {target : U64},
      UpToCache (cpu.execute pre inst) (after.enter selector desc' target) → desc' = desc := by
    intro after selector desc' target hstate
    rw [← hsegment]
    exact congrArg (fun c : Cpu => c.context.cs.descriptor) hstate.eq
  cases inst with
  | callFarMem address =>
    change cpu.execute pre _ = farTransfer (.callFarMem address (farPointerSize cpu.context
      pre.rexW pre.operandSizeOverride) (cpu.nextRip pre)) (cpu.recorded pre) at hexecute
    rw [hexecute] at hdone henter ⊢
    obtain ⟨c, hc, hstate⟩ := farTransfer_completes hm' hexc' hdone
    obtain ⟨offset, selector, desc', after, -, -, -, hpushed, rfl⟩ := callFarMemOutcome_ok.mp hc
    rw [callItemSize_eq] at hpushed
    obtain rfl := henter hstate
    exact ⟨after, selector, _, hpushed, hstate⟩
  | callFarPtr selector offset =>
    have hcode : (cpu.recorded pre).context.is64BitCode = cpu.context.is64BitCode := rfl
    simp only [FlowInst.transfer, directSize, hcode] at hexecute
    by_cases hlong : cpu.context.is64BitCode = true
    · -- 64-bit code has no such call
      rw [if_pos hlong] at hexecute
      change cpu.execute pre _ = ((cpuRaiseException .ud 0).run cpuOp (cpu.recorded pre)).2
        at hexecute
      rw [hexecute] at hdone
      have hraised := failed_raised hexc' .ud 0
      exact absurd (hdone.symm.trans hraised.pending) (by decide)
    · obtain ⟨size, hsize, hitems⟩ : ∃ size,
          cpu.execute pre (.callFarPtr selector offset) =
            farTransfer (.callFarPtr selector offset size (cpu.nextRip pre)) (cpu.recorded pre) ∧
          (if size = 32 then 4 else 2) = pushedSize cpu.context pre := by
        have hover : (cpu.recorded pre).context.prefixBits.operandSizeOverride =
          pre.operandSizeOverride := rfl
        rw [if_neg hlong, hover] at hexecute
        unfold pushedSize
        rw [if_neg hlong]
        cases hnarrow : pre.operandSizeOverride with
        | true =>
          rw [hnarrow] at hexecute
          exact ⟨16, hexecute, rfl⟩
        | false =>
          rw [hnarrow] at hexecute
          exact ⟨32, hexecute, rfl⟩
      rw [hsize] at hdone henter ⊢
      obtain ⟨c, hc, hstate⟩ := farTransfer_completes hm' hexc' hdone
      obtain ⟨desc', after, -, -, hpushed, rfl⟩ := callFarPtrOutcome_ok.mp hc
      rw [hitems] at hpushed
      obtain rfl := henter hstate
      exact ⟨after, selector, _, hpushed, hstate⟩
  | _ => cases h.isFarCall

/-! ## The return -/

/-- The registers behind a far return that completes. -/
theorem retOutcome_context {operandSize : ℕ} {c : Cpu}
    (h : cpu.retOutcome operandSize cpu.context.stackAddressSize 0 = .ok c) :
    ∃ frame, cpu.frame operandSize 2 = .ok frame ∧
      c.context = { cpu.context with
        regs := Function.update cpu.context.regs regRsp
          (stackWrite cpu.context.stackAddressSize (cpu.context.regs regRsp) frame.stackAfterPops)
        cs := { selector := (frame.selector &&& 0xFFFC) ||| cpu.context.cpl.setWidth 16,
                descriptor := frame.descriptor }
        cachedModeKeyValid := false
        rip := cpuMaskCodeOffset (frame.values.getD 0 0) operandSize } := by
  obtain ⟨frame, hframe, rfl⟩ := retOutcome_ok.mp h
  refine ⟨frame, hframe, ?_⟩
  unfold Cpu.released Cpu.enter Cpu.setStack
  simp only [cpuSetStackPointerValue_eq, Function.update_self, Function.update_idem,
    show BitVec.setWidth 64 (0 : U16) = (0 : U64) from rfl, add_zero, stackWrite_self]

/-- A far return runs past the page cache. -/
theorem execute_ret {c callee : Cpu} (h : UpToCache c callee)
    (hexc : callee.context.hasException = false) (preRet : FlowPrefix) :
    (c.execute preRet (.retFar 0)).context = (transferred ((callee.recorded preRet).retOutcome
      (retFarSize callee.context preRet) (callee.recorded preRet).context.stackAddressSize
      0)).2.context := by
  have hcontext : callee.context = c.context := by
    have heq := congrArg Cpu.context h.eq
    exact heq
  have hrecorded : UpToCache (c.recorded preRet) (callee.recorded preRet) := by
    refine ⟨?_, h.ok, h.ok'⟩
    have heq := congrArg (fun cpu : Cpu => cpu.recorded preRet) h.eq
    exact heq
  have hexecute : c.execute preRet (.retFar 0) =
      farTransfer (.ret (retFarSize callee.context preRet)
        (callee.recorded preRet).context.stackAddressSize 0) (c.recorded preRet) := by
    change ((executeFar preRet fun ctx => (FlowInst.retFar 0).transfer preRet ctx).run
      handlerOp c).2 = _
    rw [run_executeFar]
    unfold retFarSize Cpu.recorded
    rw [hcontext]
    rfl
  have hstate := @farTransfer_outcome (callee.recorded preRet) hexc _ hrecorded (.ret (retFarSize callee.context preRet)
    (callee.recorded preRet).context.stackAddressSize 0)
  rw [hexecute]
  exact (congrArg Cpu.context hstate.eq).symm

/-- The pushes of a far call move the stack pointer only. -/
theorem pushedReturn_context {pre : FlowPrefix} {size : ℕ} {returnRip : U64} {after : Cpu}
    (h : (cpu.recorded pre).pushedReturn size returnRip = .ok after) :
    after.context = { cpu.context.recorded pre with
      regs := Function.update cpu.context.regs regRsp
        (stackPushed cpu.context.stackAddressSize size (cpu.context.regs regRsp)) } := by
  obtain ⟨_, _, -, -, rfl⟩ := pushedTwo_ok h
  rfl

/-- A selector of the current privilege level is loaded as it is. -/
theorem loaded_selector {selector : U16} {cpl : U8}
    (h : selectorRpl selector = cpl) : (selector &&& 0xFFFC) ||| cpl.setWidth 16 = selector := by
  have hrpl : cpl.setWidth 16 = selector &&& 0x3 := by
    have hle : (selector &&& 0x3).toNat ≤ 3 := by
      rw [BitVec.toNat_and]
      exact Nat.and_le_right
    rw [← h]
    unfold selectorRpl
    apply BitVec.eq_of_toNat_eq
    rw [BitVec.toNat_setWidth, BitVec.toNat_setWidth]
    change (selector &&& 0x3).toNat % 2 ^ 8 % 2 ^ 16 = (selector &&& 0x3).toNat
    omega
  rw [hrpl, ← BitVec.and_or_distrib_left]
  exact BitVec.and_allOnes

theorem retChecks_rpl {selector : U16} {desc : SegmentDescriptor}
    (h : cpu.retChecks selector desc = none) : selectorRpl selector = cpu.context.cpl := by
  unfold Cpu.retChecks at h
  have hprivilege := (Option.or_eq_none_iff.mp h).2
  unfold Cpu.retPrivilegeFault at hprivilege
  by_contra hne
  rw [if_pos (by simp [hne])] at hprivilege
  cases hprivilege

/-- The selector of a frame is loaded as it is. -/
theorem frame_selector {operandSize count : ℕ} {frame : ReturnFrame}
    (h : cpu.frame operandSize count = .ok frame) :
    (frame.selector &&& 0xFFFC) ||| cpu.context.cpl.setWidth 16 = frame.selector := by
  obtain ⟨-, -, hvalid, -⟩ := frame_ok.mp h
  obtain ⟨-, _, _, -, -, hfault⟩ := validSelector_ok.mp hvalid
  exact loaded_selector (retChecks_rpl hfault)

/-- A value that fits an operand is not masked. -/
theorem mask_of_lt {operandSize : ℕ} (hsize : OperandSize operandSize) {value : U64}
    (h : value.toNat < 2 ^ (8 * operandBytes operandSize)) :
    cpuMaskCodeOffset value operandSize = value := by
  rcases hsize with rfl | rfl | rfl
  · apply BitVec.eq_of_toNat_eq
    change (value &&& 0xFFFF).toNat = value.toNat
    rw [BitVec.toNat_and]
    exact (Nat.and_two_pow_sub_one_eq_mod value.toNat 16).trans (Nat.mod_eq_of_lt h)
  · apply BitVec.eq_of_toNat_eq
    change (value &&& 0xFFFFFFFF).toNat = value.toNat
    rw [BitVec.toNat_and]
    exact (Nat.and_two_pow_sub_one_eq_mod value.toNat 32).trans (Nat.mod_eq_of_lt h)
  · rfl

/-- The rest of the registers: all that a far return leaves alone. -/
def SameRest (ctx back : CpuContext) : Prop :=
  ∀ regs cs rip,
    { ctx with regs := regs, cs := cs, rip := rip, cachedModeKeyValid := false } =
      { back with regs := regs, cs := cs, rip := rip, cachedModeKeyValid := false }

/-- A return ends in a context behind a call exactly if it pops the frame of the call: the
return address, the code segment of the caller, and a stack pointer that moves back. -/
theorem returns_iff {callee : Cpu} {back : CpuContext} {operandSize : ℕ} {rsp nextRip : U64}
    (hexc : callee.context.hasException = false) (hback : back.hasException = false)
    (hregs : callee.context.regs = Function.update back.regs regRsp rsp)
    (hrest : SameRest callee.context back) :
    (transferred (callee.retOutcome operandSize callee.context.stackAddressSize 0)).2.context =
        { back with rip := nextRip, cachedModeKeyValid := false } ↔
      ∃ frame, callee.frame operandSize 2 = .ok frame ∧
        stackWrite callee.context.stackAddressSize rsp frame.stackAfterPops = back.regs regRsp ∧
        frame.selector = back.cs.selector ∧ frame.descriptor = back.cs.descriptor ∧
        cpuMaskCodeOffset (frame.values.getD 0 0) operandSize = nextRip := by
  cases hret : callee.retOutcome operandSize callee.context.stackAddressSize 0 with
  | error c =>
    have hcompletes := completes_outcome hexc
      (.ret operandSize callee.context.stackAddressSize 0)
    change callee.Completes (callee.retOutcome operandSize _ 0) at hcompletes
    rw [hret] at hcompletes
    constructor
    · intro heq
      cases hcompletes with
      | error hfailed =>
        have hnone := congrArg CpuContext.hasException heq
        change c.context.hasException = back.hasException at hnone
        rw [hfailed.pending, hback] at hnone
        cases hnone
    · rintro ⟨frame, hframe, -⟩
      have hok := (@retOutcome_ok callee operandSize callee.context.stackAddressSize 0 _).mpr
        ⟨frame, hframe, rfl⟩
      rw [hret] at hok
      cases hok
  | ok c =>
    obtain ⟨frame, hframe, hc⟩ := retOutcome_context hret
    have hselector := frame_selector hframe
    change c.context = _ ↔ _
    rw [hselector, hregs, Function.update_idem, Function.update_self] at hc
    rw [hc, hrest]
    constructor
    · intro heq
      refine ⟨frame, hframe, ?_, ?_, ?_, ?_⟩
      · have hrsp := congrArg (fun ctx : CpuContext => ctx.regs regRsp) heq
        simpa only [Function.update_self] using hrsp
      · exact congrArg (fun ctx : CpuContext => ctx.cs.selector) heq
      · exact congrArg (fun ctx : CpuContext => ctx.cs.descriptor) heq
      · exact congrArg CpuContext.rip heq
    · rintro ⟨frame', hframe', hstack, hcs, hdesc, hrip⟩
      obtain rfl := Except.ok.inj (hframe.symm.trans hframe')
      rw [hstack, hcs, hdesc, hrip, Function.update_eq_self]

/-! ## The round trip -/

theorem retFarSize_operandSize (ctx : CpuContext) (pre : FlowPrefix) :
    OperandSize (retFarSize ctx pre) :=
  decodeRetFarOperandSize_operandSize _

theorem pushedSize_cases (ctx : CpuContext) (pre : FlowPrefix) :
    pushedSize ctx pre = 2 ∨ pushedSize ctx pre = 4 ∨ pushedSize ctx pre = 8 := by
  unfold pushedSize
  split_ifs
  · exact .inr (.inr rfl)
  · exact .inl rfl
  · exact .inr (.inl rfl)

theorem operandBytes_cases {operandSize : ℕ} (h : OperandSize operandSize) :
    operandBytes operandSize = 2 ∨ operandBytes operandSize = 4 ∨ operandBytes operandSize = 8 := by
  rcases h with rfl | rfl | rfl
  · exact .inl rfl
  · exact .inr (.inl rfl)
  · exact .inr (.inr rfl)

/-- The offset of a return that fits is valid. -/
theorem validOffset_fits {callee : Cpu} {value : U64} {operandSize : ℕ} {long : Bool}
    (hfits : cpuMaskCodeOffset value operandSize = value)
    (hcanonical : callee.context.is64BitCode = true → cpuIsCanonicalAddress value = true) :
    callee.validOffset value (if long then 64 else operandSize) = .ok () := by
  have hmask : cpuMaskCodeOffset value (if long then 64 else operandSize) = value := by
    cases long
    · exact hfits
    · rfl
  unfold Cpu.validOffset
  rw [hmask, if_neg]
  intro hne
  rw [Bool.and_eq_true, Bool.not_eq_true'] at hne
  rw [hcanonical hne.1] at hne
  exact absurd hne.2 (by decide)

/-- The offset of a return from 64-bit code is canonical. -/
theorem canonical_of_validOffset {callee : Cpu} {value : U64} {operandSize : ℕ} {long : Bool}
    (hfits : cpuMaskCodeOffset value operandSize = value)
    (h : callee.validOffset value (if long then 64 else operandSize) = .ok ())
    (hcode : callee.context.is64BitCode = true) : cpuIsCanonicalAddress value = true := by
  have hmask : cpuMaskCodeOffset value (if long then 64 else operandSize) = value := by
    cases long
    · exact hfits
    · rfl
  unfold Cpu.validOffset at h
  rw [hmask, hcode] at h
  by_contra hne
  rw [Bool.not_eq_true] at hne
  rw [if_pos (by rw [hne]; rfl)] at h
  cases h

/-- The callee pops the frame of the call exactly if the return fits. -/
theorem pops_iff {callee : Cpu} {pre preRet : FlowPrefix} {desc : SegmentDescriptor}
    (halike : ReturnAlike (cpu.called pre desc) callee)
    (hvalid : (cpu.called pre desc).validSelector cpu.context.cs.selector
      ((cpu.called pre desc).retChecks cpu.context.cs.selector) = .ok cpu.context.cs.descriptor)
    (hrsp : callee.context.regs regRsp = stackPushed cpu.context.stackAddressSize
      (pushedSize cpu.context pre) (cpu.context.regs regRsp))
    (hstackSize : callee.context.stackAddressSize = (cpu.inSegment desc).context.stackAddressSize)
    (hlong : callee.context.is64BitCode = (cpu.inSegment desc).context.is64BitCode) :
    (∃ frame, callee.frame (retFarSize (cpu.inSegment desc).context preRet) 2 = .ok frame ∧
        stackWrite callee.context.stackAddressSize (callee.context.regs regRsp)
          frame.stackAfterPops = cpu.context.regs regRsp ∧
        frame.selector = cpu.context.cs.selector ∧
        frame.descriptor = cpu.context.cs.descriptor ∧
        cpuMaskCodeOffset (frame.values.getD 0 0)
          (retFarSize (cpu.inSegment desc).context preRet) = cpu.nextRip pre) ↔
      ReturnFits cpu pre desc preRet := by
  have hsize := retFarSize_operandSize (cpu.inSegment desc).context preRet
  constructor
  · rintro ⟨frame, hframe, hstack, hselector, -, hrip⟩
    obtain ⟨hpeeked, hsel, -, hoffset⟩ := frame_ok.mp hframe
    obtain ⟨first, second, hvalues, hfirst, hafterPops⟩ := peeked_two hpeeked
    rw [hvalues] at hrip hsel hoffset hpeeked
    change cpuMaskCodeOffset first _ = _ at hrip
    change frame.selector = second.setWidth 16 at hsel
    change callee.validOffset first _ = _ at hoffset
    -- the item has the bits of its bytes only, so the mask changes nothing
    have hmask := mask_of_lt hsize hfirst
    rw [hmask] at hrip
    subst hrip
    have hpopped : stackPopped (cpu.inSegment desc).context.stackAddressSize
        (poppedSize (cpu.inSegment desc).context preRet)
        (stackPushed cpu.context.stackAddressSize (pushedSize cpu.context pre)
          (cpu.context.regs regRsp)) = cpu.context.regs regRsp := by
      rw [← hrsp, ← hstackSize]
      rw [hafterPops] at hstack
      exact hstack
    have hsizes := sizes_of_stack (pushedSize_cases _ _) (operandBytes_cases hsize) hpopped
    unfold poppedSize at hpopped
    rw [hsizes] at hpopped hpeeked
    refine ⟨hsizes, hmask, ?_, hpopped, second, frame.stackAfterPops,
      halike.peeked_ok.mp hpeeked, hsel.symm.trans hselector⟩
    rw [← hlong]
    exact canonical_of_validOffset hmask hoffset
  · rintro ⟨hsizes, hfits, hcanonical, hstack, selector, stackAfterPops, hpeeked, hselector⟩
    have hcallee := halike.peeked_ok.mpr hpeeked
    obtain ⟨_, _, -, -, hafterPops⟩ := peeked_two hcallee
    unfold poppedSize at hsizes
    rw [← hsizes] at hcallee
    refine ⟨⟨[cpu.nextRip pre, selector], stackAfterPops, cpu.context.cs.selector,
      cpu.context.cs.descriptor⟩, frame_ok.mpr ⟨hcallee, hselector.symm,
        halike.validSelector_ok.mpr hvalid, ?_⟩, ?_, rfl, rfl, hfits⟩
    · rw [← hlong] at hcanonical
      exact validOffset_fits hfits hcanonical
    · rw [hafterPops, hrsp, hstackSize]
      exact hstack

/-- **A far call and a far return** at its target, for every prefix of the return: they leave
the registers as they were exactly if the return fits. -/
theorem farCall_returns_iff (cpu : Cpu) (pre : FlowPrefix) (inst : FlowInst)
    (desc : SegmentDescriptor) (preRet : FlowPrefix) (hm : MemoryOk cpu.memory)
    (hexc : cpu.context.hasException = false) (h : FarCall cpu pre inst desc) :
    RoundTrip cpu pre inst preRet ↔ ReturnFits cpu pre desc preRet := by
  obtain ⟨after, selector, target, hpushed, hstate⟩ := h.callee hm hexc
  have hafter := pushedReturn_context hpushed
  have hcalled : cpu.called pre desc = after.inSegment desc := by
    unfold Cpu.called
    rw [hpushed]
  -- the callee, behind the decoder of the return
  obtain ⟨callee, hcallee⟩ :
    ∃ callee, (after.enter selector desc target).recorded preRet = callee := ⟨_, rfl⟩
  have halike : ReturnAlike (cpu.called pre desc) callee := by
    subst hcallee
    rw [hcalled]
    exact ⟨rfl, rfl⟩
  have hcontext : callee.context = { cpu.context.recorded preRet with
      regs := Function.update cpu.context.regs regRsp
        (stackPushed cpu.context.stackAddressSize (pushedSize cpu.context pre)
          (cpu.context.regs regRsp))
      cs := { selector := (selector &&& 0xFFFC) ||| cpu.context.cpl.setWidth 16,
              descriptor := desc }
      rip := target
      cachedModeKeyValid := false } := by
    subst hcallee
    unfold Cpu.recorded Cpu.enter
    dsimp only
    rw [hafter]
    rfl
  have hstackSize : callee.context.stackAddressSize =
      (cpu.inSegment desc).context.stackAddressSize := by
    rw [hcontext]
    rfl
  have hlong : callee.context.is64BitCode = (cpu.inSegment desc).context.is64BitCode := by
    rw [hcontext]
    rfl
  have hsize : retFarSize (after.enter selector desc target).context preRet =
      retFarSize (cpu.inSegment desc).context preRet := by
    unfold retFarSize Cpu.enter
    dsimp only
    rw [hafter]
    rfl
  have hnone : callee.context.hasException = false := by
    rw [hcontext]
    exact hexc
  have hnone' : (after.enter selector desc target).context.hasException = false := by
    subst hcallee
    exact hnone
  have hreturns := @returns_iff callee (cpu.context.recorded preRet)
    (retFarSize (cpu.inSegment desc).context preRet) _ (cpu.nextRip pre) hnone hexc
    (by rw [hcontext]; rfl) (by rw [hcontext]; exact fun _ _ _ => rfl)
  unfold RoundTrip
  rw [execute_ret hstate hnone' preRet, hcallee, hsize]
  refine hreturns.trans ?_
  have hrsp : callee.context.regs regRsp = stackPushed cpu.context.stackAddressSize
      (pushedSize cpu.context pre) (cpu.context.regs regRsp) := by
    rw [hcontext]
    exact Function.update_self regRsp _ cpu.context.regs
  rw [← hrsp]
  exact pops_iff halike h.valid hrsp hstackSize hlong

/-! ## When a return fits -/

/-- The widths are the same exactly if the call does not leave 64-bit code and the return
has no override, or if it comes from other code, both have an override or neither has, and
64-bit code has one. -/
theorem sizes_iff (cpu : Cpu) (pre preRet : FlowPrefix) (desc : SegmentDescriptor) :
    poppedSize (cpu.inSegment desc).context preRet = pushedSize cpu.context pre ↔
      if cpu.context.is64BitCode then
        (cpu.inSegment desc).context.is64BitCode = true ∧ preRet.operandSizeOverride = false
      else
        preRet.operandSizeOverride = pre.operandSizeOverride ∧
          ((cpu.inSegment desc).context.is64BitCode = true →
            preRet.operandSizeOverride = true) := by
  have hcode : ((cpu.inSegment desc).context.recorded preRet).is64BitCode =
    (cpu.inSegment desc).context.is64BitCode := rfl
  have hover : ((cpu.inSegment desc).context.recorded preRet).prefixBits.operandSizeOverride =
    preRet.operandSizeOverride := rfl
  unfold poppedSize pushedSize retFarSize decodeRetFarOperandSize
  rw [hcode, hover]
  cases cpu.context.is64BitCode <;> cases (cpu.inSegment desc).context.is64BitCode <;>
    cases pre.operandSizeOverride <;> cases preRet.operandSizeOverride <;> decide

/-- The address of an item that a return pops. -/
def Cpu.popAddress (cpu : Cpu) (size index : ℕ) : U64 :=
  truncateTo cpu.context.stackAddressSize
    (truncateTo cpu.context.stackAddressSize (cpu.context.regs regRsp) +
      BitVec.ofNat 64 (index * size))

/-- A stack on which the callee pops through the pointers that the call pushes through, and
these lead to different bytes. -/
def PlainStack (cpu : Cpu) (pre : FlowPrefix) (desc : SegmentDescriptor) : Prop :=
  let size := pushedSize cpu.context pre
  let upperAddress := cpu.belowStack size (cpu.context.regs regRsp)
  ∃ lower upper : List HostPtr,
    cpu.operandPtrs true upperAddress size 0 = .ok upper ∧
    cpu.operandPtrs true (cpu.belowStack size upperAddress) size 0 = .ok lower ∧
    (cpu.called pre desc).operandPtrs false ((cpu.called pre desc).popAddress size 0) size 0 =
      .ok lower ∧
    (cpu.called pre desc).operandPtrs false ((cpu.called pre desc).popAddress size 1) size 0 =
      .ok upper ∧
    (lower ++ upper).Nodup ∧ ∀ p ∈ lower ++ upper, (cpu.memory.host.read p).isSome = true

/-- A value that fits an item is pushed as it is. -/
theorem truncateTo_fits {size : ℕ} (hsize : size = 2 ∨ size = 4 ∨ size = 8) {value : U64}
    (h : value.toNat < 2 ^ (8 * size)) : (truncateTo (size * 8) value).toNat = value.toNat := by
  rcases hsize with rfl | rfl | rfl
  · exact congrArg BitVec.toNat (mask_of_lt (.inl rfl) h)
  · exact congrArg BitVec.toNat (mask_of_lt (.inr (.inl rfl)) h)
  · rfl

/-- **On a plain stack** the callee finds the frame of the call, if the return address fits
its item. -/
theorem PlainStack.frame {pre : FlowPrefix} {desc : SegmentDescriptor}
    (h : PlainStack cpu pre desc) {after : Cpu}
    (hpushed : (cpu.recorded pre).pushedReturn (pushedSize cpu.context pre) (cpu.nextRip pre) =
      .ok after)
    (hstack : (cpu.called pre desc).validStackSize (pushedSize cpu.context pre) = .ok ())
    (hfits : (cpu.nextRip pre).toNat < 2 ^ (8 * pushedSize cpu.context pre)) :
    ∃ selector stackAfterPops,
      (cpu.called pre desc).peeked (pushedSize cpu.context pre) 2 =
        .ok ([cpu.nextRip pre, selector], stackAfterPops) ∧
      selector.setWidth 16 = cpu.context.cs.selector := by
  obtain ⟨size, hsize⟩ : ∃ size, pushedSize cpu.context pre = size := ⟨_, rfl⟩
  have hwidth := pushedSize_cases cpu.context pre
  unfold PlainStack at h
  rw [hsize] at h hpushed hstack hfits hwidth ⊢
  obtain ⟨lower, upper, hupper, hlower, hpopLower, hpopUpper, hnodup, hbacked⟩ := h
  have hcalled : cpu.called pre desc = after.inSegment desc := by
    unfold Cpu.called
    rw [hsize, hpushed]
  obtain ⟨lower', upper', hupper', hlower', hhost⟩ : ∃ lower' upper',
      (cpu.recorded pre).operandPtrs true
        (cpu.belowStack size (cpu.context.regs regRsp)) size 0 = .ok upper' ∧
      (cpu.recorded pre).operandPtrs true
        (cpu.belowStack size (cpu.belowStack size (cpu.context.regs regRsp))) size 0 =
          .ok lower' ∧
      (cpu.called pre desc).memory.host = storeBytes (storeBytes cpu.memory.host upper'
        (cpu.context.cs.selector.setWidth 64)) lower' (truncateTo (size * 8) (cpu.nextRip pre)) := by
    obtain ⟨upper', lower', hupper', hlower', hafter⟩ := pushedTwo_ok hpushed
    refine ⟨lower', upper', hupper', hlower', ?_⟩
    rw [hcalled, hafter]
    rfl
  -- the pushes of the call go through the pointers that they would go through before it
  have halike : ReturnAlike cpu (cpu.recorded pre) := ⟨rfl, rfl⟩
  rw [halike.operandPtrs] at hupper' hlower'
  obtain rfl := Except.ok.inj (hupper.symm.trans hupper')
  obtain rfl := Except.ok.inj (hlower.symm.trans hlower')
  have hlowerLength := operandPtrs_length size hlower
  have hupperLength := operandPtrs_length size hupper
  rw [List.nodup_append] at hnodup
  obtain ⟨hnodupLower, hnodupUpper, hdisjoint⟩ := hnodup
  have hreturn : loadValue (cpu.called pre desc).memory.host lower = cpu.nextRip pre := by
    apply BitVec.eq_of_toNat_eq
    rw [hhost, loadValue_storeBytes lower _ _ hnodupLower ?_ (by omega), hlowerLength,
      truncateTo_fits hwidth hfits, Nat.mod_eq_of_lt hfits]
    intro p hp
    rw [read_storeBytes upper _ _ fun hmem => hdisjoint p hp p hmem rfl]
    exact hbacked p (List.mem_append_left _ hp)
  have hselector : (loadValue (cpu.called pre desc).memory.host upper).setWidth 16 =
      cpu.context.cs.selector := by
    apply BitVec.eq_of_toNat_eq
    rw [hhost, loadValue_congr fun p hp =>
      read_storeBytes lower _ _ fun hmem => hdisjoint p hmem p hp rfl]
    rw [BitVec.toNat_setWidth, loadValue_storeBytes upper _ _ hnodupUpper
      (fun p hp => hbacked p (List.mem_append_right _ hp)) (by omega), hupperLength]
    have hlt := cpu.context.cs.selector.isLt
    rw [BitVec.toNat_setWidth]
    rcases hwidth with rfl | rfl | rfl <;> omega
  have hfirst : (cpu.called pre desc).loadAt size ((cpu.called pre desc).popAddress size 0) =
      .ok (cpu.nextRip pre) := by
    unfold Cpu.loadAt
    rw [hpopLower, ← hreturn]
  have hsecond : (cpu.called pre desc).loadAt size ((cpu.called pre desc).popAddress size 1) =
      .ok (loadValue (cpu.called pre desc).memory.host upper) := by
    unfold Cpu.loadAt
    rw [hpopUpper]
  refine ⟨loadValue (cpu.called pre desc).memory.host upper,
    (cpu.called pre desc).popAddress size 2, ?_, hselector⟩
  unfold Cpu.popAddress at hfirst hsecond ⊢
  simp only [Cpu.peeked, Cpu.peekValues, ok_bind_iff]
  exact ⟨(), hstack, _, ⟨_, hfirst, _, ⟨_, hsecond, [], rfl, rfl⟩, rfl⟩, rfl⟩

/-- The descriptor of 64-bit code that the entry of selector `8` holds. -/
def longSegment : SegmentDescriptor := decodeDescriptor 0xFFFF 0x00AF9B00

/-- A CPU in 64-bit code before a far call through the pointer `8:0x1000` at `0x100`. -/
def longCall : Cpu :=
  hostCpu { initCpuContext false with
      gdtrLimit := 0xFF
      cs := { selector := 8, descriptor := longSegment }
      rip := 0x400
      regs := Function.update (fun _ => 0) regRsp 0x200 }
    (byteImage [(0x08, 0xFF), (0x09, 0xFF), (0x0D, 0x9B), (0x0E, 0xAF), (0x101, 0x10), (0x104, 8)])

/-- A call through a pointer of 32 bits and its return. -/
theorem farCall_returns_iff_long :
    RoundTrip longCall ⟨7, false, false⟩ (.callFarMem 0x100) ⟨1, false, false⟩ := by
  have hcall : FarCall longCall ⟨7, false, false⟩ (.callFarMem 0x100) longSegment := by
    constructor
    · rfl
    · decide +kernel
    · decide +kernel
    · rfl
  refine (farCall_returns_iff longCall ⟨7, false, false⟩ (.callFarMem 0x100) longSegment
    ⟨1, false, false⟩ (memoryOk_hostCpu _ _) rfl hcall).mpr ?_
  constructor
  · decide +kernel
  · decide +kernel
  · decide +kernel
  · decide +kernel
  · exact ⟨8, 0x200, rfl, rfl⟩

/-- A CPU in 64-bit code before a far call through the pointer `8:0x1000` of 16 bits. -/
def shortCall : Cpu :=
  hostCpu { initCpuContext false with
      gdtrLimit := 0xFF
      cs := { selector := 8, descriptor := longSegment }
      rip := 0x400
      regs := Function.update (fun _ => 0) regRsp 0x200 }
    (byteImage [(0x08, 0xFF), (0x09, 0xFF), (0x0D, 0x9B), (0x0E, 0xAF), (0x101, 0x10), (0x102, 8)])

/-- With an operand size of 16 bits in 64-bit code, the call pushes 8 bytes for each item and
the return pops 2. -/
theorem farCall_pops_short : ¬ ∀ (cpu : Cpu) (pre : FlowPrefix) (inst : FlowInst)
    (desc : SegmentDescriptor) (preRet : FlowPrefix), MemoryOk cpu.memory →
    cpu.context.hasException = false → FarCall cpu pre inst desc →
    farOperandSize (cpu.inSegment desc).context preRet = farOperandSize cpu.context pre →
    RoundTrip cpu pre inst preRet := by
  intro hall
  have hcall : FarCall shortCall ⟨8, false, true⟩ (.callFarMem 0x100) longSegment := by
    constructor
    · rfl
    · decide +kernel
    · decide +kernel
    · rfl
  have hround := hall shortCall ⟨8, false, true⟩ (.callFarMem 0x100) longSegment ⟨2, false, true⟩
    (memoryOk_hostCpu _ _) rfl hcall rfl
  have hrip := congrArg CpuContext.rip hround
  exact absurd hrip (by decide +kernel)

end Cpueaxh
