/-
# The frame of an interrupt return

`IRET` takes its return address, its flags and, in 64-bit code, its stack pointer from the
stack.  The law compares the CPU behind it with the values on the stack; the condition
says for which frames the code agrees with it.

The code decides how many values it takes by the operand size, but where the stack pointer
comes from by the target, and it loads all bits of the flags.
-/
import Cpueaxh.FarOutcome

namespace Cpueaxh

/-! ## The instruction -/

/-- `decode_ret_far_operand_size`. -/
def decodeRetFarOperandSize (ctx : CpuContext) : ℕ :=
  if ctx.is64BitCode then
    if ctx.prefixBits.operandSizeOverride then 16 else 64
  else if ctx.prefixBits.operandSizeOverride then 16 else 32

/-- The `IRET` that the decoder finds. -/
def decodeIret (ctx : CpuContext) : FarTransfer :=
  .iret (decodeRetFarOperandSize ctx) ctx.stackAddressSize

/-- The number of values that the code takes from the stack. -/
def iretCount (operandSize : ℕ) : ℕ := if operandSize = 64 then 5 else 3

/-! ## The law -/

/-- The number of values in the frame of a return to the same privilege level: in 64-bit
code the stack pointer and the stack selector are always among them. -/
def iretItems (ctx : CpuContext) : ℕ := if ctx.is64BitCode then 5 else 3

/-- The code may write the system flags. -/
def CpuContext.privileged (ctx : CpuContext) : Bool :=
  ctx.controlRegs regCr0 &&& 1 == 0 || ctx.cpl == 0

/-- The bits that are loaded at the top privilege level only: `IOPL`, and behind the low
word `VIF` and `VIP`. -/
def systemFlags (operandSize : ℕ) : U64 := if operandSize = 16 then 0x3000 else 0x183000

/-- The bits of the flags that an interrupt return loads: the writable ones of the low word
without `IF` and `IOPL`, and behind it `RF`, `AC` and `ID`. -/
def iretWritable (ctx : CpuContext) (operandSize : ℕ) : U64 :=
  (if operandSize = 16 then 0x4DD5 else 0x254DD5) |||
    (if ctx.privileged then systemFlags operandSize else 0) |||
    (if ctx.privileged || ctx.cpl.setWidth 64 ≤ (ctx.rflags >>> 12) &&& 3 then 0x200 else 0)

/-- The flags behind an interrupt return with a popped value. -/
def iretFlags (ctx : CpuContext) (operandSize : ℕ) (popped : U64) : U64 :=
  (ctx.rflags &&& ~~~iretWritable ctx operandSize) ||| (popped &&& iretWritable ctx operandSize)

/-- The CPU `after` is behind an interrupt return of `cpu` with some values. -/
structure IretPopped (cpu : Cpu) (values : List U64) (stackAfterPops : U64)
    (after : CpuContext) : Prop where
  popped : cpu.peeked (operandBytes (decodeRetFarOperandSize cpu.context))
    (iretItems cpu.context) = .ok (values, stackAfterPops)
  flags : after.rflags =
    iretFlags cpu.context (decodeRetFarOperandSize cpu.context) (values.getD 2 0)
  fromFrame : cpu.context.is64BitCode = true →
    after.regs regRsp = values.getD 3 0 ∧ after.ss.selector = (values.getD 4 0).setWidth 16
  advanced : cpu.context.is64BitCode = false →
    after.regs regRsp = (cpu.setStack cpu.context.stackAddressSize stackAfterPops).context.regs regRsp
      ∧ after.ss = cpu.context.ss

/-- **The frame law**: an interrupt return that completes pops a frame. -/
def IretLaw (cpu : Cpu) : Prop :=
  let after := (farTransfer (decodeIret cpu.context) cpu).context
  after.hasException = false → ∃ values stackAfterPops, IretPopped cpu values stackAfterPops after

/-! ## The condition -/

/-- The stack pointer and the stack selector that the code leaves when it does not take them
from the frame. -/
def iretUnframed (cpu : Cpu) (frame : ReturnFrame) : U64 × U16 :=
  if frame.descriptor.longMode then (0, 0)
  else ((cpu.setStack cpu.context.stackAddressSize frame.stackAfterPops).context.regs regRsp,
    cpu.context.ss.selector)

/-- The popped flags differ from the flags in writable bits only. -/
def IretFlagsFit (cpu : Cpu) (frame : ReturnFrame) : Prop :=
  (frame.values.getD 2 0 ^^^ cpu.context.rflags) &&&
    ~~~iretWritable cpu.context (decodeRetFarOperandSize cpu.context) = 0

/-- The stack fits: a 64-bit operand; or 16-bit operands in 64-bit code, with a frame of
five values that holds what the code leaves; or other code, with a target that is not
64-bit code, unless the stack pointer and the selector are zero anyway. -/
def IretStackFits (cpu : Cpu) (frame : ReturnFrame) : Prop :=
  if cpu.context.is64BitCode then
    cpu.context.prefixBits.operandSizeOverride = true → ∃ values stackAfterPops,
      cpu.peeked 2 5 = .ok (values, stackAfterPops) ∧
        (values.getD 3 0, (values.getD 4 0).setWidth 16) = iretUnframed cpu frame
  else frame.descriptor.longMode = true →
    (cpu.setStack cpu.context.stackAddressSize frame.stackAfterPops).context.regs regRsp = 0 ∧
      cpu.context.ss.selector = 0

/-! ## The frame of the code -/

variable {cpu : Cpu}

/-- The values of a longer frame begin with those of a shorter one. -/
theorem peekValues_take {baseSp : U64} {size : ℕ} (count : ℕ) : ∀ {more index : ℕ}
    {values longer : List U64}, cpu.peekValues baseSp size count index = .ok values →
    cpu.peekValues baseSp size (count + more) index = .ok longer → values <+: longer := by
  induction count with
  | zero =>
    intro more index values longer hvalues _
    cases hvalues
    exact List.nil_prefix
  | succ count ih =>
    intro more index values longer hvalues hlonger
    rw [Nat.add_right_comm] at hlonger
    unfold Cpu.peekValues at hvalues hlonger
    cases hload : cpu.loadAt size (truncateTo cpu.context.stackAddressSize
        (baseSp + BitVec.ofNat 64 (index * size))) with
    | error c =>
      rw [hload] at hvalues
      cases hvalues
    | ok value =>
      rw [hload] at hvalues hlonger
      cases hrest : cpu.peekValues baseSp size count (index + 1) with
      | error c =>
        simp only [hrest] at hvalues
        cases hvalues
      | ok rest =>
        cases hmore : cpu.peekValues baseSp size (count + more) (index + 1) with
        | error c =>
          simp only [hmore] at hlonger
          cases hlonger
        | ok restLonger =>
          simp only [hrest] at hvalues
          simp only [hmore] at hlonger
          cases hvalues
          cases hlonger
          exact List.cons_prefix_cons.mpr ⟨rfl, ih hrest hmore⟩

theorem peekValues_length {baseSp : U64} {size : ℕ} (count : ℕ) : ∀ {index : ℕ}
    {values : List U64}, cpu.peekValues baseSp size count index = .ok values →
    values.length = count := by
  induction count with
  | zero =>
    intro index values h
    cases h
    rfl
  | succ count ih =>
    intro index values h
    unfold Cpu.peekValues at h
    obtain ⟨value, -, h⟩ := ok_bind_iff.mp h
    obtain ⟨rest, hrest, h⟩ := ok_bind_iff.mp h
    cases h
    exact congrArg Nat.succ (ih hrest)

/-- The values of a read of the stack. -/
theorem peeked_ok {size count : ℕ} {values : List U64} {stackAfterPops : U64}
    (h : cpu.peeked size count = .ok (values, stackAfterPops)) :
    cpu.peekValues (truncateTo cpu.context.stackAddressSize (cpu.context.regs regRsp)) size count 0
      = .ok values := by
  unfold Cpu.peeked at h
  obtain ⟨_, -, h⟩ := ok_bind_iff.mp h
  obtain ⟨_, hvalues, h⟩ := ok_bind_iff.mp h
  cases h
  exact hvalues

/-- The stack pointer and the stack segment that the code leaves. -/
def iretStack (cpu : Cpu) (operandSize : ℕ) (frame : ReturnFrame) : U64 × SegmentRegister :=
  if Cpu.iretTargetSize frame.descriptor operandSize = 64 then
    (frame.values.getD 3 0, { cpu.context.ss with selector := (frame.values.getD 4 0).setWidth 16 })
  else
    ((cpu.setStack cpu.context.stackAddressSize frame.stackAfterPops).context.regs regRsp,
      cpu.context.ss)

/-- What an interrupt return with a frame leaves. -/
theorem iretEntered_context (operandSize : ℕ) (frame : ReturnFrame) :
    (cpu.iretEntered operandSize cpu.context.stackAddressSize frame).context.rflags =
        frame.values.getD 2 0 ∧
      ((cpu.iretEntered operandSize cpu.context.stackAddressSize frame).context.regs regRsp,
        (cpu.iretEntered operandSize cpu.context.stackAddressSize frame).context.ss) =
        iretStack cpu operandSize frame := by
  unfold Cpu.iretEntered iretStack
  by_cases htarget : Cpu.iretTargetSize frame.descriptor operandSize = 64
  · simp only [htarget, if_true]
    refine ⟨rfl, ?_⟩
    simp only [Cpu.setStackFrame, Function.update_self]
    rfl
  · simp only [htarget, if_false]
    refine ⟨rfl, ?_⟩
    simp only [Cpu.setStack, cpuSetStackPointerValue, Function.update_self]
    rfl

/-! ## The law and the condition -/

/-- A word that differs from another one under a mask only. -/
theorem merge_eq_iff {w : ℕ} (old new mask : BitVec w) :
    new = (old &&& ~~~mask) ||| (new &&& mask) ↔ (new ^^^ old) &&& ~~~mask = 0#w := by
  simp only [BitVec.eq_of_getElem_eq_iff, BitVec.getElem_or, BitVec.getElem_and,
    BitVec.getElem_not, BitVec.getElem_xor, BitVec.getElem_zero]
  refine forall₂_congr fun i hi => ?_
  cases new[i] <;> cases old[i] <;> cases mask[i] <;> decide

theorem frame_values_length {operandSize count : ℕ} {frame : ReturnFrame}
    (h : cpu.frame operandSize count = .ok frame) : frame.values.length = count :=
  peekValues_length count (peeked_ok (frame_ok.mp h).1)

/-- The flags of the law are those of the code exactly if the popped ones fit. -/
theorem flags_iff {frame : ReturnFrame} {after : CpuContext}
    (hflags : after.rflags = frame.values.getD 2 0) :
    after.rflags = iretFlags cpu.context (decodeRetFarOperandSize cpu.context)
      (frame.values.getD 2 0) ↔ IretFlagsFit cpu frame := by
  rw [hflags]
  exact merge_eq_iff _ _ _

/-- The stack that the code leaves when it takes three values. -/
theorem iretStack_unframed {operandSize : ℕ} {frame : ReturnFrame} (hsize : operandSize ≠ 64)
    (h : cpu.frame operandSize 3 = .ok frame) :
    ((iretStack cpu operandSize frame).1, (iretStack cpu operandSize frame).2.selector) =
      iretUnframed cpu frame := by
  have hlength := frame_values_length h
  have hget : ∀ i ≥ 3, frame.values.getD i 0 = 0 := fun i hi => by
    rw [List.getD_eq_getElem?_getD, List.getElem?_eq_none (by omega)]
    rfl
  unfold iretStack iretUnframed Cpu.iretTargetSize
  by_cases hlong : frame.descriptor.longMode = true
  · simp only [hlong, if_true]
    rw [hget 3 (le_refl 3), hget 4 (by decide)]
    rfl
  · simp only [hlong, Bool.false_eq_true, if_false, hsize]

/-- The code keeps the stack segment but for its selector. -/
theorem iretStack_ss (operandSize : ℕ) (frame : ReturnFrame) :
    (iretStack cpu operandSize frame).2 = { cpu.context.ss with
      selector := (iretStack cpu operandSize frame).2.selector } := by
  unfold iretStack
  split_ifs <;> rfl

section PerFrame

variable {frame : ReturnFrame} {after : CpuContext}
  (hframe : cpu.frame (decodeRetFarOperandSize cpu.context)
    (iretCount (decodeRetFarOperandSize cpu.context)) = .ok frame)
  (hflags : after.rflags = frame.values.getD 2 0)
  (hstack : (after.regs regRsp, after.ss) =
    iretStack cpu (decodeRetFarOperandSize cpu.context) frame)

include hframe hflags hstack

/-- A return of 64-bit operands takes the whole frame. -/
theorem iretPopped_full (hcode : cpu.context.is64BitCode = true)
    (hsize : cpu.context.prefixBits.operandSizeOverride = false) :
    (∃ values stackAfterPops, IretPopped cpu values stackAfterPops after) ↔
      IretFlagsFit cpu frame := by
  have hop : decodeRetFarOperandSize cpu.context = 64 := by
    simp [decodeRetFarOperandSize, hcode, hsize]
  have hitems : iretItems cpu.context = 5 := by simp [iretItems, hcode]
  have hpeeked := (frame_ok.mp hframe).1
  rw [hop] at hpeeked hstack
  rw [← flags_iff hflags]
  constructor
  · rintro ⟨values, stackAfterPops, hpopped⟩
    have hsame := hpopped.popped
    rw [hop, hitems] at hsame
    obtain ⟨rfl, rfl⟩ := Prod.mk.inj (Except.ok.inj (hpeeked.symm.trans hsame))
    exact hpopped.flags
  · intro hfit
    have htarget : Cpu.iretTargetSize frame.descriptor 64 = 64 := by simp [Cpu.iretTargetSize]
    rw [iretStack, if_pos htarget] at hstack
    obtain ⟨hrsp, hss⟩ := Prod.mk.inj hstack
    refine ⟨frame.values, frame.stackAfterPops, ?_, hfit, fun _ => ⟨hrsp, ?_⟩, ?_⟩
    · rw [hop, hitems]
      exact hpeeked
    · rw [hss]
    · rw [hcode]
      intro h
      cases h

/-- A return of 16-bit operands in 64-bit code takes three values of five. -/
theorem iretPopped_short (hcode : cpu.context.is64BitCode = true)
    (hsize : cpu.context.prefixBits.operandSizeOverride = true) :
    (∃ values stackAfterPops, IretPopped cpu values stackAfterPops after) ↔
      IretFlagsFit cpu frame ∧ ∃ values stackAfterPops,
        cpu.peeked 2 5 = .ok (values, stackAfterPops) ∧
        (values.getD 3 0, (values.getD 4 0).setWidth 16) = iretUnframed cpu frame := by
  have hop : decodeRetFarOperandSize cpu.context = 16 := by
    simp [decodeRetFarOperandSize, hcode, hsize]
  have hitems : iretItems cpu.context = 5 := by simp [iretItems, hcode]
  have hthird : ∀ {values stackAfterPops}, cpu.peeked 2 5 = .ok (values, stackAfterPops) →
      values.getD 2 0 = frame.values.getD 2 0 := by
    intro values stackAfterPops hpeeked
    have hlength := frame_values_length hframe
    have hshort := peeked_ok (frame_ok.mp hframe).1
    rw [hop] at hlength hshort
    -- The code has read the first three of the five values.
    obtain ⟨rest, rfl⟩ := @peekValues_take cpu _ 2 3 2 0 _ _ hshort (peeked_ok hpeeked)
    rw [List.getD_eq_getElem?_getD, List.getD_eq_getElem?_getD,
      List.getElem?_append_left (by rw [hlength]; decide)]
  rw [hop] at hframe hstack
  have hkept := iretStack_unframed (by decide) hframe
  rw [← hstack] at hkept
  rw [← flags_iff hflags]
  constructor
  · rintro ⟨values, stackAfterPops, hpopped⟩
    have hpeeked := hpopped.popped
    rw [hop, hitems] at hpeeked
    obtain ⟨hrsp, hss⟩ := hpopped.fromFrame hcode
    refine ⟨?_, values, stackAfterPops, hpeeked, ?_⟩
    · rw [← hthird hpeeked]
      exact hpopped.flags
    · rw [← hrsp, ← hss]
      exact hkept
  · rintro ⟨hfit, values, stackAfterPops, hpeeked, hunframed⟩
    rw [← hthird hpeeked] at hfit
    obtain ⟨hrsp, hss⟩ := Prod.mk.inj (hkept.trans hunframed.symm)
    refine ⟨values, stackAfterPops, ?_, hfit, fun _ => ⟨hrsp, hss⟩, ?_⟩
    · rw [hop, hitems]
      exact hpeeked
    · rw [hcode]
      intro h
      cases h

/-- A return of code that is not 64-bit code takes three values. -/
theorem iretPopped_compat (hcode : cpu.context.is64BitCode = false) :
    (∃ values stackAfterPops, IretPopped cpu values stackAfterPops after) ↔
      IretFlagsFit cpu frame ∧ (frame.descriptor.longMode = true →
        (cpu.setStack cpu.context.stackAddressSize frame.stackAfterPops).context.regs regRsp = 0 ∧
          cpu.context.ss.selector = 0) := by
  have hop : decodeRetFarOperandSize cpu.context ≠ 64 := by
    simp only [decodeRetFarOperandSize, hcode, Bool.false_eq_true, if_false]
    split_ifs <;> decide
  have hitems : iretItems cpu.context = 3 := by simp [iretItems, hcode]
  have hcount : iretCount (decodeRetFarOperandSize cpu.context) = 3 := if_neg hop
  have hpeeked := (frame_ok.mp hframe).1
  rw [hcount] at hframe hpeeked
  have hss := @iretStack_ss cpu (decodeRetFarOperandSize cpu.context) frame
  have hkept := iretStack_unframed hop hframe
  rw [← hstack] at hkept hss
  simp only at hkept hss
  have hagrees : (after.regs regRsp =
      (cpu.setStack cpu.context.stackAddressSize frame.stackAfterPops).context.regs regRsp ∧
        after.ss = cpu.context.ss) ↔ (frame.descriptor.longMode = true →
      (cpu.setStack cpu.context.stackAddressSize frame.stackAfterPops).context.regs regRsp = 0 ∧
        cpu.context.ss.selector = 0) := by
    unfold iretUnframed at hkept
    by_cases hlong : frame.descriptor.longMode = true
    · rw [if_pos hlong] at hkept
      obtain ⟨hrsp, hselector⟩ := Prod.mk.inj hkept
      rw [hrsp, hss, hselector]
      constructor
      · rintro ⟨hzero, hsame⟩ -
        exact ⟨hzero.symm, (congrArg SegmentRegister.selector hsame).symm⟩
      · intro h
        obtain ⟨hzero, hselected⟩ := h hlong
        refine ⟨hzero.symm, ?_⟩
        rw [← hselected]
    · rw [if_neg hlong] at hkept
      obtain ⟨hrsp, hselector⟩ := Prod.mk.inj hkept
      rw [hrsp, hss, hselector]
      exact ⟨fun _ h => absurd h hlong, fun _ => ⟨rfl, rfl⟩⟩
  rw [← flags_iff hflags, ← hagrees]
  constructor
  · rintro ⟨values, stackAfterPops, hpopped⟩
    have hsame := hpopped.popped
    rw [hitems] at hsame
    obtain ⟨rfl, rfl⟩ := Prod.mk.inj (Except.ok.inj (hpeeked.symm.trans hsame))
    exact ⟨hpopped.flags, hpopped.advanced hcode⟩
  · rintro ⟨hfit, hadvanced⟩
    refine ⟨frame.values, frame.stackAfterPops, ?_, hfit, ?_, fun _ => hadvanced⟩
    · rw [hitems]
      exact hpeeked
    · rw [hcode]
      intro h
      cases h

/-- **One frame**: the law holds exactly for the frames that fit. -/
theorem iretPopped_iff : (∃ values stackAfterPops, IretPopped cpu values stackAfterPops after) ↔
    IretFlagsFit cpu frame ∧ IretStackFits cpu frame := by
  unfold IretStackFits
  by_cases hcode : cpu.context.is64BitCode = true
  · rw [if_pos hcode]
    by_cases hsize : cpu.context.prefixBits.operandSizeOverride = true
    · rw [iretPopped_short hframe hflags hstack hcode hsize]
      simp only [hsize, forall_const]
    · rw [iretPopped_full hframe hflags hstack hcode (by simpa using hsize)]
      exact (and_iff_left fun h => absurd h hsize).symm
  · rw [if_neg hcode]
    exact iretPopped_compat hframe hflags hstack (by simpa using hcode)

end PerFrame

/-- **The frame of an interrupt return.**  The law holds for a CPU exactly if each valid
frame on its stack has flags that fit and a stack that fits. -/
theorem iret_frame_law (cpu : Cpu) (hm : MemoryOk cpu.memory)
    (hexc : cpu.context.hasException = false) :
    IretLaw cpu ↔ ∀ frame, cpu.frame (decodeRetFarOperandSize cpu.context)
      (iretCount (decodeRetFarOperandSize cpu.context)) = .ok frame →
        IretFlagsFit cpu frame ∧ IretStackFits cpu frame := by
  unfold IretLaw
  constructor
  · intro hlaw frame hframe
    obtain ⟨hnone, hcontext, -⟩ := @farTransfer_ok _ hexc hm (decodeIret cpu.context) _
      (iretOutcome_ok.mpr ⟨frame, hframe, rfl⟩)
    obtain ⟨hflags, hstack⟩ := @iretEntered_context cpu (decodeRetFarOperandSize cpu.context) frame
    rw [← hcontext] at hflags hstack
    exact (iretPopped_iff hframe hflags hstack).mp (hlaw hnone)
  · intro hfits _ hnone
    obtain ⟨c, hc⟩ := (farTransfer_done hexc hm (decodeIret cpu.context)).mp hnone
    obtain ⟨-, hcontext, -⟩ := @farTransfer_ok _ hexc hm (decodeIret cpu.context) c hc
    obtain ⟨frame, hframe, rfl⟩ := iretOutcome_ok.mp hc
    obtain ⟨hflags, hstack⟩ := @iretEntered_context cpu (decodeRetFarOperandSize cpu.context) frame
    rw [← hcontext] at hflags hstack
    exact (iretPopped_iff hframe hflags hstack).mpr (hfits frame hframe)

/-- `IRETQ` in 64-bit code: the entry of selector `8` is 64-bit code, and the frame on the
stack has the stack pointer `0x2000`. -/
def longIret : Cpu :=
  hostCpu { initCpuContext false with
      gdtrLimit := 0xFF
      rflags := 0x202
      regs := Function.update (fun _ => 0) regRsp 0x40 }
    (byteImage [(0x08, 0xFF), (0x09, 0xFF), (0x0D, 0x9B), (0x0E, 0xAF), (0x41, 0x10), (0x48, 0x08),
      (0x50, 0x46), (0x51, 0x02), (0x59, 0x20), (0x60, 0x18)])

theorem iret_frame_law_long : IretLaw longIret := by
  refine (iret_frame_law longIret (memoryOk_hostCpu _ _) rfl).mpr fun frame hframe => ?_
  have hread : longIret.frame 64 5 = .ok
      { values := [0x1000, 8, 0x246, 0x2000, 0x18], stackAfterPops := 0x68, selector := 8,
        descriptor := decodeDescriptor 0xFFFF 0x00AF9B00 } := rfl
  cases hread.symm.trans hframe
  constructor
  · unfold IretFlagsFit
    decide +kernel
  · intro h
    cases h

/-- `IRET` in 32-bit code with the entry of 64-bit code as its target. -/
def compatIret : Cpu :=
  hostCpu { initCpuContext true with
      gdtrLimit := 0xFF
      regs := Function.update (fun _ => 0) regRsp 0x40 }
    (byteImage [(0x08, 0xFF), (0x09, 0xFF), (0x0D, 0x9B), (0x0E, 0xAF), (0x41, 0x10), (0x44, 0x08)])

/-- The stack pointer is lost on the way to 64-bit code. -/
theorem iret_loses_stack : ¬ ∀ cpu : Cpu, MemoryOk cpu.memory →
    cpu.context.hasException = false → IretLaw cpu := by
  intro hall
  have hnone : (farTransfer (decodeIret compatIret.context) compatIret).context.hasException =
      false := by decide +kernel
  have hrsp : (farTransfer (decodeIret compatIret.context) compatIret).context.regs regRsp = 0 := by
    decide +kernel
  obtain ⟨values, stackAfterPops, hpopped⟩ := hall compatIret (memoryOk_hostCpu _ _) rfl hnone
  have hread : compatIret.peeked 4 3 = .ok ([0x1000, 8, 0], 0x4C) := rfl
  cases hread.symm.trans hpopped.popped
  have hadvanced := (hpopped.advanced rfl).1
  rw [hrsp] at hadvanced
  exact absurd hadvanced (by decide)

end Cpueaxh
