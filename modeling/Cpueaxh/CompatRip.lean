/-
# The instruction pointer in compatibility mode

In code that is not 64-bit code the instruction pointer has 32 bits.  The near branches
keep it there, since their operands have 32 bits at most, and so do the far calls.  The
advance behind an instruction does not mask at all, and the far jumps and returns of
64-bit operands mask by the operand, not by the target.

The condition names the steps that get out of range this way; the runs that stay in range
in all their states are the runs that meet it at each step.
-/
import Cpueaxh.ControlFlow
import Cpueaxh.EngineFrame

namespace Cpueaxh

open Transition

/-! ## What the code of an instruction keeps -/

/-- A program of the CPU keeps the code segment, and an exception stays pending. -/
structure CodeFrame (cpu cpu' : Cpu) : Prop where
  cs_eq : cpu'.context.cs = cpu.context.cs
  pending : cpu.context.hasException = true → cpu'.context.hasException = true

theorem CodeFrame.refl (cpu : Cpu) : CodeFrame cpu cpu := ⟨rfl, id⟩

theorem CodeFrame.trans {cpu cpu' cpu'' : Cpu} (h : CodeFrame cpu cpu')
    (h' : CodeFrame cpu' cpu'') : CodeFrame cpu cpu'' :=
  ⟨h'.cs_eq.trans h.cs_eq, h'.pending ∘ h.pending⟩

/-- Raising an exception leaves one pending. -/
theorem raiseException_pending (ctx : CpuContext) (fault : RaisedFault) (errorCode : U32) :
    (ctx.raiseException fault.code errorCode).hasException = true := by
  unfold CpuContext.raiseException
  by_cases hexc : ctx.hasException = true
  · rw [if_pos hexc]
    exact hexc
  · rw [if_neg hexc]
    exact bne_iff_ne.mpr fault.code_ne

theorem raiseException_cs (ctx : CpuContext) (code errorCode : U32) :
    (ctx.raiseException code errorCode).cs = ctx.cs := by
  unfold CpuContext.raiseException
  split_ifs <;> rfl

theorem CodeFrame.viewOp (o : CpuOp) (cpu : Cpu) : CodeFrame cpu (viewOp o cpu).2 := by
  cases o with
  | resolve address store =>
    obtain ⟨regs, exception, h⟩ := accessOutcome_context cpu.context
      (accessView cpu.memory address (dataAccess store).perm) cpu.hooks cpu.asked address
      (dataAccess store)
    have hcs := congrArg CpuContext.cs h
    refine ⟨hcs, fun hpending => ?_⟩
    show (accessOutcome _ _ _ _ _ _).2.1.hasException = true
    unfold accessOutcome
    rw [if_pos hpending]
    exact hpending
  | raise fault errorCode =>
    exact ⟨raiseException_cs _ _ _, fun _ => raiseException_pending _ _ _⟩
  | tryHandleInvalid store =>
    show CodeFrame cpu (if cpu.context.hasException then (false, cpu)
      else cpu.tryHandleInvalidMemoryAccess (dataAccess store) true).2
    unfold Cpu.tryHandleInvalidMemoryAccess
    split_ifs
    · exact .refl cpu
    · exact ⟨rfl, id⟩
    · exact .refl cpu
  | raisePageFault address store =>
    show CodeFrame cpu (if cpu.context.hasException then cpu
      else cpu.raisePageFault address (dataAccess store) true)
    split_ifs with hexc
    · exact .refl cpu
    · exact ⟨raiseException_cs _ _ _, fun h => absurd h hexc⟩
  | context => exact .refl cpu
  | setContext ctx => exact ⟨rfl, id⟩
  | load p => exact .refl cpu
  | store p value => exact ⟨rfl, id⟩
  | notify type address size value => exact .refl cpu
  | canUsePageFastPath => exact .refl cpu
  | isHostWritePassthrough => exact .refl cpu

/-- **A program of the CPU.** -/
theorem CodeFrame.cpuProgram {α : Type} (p : CpuProgram α) {cpu : Cpu} (hm : MemoryOk cpu.memory) :
    CodeFrame cpu (p.run cpuOp cpu).2 := by
  have hview := Program.run_invariant_always (CodeFrame cpu) (fun o s h => h.trans (.viewOp o s)) p
    cpu (.refl cpu)
  have hcontext := congrArg Cpu.context (run_viewOp p hm).2.eq
  change (p.run Cpueaxh.viewOp cpu).2.context = (p.run cpuOp cpu).2.context at hcontext
  constructor
  · rw [← hcontext]
    exact hview.cs_eq
  · rw [← hcontext]
    exact hview.pending

/-- A pending exception stays pending in the code of an instruction. -/
theorem handler_pending (code : Handler) {cpu : Cpu} (hm : MemoryOk cpu.memory)
    (h : cpu.context.hasException = true) :
    (code.run handlerOp cpu).2.context.hasException = true := by
  have hcpu : ∀ (o : CpuOp) (s : Cpu), MemoryOk s.memory ∧ s.context.hasException = true →
      MemoryOk (cpuOp o s).2.memory ∧ (cpuOp o s).2.context.hasException = true := by
    rintro o s ⟨hs, hexc⟩
    exact ⟨(GuestFrame.cpuOp o s).memory.ok hs,
      (CodeFrame.cpuProgram (perform o) hs).pending hexc⟩
  have hfar : ∀ (t : FarTransfer) (s : Cpu), MemoryOk s.memory ∧ s.context.hasException = true →
      MemoryOk (farTransfer t s).memory ∧ (farTransfer t s).context.hasException = true := by
    intro t s hs
    refine Program.run_invariant_always
      (fun s : Cpu => MemoryOk s.memory ∧ s.context.hasException = true) ?_ t.program s hs
    intro o s hs
    cases o with
    | cpu o => exact hcpu o s hs
    | writeCs selector descriptor => exact hs
    | invalidateModeKey => exact hs
  refine (Program.run_invariant_always
    (fun s : Cpu => MemoryOk s.memory ∧ s.context.hasException = true) ?_ code cpu ⟨hm, h⟩).2
  intro o s hs
  cases o with
  | cpu o => exact hcpu o s hs
  | far t => exact hfar t s hs

/-- A part of a handler runs as it does on its own. -/
@[simp] theorem run_cpuPart {α : Type} (p : CpuProgram α) (cpu : Cpu) :
    (cpuPart p).run handlerOp cpu = p.run cpuOp cpu := by
  have hop : ∀ (o : CpuOp) (s : Cpu), (handlerOp (.cpu o) s).1 = (cpuOp o s).1 ∧
      (handlerOp (.cpu o) s).2 = (cpuOp o s).2 := fun o s => ⟨rfl, rfl⟩
  exact Program.run_lift hop p cpu

/-! ## The end of an instruction -/

/-- The instruction pointer and the code segment. -/
def CpuContext.place (ctx : CpuContext) : U64 × SegmentRegister := (ctx.rip, ctx.cs)

/-- A decoded instruction ends with an exception where it began, or its code has raised none
and it ends where the code has gone. -/
inductive Dispatched (cpu : Cpu) (dec : DecodedInst) (after : CpuContext) : Prop where
  | fault (hpending : after.hasException = true) (hstays : after.place = cpu.context.place)
  | done (hnone : after.hasException = false)
      (hran : ((cpu.setSegmentOverride dec.segmentOverride).runCode dec
        cpu.context.rip).context.hasException = false)
      (hgoes : after.place = ((cpu.setSegmentOverride dec.segmentOverride).runCode dec
        cpu.context.rip).context.place)

/-- A part of the context that an exception leaves alone and a rollback restores. -/
structure Restored {β : Type} (view : CpuContext → β) : Prop where
  fault : ∀ ctx exception controlRegs,
    view { ctx with exception := exception, controlRegs := controlRegs } = view ctx
  override : ∀ ctx override, view { ctx with segmentOverride := override } = view ctx
  scalar : ∀ ctx saved, view (cpuRestoreScalarSnapshot ctx saved) = view saved
  vector : ∀ ctx saved, view (cpuRestoreVectorSnapshot ctx saved) = view ctx
  transient : ∀ ctx saved, view (cpuRestoreDecodeTransientSnapshot ctx saved) = view ctx

theorem restored_place : Restored CpuContext.place :=
  ⟨fun _ _ _ => rfl, fun _ _ => rfl, fun _ _ => rfl, fun _ _ => rfl, fun _ _ => rfl⟩

theorem Restored.raiseException {β : Type} {view : CpuContext → β} (h : Restored view)
    (ctx : CpuContext) (code errorCode : U32) :
    view (ctx.raiseException code errorCode) = view ctx := by
  unfold CpuContext.raiseException
  split_ifs
  · rfl
  · exact h.fault ctx _ ctx.controlRegs

/-- A rollback to the start of the instruction, where it is not left out. -/
theorem Restored.rollback {β : Type} {view : CpuContext → β} (h : Restored view)
    {dec : DecodedInst} {saved ctx : CpuContext}
    (hpart : dec.flags.partialProgress = true → view ctx = view saved) :
    view (Cpu.rollback dec (some saved) ctx) = view saved := by
  unfold Cpu.rollback
  refine (h.fault _ _ _).trans ?_
  by_cases hprogress : dec.flags.partialProgress = true
  · simp only [hprogress, if_true]
    exact (h.transient ctx saved).trans (hpart hprogress)
  · simp only [hprogress, Bool.false_eq_true, if_false]
    split_ifs
    · exact (h.vector _ _).trans (h.scalar _ _)
    · exact h.scalar _ _

/-- An exception that the executor raises itself. -/
theorem Restored.finish_raised {β : Type} {view : CpuContext → β} (h : Restored view) (start : Cpu)
    (dec : DecodedInst) (fault : RaisedFault) (result : StepResult) :
    ((start.raise fault.code).finish dec none result).2.context.hasException = true ∧
      view ((start.raise fault.code).finish dec none result).2.context = view start.context := by
  have hpending : (start.raise fault.code).context.hasException = true :=
    raiseException_pending start.context fault 0
  unfold Cpu.finish
  rw [if_pos hpending]
  refine ⟨hpending, (h.override _ _).trans ?_⟩
  exact (h.fault _ _ _).trans (h.raiseException _ _ _)

theorem runCode_pending {cpu : Cpu} (hm : MemoryOk cpu.memory) (dec : DecodedInst) (ripPre : U64)
    (h : cpu.context.hasException = true) : (cpu.runCode dec ripPre).context.hasException = true := by
  have hcode := handler_pending dec.code.1 hm h
  unfold Cpu.runCode
  simp only [hcode, Bool.not_true, Bool.false_and, Bool.false_eq_true, if_false]

/-- A part of the context behind a decoded instruction: as it was behind a fault, and else as
the code has left it. -/
inductive Ended {β : Type} (view : CpuContext → β) (cpu : Cpu) (dec : DecodedInst)
    (after : CpuContext) : Prop where
  | fault (hpending : after.hasException = true) (hstays : view after = view cpu.context)
  | done (hnone : after.hasException = false)
      (hran : ((cpu.setSegmentOverride dec.segmentOverride).runCode dec
        cpu.context.rip).context.hasException = false)
      (hgoes : view after = view ((cpu.setSegmentOverride dec.segmentOverride).runCode dec
        cpu.context.rip).context)

section View

variable {β : Type} {view : CpuContext → β} (hview : Restored view)

include hview

/-- The code of an instruction, and its end with a snapshot or without. -/
theorem ended_run {cpu start : Cpu} {dec : DecodedInst}
    (hstart : start = cpu.setSegmentOverride dec.segmentOverride ∨
      start.context.hasException = true)
    (hsame : view start.context = view cpu.context) (hm : MemoryOk start.memory)
    (hstays : dec.flags.noFault = true ∨ dec.flags.partialProgress = true →
      (start.runCode dec cpu.context.rip).context.hasException = true →
      view (start.runCode dec cpu.context.rip).context = view start.context) :
    Ended view cpu dec ((start.runCode dec cpu.context.rip).finish dec
      (if dec.flags.noFault then none else some start.context) .ok).2.context := by
  unfold Cpu.finish
  by_cases hexc : (start.runCode dec cpu.context.rip).context.hasException = true
  · rw [if_pos hexc]
    refine .fault hexc ((hview.override _ _).trans (Eq.trans ?_ hsame))
    by_cases hnofault : dec.flags.noFault = true
    · rw [if_pos hnofault]
      exact (hview.fault _ _ _).trans (hstays (.inl hnofault) hexc)
    · rw [if_neg hnofault]
      exact hview.rollback fun hpart => hstays (.inr hpart) hexc
  · rw [if_neg hexc]
    have hnone : start.context.hasException ≠ true := fun h => hexc (runCode_pending hm _ _ h)
    obtain rfl := hstart.resolve_right hnone
    have hran : ((cpu.setSegmentOverride dec.segmentOverride).runCode dec
        cpu.context.rip).context.hasException = false := by simpa using hexc
    exact .done hran hran (hview.override _ _)

/-- **The end of a decoded instruction.**  Where it is not rolled back, its code must leave
the part alone when it faults. -/
theorem ended {cpu : Cpu} (hm : MemoryOk cpu.memory) (dec : DecodedInst)
    (hstays : dec.flags.noFault = true ∨ dec.flags.partialProgress = true →
      ∀ c : Cpu, MemoryOk c.memory →
        (c.runCode dec cpu.context.rip).context.hasException = true →
        view (c.runCode dec cpu.context.rip).context = view c.context) :
    Ended view cpu dec (cpu.dispatchDecoded dec cpu.context.rip).2.context := by
  have hnotify : (cpu.notifyFetchedBytes dec).setSegmentOverride dec.segmentOverride =
      cpu.setSegmentOverride dec.segmentOverride ∨
      ((cpu.notifyFetchedBytes dec).setSegmentOverride
        dec.segmentOverride).context.hasException = true := by
    unfold Cpu.notifyFetchedBytes
    split_ifs
    · exact .inr (raiseException_pending _ .ud _)
    · exact .inl rfl
  have hsame : view ((cpu.notifyFetchedBytes dec).setSegmentOverride
      dec.segmentOverride).context = view cpu.context := by
    refine (hview.override _ _).trans ?_
    unfold Cpu.notifyFetchedBytes Cpu.raise
    split_ifs
    · exact hview.raiseException _ _ _
    · rfl
  have hmem : MemoryOk ((cpu.notifyFetchedBytes dec).setSegmentOverride dec.segmentOverride).memory :=
    (GuestFrame.notifyFetchedBytes cpu dec).memory.ok hm
  unfold Cpu.dispatchDecoded
  simp only
  generalize (cpu.notifyFetchedBytes dec).setSegmentOverride dec.segmentOverride = start at *
  have hflagged : ∀ (fault : RaisedFault) (result : StepResult),
      Ended view cpu dec ((start.raise fault.code).finish dec none result).2.context := by
    intro fault result
    obtain ⟨hpending, hraised⟩ := hview.finish_raised start dec fault result
    exact .fault hpending (hraised.trans hsame)
  split_ifs with hud hbp hdb hnofault
  · exact hflagged .ud _
  · exact hflagged .bp _
  · exact hflagged .db _
  · have hrun := ended_run hview hnotify hsame hmem fun h => hstays h start hmem
    rwa [if_pos hnofault] at hrun
  · have hrun := ended_run hview hnotify hsame hmem fun h => hstays h start hmem
    rwa [if_neg hnofault] at hrun

end View

/-- The place of a decoded instruction that ends. -/
theorem dispatched {cpu : Cpu} (hm : MemoryOk cpu.memory) (dec : DecodedInst)
    (hstays : dec.flags.noFault = true ∨ dec.flags.partialProgress = true →
      ∀ c : Cpu, MemoryOk c.memory →
        (c.runCode dec cpu.context.rip).context.hasException = true →
        (c.runCode dec cpu.context.rip).context.place = c.context.place) :
    Dispatched cpu dec (cpu.dispatchDecoded dec cpu.context.rip).2.context := by
  rcases ended restored_place hm dec hstays with ⟨hpending, hstays⟩ | ⟨hnone, hran, hgoes⟩
  · exact .fault hpending hstays
  · exact .done hnone hran hgoes

/-! ## The law and the condition -/

/-- Code that is not 64-bit code is below `2^32`. -/
def CompatRip (cpu : Cpu) : Prop :=
  cpu.context.cs.descriptor.longMode = false → cpu.context.rip.toNat < 2 ^ 32

/-- The target of a far jump or return of 64-bit operands fits a segment that is not one of
64-bit code. -/
def FarTransfer.TargetFits (cpu : Cpu) : FarTransfer → Prop
  | .jmpFar selector offset operandSize => operandSize = 64 →
    ∀ desc, cpu.validSelector selector (cpu.farChecks selector true) = .ok desc →
      desc.longMode = false → offset.toNat < 2 ^ 32
  | .ret operandSize _ _ => operandSize = 64 →
    ∀ frame, cpu.frame 64 2 = .ok frame →
      frame.descriptor.longMode = false → (frame.values.getD 0 0).toNat < 2 ^ 32
  | .iret operandSize _ => operandSize = 64 →
    ∀ frame, cpu.frame 64 5 = .ok frame →
      frame.descriptor.longMode = false → (frame.values.getD 0 0).toNat < 2 ^ 32
  | _ => True

/-- The CPU in which the code of an instruction makes its transfer. -/
def FlowEvent.recorded (event : FlowEvent) (cpu : Cpu) : Cpu :=
  ((recordPrefix event.pre).run cpuOp (cpu.setSegmentOverride event.dec.segmentOverride)).2

/-- The next instruction fits: the advance in code that is not 64-bit code, and the targets
of the far transfers. -/
def FlowEvent.TargetFits (cpu : Cpu) (event : FlowEvent) : Prop :=
  match event.inst with
  | .sequential _ => cpu.context.cs.descriptor.longMode = false →
    (cpu.context.rip + BitVec.ofNat 64 event.pre.size).toNat < 2 ^ 32
  | .jmpFarMem address =>
    let size := farPointerSize cpu.context event.pre.rexW event.pre.operandSizeOverride
    ∀ offset selector, (event.recorded cpu).farPointer address size = .ok (offset, selector) →
      (FarTransfer.jmpFar selector offset size).TargetFits (event.recorded cpu)
  | inst => ∀ t, inst.transfer event.pre (event.recorded cpu).context = some t →
      t.TargetFits (event.recorded cpu)

/-- **The condition**: an instruction that completes fits. -/
def FlowFits (cpu : Cpu) (event : FlowEvent) : Prop :=
  (cpu.flow event).context.hasException = false → event.TargetFits cpu

/-! ## Targets -/

theorem and_lt_of_lt {a mask : U64} (h : mask.toNat < 2 ^ 32) : (a &&& mask).toNat < 2 ^ 32 := by
  rw [BitVec.toNat_and]
  exact lt_of_le_of_lt Nat.and_le_right h

/-- A narrow operand. -/
theorem maskCodeOffset_lt {operandSize : ℕ} (h : operandSize = 16 ∨ operandSize = 32)
    (value : U64) : (cpuMaskCodeOffset value operandSize).toNat < 2 ^ 32 := by
  rcases h with rfl | rfl
  · exact and_lt_of_lt (by decide)
  · exact and_lt_of_lt (by decide)

/-- The operand sizes of the decoders. -/
def OperandSize (size : ℕ) : Prop := size = 16 ∨ size = 32 ∨ size = 64

/-- The operand size of a far transfer. -/
def FarTransfer.operandSize : FarTransfer → ℕ
  | .jmpFar _ _ operandSize => operandSize
  | .callFarMem _ operandSize _ => operandSize
  | .callFarPtr _ _ operandSize _ => operandSize
  | .ret operandSize _ _ => operandSize
  | .iret operandSize _ => operandSize

/-- A masked target is in range, unless the operand has 64 bits. -/
theorem masked_iff {operandSize : ℕ} (hsize : OperandSize operandSize) (value : U64) {p : Prop} :
    (p → (cpuMaskCodeOffset value operandSize).toNat < 2 ^ 32) ↔
      (operandSize = 64 → p → value.toNat < 2 ^ 32) := by
  rcases hsize with rfl | rfl | rfl
  · exact ⟨fun _ h => absurd h (by decide), fun _ _ => maskCodeOffset_lt (.inl rfl) value⟩
  · exact ⟨fun _ h => absurd h (by decide), fun _ _ => maskCodeOffset_lt (.inr rfl) value⟩
  · exact ⟨fun h _ => h, fun h => h rfl⟩

/-- A frame is what the stack holds. -/
theorem forall_frame_iff {cpu : Cpu} {operandSize count : ℕ} {frame : ReturnFrame}
    (h : cpu.frame operandSize count = .ok frame) {p : ReturnFrame → Prop} :
    (∀ frame, cpu.frame operandSize count = .ok frame → p frame) ↔ p frame := by
  constructor
  · exact fun hall => hall frame h
  · intro hp other hother
    cases h.symm.trans hother
    exact hp

/-- Where an interrupt return goes. -/
theorem iretEntered_place (cpu : Cpu) (operandSize addressSize : ℕ) (frame : ReturnFrame) :
    (cpu.iretEntered operandSize addressSize frame).context.place =
      (cpu.enter frame.selector frame.descriptor (cpuMaskCodeOffset (frame.values.getD 0 0)
        (Cpu.iretTargetSize frame.descriptor operandSize))).context.place := by
  unfold Cpu.iretEntered
  simp only
  split_ifs <;> rfl

/-- **The target of a far transfer** that completes. -/
theorem outcome_target_iff {cpu c : Cpu} {t : FarTransfer} (hsize : OperandSize t.operandSize)
    (h : t.outcome cpu = .ok c) : CompatRip c ↔ t.TargetFits cpu := by
  cases t with
  | jmpFar selector offset operandSize =>
    obtain ⟨desc, hdesc, -, rfl⟩ := jmpFarOutcome_ok.mp h
    refine (masked_iff hsize offset).trans (forall_congr' fun _ => ?_)
    constructor
    · intro hfits other hother
      cases hdesc.symm.trans hother
      exact hfits
    · exact fun hall => hall desc hdesc
  | callFarMem memAddr operandSize returnRip =>
    obtain ⟨offset, selector, desc, after, -, -, -, -, rfl⟩ := callFarMemOutcome_ok.mp h
    refine iff_of_true (fun hlong => ?_) trivial
    change desc.longMode = false at hlong
    show (Cpu.callTarget desc offset operandSize).toNat < 2 ^ 32
    unfold Cpu.callTarget
    rw [if_neg (Bool.eq_false_iff.mp hlong)]
    split_ifs
    · exact and_lt_of_lt (by decide)
    · exact and_lt_of_lt (by decide)
  | callFarPtr selector offset operandSize returnRip =>
    obtain ⟨desc, after, -, -, -, rfl⟩ := callFarPtrOutcome_ok.mp h
    refine iff_of_true (fun _ => ?_) trivial
    show (Cpu.ptrTarget offset operandSize).toNat < 2 ^ 32
    unfold Cpu.ptrTarget
    split_ifs
    · exact and_lt_of_lt (by decide)
    · rw [BitVec.toNat_setWidth_of_le (by decide)]
      exact offset.isLt
  | ret operandSize addressSize immediate =>
    obtain ⟨frame, hframe, rfl⟩ := retOutcome_ok.mp h
    refine (masked_iff hsize _).trans (forall_congr' fun hwide => ?_)
    subst hwide
    exact (@forall_frame_iff cpu 64 2 frame hframe fun frame =>
      frame.descriptor.longMode = false → (frame.values.getD 0 0).toNat < 2 ^ 32).symm
  | iret operandSize addressSize =>
    obtain ⟨frame, hframe, rfl⟩ := iretOutcome_ok.mp h
    obtain ⟨hrip, hcs⟩ := Prod.mk.inj (iretEntered_place cpu operandSize addressSize frame)
    unfold CompatRip
    rw [hcs, hrip]
    show (frame.descriptor.longMode = false → (cpuMaskCodeOffset (frame.values.getD 0 0)
      (Cpu.iretTargetSize frame.descriptor operandSize)).toNat < 2 ^ 32) ↔ _
    constructor
    · rintro hfits rfl other hother hlong
      cases hframe.symm.trans hother
      have := hfits hlong
      rwa [Cpu.iretTargetSize, if_neg (Bool.eq_false_iff.mp hlong)] at this
    · intro hfits hlong
      rw [Cpu.iretTargetSize, if_neg (Bool.eq_false_iff.mp hlong)]
      refine (masked_iff hsize _).mpr (fun hwide _ => ?_) trivial
      change operandSize = 64 at hwide
      subst hwide
      exact hfits rfl frame hframe hlong

/-! ## Near branches -/

/-- Near branches of code that is not 64-bit code have narrow operands. -/
theorem operandSize_narrow {ctx : CpuContext} (h : ctx.cs.descriptor.longMode = false)
    (form : BranchForm) (operandSizeOverride : Bool) :
    form.operandSize ctx operandSizeOverride = 16 ∨ form.operandSize ctx operandSizeOverride = 32 := by
  have hcode : ctx.is64BitCode = false := by rw [CpuContext.is64BitCode, h, Bool.and_false]
  unfold BranchForm.operandSize
  rw [hcode, h]
  cases form <;> cases operandSizeOverride <;> decide

/-- A rejected target raises an exception. -/
theorem validate_rejected {cpu : Cpu} {value : U64} {operandSize : ℕ}
    (h : ((cpuValidateCodeOffset value operandSize).run cpuOp cpu).1 = false) :
    ((cpuValidateCodeOffset value operandSize).run cpuOp cpu).2.context.hasException = true := by
  unfold cpuValidateCodeOffset at h ⊢
  rw [Program.run_bind] at h ⊢
  by_cases hcanon : (cpu.context.is64BitCode &&
      !cpuIsCanonicalAddress (cpuMaskCodeOffset value operandSize)) = true
  · simp only [getContext, perform, Program.run_perform, cpuOp, hcanon, if_true]
    exact raiseException_pending cpu.context .gp 0
  · simp only [getContext, perform, Program.run_perform, cpuOp, hcanon, Bool.false_eq_true,
      if_false] at h
    cases h

/-- **`cpu_assign_rip_checked`** without an exception. -/
theorem assign_rip {cpu : Cpu} {value : U64} {operandSize : ℕ}
    (h : ((cpuAssignRipChecked value operandSize).run cpuOp cpu).2.context.hasException = false) :
    ((cpuAssignRipChecked value operandSize).run cpuOp cpu).2.context.rip =
      cpuMaskCodeOffset value operandSize := by
  unfold cpuAssignRipChecked at h ⊢
  rw [Program.run_bind] at h ⊢
  by_cases hvalid : ((cpuValidateCodeOffset value operandSize).run cpuOp cpu).1 = true
  · simp only [hvalid, if_true]
    rfl
  · rw [Bool.not_eq_true] at hvalid
    simp only [hvalid, Bool.false_eq_true, if_false, Program.run_pure] at h
    rw [validate_rejected hvalid] at h
    cases h

/-- The program either leaves an exception or goes to a masked target. -/
def GoesMasked (cpu : Cpu) (operandSize : ℕ) (p : CpuProgram Unit) : Prop :=
  (p.run cpuOp cpu).2.context.hasException = false →
    ∃ value, (p.run cpuOp cpu).2.context.rip = cpuMaskCodeOffset value operandSize

/-- A part before the branch. -/
theorem GoesMasked.bind {cpu : Cpu} {operandSize : ℕ} {α : Type} {p : CpuProgram α}
    {f : α → CpuProgram Unit}
    (h : GoesMasked (p.run cpuOp cpu).2 operandSize (f (p.run cpuOp cpu).1)) :
    GoesMasked cpu operandSize (p >>= f) := by
  unfold GoesMasked at h ⊢
  rw [Program.run_bind]
  exact h

/-- A check for an exception before the branch. -/
theorem GoesMasked.checked {cpu : Cpu} {operandSize : ℕ} {f : CpuProgram Unit}
    (h : GoesMasked cpu operandSize f) :
    GoesMasked cpu operandSize (do if ← cpuHasException then return () else f) := by
  intro hnone
  have hpending : (cpuHasException).run cpuOp cpu = (cpu.context.hasException, cpu) := rfl
  rw [Program.run_bind, hpending] at hnone ⊢
  by_cases hexc : cpu.context.hasException = true
  · simp only [hexc, if_true] at hnone
    exact absurd (hexc.symm.trans hnone) (by decide)
  · simp only [hexc, Bool.false_eq_true, if_false] at hnone ⊢
    exact h hnone

theorem goesMasked_assign (cpu : Cpu) (value : U64) (operandSize : ℕ) :
    GoesMasked cpu operandSize (do let _ ← cpuAssignRipChecked value operandSize) := by
  intro hnone
  rw [Program.run_bind] at hnone ⊢
  exact ⟨value, assign_rip hnone⟩

theorem goesMasked_jump (cpu : Cpu) (pre : FlowPrefix) (form : BranchForm)
    (target : CpuProgram U64) :
    GoesMasked cpu (form.operandSize cpu.context pre.operandSizeOverride)
      (executeJump pre form target) := by
  refine .bind (.bind (.bind (.checked ?_)))
  exact goesMasked_assign _ _ _

theorem goesMasked_callNear (cpu : Cpu) (target returnRip : U64) (operandSize : ℕ) :
    GoesMasked cpu operandSize (callNear target returnRip operandSize) := by
  refine .bind ?_
  by_cases hvalid : ((cpuValidateCodeOffset (cpuMaskCodeOffset target operandSize)
      operandSize).run cpuOp cpu).1 = true
  · rw [hvalid, if_pos rfl]
    refine .bind (.checked ?_)
    intro _
    exact ⟨target, rfl⟩
  · rw [Bool.not_eq_true] at hvalid
    intro hnone
    have hrejected := validate_rejected hvalid
    rw [hvalid] at hnone
    exact absurd (hrejected.symm.trans hnone) (by decide)

theorem goesMasked_call (cpu : Cpu) (pre : FlowPrefix) (form : BranchForm)
    (target : CpuProgram U64) :
    GoesMasked cpu (form.operandSize cpu.context pre.operandSizeOverride)
      (executeCall pre form target) := by
  refine .bind (.bind (.bind (.checked ?_)))
  exact goesMasked_callNear _ _ _ _

theorem goesMasked_ret (cpu : Cpu) (dec : DecodedInst) :
    GoesMasked cpu dec.nearRetSize (cpuExecutorInlineRetNoImm dec) := by
  refine .bind (.bind (.checked ?_))
  exact goesMasked_assign _ _ _

theorem goesMasked_retImm (cpu : Cpu) (hm : MemoryOk cpu.memory) (dec : DecodedInst) :
    GoesMasked cpu dec.nearRetSize (cpuExecutorInlineRetImm16 dec) := by
  refine .bind (.bind (.checked ?_))
  have hmem : MemoryOk ((popValue (dec.nearRetSize / 8)).run cpuOp ((modifyContext fun ctx =>
      { ctx with lastInstSize := dec.nearRetPrefixLen + 3 }).run cpuOp cpu).2).2.memory :=
    ((GuestFrame.cpuProgram _ cpu).trans (.cpuProgram _ _)).memory.ok hm
  generalize ((popValue (dec.nearRetSize / 8)).run cpuOp _).2 = c at hmem ⊢
  generalize ((popValue (dec.nearRetSize / 8)).run cpuOp _).1 = value
  intro hnone
  rw [Program.run_bind] at hnone ⊢
  have hassigned := (GuestFrame.cpuProgram (cpuAssignRipChecked value dec.nearRetSize) c).memory.ok
    hmem
  have hrip := @assign_rip c value dec.nearRetSize
  generalize (cpuAssignRipChecked value dec.nearRetSize).run cpuOp c = r at *
  -- An exception of the assignment would still be there at the end.
  have hnone' : r.2.context.hasException = false := by
    by_contra hexc
    have hpending := (CodeFrame.cpuProgram (if dec.nearRetSize = 64 ∧ !r.1 then return () else
      modifyContext fun ctx => cpuSetStackPointerValue ctx ctx.stackAddressSize
        (ctx.regs regRsp + dec.inlineImm16.setWidth 64)) hassigned).pending
      (by simpa using hexc)
    exact absurd (hpending.symm.trans hnone) (by decide)
  refine ⟨value, Eq.trans ?_ (hrip hnone')⟩
  split_ifs <;> rfl

/-! ## One instruction -/

variable {cpu : Cpu}

/-- A near branch that completes keeps the range. -/
theorem near_compatRip (hm : MemoryOk cpu.memory) {operandSize : ℕ} {p : CpuProgram Unit}
    (hmask : GoesMasked cpu operandSize p)
    (hnarrow : cpu.context.cs.descriptor.longMode = false → operandSize = 16 ∨ operandSize = 32)
    (hnone : (p.run cpuOp cpu).2.context.hasException = false) : CompatRip (p.run cpuOp cpu).2 := by
  intro hlong
  rw [(CodeFrame.cpuProgram p hm).cs_eq] at hlong
  obtain ⟨value, hvalue⟩ := hmask hnone
  rw [hvalue]
  exact maskCodeOffset_lt (hnarrow hlong) value

/-- A branch ends where its code has gone. -/
theorem runCode_branch {dec : DecodedInst} {code : Handler} (h : dec.code = (code, false))
    (ripPre : U64) : cpu.runCode dec ripPre = (code.run handlerOp cpu).2 := by
  unfold Cpu.runCode
  simp only [h, Bool.and_false, Bool.false_eq_true, if_false]

theorem directSize_operandSize {ctx : CpuContext} {size : ℕ} (h : directSize ctx = some size) :
    OperandSize size := by
  unfold directSize at h
  split_ifs at h
  · exact .inl (Option.some.inj h).symm
  · exact .inr (.inl (Option.some.inj h).symm)

theorem farPointerSize_operandSize (ctx : CpuContext) (rexW operandSizeOverride : Bool) :
    OperandSize (farPointerSize ctx rexW operandSizeOverride) := by
  unfold farPointerSize OperandSize
  split_ifs <;> simp

theorem decodeRetFarOperandSize_operandSize (ctx : CpuContext) :
    OperandSize (decodeRetFarOperandSize ctx) := by
  unfold decodeRetFarOperandSize OperandSize
  split_ifs <;> simp

/-- The decoders give the operand sizes. -/
theorem transfer_operandSize {pre : FlowPrefix} {ctx : CpuContext} {inst : FlowInst}
    {t : FarTransfer} (h : inst.transfer pre ctx = some t) : OperandSize t.operandSize := by
  cases inst with
  | jmpFarPtr selector offset =>
    obtain ⟨size, hsize, rfl⟩ := Option.map_eq_some_iff.mp h
    exact directSize_operandSize hsize
  | callFarPtr selector offset =>
    obtain ⟨size, hsize, rfl⟩ := Option.map_eq_some_iff.mp h
    exact directSize_operandSize hsize
  | callFarMem address =>
    cases h
    exact farPointerSize_operandSize _ _ _
  | retFar immediate =>
    cases h
    exact decodeRetFarOperandSize_operandSize _
  | iret =>
    cases h
    exact decodeRetFarOperandSize_operandSize _
  | sequential | jump | jcc | call | ret | jmpFarMem => cases h

/-- A far transfer of the code, from any page cache. -/
theorem far_compatRip {cpu₀ : Cpu} (h : UpToCache cpu₀ cpu) {t : FarTransfer}
    (hexc : cpu.context.hasException = false) (hsize : OperandSize t.operandSize)
    (hnone : (farTransfer t cpu₀).context.hasException = false) :
    CompatRip (farTransfer t cpu₀) ↔ t.TargetFits cpu := by
  have hstate := farTransfer_outcome hexc h t
  have hdone := completes_outcome hexc t
  have hcontext := congrArg Cpu.context hstate.eq
  cases houtcome : t.outcome cpu with
  | error c =>
    rw [houtcome] at hcontext hdone
    change c.context = (farTransfer t cpu₀).context at hcontext
    cases hdone with
    | error hfailed =>
      rw [← hcontext, hfailed.pending] at hnone
      cases hnone
  | ok c =>
    rw [houtcome] at hcontext
    change c.context = (farTransfer t cpu₀).context at hcontext
    rw [← outcome_target_iff hsize houtcome]
    unfold CompatRip
    rw [hcontext]

/-- The code of an instruction that is no branch. -/
theorem run_sequential (hm : MemoryOk cpu.memory) (pre : FlowPrefix) (part : SequentialPart) :
    (((FlowInst.sequential part).handler pre).run handlerOp cpu).2.context.place =
        cpu.context.place ∧
      (((FlowInst.sequential part).handler pre).run handlerOp cpu).2.context.lastInstSize =
        pre.size := by
  show (((cpuPart _).run handlerOp cpu).2.context.place = _) ∧ _
  have hcs := (CodeFrame.cpuProgram (do
    modifyContext fun ctx => { ctx with lastInstSize := pre.size }
    part.code) hm).cs_eq
  rw [FlowInst.handler, run_cpuPart, CpuContext.place, hcs, Program.run_bind, part.rip_eq,
    part.size_eq]
  exact ⟨rfl, rfl⟩

/-- The advance behind an instruction that is no branch. -/
theorem runCode_sequential (hm : MemoryOk cpu.memory) (dec : DecodedInst) (pre : FlowPrefix)
    (part : SequentialPart) (ripPre : U64) :
    (cpu.runCode (dec.withHandler ((FlowInst.sequential part).handler pre) false)
        ripPre).context.cs = cpu.context.cs ∧
      (cpu.runCode (dec.withHandler ((FlowInst.sequential part).handler pre) false)
        ripPre).context.rip =
        if (cpu.runCode (dec.withHandler ((FlowInst.sequential part).handler pre) false)
          ripPre).context.hasException then cpu.context.rip
        else ripPre + BitVec.ofNat 64 pre.size := by
  obtain ⟨hplace, hsize⟩ := run_sequential hm pre part
  obtain ⟨hrip, hcs⟩ := Prod.mk.inj hplace
  have hcode : (dec.withHandler ((FlowInst.sequential part).handler pre) false).code =
      ((FlowInst.sequential part).handler pre, true) := rfl
  unfold Cpu.runCode
  simp only [hcode, Bool.and_true]
  generalize ((FlowInst.sequential part).handler pre).run handlerOp cpu = r at *
  by_cases hexc : r.2.context.hasException = true
  · simp only [hexc, Bool.not_true, Bool.false_eq_true, if_false, if_true]
    exact ⟨hcs, hrip⟩
  · rw [Bool.not_eq_true] at hexc
    have hnone : (r.2.setContext { r.2.context with
        rip := ripPre + BitVec.ofInt 64 r.2.context.lastInstSize }).context.hasException = false :=
      hexc
    simp only [hexc, Bool.not_false, if_true, hnone, Bool.false_eq_true, if_false]
    refine ⟨hcs, ?_⟩
    show ripPre + BitVec.ofInt 64 r.2.context.lastInstSize = _
    rw [hsize, BitVec.ofInt_natCast]

/-- An instruction that is not rolled back stays in place when it faults. -/
theorem decoded_stays (event : FlowEvent) (ctx : CpuContext) (ripPre : U64)
    (hflags : (event.decoded ctx).flags.noFault = true ∨
      (event.decoded ctx).flags.partialProgress = true) (c : Cpu) (hm : MemoryOk c.memory)
    (hexc : (c.runCode (event.decoded ctx) ripPre).context.hasException = true) :
    (c.runCode (event.decoded ctx) ripPre).context.place = c.context.place := by
  obtain ⟨dec, pre, inst⟩ := event
  cases inst with
  | sequential part =>
    obtain ⟨hcs, hrip⟩ := runCode_sequential hm dec pre part ripPre
    change (c.runCode (dec.withHandler _ false) ripPre).context.hasException = true at hexc
    rw [hexc, if_pos rfl] at hrip
    exact Prod.ext hrip hcs
  | jcc near cond disp =>
    simp only [FlowEvent.decoded] at hflags
    split_ifs at hflags <;> simp [DecodedInst.inlined, DecodedInst.withHandler] at hflags
  | jump | call | ret | jmpFarMem | jmpFarPtr | callFarMem | callFarPtr | retFar | iret =>
    simp [FlowEvent.decoded, DecodedInst.inlined, DecodedInst.withHandler] at hflags

/-- A far transfer behind its decoder. -/
theorem run_executeFar (pre : FlowPrefix) (decode : CpuContext → Option FarTransfer) :
    ((executeFar pre decode).run handlerOp cpu).2 =
      match decode ((recordPrefix pre).run cpuOp cpu).2.context with
      | none => ((cpuRaiseException .ud 0).run cpuOp ((recordPrefix pre).run cpuOp cpu).2).2
      | some t => farTransfer t ((recordPrefix pre).run cpuOp cpu).2 := by
  unfold executeFar
  rw [Program.run_bind, run_cpuPart, Program.run_bind, run_cpuPart]
  show ((match decode ((recordPrefix pre).run cpuOp cpu).2.context with
    | none => cpuPart (cpuRaiseException .ud 0)
    | some t => Program.perform (HandlerOp.far t)).run handlerOp _).2 = _
  cases decode ((recordPrefix pre).run cpuOp cpu).2.context with
  | none => exact congrArg Prod.snd (run_cpuPart _ _)
  | some t => rfl

/-- The far pointer of a jump past the page cache. -/
theorem run_readFarPointer (hm : MemoryOk cpu.memory) (hexc : cpu.context.hasException = false)
    (pre : FlowPrefix) (address : U64) :
    let size := farPointerSize cpu.context pre.rexW pre.operandSizeOverride
    (readFarPointer pre address).run viewOp cpu =
      checked cpu ((cpu.farPointer address size).map fun pointer =>
        (size, pointer.1, pointer.2)) := by
  intro size
  unfold readFarPointer Cpu.farPointer
  rw [Program.run_bind, show (getContext).run viewOp cpu = (cpu.context, cpu) from rfl]
  simp only
  rw [show (do
      let offset ← readMemory (operandBytes size) address
      let selector ← readMemoryWord (address + BitVec.ofNat 64 (operandBytes size))
      if ← cpuHasException then return none
      return some (size, offset, selector.setWidth 16) : CpuProgram (Option (ℕ × U64 × U16))).run
        viewOp cpu = _ from run_farPointer hm.manager hexc address size fun offset selector =>
          pure (some (size, offset, selector.setWidth 16))]
  cases cpu.loadAt (operandBytes size) address with
  | error c => rfl
  | ok offset =>
    cases cpu.loadAt 2 (address + BitVec.ofNat 64 (operandBytes size)) with
    | error c => rfl
    | ok selector => rfl

/-- **A far jump through memory** that completes. -/
theorem jmpFarMem_compatRip {pre : FlowPrefix} {address : U64} {q : Cpu}
    (hq : ((recordPrefix pre).run cpuOp cpu).2 = q) (hm : MemoryOk q.memory)
    (hexc : q.context.hasException = false)
    (hnone : ((executeJmpFarMem pre address).run handlerOp cpu).2.context.hasException = false) :
    CompatRip ((executeJmpFarMem pre address).run handlerOp cpu).2 ↔
      ∀ offset selector, q.farPointer address
          (farPointerSize q.context pre.rexW pre.operandSizeOverride) = .ok (offset, selector) →
        (FarTransfer.jmpFar selector offset
          (farPointerSize q.context pre.rexW pre.operandSizeOverride)).TargetFits q := by
  obtain ⟨hvalue, hstate⟩ := run_viewOp (readFarPointer pre address) hm
  rw [run_readFarPointer hm hexc pre address] at hvalue hstate
  unfold executeJmpFarMem at hnone ⊢
  rw [Program.run_bind, run_cpuPart, Program.run_bind, run_cpuPart, hq] at hnone ⊢
  rw [hvalue] at hnone ⊢
  have hclean := clean_farPointer hexc address
    (farPointerSize q.context pre.rexW pre.operandSizeOverride)
  cases hpointer : q.farPointer address
      (farPointerSize q.context pre.rexW pre.operandSizeOverride) with
  | error c =>
    rw [hpointer] at hclean hstate hnone
    have hcontext := congrArg Cpu.context hstate.eq
    change c.context = ((readFarPointer pre address).run cpuOp q).2.context at hcontext
    change ((readFarPointer pre address).run cpuOp q).2.context.hasException = false at hnone
    cases hclean with
    | error hfailed =>
      rw [← hcontext, hfailed.pending] at hnone
      cases hnone
  | ok pointer =>
    obtain ⟨offset, selector⟩ := pointer
    rw [hpointer] at hstate hnone
    have hiff := @far_compatRip q _ hstate (.jmpFar selector offset
      (farPointerSize q.context pre.rexW pre.operandSizeOverride)) hexc
      (farPointerSize_operandSize _ _ _) hnone
    refine hiff.trans ⟨fun h other otherSelector hother => ?_, fun h => h offset selector rfl⟩
    cases hother
    exact h

/-- The CPU behind the decoder of an instruction that completes. -/
theorem recorded_hasException (event : FlowEvent) (hm : MemoryOk cpu.memory) {code : Handler}
    {rest : Unit → Handler} (hcode : code = cpuPart (recordPrefix event.pre) >>= rest)
    (hnone : (code.run handlerOp
      (cpu.setSegmentOverride event.dec.segmentOverride)).2.context.hasException = false) :
    (event.recorded cpu).context.hasException = false := by
  rw [hcode, Program.run_bind, run_cpuPart] at hnone
  by_contra hexc
  have hpending := handler_pending (rest ()) (show MemoryOk (event.recorded cpu).memory from hm)
    (by simpa using hexc)
  exact absurd (hpending.symm.trans hnone) (by decide)

/-- The code of a far transfer that completes. -/
theorem far_runCode (hm : MemoryOk cpu.memory) (event : FlowEvent) {dec : DecodedInst}
    {ripPre : U64} (hcode : dec.code =
      (executeFar event.pre fun ctx => event.inst.transfer event.pre ctx, false))
    (hran : ((cpu.setSegmentOverride event.dec.segmentOverride).runCode dec
      ripPre).context.hasException = false) :
    CompatRip ((cpu.setSegmentOverride event.dec.segmentOverride).runCode dec ripPre) ↔
      ∀ t, event.inst.transfer event.pre (event.recorded cpu).context = some t →
        t.TargetFits (event.recorded cpu) := by
  rw [runCode_branch hcode] at hran ⊢
  have hexc := recorded_hasException event hm rfl hran
  have hm' : MemoryOk (event.recorded cpu).memory := hm
  have hrun := @run_executeFar (cpu.setSegmentOverride event.dec.segmentOverride) event.pre
    fun ctx => event.inst.transfer event.pre ctx
  rw [hrun] at hran ⊢
  rw [show ((recordPrefix event.pre).run cpuOp (cpu.setSegmentOverride
    event.dec.segmentOverride)).2 = event.recorded cpu from rfl] at hran ⊢
  cases htransfer : event.inst.transfer event.pre (event.recorded cpu).context with
  | none =>
    rw [htransfer] at hran
    exact absurd ((raiseException_pending (event.recorded cpu).context .ud 0).symm.trans hran)
      (by decide)
  | some t =>
    rw [htransfer] at hran
    rw [far_compatRip (.refl hm') hexc (transfer_operandSize htransfer) hran]
    constructor
    · rintro hfits _ ⟨⟩
      exact hfits
    · exact fun hall => hall t rfl

theorem decoded_segmentOverride (event : FlowEvent) (ctx : CpuContext) :
    (event.decoded ctx).segmentOverride = event.dec.segmentOverride := by
  obtain ⟨dec, pre, inst⟩ := event
  cases inst with
  | jcc near cond disp =>
    unfold FlowEvent.decoded
    simp only
    split_ifs <;> rfl
  | sequential | jump | call | ret | jmpFarMem | jmpFarPtr | callFarMem | callFarPtr | retFar
  | iret => rfl

/-- The return that the decoder makes of a near return. -/
theorem nearRetSize_eq (dec : DecodedInst) (ctx : CpuContext) (operandSizeOverride : Bool)
    (h : dec.nearRetOpSize = BranchForm.relative.operandSize ctx operandSizeOverride) :
    dec.nearRetSize = BranchForm.relative.operandSize ctx operandSizeOverride := by
  unfold DecodedInst.nearRetSize
  rw [h]
  unfold BranchForm.operandSize
  simp only
  split_ifs <;> first | rfl | contradiction

/-- **A near branch** that completes keeps the range. -/
theorem near_event (hm : MemoryOk cpu.memory) (event : FlowEvent) {p : CpuProgram Unit}
    {form : BranchForm} (hcode : (event.decoded cpu.context).code = (cpuPart p, false))
    (hmask : GoesMasked (cpu.setSegmentOverride event.dec.segmentOverride)
      (form.operandSize cpu.context event.pre.operandSizeOverride) p)
    (hran : ((cpu.setSegmentOverride event.dec.segmentOverride).runCode
      (event.decoded cpu.context) cpu.context.rip).context.hasException = false) :
    CompatRip ((cpu.setSegmentOverride event.dec.segmentOverride).runCode
      (event.decoded cpu.context) cpu.context.rip) := by
  rw [runCode_branch hcode, run_cpuPart] at hran ⊢
  intro hlong
  rw [(CodeFrame.cpuProgram p (show MemoryOk (cpu.setSegmentOverride
    event.dec.segmentOverride).memory from hm)).cs_eq] at hlong
  obtain ⟨value, hvalue⟩ := hmask hran
  rw [hvalue]
  exact maskCodeOffset_lt (operandSize_narrow hlong form _) value

/-- Code of the CPU that is entered in 64-bit code stays there. -/
theorem long_event (hm : MemoryOk cpu.memory) (event : FlowEvent) {p : CpuProgram Unit}
    (hlong : cpu.context.cs.descriptor.longMode = true)
    (hcode : (event.decoded cpu.context).code = (cpuPart p, false)) :
    CompatRip ((cpu.setSegmentOverride event.dec.segmentOverride).runCode
      (event.decoded cpu.context) cpu.context.rip) := by
  intro hcompat
  rw [runCode_branch hcode, run_cpuPart, (CodeFrame.cpuProgram p (show MemoryOk
    (cpu.setSegmentOverride event.dec.segmentOverride).memory from hm)).cs_eq] at hcompat
  exact absurd (hlong.symm.trans hcompat) (by decide)

/-- **The code of an instruction** that completes. -/
theorem code_compatRip (hm : MemoryOk cpu.memory) (event : FlowEvent)
    (hran : ((cpu.setSegmentOverride event.dec.segmentOverride).runCode
      (event.decoded cpu.context) cpu.context.rip).context.hasException = false) :
    CompatRip ((cpu.setSegmentOverride event.dec.segmentOverride).runCode
      (event.decoded cpu.context) cpu.context.rip) ↔ event.TargetFits cpu := by
  have hnear := @near_event cpu hm event
  have hfar := @far_runCode cpu hm event (event.decoded cpu.context) cpu.context.rip
  obtain ⟨dec, pre, inst⟩ := event
  cases inst with
  | sequential part =>
    obtain ⟨hcs, hrip⟩ := @runCode_sequential (cpu.setSegmentOverride dec.segmentOverride) hm dec pre
      part cpu.context.rip
    change ((cpu.setSegmentOverride dec.segmentOverride).runCode (dec.withHandler _ false)
      cpu.context.rip).context.hasException = false at hran
    rw [hran, if_neg (by decide)] at hrip
    show CompatRip ((cpu.setSegmentOverride dec.segmentOverride).runCode (dec.withHandler _ false)
      cpu.context.rip) ↔ _
    unfold CompatRip
    rw [hcs, hrip]
    exact Iff.rfl
  | jump form target =>
    exact iff_of_true (hnear rfl (goesMasked_jump _ pre form target) hran) fun _ h => nomatch h
  | call form target =>
    exact iff_of_true (hnear rfl (goesMasked_call _ pre form target) hran) fun _ h => nomatch h
  | jcc near cond disp =>
    refine iff_of_true ?_ fun _ h => nomatch h
    by_cases hinline : (cpu.context.cs.descriptor.longMode &&
        pre.size == if near then 6 else 2) = true
    · have hlong : cpu.context.cs.descriptor.longMode = true := (Bool.and_eq_true_iff.mp hinline).1
      obtain ⟨p, hcode⟩ : ∃ p, (FlowEvent.decoded ⟨dec, pre, .jcc near cond disp⟩
          cpu.context).code = (cpuPart p, false) := by
        unfold FlowEvent.decoded
        simp only
        rw [if_pos hinline]
        cases near with
        | false => exact ⟨_, rfl⟩
        | true => exact ⟨_, rfl⟩
      exact long_event hm _ hlong hcode
    · refine @hnear (executeJcc pre near cond disp) .conditional ?_ (goesMasked_jump _ pre _ _) hran
      unfold FlowEvent.decoded
      simp only
      rw [if_neg hinline]
      rfl
  | ret immediate =>
    refine iff_of_true ?_ fun _ h => nomatch h
    have hsize := nearRetSize_eq (FlowEvent.decoded ⟨dec, pre, .ret immediate⟩ cpu.context)
      cpu.context pre.operandSizeOverride rfl
    cases immediate with
    | none =>
      have hmask := goesMasked_ret (cpu.setSegmentOverride dec.segmentOverride)
        (FlowEvent.decoded ⟨dec, pre, .ret none⟩ cpu.context)
      rw [hsize] at hmask
      exact @hnear _ .relative rfl hmask hran
    | some immediate =>
      have hmask := goesMasked_retImm (cpu.setSegmentOverride dec.segmentOverride) hm
        (FlowEvent.decoded ⟨dec, pre, .ret (some immediate)⟩ cpu.context)
      rw [hsize] at hmask
      exact @hnear _ .relative rfl hmask hran
  | jmpFarMem address =>
    have hcode : (FlowEvent.decoded ⟨dec, pre, .jmpFarMem address⟩ cpu.context).code =
        (executeJmpFarMem pre address, false) := rfl
    rw [runCode_branch hcode] at hran ⊢
    have hexc := recorded_hasException ⟨dec, pre, .jmpFarMem address⟩ hm rfl hran
    exact jmpFarMem_compatRip rfl (show MemoryOk (FlowEvent.recorded _ cpu).memory from hm) hexc hran
  | jmpFarPtr selector offset => exact hfar rfl hran
  | callFarMem address => exact hfar rfl hran
  | callFarPtr selector offset => exact hfar rfl hran
  | retFar immediate => exact hfar rfl hran
  | iret => exact hfar rfl hran

/-! ## Runs -/

theorem memoryOk_flow (hm : MemoryOk cpu.memory) (event : FlowEvent) :
    MemoryOk (cpu.flow event).memory := by
  unfold Cpu.flow
  split_ifs
  · exact hm
  · exact (GuestFrame.dispatchDecoded cpu _ _).memory.ok hm

/-- **One instruction** keeps the range exactly if it fits. -/
theorem compatRip_flow (hm : MemoryOk cpu.memory) (h : CompatRip cpu) (event : FlowEvent) :
    CompatRip (cpu.flow event) ↔ FlowFits cpu event := by
  unfold FlowFits Cpu.flow
  by_cases hexc : cpu.context.hasException = true
  · rw [if_pos hexc]
    exact iff_of_true h fun hnone => absurd (hexc.symm.trans hnone) (by decide)
  rw [if_neg hexc]
  have hend := dispatched hm (event.decoded cpu.context)
    fun hflags c hc => decoded_stays event cpu.context cpu.context.rip hflags c hc
  unfold CompatRip
  cases hend with
  | fault hpending hstays =>
    obtain ⟨hrip, hcs⟩ := Prod.mk.inj hstays
    rw [hrip, hcs]
    exact iff_of_true h fun hnone => absurd (hpending.symm.trans hnone) (by decide)
  | done hnone hran hgoes =>
    obtain ⟨hrip, hcs⟩ := Prod.mk.inj hgoes
    rw [decoded_segmentOverride] at hran hrip hcs
    rw [hrip, hcs]
    refine (code_compatRip hm event hran).trans ?_
    exact ⟨fun hfits _ => hfits, fun hfits => hfits hnone⟩

/-- **The range of the instruction pointer.**  From a state in range, such as one of 32-bit
code below `2^32`, every state of a run is in range exactly if each instruction of the run
that completes fits. -/
theorem compat_rip_stays (cpu : Cpu) (hm : MemoryOk cpu.memory) (h : CompatRip cpu)
    (events : List FlowEvent) :
    (∀ past, past <+: events → CompatRip (run Cpu.flow cpu past)) ↔
      Along Cpu.flow FlowFits cpu events :=
  forall_prefix_iff_along_of (fun cpu => MemoryOk cpu.memory) CompatRip
    (fun _ event hm => memoryOk_flow hm event) (fun _ event hm h => compatRip_flow hm h event) cpu
    hm h events

/-- An instruction of one byte that does nothing. -/
def nopEvent : FlowEvent where
  dec := { DecodedInst.clear with length := 1 }
  pre := { size := 1, rexW := false, operandSizeOverride := false }
  inst := .sequential { code := return (), rip_eq := fun _ => rfl, size_eq := fun _ => rfl }

/-- A far call through memory of 32-bit operands. -/
def farCallEvent (address : U64) : FlowEvent where
  dec := { DecodedInst.clear with length := 2 }
  pre := { size := 2, rexW := false, operandSizeOverride := false }
  inst := .callFarMem address

/-- 32-bit code at an address. -/
def compatCpu (rip : U64) : Cpu := hostCpu { initCpuContext true with rip := rip } fun _ => 0

/-- A run that stays in range. -/
theorem compat_rip_stays_example :
    CompatRip (run Cpu.flow (compatCpu 0x1000) [nopEvent, farCallEvent 0x100]) := by
  refine (compat_rip_stays (compatCpu 0x1000) (memoryOk_hostCpu _ _) ?_
    [nopEvent, farCallEvent 0x100]).mpr ?_ _ List.prefix_rfl
  · intro _
    decide
  · refine ⟨fun _ _ => by decide, ?_, trivial⟩
    intro _ t ht
    cases ht
    trivial

/-- An instruction at the end of the range. -/
theorem advance_leaves_compat_range : ¬ ∀ cpu : Cpu, MemoryOk cpu.memory →
    cpu.context.cs.descriptor.longMode = false → cpu.context.rip.toNat < 2 ^ 32 →
    ∀ events, CompatRip (run Cpu.flow cpu events) := by
  intro hall
  have hrange := hall (compatCpu 0xFFFFFFFF) (memoryOk_hostCpu _ _) rfl (by decide) [nopEvent]
  have hlong : (run Cpu.flow (compatCpu 0xFFFFFFFF)
      [nopEvent]).context.cs.descriptor.longMode = false := by decide +kernel
  exact absurd (hrange hlong) (by decide +kernel)

end Cpueaxh
