/-
# Loads of segment registers

`load_segment_register`, which `MOV` and `POP` call for the registers other than `cs`, and
its outcome past the page cache.  The stack segment has checks of its own.
-/
import Cpueaxh.FarOutcome

namespace Cpueaxh

open HostMemory

/-! ## The code -/

/-- `is_data_segment`. -/
def isDataSegment (type : U8) : Bool := type &&& 0x08 == 0

/-- `is_writable_data_segment`. -/
def isWritableDataSegment (type : U8) : Bool := isDataSegment type && type &&& 0x02 != 0

/-- `is_readable_code_segment`. -/
def isReadableCodeSegment (type : U8) : Bool := isCodeSegment type && type &&& 0x02 != 0

/-- `raise_ud_ctx`. -/
def raiseUd : CpuProgram Unit := cpuRaiseException .ud 0

/-- `raise_ss_ctx`. -/
def raiseSs (errorCode : U32) : CpuProgram Unit := cpuRaiseException .ss errorCode

/-- Write a segment register. -/
def setSegmentRegister (ctx : CpuContext) (value : SegmentRegister) :
    SegmentRegisterIndex → CpuContext
  | .es => { ctx with es := value }
  | .cs => { ctx with cs := value }
  | .ss => { ctx with ss := value }
  | .ds => { ctx with ds := value }
  | .fs => { ctx with fs := value }
  | .gs => { ctx with gs := value }

/-- `load_segment_register` for the stack segment. -/
def loadStackSegment (selector : U16) : CpuProgram Unit := do
  if isNullSelector selector then raiseGp 0
  else
    let desc ← loadDescriptorFromTable selector
    let ctx ← getContext
    if ctx.hasException then return ()
    else if selectorRpl selector != ctx.cpl then raiseGp (selectorError selector)
    else if !isWritableDataSegment desc.type then raiseGp (selectorError selector)
    else if desc.dpl != ctx.cpl then raiseGp (selectorError selector)
    else if !desc.present then raiseSs (selectorError selector)
    else modifyContext fun ctx => setSegmentRegister ctx ⟨selector, desc⟩ .ss

/-- `load_segment_register` for a register that is neither `cs` nor `ss`; `none` is an
index without a register, for which `get_segment_register` raises an exception and yields
a dummy. -/
def loadDataSegment (index : Option SegmentRegisterIndex) (selector : U16) :
    CpuProgram Unit := do
  let write : SegmentRegister → CpuProgram Unit := fun value =>
    match index with
    | some index => modifyContext fun ctx => setSegmentRegister ctx value index
    | none => return ()
  if index.isNone then raiseGp 0
  if isNullSelector selector then write ⟨selector, .zero⟩
  else
    let desc ← loadDescriptorFromTable selector
    let ctx ← getContext
    if ctx.hasException then return ()
    else if !isDataSegment desc.type && !isReadableCodeSegment desc.type then
      raiseGp (selectorError selector)
    else if (isDataSegment desc.type || !isConformingCodeSegment desc.type) &&
        (decide (desc.dpl < selectorRpl selector) || decide (desc.dpl < ctx.cpl)) then
      raiseGp (selectorError selector)
    else if !desc.present then raiseNp (selectorError selector)
    else write ⟨selector, desc⟩

/-- `load_segment_register`. -/
def loadSegmentRegister (index : Option SegmentRegisterIndex) (selector : U16) :
    CpuProgram Unit :=
  if index = some .cs then raiseUd
  else if index = some .ss then loadStackSegment selector
  else loadDataSegment index selector

/-! ## Outcomes -/

namespace Cpu

variable (cpu : Cpu)

/-- The fault of a descriptor for the stack segment. -/
def stackChecks (selector : U16) (desc : SegmentDescriptor) : Option RaisedFault :=
  if selectorRpl selector != cpu.context.cpl then some .gp
  else if !isWritableDataSegment desc.type then some .gp
  else if desc.dpl != cpu.context.cpl then some .gp
  else if !desc.present then some .ss
  else none

/-- The fault of a descriptor for a data segment. -/
def dataChecks (selector : U16) (desc : SegmentDescriptor) : Option RaisedFault :=
  if !isDataSegment desc.type && !isReadableCodeSegment desc.type then some .gp
  else if (isDataSegment desc.type || !isConformingCodeSegment desc.type) &&
      (decide (desc.dpl < selectorRpl selector) || decide (desc.dpl < cpu.context.cpl)) then
    some .gp
  else if !desc.present then some .np
  else none

/-- The CPU with another segment register. -/
def setSegment (index : SegmentRegisterIndex) (value : SegmentRegister) : Cpu :=
  { cpu with context := setSegmentRegister cpu.context value index }

/-- The outcome of `load_segment_register`. -/
def segmentOutcome (index : Option SegmentRegisterIndex) (selector : U16) : Except Cpu Cpu :=
  match index with
  | none => .error (cpu.raised .gp 0)
  | some .cs => .error (cpu.raised .ud 0)
  | some .ss => do
    let desc ← cpu.validSelector selector (cpu.stackChecks selector)
    return cpu.setSegment .ss ⟨selector, desc⟩
  | some index =>
    if isNullSelector selector then .ok (cpu.setSegment index ⟨selector, .zero⟩)
    else do
      let desc ← cpu.validSelector selector (cpu.dataChecks selector)
      return cpu.setSegment index ⟨selector, desc⟩

end Cpu

section Outcome

variable {cpu : Cpu} (hm : ManagerOk cpu.memory) (hexc : cpu.context.hasException = false)

include hm hexc

/-- Loading a descriptor and judging it. -/
theorem run_loadDescriptor_bind {selector : U16} (hnull : isNullSelector selector = false)
    {checks : SegmentDescriptor → Option RaisedFault} {k : SegmentDescriptor → CpuProgram Unit}
    {f : SegmentDescriptor → Cpu}
    (hpending : ∀ desc c, c.context.hasException = true → (k desc).run viewOp c = ((), c))
    (hfault : ∀ desc fault, checks desc = some fault →
      (k desc).run viewOp cpu = ((), cpu.raised fault (selectorError selector)))
    (hdone : ∀ desc, checks desc = none → (k desc).run viewOp cpu = ((), f desc)) :
    (loadDescriptorFromTable selector >>= k).run viewOp cpu =
      transferred (cpu.validSelector selector checks >>= fun desc => .ok (f desc)) := by
  obtain ⟨hstate, hvalue⟩ := run_loadDescriptor hm hexc selector
  have hclean := clean_descriptorWords hexc selector
  rw [Program.run_bind]
  generalize (loadDescriptorFromTable selector).run viewOp cpu = r at hstate hvalue
  obtain ⟨desc, c⟩ := r
  simp only at hstate hvalue
  subst hstate
  cases hwords : cpu.descriptorWords selector with
  | error c =>
    rw [hwords] at hclean
    unfold Cpu.validSelector
    rw [if_neg (by simp [hnull]), hwords]
    cases hclean with
    | error hfailed => exact hpending desc c hfailed.pending
  | ok words =>
    obtain rfl := hvalue words hwords
    cases hchecks : checks (decodeDescriptor words.1 words.2) with
    | some fault =>
      rw [validSelector_fault hnull hwords hchecks]
      exact hfault _ fault hchecks
    | none =>
      rw [validSelector_done hnull hwords hchecks]
      exact hdone _ hchecks

theorem run_loadStackSegment (selector : U16) :
    (loadStackSegment selector).run viewOp cpu =
      transferred (cpu.segmentOutcome (some .ss) selector) := by
  unfold loadStackSegment Cpu.segmentOutcome
  by_cases hnull : isNullSelector selector = true
  · unfold Cpu.validSelector
    simp only [hnull, if_true]
    rfl
  · simp only [hnull, Bool.false_eq_true, if_false]
    refine run_loadDescriptor_bind hm hexc (by simpa using hnull) ?_ ?_ ?_
    · intro desc c hpending
      rw [Program.run_bind, show (getContext).run viewOp c = (c.context, c) from rfl]
      simp only [hpending, if_true]
      rfl
    · intro desc fault hfault
      rw [Program.run_bind, show (getContext).run viewOp cpu = (cpu.context, cpu) from rfl]
      unfold Cpu.stackChecks at hfault
      simp only [hexc, Bool.false_eq_true, if_false]
      split_ifs at hfault ⊢ <;> cases hfault <;> rfl
    · intro desc hnone
      rw [Program.run_bind, show (getContext).run viewOp cpu = (cpu.context, cpu) from rfl]
      unfold Cpu.stackChecks at hnone
      simp only [hexc, Bool.false_eq_true, if_false]
      split_ifs at hnone ⊢
      rfl

theorem run_loadDataSegment {index : SegmentRegisterIndex} (hcs : index ≠ .cs)
    (selector : U16) :
    (loadDataSegment (some index) selector).run viewOp cpu =
      transferred (if isNullSelector selector then .ok (cpu.setSegment index ⟨selector, .zero⟩)
        else do
          let desc ← cpu.validSelector selector (cpu.dataChecks selector)
          return cpu.setSegment index ⟨selector, desc⟩) := by
  have hwrite : ∀ value, (modifyContext fun ctx => setSegmentRegister ctx value index).run
      viewOp cpu = ((), cpu.setSegment index value) := by
    intro value
    have hkeep : cpu.context.keepMode (setSegmentRegister cpu.context value index) =
        setSegmentRegister cpu.context value index := by
      cases index <;> first | rfl | exact absurd rfl hcs
    show ((), { cpu with
      context := cpu.context.keepMode (setSegmentRegister cpu.context value index) }) = _
    rw [hkeep]
    rfl
  unfold loadDataSegment
  simp only [Option.isNone_some, Bool.false_eq_true, if_false]
  show Program.run viewOp (if isNullSelector selector = true then _ else _) cpu = _
  by_cases hnull : isNullSelector selector = true
  · simp only [hnull, if_true]
    exact hwrite _
  · simp only [hnull, Bool.false_eq_true, if_false]
    refine run_loadDescriptor_bind hm hexc (by simpa using hnull) ?_ ?_ ?_
    · intro desc c hpending
      rw [Program.run_bind, show (getContext).run viewOp c = (c.context, c) from rfl]
      simp only [hpending, if_true]
      rfl
    · intro desc fault hfault
      rw [Program.run_bind, show (getContext).run viewOp cpu = (cpu.context, cpu) from rfl]
      unfold Cpu.dataChecks at hfault
      simp only [hexc, Bool.false_eq_true, if_false]
      split_ifs at hfault ⊢ <;> cases hfault <;> rfl
    · intro desc hnone
      rw [Program.run_bind, show (getContext).run viewOp cpu = (cpu.context, cpu) from rfl]
      unfold Cpu.dataChecks at hnone
      simp only [hexc, Bool.false_eq_true, if_false]
      split_ifs at hnone ⊢
      exact hwrite _

omit hm hexc in
/-- Under a pending exception no descriptor is read. -/
theorem run_loadDescriptor_pending (hpending : cpu.context.hasException = true)
    (selector : U16) : ((loadDescriptorFromTable selector).run viewOp cpu).2 = cpu := by
  have hraise : ∀ code, (raiseGp code).run viewOp cpu = ((), cpu) := by
    intro code
    show ((), { cpu with context := cpu.context.raiseException _ code }) = _
    unfold CpuContext.raiseException
    rw [hpending]
    rfl
  unfold loadDescriptorFromTable
  rw [Program.run_bind, show (getContext).run viewOp cpu = (cpu.context, cpu) from rfl]
  simp only
  generalize (if ((selector >>> 2) &&& 1 == 1) = true then cpu.context.ldtrBase
      else cpu.context.gdtrBase) + BitVec.setWidth 64 (selector >>> 3) * 8 = address
  split_ifs
  all_goals first
    | (rw [Program.run_bind, hraise]; rfl)
    | (unfold readMemoryDword
       rw [Program.run_bind, run_readMemory_pending hpending]
       simp only
       rw [Program.run_bind, run_readMemory_pending hpending]
       rfl)

omit hm in
/-- An index without a register. -/
theorem run_loadDataSegment_none (selector : U16) :
    (loadDataSegment none selector).run viewOp cpu = ((), cpu.raised .gp 0) := by
  have hpending := (failed_raised hexc .gp 0).pending
  unfold loadDataSegment
  simp only [Option.isNone_none, if_true]
  rw [Program.run_bind, show (raiseGp 0).run viewOp cpu = ((), cpu.raised .gp 0) from rfl]
  simp only
  split_ifs
  · rfl
  · rw [Program.run_bind, Program.run_bind, run_loadDescriptor_pending hpending,
      show (getContext).run viewOp (cpu.raised .gp 0) =
        ((cpu.raised .gp 0).context, cpu.raised .gp 0) from rfl]
    simp only [hpending, if_true]
    rfl

/-- **`load_segment_register`**. -/
theorem run_loadSegmentRegister (index : Option SegmentRegisterIndex) (selector : U16) :
    (loadSegmentRegister index selector).run viewOp cpu =
      transferred (cpu.segmentOutcome index selector) := by
  unfold loadSegmentRegister
  cases index with
  | none => exact run_loadDataSegment_none hexc selector
  | some index =>
    cases index with
    | cs => rfl
    | ss => exact run_loadStackSegment hm hexc selector
    | es | ds | fs | gs => exact run_loadDataSegment hm hexc (by decide) selector

end Outcome

end Cpueaxh
