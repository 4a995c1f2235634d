/-
# Outcomes of far transfers

Past the page cache, each part of a far transfer is a function of the state: it yields a
value and leaves the CPU alone, or it ends in a CPU that differs in its exception at most.
The outcomes are in `Except Cpu`, with the CPU of a refused part as the error.
-/
import Cpueaxh.Operands

namespace Cpueaxh

open HostMemory

/-! ## Refused parts -/

/-- The CPU `cpu'` is `cpu` with an exception: the exception state, `CR2` and the number of
asked callbacks differ at most. -/
structure Cpu.Failed (cpu cpu' : Cpu) : Prop where
  pending : cpu'.context.hasException = true
  same : ∃ exception cr2 asked, cpu' = { cpu with
    context := { cpu.context with
      exception := exception
      controlRegs := Function.update cpu.context.controlRegs regCr2 cr2 }
    asked := asked }

/-- The CPU behind an exception that the code raises. -/
def Cpu.raised (cpu : Cpu) (fault : RaisedFault) (errorCode : U32) : Cpu :=
  { cpu with context := cpu.context.raiseException fault.code errorCode }

/-- If the part is refused, then in a CPU with an exception only. -/
inductive Cpu.Clean {α : Type} (cpu : Cpu) : Except Cpu α → Prop where
  | ok (a : α) : cpu.Clean (.ok a)
  | error {c : Cpu} (h : cpu.Failed c) : cpu.Clean (.error c)

/-- What a part returns that yields a value or is refused. -/
def checked {α : Type} (cpu : Cpu) : Except Cpu α → Option α × Cpu
  | .error c => (none, c)
  | .ok a => (some a, cpu)

variable {cpu : Cpu}

/-- Raising an exception when none is pending. -/
theorem raiseException_of_none {ctx : CpuContext} (h : ctx.hasException = false)
    (code errorCode : U32) :
    ctx.raiseException code errorCode = { ctx with exception := ⟨code, errorCode⟩ } := by
  unfold CpuContext.raiseException
  rw [h]
  rfl

/-- A pending exception stays. -/
theorem raiseException_of_pending {ctx : CpuContext} (h : ctx.hasException = true)
    (code errorCode : U32) : ctx.raiseException code errorCode = ctx := by
  unfold CpuContext.raiseException
  rw [if_pos h]

theorem raised_of_pending (hexc : cpu.context.hasException = true) (fault : RaisedFault)
    (errorCode : U32) : cpu.raised fault errorCode = cpu := by
  unfold Cpu.raised
  rw [raiseException_of_pending hexc]

theorem RaisedFault.code_ne (fault : RaisedFault) : fault.code ≠ cpuExceptionNone := by
  cases fault <;> decide

theorem failed_raised (hexc : cpu.context.hasException = false) (fault : RaisedFault)
    (errorCode : U32) : cpu.Failed (cpu.raised fault errorCode) where
  pending := by
    rw [Cpu.raised, raiseException_of_none hexc]
    exact bne_iff_ne.mpr fault.code_ne
  same := by
    refine ⟨⟨fault.code, errorCode⟩, cpu.context.controlRegs regCr2, cpu.asked, ?_⟩
    rw [Cpu.raised, raiseException_of_none hexc, Function.update_eq_self]

theorem raised_pending (hexc : cpu.context.hasException = false) (fault : RaisedFault)
    (errorCode : U32) : (cpu.raised fault errorCode).context.hasException = true :=
  (failed_raised hexc fault errorCode).pending

theorem run_raiseGp (errorCode : U32) :
    (raiseGp errorCode).run viewOp cpu = ((), cpu.raised .gp errorCode) := rfl

theorem failed_refused (hexc : cpu.context.hasException = false) {store : Bool} {a : U64}
    (h : cpu.dataPtr store a = none) : cpu.Failed (cpu.refused store a) where
  pending := refused_hasException hexc h
  same := by
    unfold Cpu.dataPtr grantedPtr at h
    unfold Cpu.refused accessOutcome
    simp only [hexc, Bool.false_eq_true, if_false]
    split_ifs at h ⊢ with hcanon
    · have hraise := raiseException_of_none hexc cpuExceptionGp 0
      refine ⟨⟨cpuExceptionGp, 0⟩, cpu.context.controlRegs regCr2, cpu.asked, ?_⟩
      rw [Function.update_eq_self]
      show ({ cpu with context := cpu.context.raiseException cpuExceptionGp 0 } : Cpu) = _
      rw [hraise]
    · cases hjudge : judgeAccess cpu.context.isUser
        (accessView cpu.memory a (dataAccess store).perm) with
      | ok ptr =>
        rw [hjudge] at h
        cases h
      | error violation =>
        have hraise : ∀ ctx : CpuContext, ctx.exception = cpu.context.exception →
            ∀ code errorCode, ctx.raiseException code errorCode =
              { ctx with exception := ⟨code, errorCode⟩ } := by
          intro ctx hctx
          apply raiseException_of_none
          rw [CpuContext.hasException, hctx]
          exact hexc
        simp only [cpuRaisePageFault]
        rw [hraise]
        · exact ⟨_, a, _, rfl⟩
        · rfl

/-! ## Memory -/

/-- The value of an operand, or the CPU behind its refused byte. -/
def Cpu.loadAt (cpu : Cpu) (size : ℕ) (address : U64) : Except Cpu U64 :=
  match cpu.operandPtrs false address size 0 with
  | .error a => .error (cpu.refused false a)
  | .ok ptrs => .ok (loadValue cpu.memory.host ptrs)

theorem clean_loadAt (hexc : cpu.context.hasException = false) (size : ℕ) (address : U64) :
    cpu.Clean (cpu.loadAt size address) := by
  unfold Cpu.loadAt
  cases hptrs : cpu.operandPtrs false address size 0 with
  | ok ptrs => exact .ok _
  | error a => exact .error (failed_refused hexc (operandPtrs_error size hptrs))

/-- A loaded value has the bits of its bytes only. -/
theorem loadAt_lt {size : ℕ} {address value : U64} (h : cpu.loadAt size address = .ok value) :
    value.toNat < 2 ^ (8 * size) := by
  unfold Cpu.loadAt at h
  cases hptrs : cpu.operandPtrs false address size 0 with
  | error a =>
    rw [hptrs] at h
    cases h
  | ok ptrs =>
    rw [hptrs] at h
    cases h
    rw [← operandPtrs_length size hptrs]
    exact loadValue_lt _ _

theorem run_readMemory_loadAt (hm : ManagerOk cpu.memory)
    (hexc : cpu.context.hasException = false) {size : ℕ} (hsize : 0 < size) (address : U64) :
    (readMemory size address).run viewOp cpu =
      match cpu.loadAt size address with
      | .error c => (0, c)
      | .ok value => (value, cpu) := by
  rw [run_readMemory hm hexc hsize, Cpu.loadAt]
  cases cpu.operandPtrs false address size 0 <;> rfl

/-- A load under a pending exception. -/
theorem run_readMemory_pending (hexc : cpu.context.hasException = true) (size : ℕ)
    (address : U64) : (readMemory size address).run viewOp cpu = (0, cpu) := by
  have hpending : (cpuHasException).run viewOp cpu = (cpu.context.hasException, cpu) := rfl
  unfold readMemory
  rw [Program.run_bind, hpending]
  simp only [hexc, if_true]
  rfl

/-! ## Descriptors -/

namespace Cpu

variable (cpu : Cpu)

/-- The two words of the entry of a selector. -/
def descriptorWords (selector : U16) : Except Cpu (U32 × U32) :=
  let useLdt := (selector >>> 2) &&& 1 == 1
  let tableBase := if useLdt then cpu.context.ldtrBase else cpu.context.gdtrBase
  let tableLimit := if useLdt then cpu.context.ldtrLimit else cpu.context.gdtrLimit
  let descOffset : U64 := (selector >>> 3).setWidth 64 * 8
  if tableLimit.setWidth 64 < descOffset + 7 then .error (cpu.raised .gp (selectorError selector))
  else do
    let low ← cpu.loadAt 4 (tableBase + descOffset)
    let high ← cpu.loadAt 4 (tableBase + descOffset + 4)
    return (low.setWidth 32, high.setWidth 32)

/-- The fault of a descriptor that is not one of a code segment. -/
def codeFault (checkModes : Bool) (desc : SegmentDescriptor) : Option RaisedFault :=
  if !isCodeSegment desc.type then some .gp
  else if checkModes && cpu.context.longModeActive && desc.longMode && desc.db then some .gp
  else none

/-- The fault of a code descriptor for the privilege of a far jump or call. -/
def farPrivilegeFault (selector : U16) (desc : SegmentDescriptor) : Option RaisedFault :=
  if !(if isConformingCodeSegment desc.type then decide (desc.dpl ≤ cpu.context.cpl)
    else desc.dpl == cpu.context.cpl && decide (selectorRpl selector ≤ cpu.context.cpl)) then
    some .gp
  else if !desc.present then some .np
  else none

/-- The fault of a code descriptor for the privilege of a far return. -/
def retPrivilegeFault (selector : U16) (desc : SegmentDescriptor) : Option RaisedFault :=
  if selectorRpl selector != cpu.context.cpl ||
    !(if isConformingCodeSegment desc.type then decide (desc.dpl ≤ cpu.context.cpl)
      else desc.dpl == cpu.context.cpl) then some .gp
  else if !desc.present then some .np
  else none

/-- A selector that is not null and whose descriptor has no fault. -/
def validSelector (selector : U16) (fault : SegmentDescriptor → Option RaisedFault) :
    Except Cpu SegmentDescriptor :=
  if isNullSelector selector then .error (cpu.raised .gp 0)
  else do
    let (low, high) ← cpu.descriptorWords selector
    match fault (decodeDescriptor low high) with
    | some f => .error (cpu.raised f (selectorError selector))
    | none => return decodeDescriptor low high

end Cpu

/-- Parts one after the other. -/
theorem Cpu.Clean.bind {α β : Type} {e : Except Cpu α} (h : cpu.Clean e)
    {f : α → Except Cpu β} (hf : ∀ a, e = .ok a → cpu.Clean (f a)) : cpu.Clean (e >>= f) := by
  cases h with
  | ok a => exact hf a rfl
  | error hc => exact .error hc

theorem clean_descriptorWords (hexc : cpu.context.hasException = false) (selector : U16) :
    cpu.Clean (cpu.descriptorWords selector) := by
  unfold Cpu.descriptorWords
  simp only
  generalize (if ((selector >>> 2) &&& 1 == 1) = true then _ else _ : U16) = limit
  by_cases hlimit : limit.setWidth 64 < BitVec.setWidth 64 (selector >>> 3) * 8 + 7
  · rw [if_pos hlimit]
    exact .error (failed_raised hexc _ _)
  · rw [if_neg hlimit]
    exact (clean_loadAt hexc _ _).bind fun _ _ => (clean_loadAt hexc _ _).bind fun _ _ => .ok _

theorem clean_validSelector (hexc : cpu.context.hasException = false) (selector : U16)
    (fault : SegmentDescriptor → Option RaisedFault) :
    cpu.Clean (cpu.validSelector selector fault) := by
  unfold Cpu.validSelector
  split_ifs
  · exact .error (failed_raised hexc _ _)
  · refine (clean_descriptorWords hexc selector).bind fun words _ => ?_
    simp only
    cases fault (decodeDescriptor words.1 words.2) with
    | none => exact .ok _
    | some f => exact .error (failed_raised hexc _ _)

/-- One checked part after the other; a refused part ends the program. -/
theorem run_checked_bind {α β : Type} {p : CpuProgram (Option α)}
    {k : Option α → CpuProgram (Option β)} {e : Except Cpu α} {f : α → Except Cpu β}
    (hp : p.run viewOp cpu = checked cpu e) (hnone : k none = pure none)
    (hsome : ∀ a, e = .ok a → (k (some a)).run viewOp cpu = checked cpu (f a)) :
    (p >>= k).run viewOp cpu = checked cpu (e >>= f) := by
  rw [Program.run_bind, hp]
  cases e with
  | error c =>
    show (k none).run viewOp c = _
    rw [hnone]
    rfl
  | ok a => exact hsome a rfl

/-- Reading the entry of a selector. -/
theorem run_loadDescriptor (hm : ManagerOk cpu.memory) (hexc : cpu.context.hasException = false)
    (selector : U16) :
    ((loadDescriptorFromTable selector).run viewOp cpu).2 =
        (match cpu.descriptorWords selector with
          | .error c => c
          | .ok _ => cpu) ∧
      ∀ words, cpu.descriptorWords selector = .ok words →
        ((loadDescriptorFromTable selector).run viewOp cpu).1 =
          decodeDescriptor words.1 words.2 := by
  have hcontext : (getContext).run viewOp cpu = (cpu.context, cpu) := rfl
  unfold loadDescriptorFromTable Cpu.descriptorWords
  rw [Program.run_bind, hcontext]
  simp only
  by_cases hlimit : (if ((selector >>> 2) &&& 1 == 1) = true then cpu.context.ldtrLimit
      else cpu.context.gdtrLimit).setWidth 64 < BitVec.setWidth 64 (selector >>> 3) * 8 + 7
  · simp only [hlimit, if_true]
    exact ⟨rfl, fun _ h => by cases h⟩
  · simp only [hlimit, if_false]
    generalize (if ((selector >>> 2) &&& 1 == 1) = true then cpu.context.ldtrBase
      else cpu.context.gdtrBase) + BitVec.setWidth 64 (selector >>> 3) * 8 = address
    have hlow := @run_readMemory_loadAt cpu hm hexc 4 (by decide) address
    have hhigh := @run_readMemory_loadAt cpu hm hexc 4 (by decide) (address + 4)
    unfold readMemoryDword
    rw [Program.run_bind, hlow]
    have hclean := clean_loadAt hexc 4 address
    cases hloadLow : cpu.loadAt 4 address with
    | error c =>
      rw [hloadLow] at hclean
      cases hclean with
      | error hfailed =>
        simp only
        rw [Program.run_bind, run_readMemory_pending hfailed.pending]
        exact ⟨rfl, fun _ h => by cases h⟩
    | ok low =>
      simp only
      rw [Program.run_bind, hhigh]
      cases cpu.loadAt 4 (address + 4) with
      | error c => exact ⟨rfl, fun _ h => by cases h⟩
      | ok high =>
        refine ⟨rfl, fun words h => ?_⟩
        obtain rfl := Except.ok.inj h
        rfl

/-- Checks of one descriptor after the other. -/
theorem validSelector_bind (selector : U16) (fault more : SegmentDescriptor → Option RaisedFault) :
    (cpu.validSelector selector fault >>= fun desc =>
      match more desc with
      | some f => .error (cpu.raised f (selectorError selector))
      | none => .ok desc) =
      cpu.validSelector selector fun desc => (fault desc).or (more desc) := by
  unfold Cpu.validSelector
  split_ifs
  · rfl
  · cases cpu.descriptorWords selector with
    | error c => rfl
    | ok words =>
      show (match fault (decodeDescriptor words.1 words.2) with
        | some f => Except.error _
        | none => Except.ok _ : Except Cpu SegmentDescriptor) >>= _ = _
      cases hfault : fault (decodeDescriptor words.1 words.2) with
      | some f =>
        show _ = (match (fault (decodeDescriptor words.1 words.2)).or _ with
          | some f => Except.error _
          | none => Except.ok _ : Except Cpu SegmentDescriptor)
        rw [hfault]
        rfl
      | none =>
        show _ = (match (fault (decodeDescriptor words.1 words.2)).or _ with
          | some f => Except.error _
          | none => Except.ok _ : Except Cpu SegmentDescriptor)
        rw [hfault]
        rfl

/-- Loading the descriptor of a code segment. -/
theorem run_loadCodeDescriptor (hm : ManagerOk cpu.memory)
    (hexc : cpu.context.hasException = false) (selector : U16) (checkModes : Bool) :
    (loadCodeDescriptor selector checkModes).run viewOp cpu =
      checked cpu (cpu.validSelector selector (cpu.codeFault checkModes)) := by
  have hcontext : ∀ c : Cpu, (getContext).run viewOp c = (c.context, c) := fun _ => rfl
  unfold loadCodeDescriptor Cpu.validSelector
  by_cases hnull : isNullSelector selector = true
  · simp only [hnull, if_true]
    rfl
  · simp only [hnull, Bool.false_eq_true, if_false]
    obtain ⟨hstate, hvalue⟩ := run_loadDescriptor hm hexc selector
    have hclean := clean_descriptorWords hexc selector
    rw [Program.run_bind]
    generalize (loadDescriptorFromTable selector).run viewOp cpu = r at hstate hvalue
    obtain ⟨desc, c⟩ := r
    simp only at hstate hvalue
    subst hstate
    rw [Program.run_bind, hcontext]
    cases hwords : cpu.descriptorWords selector with
    | error c =>
      rw [hwords] at hclean
      cases hclean with
      | error hfailed =>
        simp only [hfailed.pending, if_true]
        rfl
    | ok words =>
      obtain rfl := hvalue words hwords
      simp only [hexc, Bool.false_eq_true, if_false]
      show _ = checked cpu (match cpu.codeFault checkModes (decodeDescriptor words.1 words.2) with
        | some f => Except.error _
        | none => Except.ok _)
      unfold Cpu.codeFault
      by_cases hcode : (!isCodeSegment (decodeDescriptor words.1 words.2).type) = true
      · simp only [hcode, if_true]
        rfl
      · simp only [hcode, Bool.false_eq_true, if_false]
        by_cases hmodes : (checkModes && cpu.context.longModeActive &&
            (decodeDescriptor words.1 words.2).longMode &&
            (decodeDescriptor words.1 words.2).db) = true
        · simp only [hmodes, if_true]
          rfl
        · simp only [hmodes, Bool.false_eq_true, if_false]
          rfl

/-- The checks of a far jump or call. -/
theorem run_validateFarSelector (hm : ManagerOk cpu.memory)
    (hexc : cpu.context.hasException = false) (selector : U16) (checkModes : Bool) :
    (validateFarSelector selector checkModes).run viewOp cpu =
      checked cpu (cpu.validSelector selector fun desc =>
        (cpu.codeFault checkModes desc).or (cpu.farPrivilegeFault selector desc)) := by
  rw [← validSelector_bind]
  unfold validateFarSelector
  refine run_checked_bind (run_loadCodeDescriptor hm hexc selector checkModes) rfl fun desc _ => ?_
  unfold Cpu.farPrivilegeFault
  rw [Program.run_bind, show (getContext).run viewOp cpu = (cpu.context, cpu) from rfl]
  simp only
  split_ifs <;> rfl

/-- The checks of a far return. -/
theorem run_validateRetFarSelector (hm : ManagerOk cpu.memory)
    (hexc : cpu.context.hasException = false) (selector : U16) :
    (validateRetFarSelector selector).run viewOp cpu =
      checked cpu (cpu.validSelector selector fun desc =>
        (cpu.codeFault true desc).or (cpu.retPrivilegeFault selector desc)) := by
  rw [← validSelector_bind]
  unfold validateRetFarSelector
  refine run_checked_bind (run_loadCodeDescriptor hm hexc selector true) rfl fun desc _ => ?_
  unfold Cpu.retPrivilegeFault
  rw [Program.run_bind, show (getContext).run viewOp cpu = (cpu.context, cpu) from rfl]
  simp only
  split_ifs <;> rfl

/-! ## The stack and the new instruction pointer -/

namespace Cpu

variable (cpu : Cpu)

/-- The check of `cpu_validate_code_offset`. -/
def validOffset (value : U64) (operandSize : ℕ) : Except Cpu Unit :=
  if cpu.context.is64BitCode && !cpuIsCanonicalAddress (cpuMaskCodeOffset value operandSize) then
    .error (cpu.raised .gp 0)
  else .ok ()

/-- The pointers to a slot of the stack. -/
def slotPtrs (address : U64) (size : ℕ) : Except Cpu (List HostPtr) :=
  match cpu.operandPtrs true address size 0 with
  | .error a => .error (cpu.refused true a)
  | .ok ptrs => .ok ptrs

/-- The sizes of values that the stack takes. -/
def validStackSize (size : ℕ) : Except Cpu Unit :=
  if size ≠ 2 ∧ size ≠ 4 ∧ size ≠ 8 then .error (cpu.raised .gp 0)
  else if cpu.context.stackAddressSize = 16 ∧ size = 8 then .error (cpu.raised .gp 0)
  else .ok ()

/-- The address below another one on the stack. -/
def belowStack (size : ℕ) (address : U64) : U64 :=
  truncateTo cpu.context.stackAddressSize (address - BitVec.ofNat 64 size)

/-- The CPU behind two pushes. -/
def pushedTwo (first second : U64) (size : ℕ) : Except Cpu Cpu := do
  cpu.validStackSize size
  let firstAddress := cpu.belowStack size (cpu.context.regs regRsp)
  let secondAddress := cpu.belowStack size firstAddress
  let firstPtrs ← cpu.slotPtrs firstAddress size
  let secondPtrs ← cpu.slotPtrs secondAddress size
  return { cpu with
    context := cpuSetStackPointerValue cpu.context cpu.context.stackAddressSize secondAddress
    memory := cpu.memory.setHost
      (storeBytes (storeBytes cpu.memory.host firstPtrs first) secondPtrs second) }

/-- The values of the stack from an index on. -/
def peekValues (baseSp : U64) (size : ℕ) : ℕ → ℕ → Except Cpu (List U64)
  | 0, _ => .ok []
  | left + 1, index => do
    let value ← cpu.loadAt size (truncateTo cpu.context.stackAddressSize
      (baseSp + BitVec.ofNat 64 (index * size)))
    let rest ← peekValues baseSp size left (index + 1)
    return value :: rest

/-- The values on the stack and the stack pointer behind them. -/
def peeked (size count : ℕ) : Except Cpu (List U64 × U64) := do
  cpu.validStackSize size
  let baseSp := truncateTo cpu.context.stackAddressSize (cpu.context.regs regRsp)
  let values ← cpu.peekValues baseSp size count 0
  return (values,
    truncateTo cpu.context.stackAddressSize (baseSp + BitVec.ofNat 64 (count * size)))

end Cpu

theorem run_validateCodeOffset (value : U64) (operandSize : ℕ) :
    (cpuValidateCodeOffset value operandSize).run viewOp cpu =
      match cpu.validOffset value operandSize with
      | .error c => (false, c)
      | .ok _ => (true, cpu) := by
  unfold cpuValidateCodeOffset Cpu.validOffset
  rw [Program.run_bind, show (getContext).run viewOp cpu = (cpu.context, cpu) from rfl]
  simp only
  split_ifs <;> rfl

theorem clean_validOffset (hexc : cpu.context.hasException = false) (value : U64)
    (operandSize : ℕ) : cpu.Clean (cpu.validOffset value operandSize) := by
  unfold Cpu.validOffset
  split_ifs
  · exact .error (failed_raised hexc _ _)
  · exact .ok ()

theorem clean_slotPtrs (hexc : cpu.context.hasException = false) (address : U64) (size : ℕ) :
    cpu.Clean (cpu.slotPtrs address size) := by
  unfold Cpu.slotPtrs
  cases hptrs : cpu.operandPtrs true address size 0 with
  | ok ptrs => exact .ok _
  | error a => exact .error (failed_refused hexc (operandPtrs_error size hptrs))

theorem clean_validStackSize (hexc : cpu.context.hasException = false) (size : ℕ) :
    cpu.Clean (cpu.validStackSize size) := by
  unfold Cpu.validStackSize
  split_ifs
  · exact .error (failed_raised hexc _ _)
  · exact .error (failed_raised hexc _ _)
  · exact .ok ()

theorem clean_pushedTwo (hexc : cpu.context.hasException = false) (first second : U64)
    (size : ℕ) : cpu.Clean (cpu.pushedTwo first second size) :=
  (clean_validStackSize hexc size).bind fun _ _ => (clean_slotPtrs hexc _ _).bind fun _ _ =>
    (clean_slotPtrs hexc _ _).bind fun _ _ => .ok _

theorem clean_peekValues (hexc : cpu.context.hasException = false) (baseSp : U64) (size : ℕ)
    (left : ℕ) : ∀ index, cpu.Clean (cpu.peekValues baseSp size left index) := by
  induction left with
  | zero => exact fun _ => .ok []
  | succ left ih =>
    exact fun index => (clean_loadAt hexc _ _).bind fun _ _ =>
      (ih (index + 1)).bind fun _ _ => .ok _

theorem clean_peeked (hexc : cpu.context.hasException = false) (size count : ℕ) :
    cpu.Clean (cpu.peeked size count) :=
  (clean_validStackSize hexc size).bind fun _ _ =>
    (clean_peekValues hexc _ _ _ _).bind fun _ _ => .ok _

/-- What two pushes that complete leave behind. -/
theorem pushedTwo_ok {first second : U64} {size : ℕ} {c : Cpu}
    (h : cpu.pushedTwo first second size = .ok c) :
    ∃ firstPtrs secondPtrs,
      let firstAddress := cpu.belowStack size (cpu.context.regs regRsp)
      let secondAddress := cpu.belowStack size firstAddress
      cpu.operandPtrs true firstAddress size 0 = .ok firstPtrs ∧
      cpu.operandPtrs true secondAddress size 0 = .ok secondPtrs ∧
      c = { cpu with
        context := cpuSetStackPointerValue cpu.context cpu.context.stackAddressSize secondAddress
        memory := cpu.memory.setHost
          (storeBytes (storeBytes cpu.memory.host firstPtrs first) secondPtrs second) } := by
  unfold Cpu.pushedTwo Cpu.slotPtrs at h
  cases hsize : cpu.validStackSize size with
  | error d =>
    rw [hsize] at h
    cases h
  | ok u =>
    rw [hsize] at h
    cases hfirst : cpu.operandPtrs true (cpu.belowStack size (cpu.context.regs regRsp)) size 0 with
    | error a =>
      simp only [hfirst] at h
      cases h
    | ok firstPtrs =>
      cases hsecond : cpu.operandPtrs true
          (cpu.belowStack size (cpu.belowStack size (cpu.context.regs regRsp))) size 0 with
      | error a =>
        simp only [hfirst, hsecond] at h
        cases h
      | ok secondPtrs =>
        simp only [hfirst, hsecond] at h
        exact ⟨firstPtrs, secondPtrs, hfirst, hsecond, (Except.ok.inj h).symm⟩

theorem run_pushTwo (hexc : cpu.context.hasException = false) (first second : U64) (size : ℕ) :
    (pushTwoStackValues first second size).run viewOp cpu =
      match cpu.pushedTwo first second size with
      | .error c => ((), c)
      | .ok c => ((), c) := by
  unfold pushTwoStackValues Cpu.pushedTwo Cpu.validStackSize
  rw [Program.run_bind, show (getContext).run viewOp cpu = (cpu.context, cpu) from rfl]
  simp only [hexc, Bool.false_eq_true, if_false]
  by_cases hsize : size ≠ 2 ∧ size ≠ 4 ∧ size ≠ 8
  · rw [if_pos hsize, if_pos hsize]
    rfl
  rw [if_neg hsize, if_neg hsize]
  by_cases hnarrow : cpu.context.stackAddressSize = 16 ∧ size = 8
  · rw [if_pos hnarrow, if_pos hnarrow]
    rfl
  rw [if_neg hnarrow, if_neg hnarrow, Program.run_bind, run_resolveSlot hexc]
  show _ = (match (cpu.slotPtrs _ size >>= _) with
    | .error c => ((), c)
    | .ok c => ((), c) : Unit × Cpu)
  unfold Cpu.slotPtrs Cpu.belowStack
  cases cpu.operandPtrs true (truncateTo cpu.context.stackAddressSize
      (cpu.context.regs regRsp - BitVec.ofNat 64 size)) size 0 with
  | error a => rfl
  | ok firstPtrs =>
    simp only
    rw [Program.run_bind, run_resolveSlot hexc]
    show _ = (match ((match cpu.operandPtrs true _ size 0 with
      | .error a => .error (cpu.refused true a)
      | .ok ptrs => .ok ptrs : Except Cpu (List HostPtr)) >>= _) with
      | .error c => ((), c)
      | .ok c => ((), c) : Unit × Cpu)
    cases cpu.operandPtrs true (truncateTo cpu.context.stackAddressSize
      (truncateTo cpu.context.stackAddressSize (cpu.context.regs regRsp - BitVec.ofNat 64 size) -
        BitVec.ofNat 64 size)) size 0 with
    | error a => rfl
    | ok secondPtrs =>
      have hnotify : ∀ address value (c : Cpu),
          (perform (.notify .memWrite address size value)).run viewOp c = ((), c) :=
        fun _ _ _ => rfl
      simp only [cpuCommitStackSlotWrite, Program.run_bind, hnotify, run_storeValue]
      rfl

theorem run_peekLoop (hm : ManagerOk cpu.memory) (hexc : cpu.context.hasException = false)
    (baseSp : U64) {size : ℕ} (hsize : 0 < size) (left : ℕ) : ∀ index,
    (peekLoop cpu.context.stackAddressSize baseSp size left index).run viewOp cpu =
      checked cpu (cpu.peekValues baseSp size left index) := by
  have hpending : ∀ c : Cpu, (cpuHasException).run viewOp c = (c.context.hasException, c) :=
    fun _ => rfl
  induction left with
  | zero => exact fun _ => rfl
  | succ left ih =>
    intro index
    unfold peekLoop Cpu.peekValues
    have hclean := clean_loadAt hexc size (truncateTo cpu.context.stackAddressSize
      (baseSp + BitVec.ofNat 64 (index * size)))
    rw [Program.run_bind, run_readMemory_loadAt hm hexc hsize]
    generalize cpu.loadAt size _ = e at hclean ⊢
    cases hclean with
    | error hfailed =>
      simp only
      rw [Program.run_bind, hpending]
      simp only [hfailed.pending, if_true]
      rfl
    | ok value =>
      simp only
      rw [Program.run_bind, hpending]
      simp only [hexc, Bool.false_eq_true, if_false]
      exact run_checked_bind (ih (index + 1)) rfl fun _ _ => rfl

theorem run_peekStackValues (hm : ManagerOk cpu.memory) (hexc : cpu.context.hasException = false)
    (size count : ℕ) :
    (peekStackValues size count).run viewOp cpu = checked cpu (cpu.peeked size count) := by
  unfold peekStackValues Cpu.peeked Cpu.validStackSize
  rw [Program.run_bind, show (getContext).run viewOp cpu = (cpu.context, cpu) from rfl]
  simp only [hexc, Bool.false_eq_true, if_false]
  by_cases hsize : size ≠ 2 ∧ size ≠ 4 ∧ size ≠ 8
  · rw [if_pos hsize, if_pos hsize]
    rfl
  rw [if_neg hsize, if_neg hsize]
  by_cases hnarrow : cpu.context.stackAddressSize = 16 ∧ size = 8
  · rw [if_pos hnarrow, if_pos hnarrow]
    rfl
  rw [if_neg hnarrow, if_neg hnarrow]
  exact run_checked_bind (run_peekLoop hm hexc _ (by omega) count 0) rfl fun _ _ => rfl

/-! ## The five functions -/

namespace Cpu

variable (cpu : Cpu)

/-- The checks of a far jump or call. -/
def farChecks (selector : U16) (checkModes : Bool) (desc : SegmentDescriptor) :
    Option RaisedFault :=
  (cpu.codeFault checkModes desc).or (cpu.farPrivilegeFault selector desc)

/-- The checks of a far return. -/
def retChecks (selector : U16) (desc : SegmentDescriptor) : Option RaisedFault :=
  (cpu.codeFault true desc).or (cpu.retPrivilegeFault selector desc)

/-- The CPU behind the load of a code segment and an instruction pointer. -/
def enter (selector : U16) (desc : SegmentDescriptor) (rip : U64) : Cpu :=
  { cpu with context := { cpu.context with
      cs := { selector := (selector &&& 0xFFFC) ||| cpu.context.cpl.setWidth 16,
              descriptor := desc }
      cachedModeKeyValid := false
      rip := rip } }

/-- The descriptor and the instruction pointer of `jmp_far`. -/
def jmpTarget (selector : U16) (offset : U64) (operandSize : ℕ) :
    Except Cpu (SegmentDescriptor × U64) := do
  let desc ← cpu.validSelector selector (cpu.farChecks selector true)
  cpu.validOffset (cpuMaskCodeOffset offset operandSize) (if desc.longMode then 64 else operandSize)
  return (desc, cpuMaskCodeOffset offset operandSize)

/-- The outcome of `jmp_far`. -/
def jmpFarOutcome (selector : U16) (offset : U64) (operandSize : ℕ) : Except Cpu Cpu := do
  let (desc, target) ← cpu.jmpTarget selector offset operandSize
  return cpu.enter selector desc target

/-- The CPU behind the pushes of a far call. -/
def pushedReturn (size : ℕ) (returnRip : U64) : Except Cpu Cpu :=
  cpu.pushedTwo (cpu.context.cs.selector.setWidth 64) (truncateTo (size * 8) returnRip) size

/-- The number of bytes of an item that `call_far_mem` pushes. -/
def callItemSize (operandSize : ℕ) : ℕ :=
  if cpu.context.is64BitCode then 8 else if operandSize = 32 then 4 else 2

/-- The instruction pointer that `call_far_mem` goes to. -/
def callTarget (desc : SegmentDescriptor) (offset : U64) (operandSize : ℕ) : U64 :=
  if desc.longMode then offset
  else if operandSize = 16 then offset &&& 0xFFFF else offset &&& 0xFFFFFFFF

/-- The offset and the selector that `call_far_mem` reads. -/
def farPointer (memAddr : U64) (operandSize : ℕ) : Except Cpu (U64 × U16) := do
  let offset ← cpu.loadAt (operandBytes operandSize) memAddr
  let selector ← cpu.loadAt 2 (memAddr + BitVec.ofNat 64 (operandBytes operandSize))
  return (offset, selector.setWidth 16)

/-- The part of a far call behind its checks: it pushes the return address. -/
def calledFrom (itemSize : ℕ) (returnRip : U64) (selector : U16) (desc : SegmentDescriptor)
    (target : U64) : Except Cpu Cpu := do
  let after ← cpu.pushedReturn itemSize returnRip
  return after.enter selector desc target

/-- The descriptor and the instruction pointer of `call_far_mem` for a far pointer. -/
def callMemTarget (offset : U64) (selector : U16) (operandSize : ℕ) :
    Except Cpu (SegmentDescriptor × U64) := do
  let desc ← cpu.validSelector selector (cpu.farChecks selector true)
  cpu.validOffset (callTarget desc offset operandSize) (if desc.longMode then 64 else operandSize)
  return (desc, callTarget desc offset operandSize)

/-- The outcome of `call_far_mem`. -/
def callFarMemOutcome (memAddr : U64) (operandSize : ℕ) (returnRip : U64) : Except Cpu Cpu := do
  let (offset, selector) ← cpu.farPointer memAddr operandSize
  let (desc, target) ← cpu.callMemTarget offset selector operandSize
  cpu.calledFrom (cpu.callItemSize operandSize) returnRip selector desc target

/-- The instruction pointer that `call_far_ptr` goes to. -/
def ptrTarget (offset : U32) (operandSize : ℕ) : U64 :=
  if operandSize = 16 then offset.setWidth 64 &&& 0xFFFF else offset.setWidth 64

/-- The descriptor and the instruction pointer of `call_far_ptr`. -/
def callPtrTarget (selector : U16) (offset : U32) (operandSize : ℕ) :
    Except Cpu (SegmentDescriptor × U64) := do
  let desc ← cpu.validSelector selector (cpu.farChecks selector false)
  cpu.validOffset (ptrTarget offset operandSize) operandSize
  return (desc, ptrTarget offset operandSize)

/-- The outcome of `call_far_ptr`. -/
def callFarPtrOutcome (selector : U16) (offset : U32) (operandSize : ℕ) (returnRip : U64) :
    Except Cpu Cpu := do
  let (desc, target) ← cpu.callPtrTarget selector offset operandSize
  cpu.calledFrom (if operandSize = 32 then 4 else 2) returnRip selector desc target

/-- The frame of a far return. -/
def frame (operandSize count : ℕ) : Except Cpu ReturnFrame := do
  let (values, stackAfterPops) ← cpu.peeked (operandBytes operandSize) count
  let selector : U16 := (values.getD 1 0).setWidth 16
  let desc ← cpu.validSelector selector (cpu.retChecks selector)
  cpu.validOffset (values.getD 0 0) (if desc.longMode then 64 else operandSize)
  return { values := values, stackAfterPops := stackAfterPops, selector := selector,
           descriptor := desc }

/-- The CPU with another stack pointer. -/
def setStack (stackAddrSize : ℕ) (value : U64) : Cpu :=
  { cpu with context := cpuSetStackPointerValue cpu.context stackAddrSize value }

/-- The outcome of a far return. -/
def retOutcome (operandSize addressSize : ℕ) (immediate : U16) : Except Cpu Cpu := do
  let frame ← cpu.frame operandSize 2
  let popped := cpu.setStack addressSize frame.stackAfterPops
  let adjusted := popped.setStack popped.context.stackAddressSize
    (popped.context.regs regRsp + immediate.setWidth 64)
  return adjusted.enter frame.selector frame.descriptor
    (cpuMaskCodeOffset (frame.values.getD 0 0) operandSize)

/-- The CPU with other flags. -/
def setFlags (rflags : U64) : Cpu :=
  { cpu with context := { cpu.context with rflags := rflags } }

/-- The CPU with another stack pointer and stack selector. -/
def setStackFrame (rsp : U64) (ss : U16) : Cpu :=
  { cpu with context := { cpu.context with
      regs := Function.update cpu.context.regs regRsp rsp
      ss := { cpu.context.ss with selector := ss } } }

/-- The size that an interrupt return takes the target for. -/
def iretTargetSize (desc : SegmentDescriptor) (operandSize : ℕ) : ℕ :=
  if desc.longMode then 64 else operandSize

/-- The outcome of an interrupt return. -/
def iretOutcome (operandSize addressSize : ℕ) : Except Cpu Cpu := do
  let frame ← cpu.frame operandSize (if operandSize = 64 then 5 else 3)
  let target := iretTargetSize frame.descriptor operandSize
  let entered := (cpu.enter frame.selector frame.descriptor
    (cpuMaskCodeOffset (frame.values.getD 0 0) target)).setFlags (frame.values.getD 2 0)
  if target = 64 then
    return entered.setStackFrame (frame.values.getD 3 0) ((frame.values.getD 4 0).setWidth 16)
  else return entered.setStack addressSize frame.stackAfterPops

end Cpu

/-- What a far transfer returns that completes or is refused. -/
def transferred : Except Cpu Cpu → Unit × Cpu
  | .error c => ((), c)
  | .ok c => ((), c)

section Transfers

variable (hm : ManagerOk cpu.memory) (hexc : cpu.context.hasException = false)

include hm hexc

theorem run_jmpFarTarget (selector : U16) (offset : U64) (operandSize : ℕ) :
    (jmpFarTarget selector offset operandSize).run viewOp cpu =
      checked cpu (cpu.jmpTarget selector offset operandSize) := by
  unfold jmpFarTarget
  refine run_checked_bind (run_validateFarSelector hm hexc selector true) rfl fun desc _ => ?_
  simp only
  rw [Program.run_bind, run_validateCodeOffset]
  cases cpu.validOffset (cpuMaskCodeOffset offset operandSize)
    (if desc.longMode then 64 else operandSize) <;> rfl

/-- **`jmp_far`**. -/
theorem run_jmpFar (selector : U16) (offset : U64) (operandSize : ℕ) :
    (jmpFar selector offset operandSize).run viewFarOp cpu =
      transferred (cpu.jmpFarOutcome selector offset operandSize) := by
  unfold jmpFar Cpu.jmpFarOutcome
  rw [Program.run_bind, run_ordinary_view, run_jmpFarTarget hm hexc]
  cases cpu.jmpTarget selector offset operandSize <;> rfl

/-- The frame of a far return. -/
theorem run_returnFrame (operandSize count : ℕ) :
    (returnFrame operandSize count).run viewOp cpu =
      checked cpu (cpu.frame operandSize count) := by
  unfold returnFrame
  refine run_checked_bind (run_peekStackValues hm hexc _ _) rfl fun popped _ => ?_
  refine run_checked_bind (run_validateRetFarSelector hm hexc _) rfl fun desc _ => ?_
  rw [Program.run_bind, run_validateCodeOffset]
  cases cpu.validOffset (popped.1.getD 0 0) (if desc.longMode then 64 else operandSize) <;> rfl

/-- **`execute_ret`**. -/
theorem run_executeRet (operandSize addressSize : ℕ) (immediate : U16) :
    (executeRet operandSize addressSize immediate).run viewFarOp cpu =
      transferred (cpu.retOutcome operandSize addressSize immediate) := by
  unfold executeRet Cpu.retOutcome
  rw [Program.run_bind, run_ordinary_view, run_returnFrame hm hexc]
  cases cpu.frame operandSize 2 <;> rfl

/-- **`execute_iret`**. -/
theorem run_executeIret (operandSize addressSize : ℕ) :
    (executeIret operandSize addressSize).run viewFarOp cpu =
      transferred (cpu.iretOutcome operandSize addressSize) := by
  unfold executeIret Cpu.iretOutcome
  rw [Program.run_bind, run_ordinary_view, run_returnFrame hm hexc]
  cases cpu.frame operandSize (if operandSize = 64 then 5 else 3) with
  | error c => rfl
  | ok frame =>
    show (Program.run viewFarOp _ cpu) = transferred (if _ then _ else _)
    unfold checked
    by_cases htarget : (if frame.descriptor.longMode then 64 else operandSize) = 64
    · simp only [Cpu.iretTargetSize, htarget, if_true]
      rfl
    · simp only [Cpu.iretTargetSize, htarget, if_false]
      rfl

/-- The pointer of `call_far_mem`. -/
theorem run_farPointer (memAddr : U64) (operandSize : ℕ) {α : Type}
    (k : U64 → U64 → CpuProgram (Option α)) :
    (do
      let offset ← readMemory (operandBytes operandSize) memAddr
      let selector ← readMemoryWord (memAddr + BitVec.ofNat 64 (operandBytes operandSize))
      if ← cpuHasException then return none
      k offset selector : CpuProgram (Option α)).run viewOp cpu =
      match cpu.loadAt (operandBytes operandSize) memAddr with
      | .error c => (none, c)
      | .ok offset =>
        match cpu.loadAt 2 (memAddr + BitVec.ofNat 64 (operandBytes operandSize)) with
        | .error c => (none, c)
        | .ok selector => (k offset selector).run viewOp cpu := by
  have hpending : ∀ c : Cpu, (cpuHasException).run viewOp c = (c.context.hasException, c) :=
    fun _ => rfl
  have hpos : 0 < operandBytes operandSize := by
    unfold operandBytes
    split_ifs <;> decide
  have hclean := clean_loadAt hexc (operandBytes operandSize) memAddr
  have hclean' := clean_loadAt hexc 2 (memAddr + BitVec.ofNat 64 (operandBytes operandSize))
  rw [Program.run_bind, run_readMemory_loadAt hm hexc hpos]
  generalize cpu.loadAt (operandBytes operandSize) memAddr = e at hclean ⊢
  cases hclean with
  | error hfailed =>
    simp only [readMemoryWord, Program.run_bind, run_readMemory_pending hfailed.pending, hpending,
      hfailed.pending, if_true]
    rfl
  | ok offset =>
    simp only [readMemoryWord]
    rw [Program.run_bind, run_readMemory_loadAt hm hexc (by decide)]
    generalize cpu.loadAt 2 (memAddr + BitVec.ofNat 64 (operandBytes operandSize)) = e at hclean' ⊢
    cases hclean' with
    | error hfailed =>
      simp only [Program.run_bind, hpending, hfailed.pending, if_true]
      rfl
    | ok selector =>
      simp only [Program.run_bind, hpending, hexc, Bool.false_eq_true, if_false]

omit hm in
/-- The pushes of a far call, and what follows them. -/
theorem run_pushReturn {α : Type} (size : ℕ) (returnRip : U64) (x : α) :
    (do
      pushReturn size returnRip
      if ← cpuHasException then return none
      return some x : CpuProgram (Option α)).run viewOp cpu =
      match cpu.pushedReturn size returnRip with
      | .error c => (none, c)
      | .ok c => (some x, c) := by
  have hpending : ∀ c : Cpu, (cpuHasException).run viewOp c = (c.context.hasException, c) :=
    fun _ => rfl
  have hclean := clean_pushedTwo hexc (cpu.context.cs.selector.setWidth 64)
    (truncateTo (size * 8) returnRip) size
  have hpush : (pushReturn size returnRip).run viewOp cpu =
      match cpu.pushedReturn size returnRip with
      | .error c => ((), c)
      | .ok c => ((), c) := by
    unfold pushReturn
    rw [Program.run_bind, show (getContext).run viewOp cpu = (cpu.context, cpu) from rfl]
    exact run_pushTwo hexc _ _ size
  rw [Program.run_bind, hpush]
  unfold Cpu.pushedReturn
  cases hpushed : cpu.pushedTwo (cpu.context.cs.selector.setWidth 64)
      (truncateTo (size * 8) returnRip) size with
  | error c =>
    rw [hpushed] at hclean
    cases hclean with
    | error hfailed =>
      simp only [Program.run_bind, hpending, hfailed.pending, if_true]
      rfl
  | ok c =>
    obtain ⟨_, _, -, -, rfl⟩ := pushedTwo_ok hpushed
    have hnone : (cpuSetStackPointerValue cpu.context cpu.context.stackAddressSize
        (cpu.belowStack size (cpu.belowStack size (cpu.context.regs regRsp)))).hasException =
        false := hexc
    simp only [Program.run_bind, hpending, hnone, Bool.false_eq_true, if_false]
    rfl

/-- **`call_far_mem`**. -/
theorem run_callFarMem (memAddr : U64) (operandSize : ℕ) (returnRip : U64) :
    (callFarMem memAddr operandSize returnRip).run viewFarOp cpu =
      transferred (cpu.callFarMemOutcome memAddr operandSize returnRip) := by
  have htarget : (callFarMemTarget memAddr operandSize returnRip).run viewOp cpu =
      match cpu.farPointer memAddr operandSize with
      | .error c => (none, c)
      | .ok (offset, selector) =>
        match cpu.callMemTarget offset selector operandSize with
        | .error c => (none, c)
        | .ok (desc, target) =>
          match cpu.pushedReturn (cpu.callItemSize operandSize) returnRip with
          | .error c => (none, c)
          | .ok c => (some (selector, desc, target), c) := by
    refine (run_farPointer hm hexc memAddr operandSize _).trans ?_
    unfold Cpu.farPointer
    cases cpu.loadAt (operandBytes operandSize) memAddr with
    | error c => rfl
    | ok offset =>
      cases cpu.loadAt 2 (memAddr + BitVec.ofNat 64 (operandBytes operandSize)) with
      | error c => rfl
      | ok selector =>
        show Program.run viewOp _ cpu = (match cpu.callMemTarget offset _ operandSize with
          | .error c => (none, c)
          | .ok (desc, target) => _)
        unfold Cpu.callMemTarget
        simp only
        rw [Program.run_bind, run_validateFarSelector hm hexc]
        show Program.run viewOp _ _ = _
        unfold checked Cpu.farChecks
        cases cpu.validSelector (selector.setWidth 16) fun desc =>
            (cpu.codeFault true desc).or (cpu.farPrivilegeFault (selector.setWidth 16) desc) with
        | error c => rfl
        | ok desc =>
          simp only
          rw [Program.run_bind, run_validateCodeOffset]
          rw [show (if desc.longMode = true then offset
            else if operandSize = 16 then offset &&& 0xFFFF else offset &&& 0xFFFFFFFF) =
              Cpu.callTarget desc offset operandSize from rfl]
          show _ = (match (cpu.validOffset (Cpu.callTarget desc offset operandSize)
            (if desc.longMode then 64 else operandSize) >>=
              fun _ => Except.ok (desc, Cpu.callTarget desc offset operandSize)) with
            | .error c => (none, c)
            | .ok (desc, target) => _)
          cases cpu.validOffset (Cpu.callTarget desc offset operandSize)
            (if desc.longMode then 64 else operandSize) with
          | error c => rfl
          | ok u =>
            simp only [if_true]
            rw [Program.run_bind, show (getContext).run viewOp cpu = (cpu.context, cpu) from rfl]
            exact run_pushReturn hexc _ returnRip _
  unfold callFarMem Cpu.callFarMemOutcome
  rw [Program.run_bind, run_ordinary_view, htarget]
  cases cpu.farPointer memAddr operandSize with
  | error c => rfl
  | ok pointer =>
    obtain ⟨offset, selector⟩ := pointer
    cases hfound : cpu.callMemTarget offset selector operandSize with
    | error c =>
      simp only [hfound]
      show _ = transferred (cpu.callMemTarget offset selector operandSize >>= _)
      rw [hfound]
      rfl
    | ok found =>
      obtain ⟨desc, target⟩ := found
      simp only [hfound]
      show _ = transferred (cpu.callMemTarget offset selector operandSize >>= _)
      rw [hfound]
      show _ = transferred (cpu.pushedReturn (cpu.callItemSize operandSize) returnRip >>= _)
      cases cpu.pushedReturn (cpu.callItemSize operandSize) returnRip <;> rfl

/-- **`call_far_ptr`**. -/
theorem run_callFarPtr (selector : U16) (offset : U32) (operandSize : ℕ) (returnRip : U64) :
    (callFarPtr selector offset operandSize returnRip).run viewFarOp cpu =
      transferred (cpu.callFarPtrOutcome selector offset operandSize returnRip) := by
  have htarget : (callFarPtrTarget selector offset operandSize returnRip).run viewOp cpu =
      match cpu.callPtrTarget selector offset operandSize with
      | .error c => (none, c)
      | .ok (desc, target) =>
        match cpu.pushedReturn (if operandSize = 32 then 4 else 2) returnRip with
        | .error c => (none, c)
        | .ok c => (some (desc, target), c) := by
    unfold callFarPtrTarget Cpu.callPtrTarget Cpu.farChecks
    rw [Program.run_bind, run_validateFarSelector hm hexc]
    cases cpu.validSelector selector fun desc =>
        (cpu.codeFault false desc).or (cpu.farPrivilegeFault selector desc) with
    | error c => rfl
    | ok desc =>
      show Program.run viewOp _ _ = (match (cpu.validOffset (Cpu.ptrTarget offset operandSize)
        operandSize >>= fun _ => Except.ok (desc, Cpu.ptrTarget offset operandSize)) with
        | .error c => (none, c)
        | .ok (desc, target) => _)
      simp only [checked]
      rw [Program.run_bind, run_validateCodeOffset,
        show (if operandSize = 16 then offset.setWidth 64 &&& 0xFFFF else offset.setWidth 64) =
          Cpu.ptrTarget offset operandSize from rfl]
      cases cpu.validOffset (Cpu.ptrTarget offset operandSize) operandSize with
      | error c => rfl
      | ok u =>
        simp only [if_true]
        exact run_pushReturn hexc _ returnRip _
  unfold callFarPtr Cpu.callFarPtrOutcome
  rw [Program.run_bind, run_ordinary_view, htarget]
  cases cpu.callPtrTarget selector offset operandSize with
  | error c => rfl
  | ok found =>
    obtain ⟨desc, target⟩ := found
    show _ = transferred (cpu.pushedReturn _ returnRip >>= _)
    simp only
    cases cpu.pushedReturn (if operandSize = 32 then 4 else 2) returnRip <;> rfl

end Transfers

/-! ## Completion -/

/-- The outcome of a far transfer. -/
def FarTransfer.outcome (cpu : Cpu) : FarTransfer → Except Cpu Cpu
  | .jmpFar selector offset operandSize => cpu.jmpFarOutcome selector offset operandSize
  | .callFarMem memAddr operandSize returnRip =>
    cpu.callFarMemOutcome memAddr operandSize returnRip
  | .callFarPtr selector offset operandSize returnRip =>
    cpu.callFarPtrOutcome selector offset operandSize returnRip
  | .ret operandSize addressSize immediate => cpu.retOutcome operandSize addressSize immediate
  | .iret operandSize addressSize => cpu.iretOutcome operandSize addressSize

/-- A far transfer completes, or it is refused and leaves an exception only. -/
inductive Cpu.Completes (cpu : Cpu) : Except Cpu Cpu → Prop where
  | ok {c : Cpu} (hnone : c.context.hasException = false) : cpu.Completes (.ok c)
  | error {c : Cpu} (h : cpu.Failed c) : cpu.Completes (.error c)

theorem Cpu.Clean.completes {α : Type} {e : Except Cpu α} (h : cpu.Clean e)
    {f : α → Except Cpu Cpu} (hf : ∀ a, e = .ok a → cpu.Completes (f a)) :
    cpu.Completes (e >>= f) := by
  cases h with
  | ok a => exact hf a rfl
  | error hc => exact .error hc

section Transfers

variable (hexc : cpu.context.hasException = false)

include hexc

theorem clean_frame (operandSize count : ℕ) : cpu.Clean (cpu.frame operandSize count) :=
  (clean_peeked hexc _ _).bind fun _ _ => (clean_validSelector hexc _ _).bind fun _ _ =>
    (clean_validOffset hexc _ _).bind fun _ _ => .ok _

theorem clean_farPointer (memAddr : U64) (operandSize : ℕ) :
    cpu.Clean (cpu.farPointer memAddr operandSize) :=
  (clean_loadAt hexc _ _).bind fun _ _ => (clean_loadAt hexc _ _).bind fun _ _ => .ok _

theorem clean_jmpTarget (selector : U16) (offset : U64) (operandSize : ℕ) :
    cpu.Clean (cpu.jmpTarget selector offset operandSize) :=
  (clean_validSelector hexc _ _).bind fun _ _ => (clean_validOffset hexc _ _).bind fun _ _ => .ok _

theorem clean_callMemTarget (offset : U64) (selector : U16) (operandSize : ℕ) :
    cpu.Clean (cpu.callMemTarget offset selector operandSize) :=
  (clean_validSelector hexc _ _).bind fun _ _ => (clean_validOffset hexc _ _).bind fun _ _ => .ok _

theorem clean_callPtrTarget (selector : U16) (offset : U32) (operandSize : ℕ) :
    cpu.Clean (cpu.callPtrTarget selector offset operandSize) :=
  (clean_validSelector hexc _ _).bind fun _ _ => (clean_validOffset hexc _ _).bind fun _ _ => .ok _

theorem completes_calledFrom (itemSize : ℕ) (returnRip : U64) (selector : U16)
    (desc : SegmentDescriptor) (target : U64) :
    cpu.Completes (cpu.calledFrom itemSize returnRip selector desc target) := by
  refine (clean_pushedTwo hexc _ _ _).completes fun after hafter => ?_
  obtain ⟨_, _, -, -, rfl⟩ := pushedTwo_ok hafter
  exact .ok hexc

/-- **Every far transfer** completes without an exception, or leaves an exception only. -/
theorem completes_outcome (t : FarTransfer) : cpu.Completes (t.outcome cpu) := by
  cases t with
  | jmpFar selector offset operandSize =>
    exact (clean_jmpTarget hexc selector offset operandSize).completes fun _ _ => .ok hexc
  | callFarMem memAddr operandSize returnRip =>
    exact (clean_farPointer hexc memAddr operandSize).completes fun pointer _ =>
      (clean_callMemTarget hexc pointer.1 pointer.2 operandSize).completes fun _ _ =>
        completes_calledFrom hexc _ _ _ _ _
  | callFarPtr selector offset operandSize returnRip =>
    exact (clean_callPtrTarget hexc selector offset operandSize).completes fun _ _ =>
      completes_calledFrom hexc _ _ _ _ _
  | ret operandSize addressSize immediate =>
    exact (clean_frame hexc operandSize 2).completes fun _ _ => .ok hexc
  | iret operandSize addressSize =>
    refine (clean_frame hexc operandSize _).completes fun frame _ => ?_
    simp only
    split_ifs
    · exact .ok hexc
    · exact .ok hexc

/-- **A far transfer** ends in its outcome, up to the page cache, from any cache. -/
theorem farTransfer_outcome {cpu₀ : Cpu} (h : UpToCache cpu₀ cpu) (t : FarTransfer) :
    UpToCache (farTransfer t cpu₀) (transferred (t.outcome cpu)).2 := by
  obtain ⟨-, hstate⟩ := run_viewFarOp t.program h
  have hm := h.ok'
  have hrun : t.program.run viewFarOp cpu = transferred (t.outcome cpu) := by
    cases t with
    | jmpFar => exact run_jmpFar hm.manager hexc _ _ _
    | callFarMem => exact run_callFarMem hm.manager hexc _ _ _
    | callFarPtr => exact run_callFarPtr hm.manager hexc _ _ _ _
    | ret => exact run_executeRet hm.manager hexc _ _ _
    | iret => exact run_executeIret hm.manager hexc _ _
  rw [hrun] at hstate
  exact hstate

/-- A far transfer whose outcome is a CPU. -/
theorem farTransfer_ok (hm : MemoryOk cpu.memory) {t : FarTransfer} {c : Cpu}
    (h : t.outcome cpu = .ok c) : (farTransfer t cpu).context.hasException = false ∧
      (farTransfer t cpu).context = c.context ∧
      (farTransfer t cpu).memory.host = c.memory.host := by
  have hstate := farTransfer_outcome hexc (.refl hm) t
  have hdone := completes_outcome hexc t
  rw [h] at hstate hdone
  have hcontext := congrArg Cpu.context hstate.eq
  have hhost := congrArg (fun c : Cpu => c.memory.host) hstate.eq
  change c.context = (farTransfer t cpu).context at hcontext
  cases hdone with
  | ok hnone => exact ⟨hcontext ▸ hnone, hcontext.symm, hhost.symm⟩

/-- A far transfer that is refused. -/
theorem farTransfer_error (hm : MemoryOk cpu.memory) {t : FarTransfer} {c : Cpu}
    (h : t.outcome cpu = .error c) : cpu.Failed c ∧
      (farTransfer t cpu).context = c.context ∧
      (farTransfer t cpu).memory.host = c.memory.host := by
  have hstate := farTransfer_outcome hexc (.refl hm) t
  have hdone := completes_outcome hexc t
  rw [h] at hstate hdone
  have hcontext := congrArg Cpu.context hstate.eq
  have hhost := congrArg (fun c : Cpu => c.memory.host) hstate.eq
  change c.context = (farTransfer t cpu).context at hcontext
  cases hdone with
  | error hfailed => exact ⟨hfailed, hcontext.symm, hhost.symm⟩

/-- A far transfer raises nothing exactly if its outcome is a CPU. -/
theorem farTransfer_done (hm : MemoryOk cpu.memory) (t : FarTransfer) :
    (farTransfer t cpu).context.hasException = false ↔ ∃ c, t.outcome cpu = .ok c := by
  cases houtcome : t.outcome cpu with
  | error c =>
    obtain ⟨hfailed, hcontext, -⟩ := farTransfer_error hexc hm houtcome
    rw [hcontext, hfailed.pending]
    constructor
    · intro hnone
      cases hnone
    · rintro ⟨_, hok⟩
      cases hok
  | ok c => exact ⟨fun _ => ⟨c, rfl⟩, fun _ => (farTransfer_ok hexc hm houtcome).1⟩

end Transfers

/-! ## Completed parts -/

/-- Two parts complete when the first one does and the second one does behind it. -/
theorem ok_bind_iff {ε α β : Type} {e : Except ε α} {f : α → Except ε β} {b : β} :
    (e >>= f) = .ok b ↔ ∃ a, e = .ok a ∧ f a = .ok b := by
  cases e with
  | error c =>
    constructor
    · intro h
      cases h
    · rintro ⟨_, h, -⟩
      cases h
  | ok a =>
    constructor
    · exact fun h => ⟨a, rfl, h⟩
    · rintro ⟨_, ha, h⟩
      cases ha
      exact h

theorem validSelector_ok {selector : U16} {fault : SegmentDescriptor → Option RaisedFault}
    {desc : SegmentDescriptor} :
    cpu.validSelector selector fault = .ok desc ↔ isNullSelector selector = false ∧
      ∃ low high, cpu.descriptorWords selector = .ok (low, high) ∧
        decodeDescriptor low high = desc ∧ fault desc = none := by
  unfold Cpu.validSelector
  by_cases hnull : isNullSelector selector = true
  · rw [if_pos hnull, hnull]
    constructor
    · intro h
      cases h
    · rintro ⟨h, -⟩
      cases h
  rw [if_neg hnull, ok_bind_iff]
  constructor
  · rintro ⟨⟨low, high⟩, hwords, h⟩
    refine ⟨by simpa using hnull, low, high, hwords, ?_⟩
    simp only at h
    split at h
    · cases h
    · cases h
      exact ⟨rfl, by assumption⟩
  · rintro ⟨-, low, high, hwords, rfl, hfault⟩
    refine ⟨(low, high), hwords, ?_⟩
    simp only [hfault]
    rfl

/-- A selector whose descriptor has a fault. -/
theorem validSelector_fault {selector : U16} {low high : U32}
    (hnull : isNullSelector selector = false)
    (hwords : cpu.descriptorWords selector = .ok (low, high))
    {checks : SegmentDescriptor → Option RaisedFault} {fault : RaisedFault}
    (hfault : checks (decodeDescriptor low high) = some fault) :
    cpu.validSelector selector checks = .error (cpu.raised fault (selectorError selector)) := by
  unfold Cpu.validSelector
  rw [if_neg (by simp [hnull]), hwords]
  simp only [bind, Except.bind, hfault]

/-- A selector whose descriptor has none. -/
theorem validSelector_done {selector : U16} {low high : U32}
    (hnull : isNullSelector selector = false)
    (hwords : cpu.descriptorWords selector = .ok (low, high))
    {checks : SegmentDescriptor → Option RaisedFault}
    (hfault : checks (decodeDescriptor low high) = none) :
    cpu.validSelector selector checks = .ok (decodeDescriptor low high) :=
  validSelector_ok.mpr ⟨hnull, low, high, hwords, rfl, hfault⟩

/-- The parts of a frame. -/
theorem frame_ok {operandSize count : ℕ} {frame : ReturnFrame} :
    cpu.frame operandSize count = .ok frame ↔
      cpu.peeked (operandBytes operandSize) count = .ok (frame.values, frame.stackAfterPops) ∧
      frame.selector = (frame.values.getD 1 0).setWidth 16 ∧
      cpu.validSelector frame.selector (cpu.retChecks frame.selector) = .ok frame.descriptor ∧
      cpu.validOffset (frame.values.getD 0 0)
        (if frame.descriptor.longMode then 64 else operandSize) = .ok () := by
  unfold Cpu.frame
  rw [ok_bind_iff]
  constructor
  · rintro ⟨⟨values, stackAfterPops⟩, hpeeked, h⟩
    simp only [ok_bind_iff] at h
    obtain ⟨desc, hdesc, _, hoffset, h⟩ := h
    cases h
    exact ⟨hpeeked, rfl, hdesc, hoffset⟩
  · obtain ⟨values, stackAfterPops, selector, desc⟩ := frame
    rintro ⟨hpeeked, hselector, hdesc, hoffset⟩
    simp only at hpeeked hselector hdesc hoffset
    subst hselector
    refine ⟨_, hpeeked, ?_⟩
    simp only [ok_bind_iff]
    exact ⟨desc, hdesc, (), hoffset, rfl⟩

/-- A completed far jump. -/
theorem jmpFarOutcome_ok {selector : U16} {offset : U64} {operandSize : ℕ} {c : Cpu} :
    cpu.jmpFarOutcome selector offset operandSize = .ok c ↔
      ∃ desc, cpu.validSelector selector (cpu.farChecks selector true) = .ok desc ∧
        cpu.validOffset (cpuMaskCodeOffset offset operandSize)
          (if desc.longMode then 64 else operandSize) = .ok () ∧
        cpu.enter selector desc (cpuMaskCodeOffset offset operandSize) = c := by
  unfold Cpu.jmpFarOutcome Cpu.jmpTarget
  simp only [ok_bind_iff]
  constructor
  · rintro ⟨_, ⟨desc, hdesc, _, hoffset, h⟩, hc⟩
    cases h
    cases hc
    exact ⟨desc, hdesc, hoffset, rfl⟩
  · rintro ⟨desc, hdesc, hoffset, rfl⟩
    exact ⟨_, ⟨desc, hdesc, (), hoffset, rfl⟩, rfl⟩

/-- A completed far call through memory. -/
theorem callFarMemOutcome_ok {memAddr returnRip : U64} {operandSize : ℕ} {c : Cpu} :
    cpu.callFarMemOutcome memAddr operandSize returnRip = .ok c ↔
      ∃ offset selector desc after,
        cpu.farPointer memAddr operandSize = .ok (offset, selector) ∧
        cpu.validSelector selector (cpu.farChecks selector true) = .ok desc ∧
        cpu.validOffset (Cpu.callTarget desc offset operandSize)
          (if desc.longMode then 64 else operandSize) = .ok () ∧
        cpu.pushedReturn (cpu.callItemSize operandSize) returnRip = .ok after ∧
        after.enter selector desc (Cpu.callTarget desc offset operandSize) = c := by
  unfold Cpu.callFarMemOutcome Cpu.callMemTarget Cpu.calledFrom
  simp only [ok_bind_iff]
  constructor
  · rintro ⟨⟨offset, selector⟩, hpointer, _, ⟨desc, hdesc, _, hoffset, h⟩, after, hpushed, hc⟩
    cases h
    cases hc
    exact ⟨offset, selector, desc, after, hpointer, hdesc, hoffset, hpushed, rfl⟩
  · rintro ⟨offset, selector, desc, after, hpointer, hdesc, hoffset, hpushed, rfl⟩
    exact ⟨_, hpointer, _, ⟨desc, hdesc, (), hoffset, rfl⟩, after, hpushed, rfl⟩

/-- A completed far call with a pointer. -/
theorem callFarPtrOutcome_ok {selector : U16} {offset : U32} {operandSize : ℕ} {returnRip : U64}
    {c : Cpu} : cpu.callFarPtrOutcome selector offset operandSize returnRip = .ok c ↔
      ∃ desc after, cpu.validSelector selector (cpu.farChecks selector false) = .ok desc ∧
        cpu.validOffset (Cpu.ptrTarget offset operandSize) operandSize = .ok () ∧
        cpu.pushedReturn (if operandSize = 32 then 4 else 2) returnRip = .ok after ∧
        after.enter selector desc (Cpu.ptrTarget offset operandSize) = c := by
  unfold Cpu.callFarPtrOutcome Cpu.callPtrTarget Cpu.calledFrom
  simp only [ok_bind_iff]
  constructor
  · rintro ⟨_, ⟨desc, hdesc, _, hoffset, h⟩, after, hpushed, hc⟩
    cases h
    cases hc
    exact ⟨desc, after, hdesc, hoffset, hpushed, rfl⟩
  · rintro ⟨desc, after, hdesc, hoffset, hpushed, rfl⟩
    exact ⟨_, ⟨desc, hdesc, (), hoffset, rfl⟩, after, hpushed, rfl⟩

namespace Cpu

/-- The stack behind a far return: behind the frame, and behind the bytes it releases. -/
def released (cpu : Cpu) (addressSize : ℕ) (immediate : U16) (frame : ReturnFrame) : Cpu :=
  let popped := cpu.setStack addressSize frame.stackAfterPops
  popped.setStack popped.context.stackAddressSize
    (popped.context.regs regRsp + immediate.setWidth 64)

/-- The CPU behind an interrupt return with a frame. -/
def iretEntered (cpu : Cpu) (operandSize addressSize : ℕ) (frame : ReturnFrame) : Cpu :=
  let target := iretTargetSize frame.descriptor operandSize
  let entered := (cpu.enter frame.selector frame.descriptor
    (cpuMaskCodeOffset (frame.values.getD 0 0) target)).setFlags (frame.values.getD 2 0)
  if target = 64 then
    entered.setStackFrame (frame.values.getD 3 0) ((frame.values.getD 4 0).setWidth 16)
  else entered.setStack addressSize frame.stackAfterPops

end Cpu

/-- A completed far return. -/
theorem retOutcome_ok {operandSize addressSize : ℕ} {immediate : U16} {c : Cpu} :
    cpu.retOutcome operandSize addressSize immediate = .ok c ↔
      ∃ frame, cpu.frame operandSize 2 = .ok frame ∧
        (cpu.released addressSize immediate frame).enter frame.selector frame.descriptor
          (cpuMaskCodeOffset (frame.values.getD 0 0) operandSize) = c := by
  unfold Cpu.retOutcome
  rw [ok_bind_iff]
  constructor
  · rintro ⟨frame, hframe, h⟩
    exact ⟨frame, hframe, Except.ok.inj h⟩
  · rintro ⟨frame, hframe, rfl⟩
    exact ⟨frame, hframe, rfl⟩

/-- A completed interrupt return. -/
theorem iretOutcome_ok {operandSize addressSize : ℕ} {c : Cpu} :
    cpu.iretOutcome operandSize addressSize = .ok c ↔
      ∃ frame, cpu.frame operandSize (if operandSize = 64 then 5 else 3) = .ok frame ∧
        cpu.iretEntered operandSize addressSize frame = c := by
  unfold Cpu.iretOutcome Cpu.iretEntered
  rw [ok_bind_iff]
  refine exists_congr fun frame => and_congr_right fun _ => ?_
  simp only
  by_cases htarget : Cpu.iretTargetSize frame.descriptor operandSize = 64
  · rw [if_pos htarget, if_pos htarget]
    exact iff_of_eq (Except.ok.injEq _ _)
  · rw [if_neg htarget, if_neg htarget]
    exact iff_of_eq (Except.ok.injEq _ _)

/-! ## A CPU over host memory -/

/-- A CPU in host mode over some bytes, in which every page is readable and writable. -/
def hostCpu (ctx : CpuContext) (bytes : U64 → U8) : Cpu where
  context := ctx
  memory := mmSetHostPassthrough (mmInit (.initial bytes fun _ => true))
    (mmProtRead ||| mmProtWrite ||| mmProtExec) true
  hooks := .none
  asked := 0

/-- Some bytes, and zeros elsewhere. -/
def byteImage (bytes : List (U64 × U8)) (address : U64) : U8 := (bytes.lookup address).getD 0

theorem memoryOk_hostCpu (ctx : CpuContext) (bytes : U64 → U8) :
    MemoryOk (hostCpu ctx bytes).memory :=
  (memoryCall_ok (memoryOk_mmInit _)
    (.setHostPassthrough (mmProtRead ||| mmProtWrite ||| mmProtExec) true)).1

end Cpueaxh
