/-
# Programs that are blind to the scratch fields

The accesses of the CPU to memory, and the stack operations over them, look at the visible
fields of the context only.  On two CPUs that differ in the scratch fields at most they
return the same and leave CPUs that differ so.
-/
import Cpueaxh.RelatedRuns
import Cpueaxh.AlikeSteps
import Cpueaxh.ControlFlow

namespace Cpueaxh

open HostMemory
open Program (Related)

/-! ## Single operations -/

/-- The CPU with other scratch fields. -/
def Cpu.withScratch (cpu : Cpu) (bits : PrefixBits) (override size : ℤ) (key : U8) (valid : Bool) :
    Cpu :=
  cpu.setContext (cpu.context.withScratch bits override size key valid)

section Scratch

variable {cpu cpu' : Cpu} {bits : PrefixBits} {override size : ℤ} {key : U8} {valid : Bool}

theorem sameButScratch_withScratch :
    SameButScratch cpu (cpu.withScratch bits override size key valid) := ⟨rfl, rfl⟩

/-- CPUs that differ in the scratch fields are such. -/
theorem SameButScratch.exists_withScratch (h : SameButScratch cpu cpu') :
    ∃ bits override size key valid, cpu' = cpu.withScratch bits override size key valid := by
  obtain ⟨bits, override, size, key, valid, hctx⟩ := Cpueaxh.exists_withScratch h.visible_eq
  refine ⟨bits, override, size, key, valid, ?_⟩
  rw [h.eq, hctx]
  rfl

theorem raiseException_withScratch (ctx : CpuContext) (code errorCode : U32) :
    (ctx.withScratch bits override size key valid).raiseException code errorCode =
      (ctx.raiseException code errorCode).withScratch bits override size key valid := by
  unfold CpuContext.raiseException
  by_cases hexc : ctx.hasException = true
  · rw [if_pos hexc]
    exact if_pos hexc
  · rw [if_neg hexc]
    exact if_neg hexc

theorem raisePageFault_withScratch (cpu : Cpu) (address : U64) (access : Access)
    (violation : Bool) :
    (cpu.withScratch bits override size key valid).raisePageFault address access violation =
      (cpu.raisePageFault address access violation).withScratch bits override size key valid :=
  congrArg cpu.setContext (raiseException_withScratch
    { cpu.context with controlRegs := Function.update cpu.context.controlRegs regCr2 address } _ _)

theorem attempt_withScratch (cpu : Cpu) (address : U64) (access : Access) :
    (cpu.withScratch bits override size key valid).attempt address access =
      ((cpu.attempt address access).1,
        (cpu.attempt address access).2.withScratch bits override size key valid) := rfl

theorem tryHandle_withScratch (cpu : Cpu) (access : Access) (violation : Bool) :
    (cpu.withScratch bits override size key valid).tryHandleInvalidMemoryAccess access violation =
      ((cpu.tryHandleInvalidMemoryAccess access violation).1,
        (cpu.tryHandleInvalidMemoryAccess access violation).2.withScratch bits override size key
          valid) := by
  unfold Cpu.tryHandleInvalidMemoryAccess
  split_ifs with hhook hhook'
  · rfl
  · exact absurd hhook hhook'
  · exact absurd ‹_› hhook
  · rfl

theorem resolveLoop_withScratch (address : U64) (access : Access) (left : ℕ) (cpu : Cpu) :
    Cpu.resolveLoop address access left (cpu.withScratch bits override size key valid) =
      ((Cpu.resolveLoop address access left cpu).1,
        (Cpu.resolveLoop address access left cpu).2.withScratch bits override size key valid) := by
  induction left generalizing cpu with
  | zero => exact congrArg (Prod.mk none) (raisePageFault_withScratch cpu address access true)
  | succ left ih =>
    unfold Cpu.resolveLoop
    rw [attempt_withScratch]
    rcases cpu.attempt address access with ⟨attempted, c⟩
    cases attempted with
    | ok ptr => rfl
    | error violation =>
      dsimp only
      rw [tryHandle_withScratch]
      rcases c.tryHandleInvalidMemoryAccess access violation with ⟨handled, c'⟩
      cases handled with
      | true => exact ih c'
      | false => exact congrArg (Prod.mk none) (raisePageFault_withScratch c' address access violation)

theorem resolve_withScratch (cpu : Cpu) (address : U64) (access : Access) :
    (cpu.withScratch bits override size key valid).resolveMemoryAccess address access =
      ((cpu.resolveMemoryAccess address access).1,
        (cpu.resolveMemoryAccess address access).2.withScratch bits override size key valid) := by
  unfold Cpu.resolveMemoryAccess cpuValidateLinearAddress
  have h64 : (cpu.withScratch bits override size key valid).context.is64BitCode =
      cpu.context.is64BitCode := rfl
  have hpending : (cpu.withScratch bits override size key valid).context.hasException =
      cpu.context.hasException := rfl
  have hhooks : (cpu.withScratch bits override size key valid).hasInvalidMemoryHooksForAccess
      access = cpu.hasInvalidMemoryHooksForAccess access := rfl
  rw [h64, hpending, hhooks]
  by_cases hexc : cpu.context.hasException = true
  · rw [if_pos hexc, if_pos hexc]
  rw [if_neg hexc, if_neg hexc]
  by_cases hcanonical : (cpu.context.is64BitCode && !cpuIsCanonicalAddress address) = true
  · rw [if_pos hcanonical, if_pos hcanonical]
    exact congrArg (Prod.mk none) (congrArg cpu.setContext (raiseException_withScratch _ _ _))
  rw [if_neg hcanonical, if_neg hcanonical]
  dsimp only
  by_cases hask : cpu.hasInvalidMemoryHooksForAccess access = true
  · rw [if_pos hask, if_pos hask]
    exact resolveLoop_withScratch address access 4 cpu
  rw [if_neg hask, if_neg hask, attempt_withScratch]
  rcases cpu.attempt address access with ⟨attempted, c⟩
  cases attempted with
  | ok ptr => rfl
  | error violation =>
    exact congrArg (Prod.mk none) (raisePageFault_withScratch c address access violation)

end Scratch

/-! ## Programs -/

/-- The programs are blind to the scratch fields: the values that they return are related. -/
abbrev BlindPair {α β : Type} (post : α → β → Prop) (p : CpuProgram α) (q : CpuProgram β) : Prop :=
  Related cpuOp SameButScratch post p q

/-- The program is blind to the scratch fields. -/
abbrev Blind {α : Type} (p : CpuProgram α) : Prop := BlindPair Eq p p

variable {α β α' : Type}

theorem blind_pure (a : α) : Blind (pure a) := .pure rfl

theorem blind_if {c : Prop} [Decidable c] {post : α → β → Prop} {p p' : CpuProgram α}
    {q q' : CpuProgram β} (h : BlindPair post p q) (h' : BlindPair post p' q') :
    BlindPair post (if c then p else p') (if c then q else q') := by
  split_ifs
  · exact h
  · exact h'

/-- The contexts that the programs read have the same visible fields. -/
theorem blind_getContext :
    BlindPair (fun ctx ctx' => ctx'.visible = ctx.visible) getContext getContext :=
  fun _ _ h => ⟨h.visible_eq, h⟩

theorem keepMode_visible {old old' new new' : CpuContext} (hold : old'.visible = old.visible)
    (hnew : new'.visible = new.visible) :
    (old'.keepMode new').visible = (old.keepMode new).visible := by
  obtain ⟨bits, override, size, key, valid, rfl⟩ := exists_withScratch hold
  obtain ⟨bits', override', size', key', valid', rfl⟩ := exists_withScratch hnew
  rfl

theorem blind_modifyContext {f g : CpuContext → CpuContext}
    (h : ∀ ctx ctx', ctx'.visible = ctx.visible → (g ctx').visible = (f ctx).visible) :
    BlindPair Eq (modifyContext f) (modifyContext g) := by
  intro s t hst
  exact ⟨rfl, hst.setContext (keepMode_visible hst.visible_eq (h _ _ hst.visible_eq))⟩

theorem blind_raise (fault : RaisedFault) (errorCode : U32) :
    Blind (cpuRaiseException fault errorCode) :=
  fun _ _ h => ⟨rfl, h.setContext (visible_raiseException h.visible_eq fault.code errorCode)⟩

theorem blind_resolve (address : U64) (store : Bool) : Blind (cpuResolve address store) := by
  intro s t hst
  obtain ⟨bits, override, size, key, valid, rfl⟩ := hst.exists_withScratch
  show (s.resolveMemoryAccess address (dataAccess store)).1 =
      ((s.withScratch bits override size key valid).resolveMemoryAccess address
        (dataAccess store)).1 ∧ SameButScratch _ ((s.withScratch bits override size key
          valid).resolveMemoryAccess address (dataAccess store)).2
  rw [resolve_withScratch]
  exact ⟨rfl, sameButScratch_withScratch⟩

theorem blind_load (p : HostPtr) : Blind (perform (.load p)) := by
  intro s t hst
  obtain ⟨bits, override, size, key, valid, rfl⟩ := hst.exists_withScratch
  exact ⟨rfl, sameButScratch_withScratch⟩

theorem blind_notify (type : HookType) (address : U64) (size : ℕ) (value : U64) :
    Blind (perform (.notify type address size value)) := fun _ _ h => ⟨rfl, h⟩

theorem blind_canUsePageFastPath : Blind (perform .canUsePageFastPath) := by
  intro s t hst
  obtain ⟨bits, override, size, key, valid, rfl⟩ := hst.exists_withScratch
  exact ⟨rfl, sameButScratch_withScratch⟩

theorem blind_cpuHasException : Blind cpuHasException := by
  apply blind_getContext.bind
  intro ctx ctx' hctx
  rw [visible_hasException hctx]
  exact blind_pure _

/-! ## Reading memory -/

theorem blind_contiguousPages (address : U64) (size : ℕ) (store : Bool) (fuel : ℕ) :
    ∀ (offset : ℕ) (base : Option HostPtr),
      Blind (contiguousPages address size store fuel offset base) := by
  induction fuel with
  | zero => exact fun _ base => blind_pure base
  | succ fuel ih =>
    intro offset base
    unfold contiguousPages
    apply blind_if _ (blind_pure base)
    apply (blind_resolve _ store).bind_eq
    rintro (_ | page)
    · exact blind_pure none
    · cases base with
      | none => exact ih _ _
      | some base => exact blind_if (ih _ _) (blind_pure none)

theorem blind_contiguousBytes (address : U64) (store : Bool) (base : HostPtr) (left : ℕ) :
    ∀ offset : U64, Blind (contiguousBytes address store base left offset) := by
  induction left with
  | zero => exact fun _ => blind_pure (some base)
  | succ left ih =>
    intro offset
    unfold contiguousBytes
    apply (blind_resolve _ store).bind_eq
    rintro (_ | next)
    · exact blind_pure none
    · exact blind_if (ih _) (blind_pure none)

theorem blind_tryGetContiguousPtr (address : U64) (size : ℕ) (store : Bool) :
    Blind (cpuTryGetContiguousPtr address size store) := by
  unfold cpuTryGetContiguousPtr
  apply blind_cpuHasException.bind_eq
  intro pending
  apply blind_if (blind_pure none)
  apply blind_canUsePageFastPath.bind_eq
  intro fast
  apply blind_if
  · exact blind_if (blind_resolve address store) (blind_contiguousPages address size store size 0 none)
  · apply (blind_resolve address store).bind_eq
    rintro (_ | base)
    · exact blind_pure none
    · exact blind_contiguousBytes address store base (size - 1) 1

theorem blind_loadBytes (p : HostPtr) (left : ℕ) : ∀ offset : U64, Blind (loadBytes p left offset) := by
  induction left with
  | zero => exact fun _ => blind_pure 0
  | succ left ih =>
    intro offset
    unfold loadBytes
    apply (blind_load _).bind_eq
    intro low
    apply (ih _).bind_eq
    exact fun high => blind_pure _

theorem blind_readBytes (address : U64) (left : ℕ) :
    ∀ offset : U64, Blind (readBytes address left offset) := by
  induction left with
  | zero => exact fun _ => blind_pure (some 0)
  | succ left ih =>
    intro offset
    unfold readBytes
    apply (blind_resolve _ false).bind_eq
    rintro (_ | p)
    · exact blind_pure none
    · apply (blind_load p).bind_eq
      intro low
      apply (ih _).bind_eq
      rintro (_ | high)
      · exact blind_pure none
      · exact blind_pure _

theorem blind_readMemory (size : ℕ) (address : U64) : Blind (readMemory size address) := by
  unfold readMemory
  apply blind_cpuHasException.bind_eq
  intro pending
  apply blind_if (blind_pure 0)
  apply (blind_tryGetContiguousPtr address size false).bind_eq
  rintro (_ | p)
  · apply (blind_readBytes address size 0).bind_eq
    rintro (_ | value)
    · exact blind_pure 0
    · exact (blind_notify _ _ _ _).bind_eq fun _ => blind_pure value
  · apply (blind_loadBytes p size 0).bind_eq
    intro value
    exact (blind_notify _ _ _ _).bind_eq fun _ => blind_pure value

/-! ## The stack and the instruction pointer -/

theorem visible_stackAddressSize {ctx ctx' : CpuContext} (h : ctx'.visible = ctx.visible) :
    ctx'.stackAddressSize = ctx.stackAddressSize :=
  (congrArg CpuContext.stackAddressSize h :
    ctx'.visible.stackAddressSize = ctx.visible.stackAddressSize)

theorem visible_regs {ctx ctx' : CpuContext} (h : ctx'.visible = ctx.visible) :
    ctx'.regs = ctx.regs := (congrArg CpuContext.regs h : ctx'.visible.regs = ctx.visible.regs)

theorem visible_setStackPointer {ctx ctx' : CpuContext} (h : ctx'.visible = ctx.visible)
    (stackAddrSize : ℕ) (value : U64) :
    (cpuSetStackPointerValue ctx' stackAddrSize value).visible =
      (cpuSetStackPointerValue ctx stackAddrSize value).visible := by
  obtain ⟨bits, override, size, key, valid, rfl⟩ := exists_withScratch h
  rfl

/-- **A pop** is blind to the scratch fields. -/
theorem blind_popValue (size : ℕ) : Blind (popValue size) := by
  unfold popValue
  apply blind_getContext.bind
  intro ctx ctx' hctx
  rw [visible_stackAddressSize hctx, visible_regs hctx]
  apply blind_if
  · exact (blind_raise .gp 0).bind_eq fun _ => blind_pure 0
  · apply (blind_readMemory _ _).bind_eq
    intro value
    apply blind_cpuHasException.bind_eq
    intro pending
    apply blind_if (blind_pure 0)
    refine Related.bind_eq (blind_modifyContext ?_) fun _ => blind_pure value
    exact fun _ _ h => visible_setStackPointer h _ _

theorem blind_validateCodeOffset (value : U64) (operandSize : ℕ) :
    Blind (cpuValidateCodeOffset value operandSize) := by
  unfold cpuValidateCodeOffset
  apply blind_getContext.bind
  intro ctx ctx' hctx
  rw [visible_is64BitCode hctx]
  apply blind_if
  · exact (blind_raise .gp 0).bind_eq fun _ => blind_pure false
  · exact blind_pure true

/-- **An assignment of the instruction pointer** is blind to the scratch fields. -/
theorem blind_assignRipChecked (value : U64) (operandSize : ℕ) :
    Blind (cpuAssignRipChecked value operandSize) := by
  unfold cpuAssignRipChecked
  apply (blind_validateCodeOffset value operandSize).bind_eq
  intro valid
  apply blind_if _ (blind_pure false)
  refine Related.bind_eq (blind_modifyContext ?_) fun _ => blind_pure true
  intro ctx ctx' hctx
  obtain ⟨bits, override, size, key, valid, rfl⟩ := exists_withScratch hctx
  rfl

end Cpueaxh
