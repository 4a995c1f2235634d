/-
# What a guest step leaves alone

A guest step changes registers, memory bytes and the exception.  It never changes the
privilege level, whether long mode is active, the layout of memory, the patches, the
version of the code or the hooks; and if the cached mode key is fresh before the step,
it is fresh after it.

All of this is proved once for the operations that the code of an instruction is made
of, and carried over to programs by the invariant rule.
-/
import Cpueaxh.EngineApi

namespace Cpueaxh

open HostMemory

/-! ## Frames -/

/-- The cached mode key, if it is marked as valid, is the key of the current mode. -/
def KeyFresh (ctx : CpuContext) : Prop :=
  ctx.cachedModeKeyValid = true → ctx.cachedModeKeyBits = cpuInstCacheComputeModeKeyBits ctx

/-- Guest code changes the bytes of memory and the page cache, and nothing else of the
memory manager. -/
structure MemoryFrame (mgr mgr' : MemoryManager) : Prop where
  same : mgr' = { mgr with pageCache := mgr'.pageCache, host := mgr'.host }
  ok : MemoryOk mgr → MemoryOk mgr'

/-- What every operation of guest code leaves alone. -/
structure ModeFrame (cpu cpu' : Cpu) : Prop where
  memory : MemoryFrame cpu.memory cpu'.memory
  hooks_eq : cpu'.hooks = cpu.hooks
  cpl_eq : cpu'.context.cpl = cpu.context.cpl
  longMode_eq : cpu'.context.longModeActive = cpu.context.longModeActive

/-- What guest code leaves alone as a whole: between the load of `cs` and the
invalidation of the key, a far transfer breaks the last field. -/
structure GuestFrame (cpu cpu' : Cpu) : Prop extends ModeFrame cpu cpu' where
  key : KeyFresh cpu.context → KeyFresh cpu'.context

theorem MemoryFrame.refl (mgr : MemoryManager) : MemoryFrame mgr mgr := ⟨rfl, id⟩

theorem MemoryFrame.trans {mgr mgr' mgr'' : MemoryManager} (h : MemoryFrame mgr mgr')
    (h' : MemoryFrame mgr' mgr'') : MemoryFrame mgr mgr'' where
  same := by
    rw [h'.same, h.same]
  ok := h'.ok ∘ h.ok

/-- The version stays. -/
theorem MemoryFrame.codeVersion_eq {mgr mgr' : MemoryManager} (h : MemoryFrame mgr mgr') :
    mgr'.codeVersion = mgr.codeVersion := by
  rw [h.same]

/-- What the table gives stays. -/
theorem MemoryFrame.accessView_eq {mgr mgr' : MemoryManager} (h : MemoryFrame mgr mgr')
    (address : U64) (perm : U32) : accessView mgr' address perm = accessView mgr address perm := by
  rw [h.same]
  rfl

/-- A context in the same mode, with the same cached key, is as fresh. -/
theorem KeyFresh.congr {ctx ctx' : CpuContext} (h : KeyFresh ctx)
    (hlong : ctx'.longModeActive = ctx.longModeActive) (hcs : ctx'.cs = ctx.cs)
    (hbits : ctx'.cachedModeKeyBits = ctx.cachedModeKeyBits)
    (hvalid : ctx'.cachedModeKeyValid = ctx.cachedModeKeyValid) : KeyFresh ctx' := by
  intro hv
  rw [hbits, computeModeKeyBits_congr hlong hcs]
  exact h (hvalid ▸ hv)

/-- A key that is marked as stale is fresh. -/
theorem keyFresh_of_stale {ctx : CpuContext} (h : ctx.cachedModeKeyValid = false) :
    KeyFresh ctx := by
  intro hv
  rw [h] at hv
  cases hv

variable {cpu cpu' cpu'' : Cpu}

theorem ModeFrame.refl (cpu : Cpu) : ModeFrame cpu cpu := ⟨.refl _, rfl, rfl, rfl⟩

theorem ModeFrame.trans (h : ModeFrame cpu cpu') (h' : ModeFrame cpu' cpu'') :
    ModeFrame cpu cpu'' where
  memory := h.memory.trans h'.memory
  hooks_eq := h'.hooks_eq.trans h.hooks_eq
  cpl_eq := h'.cpl_eq.trans h.cpl_eq
  longMode_eq := h'.longMode_eq.trans h.longMode_eq

namespace GuestFrame

theorem refl (cpu : Cpu) : GuestFrame cpu cpu := ⟨.refl cpu, id⟩

theorem trans (h : GuestFrame cpu cpu') (h' : GuestFrame cpu' cpu'') : GuestFrame cpu cpu'' :=
  ⟨h.toModeFrame.trans h'.toModeFrame, h'.key ∘ h.key⟩

/-- A change of the context that keeps the mode and the cached key. -/
theorem of_context {ctx : CpuContext} (hcpl : ctx.cpl = cpu.context.cpl)
    (hlong : ctx.longModeActive = cpu.context.longModeActive) (hcs : ctx.cs = cpu.context.cs)
    (hbits : ctx.cachedModeKeyBits = cpu.context.cachedModeKeyBits)
    (hvalid : ctx.cachedModeKeyValid = cpu.context.cachedModeKeyValid) :
    GuestFrame cpu (cpu.setContext ctx) :=
  ⟨⟨.refl _, rfl, hcpl, hlong⟩, fun h => h.congr hlong hcs hbits hvalid⟩

end GuestFrame

/-! ## Operations -/

/-- Raising an exception changes the exception at most. -/
theorem raiseException_eq (ctx : CpuContext) (code errorCode : U32) :
    ∃ exception, ctx.raiseException code errorCode = { ctx with exception := exception } := by
  unfold CpuContext.raiseException
  split_ifs
  · exact ⟨ctx.exception, rfl⟩
  · exact ⟨_, rfl⟩

/-- A raised exception keeps the mode. -/
theorem GuestFrame.raiseException (cpu : Cpu) (code errorCode : U32) :
    GuestFrame cpu (cpu.setContext (cpu.context.raiseException code errorCode)) := by
  obtain ⟨exception, heq⟩ := raiseException_eq cpu.context code errorCode
  rw [heq]
  exact .of_context rfl rfl rfl rfl rfl

/-- A page fault keeps the mode. -/
theorem GuestFrame.raisePageFault (cpu : Cpu) (address : U64) (access : Access)
    (violation : Bool) : GuestFrame cpu (cpu.raisePageFault address access violation) := by
  obtain ⟨exception, heq⟩ := raiseException_eq
    { cpu.context with
      controlRegs := Function.update cpu.context.controlRegs regCr2 address }
    cpuExceptionPf (cpuMakePageFaultError cpu.context access violation)
  unfold Cpu.raisePageFault cpuRaisePageFault
  rw [heq]
  exact .of_context rfl rfl rfl rfl rfl

/-- A lookup fills the page cache at most. -/
theorem mmGetPtrChecked_frame (mgr : MemoryManager) (address : U64) (perm : U32) :
    MemoryFrame mgr (mmGetPtrChecked mgr address perm).2 where
  same := by
    show (mmQuery mgr address).2 = { mgr with
      pageCache := (mmQuery mgr address).2.pageCache, host := (mmQuery mgr address).2.host }
    unfold mmQuery
    by_cases hhit : ((mgr.pageCache (mmCacheSlot address)).valid
        && (mgr.pageCache (mmCacheSlot address)).pageBase == alignDownPage address) = true
    · simp only [hhit, if_true]
    · simp only [hhit, Bool.false_eq_true, if_false]
      cases pageEntry mgr address <;> rfl
  ok hm := by
    obtain ⟨-, cache, heq, hc⟩ := mmGetPtrChecked_spec hm.manager hm.cache address perm
    rw [heq]
    exact hm.setCache hc

/-- Asking a callback keeps everything but their number. -/
theorem GuestFrame.tryHandle (cpu : Cpu) (access : Access) (violation : Bool) :
    GuestFrame cpu (cpu.tryHandleInvalidMemoryAccess access violation).2 := by
  unfold Cpu.tryHandleInvalidMemoryAccess
  split_ifs
  · exact ⟨⟨.refl _, rfl, rfl, rfl⟩, id⟩
  · exact .refl cpu

/-- One attempt of an access. -/
theorem GuestFrame.attempt (cpu : Cpu) (address : U64) (access : Access) :
    GuestFrame cpu (cpu.attempt address access).2 :=
  ⟨⟨mmGetPtrChecked_frame cpu.memory address access.perm, rfl, rfl, rfl⟩, id⟩

/-- The attempts of an access. -/
theorem GuestFrame.resolveLoop (address : U64) (access : Access) (left : ℕ) :
    ∀ cpu : Cpu, GuestFrame cpu (Cpu.resolveLoop address access left cpu).2 := by
  induction left with
  | zero =>
    intro cpu
    exact .raisePageFault cpu address access true
  | succ left ih =>
    intro cpu
    have hattempt := GuestFrame.attempt cpu address access
    unfold Cpu.resolveLoop
    rcases h : cpu.attempt address access with ⟨violation | ptr, cpu₁⟩
    · rw [h] at hattempt
      have htry := GuestFrame.tryHandle cpu₁ access violation
      rcases h' : cpu₁.tryHandleInvalidMemoryAccess access violation with ⟨handled, cpu₂⟩
      rw [h'] at htry
      simp only [h']
      cases handled with
      | true => exact (hattempt.trans htry).trans (ih cpu₂)
      | false => exact (hattempt.trans htry).trans (.raisePageFault cpu₂ address access violation)
    · rw [h] at hattempt
      exact hattempt

/-- **An access** keeps the mode. -/
theorem GuestFrame.resolveMemoryAccess (cpu : Cpu) (address : U64) (access : Access) :
    GuestFrame cpu (cpu.resolveMemoryAccess address access).2 := by
  unfold Cpu.resolveMemoryAccess cpuValidateLinearAddress
  by_cases hexc : cpu.context.hasException = true
  · rw [if_pos hexc]
    exact .refl cpu
  rw [if_neg hexc]
  by_cases hcanon : (cpu.context.is64BitCode && !cpuIsCanonicalAddress address) = true
  · rw [if_pos hcanon]
    exact .raiseException cpu cpuExceptionGp 0
  rw [if_neg hcanon]
  by_cases hhooks : cpu.hasInvalidMemoryHooksForAccess access = true
  · simp only [hhooks, if_true]
    exact .resolveLoop address access 4 cpu
  · simp only [hhooks, Bool.false_eq_true, if_false]
    have hattempt := GuestFrame.attempt cpu address access
    rcases h : cpu.attempt address access with ⟨violation | ptr, cpu₁⟩
    · rw [h] at hattempt
      exact hattempt.trans (.raisePageFault cpu₁ address access violation)
    · rw [h] at hattempt
      exact hattempt

/-- **An ordinary operation** keeps the mode. -/
theorem GuestFrame.cpuOp (o : CpuOp) (cpu : Cpu) : GuestFrame cpu (cpuOp o cpu).2 := by
  cases o with
  | context => exact .refl cpu
  | setContext ctx => exact .of_context rfl rfl rfl rfl rfl
  | raise fault errorCode => exact .raiseException cpu fault.code errorCode
  | resolve address store => exact .resolveMemoryAccess cpu address (dataAccess store)
  | load p => exact .refl cpu
  | store p value => exact ⟨⟨⟨rfl, fun hm => hm.write p value⟩, rfl, rfl, rfl⟩, id⟩
  | notify type address size value => exact .refl cpu
  | tryHandleInvalid store =>
    show GuestFrame cpu (if cpu.context.hasException then (false, cpu)
      else cpu.tryHandleInvalidMemoryAccess (dataAccess store) true).2
    split_ifs
    · exact .refl cpu
    · exact .tryHandle cpu (dataAccess store) true
  | raisePageFault address store =>
    show GuestFrame cpu (if cpu.context.hasException then cpu
      else cpu.raisePageFault address (dataAccess store) true)
    split_ifs
    · exact .refl cpu
    · exact .raisePageFault cpu address (dataAccess store) true
  | canUsePageFastPath => exact .refl cpu
  | isHostWritePassthrough => exact .refl cpu

/-- An ordinary program keeps the mode. -/
theorem GuestFrame.cpuProgram {α : Type} (p : CpuProgram α) (cpu : Cpu) :
    GuestFrame cpu (p.run Cpueaxh.cpuOp cpu).2 :=
  Program.run_invariant_always (GuestFrame cpu) (fun o s h => h.trans (.cpuOp o s)) p cpu
    (.refl cpu)

/-! ## Far transfers -/

/-- An ordinary part of a far transfer runs as it does on its own. -/
@[simp] theorem run_ordinary {α : Type} (p : CpuProgram α) (cpu : Cpu) :
    (ordinary p).run farOp cpu = p.run Cpueaxh.cpuOp cpu := by
  have hop : ∀ (o : CpuOp) (s : Cpu), (farOp (.cpu o) s).1 = (Cpueaxh.cpuOp o s).1 ∧
      (farOp (.cpu o) s).2 = (Cpueaxh.cpuOp o s).2 := fun o s => ⟨rfl, rfl⟩
  exact Program.run_lift hop p cpu

/-- A change of the context keeps the mark of the cached key. -/
@[simp] theorem run_modify_valid (f : CpuContext → CpuContext) (cpu : Cpu) :
    ((modify f).run farOp cpu).2.context.cachedModeKeyValid =
      cpu.context.cachedModeKeyValid := by
  rw [modify, run_ordinary]
  rfl

@[simp] theorem run_invalidateModeKey_valid (cpu : Cpu) :
    (invalidateModeKey.run farOp cpu).2.context.cachedModeKeyValid = false := rfl

/-- The operations of a far transfer keep the mode up to the code segment. -/
theorem ModeFrame.farOp (o : FarOp) (cpu : Cpu) : ModeFrame cpu (farOp o cpu).2 := by
  cases o with
  | cpu o => exact (GuestFrame.cpuOp o cpu).toModeFrame
  | writeCs selector descriptor => exact ⟨.refl _, rfl, rfl, rfl⟩
  | invalidateModeKey => exact ⟨.refl _, rfl, rfl, rfl⟩

/-- A far transfer that either stops behind its checks or ends with a stale key. -/
theorem keyFresh_far {α : Type} {p : CpuProgram (Option α)} {tail : Option α → FarProgram Unit}
    (hnone : tail none = pure ())
    (hsome : ∀ a cpu, ((tail (some a)).run farOp cpu).2.context.cachedModeKeyValid = false)
    {cpu : Cpu} (h : KeyFresh cpu.context) :
    KeyFresh ((ordinary p >>= tail).run farOp cpu).2.context := by
  rw [Program.run_bind, run_ordinary]
  have hp := (GuestFrame.cpuProgram p cpu).key h
  cases (p.run Cpueaxh.cpuOp cpu).1 with
  | none =>
    rw [hnone]
    exact hp
  | some a => exact keyFresh_of_stale (hsome a _)

/-- **A far transfer** keeps the key fresh. -/
theorem FarTransfer.keyFresh (t : FarTransfer) {cpu : Cpu} (h : KeyFresh cpu.context) :
    KeyFresh (t.program.run farOp cpu).2.context := by
  cases t with
  | jmpFar selector offset operandSize =>
    apply keyFresh_far rfl _ h
    rintro ⟨desc, target⟩ cpu
    simp only [Program.run_bind, run_modify_valid, run_invalidateModeKey_valid]
  | callFarMem memAddr operandSize returnRip =>
    apply keyFresh_far rfl _ h
    rintro ⟨selector, desc, target⟩ cpu
    simp only [Program.run_bind, run_modify_valid, run_invalidateModeKey_valid]
  | callFarPtr selector offset operandSize returnRip =>
    apply keyFresh_far rfl _ h
    rintro ⟨desc, target⟩ cpu
    simp only [Program.run_bind, run_modify_valid, run_invalidateModeKey_valid]
  | ret operandSize addressSize immediate =>
    apply keyFresh_far rfl _ h
    rintro frame cpu
    simp only [Program.run_bind, run_modify_valid, run_invalidateModeKey_valid]
  | iret operandSize addressSize =>
    apply keyFresh_far rfl _ h
    rintro frame cpu
    simp only [Program.run_bind]
    split_ifs <;> simp only [run_modify_valid, run_invalidateModeKey_valid]

/-- **A far transfer** leaves alone what guest code leaves alone. -/
theorem GuestFrame.farTransfer (t : FarTransfer) (cpu : Cpu) :
    GuestFrame cpu (farTransfer t cpu) where
  toModeFrame :=
    Program.run_invariant_always (ModeFrame cpu) (fun o s h => h.trans (.farOp o s)) t.program cpu
      (.refl cpu)
  key h := t.keyFresh h

/-! ## Decoded instructions -/

/-- **The code of an instruction.** -/
theorem GuestFrame.handler (code : Handler) (cpu : Cpu) :
    GuestFrame cpu (code.run handlerOp cpu).2 := by
  apply Program.run_invariant_always (GuestFrame cpu) _ code cpu (.refl cpu)
  intro o s h
  cases o with
  | cpu o => exact h.trans (.cpuOp o s)
  | far t => exact h.trans (.farTransfer t s)

theorem GuestFrame.setSegmentOverride (cpu : Cpu) (override : ℤ) :
    GuestFrame cpu (cpu.setSegmentOverride override) := .of_context rfl rfl rfl rfl rfl

theorem GuestFrame.notifyFetchedBytes (cpu : Cpu) (dec : DecodedInst) :
    GuestFrame cpu (cpu.notifyFetchedBytes dec) := by
  unfold Cpu.notifyFetchedBytes
  split_ifs
  · exact .raiseException cpu cpuExceptionUd 0
  · exact .refl cpu

theorem GuestFrame.runCode (cpu : Cpu) (dec : DecodedInst) (ripPre : U64) :
    GuestFrame cpu (cpu.runCode dec ripPre) := by
  have hcode := GuestFrame.handler dec.code.1 cpu
  unfold Cpu.runCode
  simp only
  split_ifs
  · exact hcode.trans (.of_context rfl rfl rfl rfl rfl)
  · exact hcode

/-- The end of a step, with a snapshot that was taken in its course or none. -/
theorem GuestFrame.finish {cpu cpu' : Cpu} (h : GuestFrame cpu cpu') (dec : DecodedInst)
    {snapshot : Option CpuContext} (hsnapshot : ∀ saved ∈ snapshot, saved = cpu.context)
    (result : StepResult) : GuestFrame cpu (cpu'.finish dec snapshot result).2 := by
  unfold Cpu.finish
  split_ifs
  · apply GuestFrame.trans _ (.setSegmentOverride _ (-1))
    rcases snapshot with _ | saved
    · exact h.trans (.of_context rfl rfl rfl rfl rfl)
    · obtain rfl := hsnapshot saved rfl
      unfold Cpu.rollback
      by_cases hpart : dec.flags.partialProgress = true
      · simp only [hpart, if_true]
        exact h.trans (.of_context rfl rfl rfl rfl rfl)
      · -- the scalar snapshot brings the old mode back and marks the key as stale
        simp only [hpart, Bool.false_eq_true, if_false]
        split_ifs
        · exact ⟨⟨h.memory, h.hooks_eq, rfl, rfl⟩, fun _ => keyFresh_of_stale rfl⟩
        · exact ⟨⟨h.memory, h.hooks_eq, rfl, rfl⟩, fun _ => keyFresh_of_stale rfl⟩
  · exact h.trans (.setSegmentOverride cpu' (-1))

/-- **A decoded instruction** leaves alone what guest code leaves alone. -/
theorem GuestFrame.dispatchDecoded (cpu : Cpu) (dec : DecodedInst) (ripPre : U64) :
    GuestFrame cpu (cpu.dispatchDecoded dec ripPre).2 := by
  have hstart := (GuestFrame.notifyFetchedBytes cpu dec).trans
    (.setSegmentOverride _ dec.segmentOverride)
  unfold Cpu.dispatchDecoded
  simp only
  split_ifs
  · exact hstart.trans ((GuestFrame.raiseException _ cpuExceptionUd 0).finish dec (by simp) _)
  · exact hstart.trans ((GuestFrame.raiseException _ cpuExceptionBp 0).finish dec (by simp) _)
  · exact hstart.trans ((GuestFrame.raiseException _ cpuExceptionDb 0).finish dec (by simp) _)
  · exact hstart.trans ((GuestFrame.runCode _ dec ripPre).finish dec (by simp) _)
  · exact hstart.trans ((GuestFrame.runCode _ dec ripPre).finish dec (by simp) _)

end Cpueaxh
