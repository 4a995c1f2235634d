/-
# What an instruction sees of a context

The prefixes, the override of the segment, the size of the last instruction and the
cached mode key are scratch fields of a context: a decoder sets them before the code of
its instruction runs.  The other fields are visible.  Two CPUs are alike when their
contexts have the same visible fields and they are in the same surroundings.

A step of an engine keeps engines alike when its instruction is blind to the scratch
fields and the entry of the instruction cache, if there is one, is settled: it is what the
bytes at `rip` decode to.
-/
import Cpueaxh.Surroundings
import Cpueaxh.PublicContext

namespace Cpueaxh

open HostMemory

/-! ## Visible fields -/

/-- The context with its scratch fields cleared. -/
def CpuContext.visible (ctx : CpuContext) : CpuContext :=
  { ctx with
    prefixBits :=
      { rexPresent := false, rexW := false, rexR := false, rexX := false, rexB := false,
        operandSizeOverride := false, addressSizeOverride := false }
    segmentOverride := -1
    lastInstSize := 0
    cachedModeKeyBits := 0
    cachedModeKeyValid := false }

/-- The context with other scratch fields. -/
def CpuContext.withScratch (ctx : CpuContext) (bits : PrefixBits) (override size : ℤ) (key : U8)
    (valid : Bool) : CpuContext :=
  { ctx with
    prefixBits := bits
    segmentOverride := override
    lastInstSize := size
    cachedModeKeyBits := key
    cachedModeKeyValid := valid }

section Visible

variable {ctx ctx' : CpuContext}

@[simp] theorem visible_withScratch (bits : PrefixBits) (override size : ℤ) (key : U8)
    (valid : Bool) : (ctx.withScratch bits override size key valid).visible = ctx.visible := rfl

/-- Contexts with the same visible fields differ in their scratch fields. -/
theorem exists_withScratch (h : ctx'.visible = ctx.visible) :
    ∃ bits override size key valid, ctx' = ctx.withScratch bits override size key valid := by
  refine ⟨ctx'.prefixBits, ctx'.segmentOverride, ctx'.lastInstSize, ctx'.cachedModeKeyBits,
    ctx'.cachedModeKeyValid, ?_⟩
  have hrestore : ctx' = ctx'.visible.withScratch ctx'.prefixBits ctx'.segmentOverride
    ctx'.lastInstSize ctx'.cachedModeKeyBits ctx'.cachedModeKeyValid := rfl
  rw [hrestore, h]
  rfl

theorem visible_hasException (h : ctx'.visible = ctx.visible) :
    ctx'.hasException = ctx.hasException :=
  (congrArg CpuContext.hasException h : ctx'.visible.hasException = ctx.visible.hasException)

theorem visible_is64BitCode (h : ctx'.visible = ctx.visible) :
    ctx'.is64BitCode = ctx.is64BitCode :=
  (congrArg CpuContext.is64BitCode h : ctx'.visible.is64BitCode = ctx.visible.is64BitCode)

theorem visible_isUser (h : ctx'.visible = ctx.visible) : ctx'.isUser = ctx.isUser :=
  (congrArg CpuContext.isUser h : ctx'.visible.isUser = ctx.visible.isUser)

theorem visible_rip (h : ctx'.visible = ctx.visible) : ctx'.rip = ctx.rip :=
  (congrArg CpuContext.rip h : ctx'.visible.rip = ctx.visible.rip)

/-- The public context shows visible fields only. -/
theorem visible_contextOut (h : ctx'.visible = ctx.visible) :
    cpueaxhContextOut ctx' = cpueaxhContextOut ctx := by
  obtain ⟨bits, override, size, key, valid, rfl⟩ := exists_withScratch h
  rfl

/-- An exception is visible in the same way. -/
theorem visible_raiseException (h : ctx'.visible = ctx.visible) (code errorCode : U32) :
    (ctx'.raiseException code errorCode).visible = (ctx.raiseException code errorCode).visible := by
  obtain ⟨bits, override, size, key, valid, rfl⟩ := exists_withScratch h
  unfold CpuContext.raiseException
  rw [visible_hasException h]
  split_ifs
  · rfl
  · rfl

/-- A page fault is visible in the same way. -/
theorem visible_raisePageFault (h : ctx'.visible = ctx.visible) (address : U64) (access : Access)
    (violation : Bool) : (cpuRaisePageFault ctx' address access violation).visible =
      (cpuRaisePageFault ctx address access violation).visible := by
  obtain ⟨bits, override, size, key, valid, rfl⟩ := exists_withScratch h
  unfold cpuRaisePageFault
  apply visible_raiseException
  rfl

theorem visible_modeKey (ctx : CpuContext) :
    (cpuInstCacheModeKey ctx).2.visible = ctx.visible := by
  obtain ⟨bits, valid, heq⟩ := modeKey_context ctx
  rw [heq]
  rfl

end Visible

/-- The outcome of an access does not depend on the scratch fields. -/
theorem accessOutcome_visible {ctx ctx' : CpuContext} (h : ctx'.visible = ctx.visible)
    (view : PtrResult) (hooks : Hooks) (asked : ℕ) (address : U64) (access : Access) :
    (accessOutcome ctx' view hooks asked address access).1 =
        (accessOutcome ctx view hooks asked address access).1 ∧
      (accessOutcome ctx' view hooks asked address access).2.1.visible =
        (accessOutcome ctx view hooks asked address access).2.1.visible ∧
      (accessOutcome ctx' view hooks asked address access).2.2 =
        (accessOutcome ctx view hooks asked address access).2.2 := by
  unfold accessOutcome
  rw [visible_hasException h, visible_is64BitCode h, visible_isUser h]
  split_ifs
  · exact ⟨rfl, h, rfl⟩
  · exact ⟨rfl, visible_raiseException h _ _, rfl⟩
  · cases judgeAccess ctx.isUser view with
    | ok ptr => exact ⟨rfl, h, rfl⟩
    | error violation => exact ⟨rfl, visible_raisePageFault h _ _ _, rfl⟩

/-- **An access** has the same outcome in the same surroundings, up to the scratch
fields. -/
theorem SameHooks.accessOutcome_visible {hooks hooks' : Hooks} {asked asked' : ℕ}
    (h : SameHooks hooks asked hooks' asked') {ctx ctx' : CpuContext}
    (hctx : ctx'.visible = ctx.visible) (view : PtrResult) (address : U64) (access : Access) :
    ∃ ptr out out' k, out'.visible = out.visible ∧
      Cpueaxh.accessOutcome ctx view hooks asked address access = (ptr, out, asked + k) ∧
      Cpueaxh.accessOutcome ctx' view hooks' asked' address access = (ptr, out', asked' + k) := by
  obtain ⟨ptr, out', k, hout, hout'⟩ := h.accessOutcome ctx' view address access
  obtain ⟨hptr, hvisible, hasked⟩ :=
    Cpueaxh.accessOutcome_visible hctx view hooks asked address access
  rw [hout] at hptr hvisible hasked
  refine ⟨ptr, _, out', k, hvisible, ?_, hout'⟩
  exact Prod.ext hptr.symm (Prod.ext rfl hasked.symm)

/-! ## Alike -/

/-- The contexts have the same visible fields, in the same surroundings. -/
structure Alike (cpu cpu' : Cpu) : Prop extends SameSurroundings cpu cpu' where
  visible_eq : cpu'.context.visible = cpu.context.visible

theorem Twin.alike {cpu cpu' : Cpu} (h : Twin cpu cpu') : Alike cpu cpu' :=
  ⟨h.toSameSurroundings, by rw [h.context_eq]⟩

namespace Alike

variable {cpu cpu' : Cpu}

theorem refl (hm : MemoryOk cpu.memory) : Alike cpu cpu := ⟨.refl hm, rfl⟩

theorem symm (h : Alike cpu cpu') : Alike cpu' cpu :=
  ⟨h.toSameSurroundings.symm, h.visible_eq.symm⟩

theorem trans {cpu'' : Cpu} (h : Alike cpu cpu') (h' : Alike cpu' cpu'') : Alike cpu cpu'' :=
  ⟨h.toSameSurroundings.trans h'.toSameSurroundings, h'.visible_eq.trans h.visible_eq⟩

theorem setContext (h : Alike cpu cpu') {ctx ctx' : CpuContext}
    (hctx : ctx'.visible = ctx.visible) : Alike (cpu.setContext ctx) (cpu'.setContext ctx') :=
  ⟨h.toSameSurroundings.setContext ctx ctx', hctx⟩

/-- The same bytes lie at `rip`. -/
theorem codeView_eq (h : Alike cpu cpu') : cpu'.codeView = cpu.codeView := by
  unfold Cpu.codeView
  rw [visible_is64BitCode h.visible_eq, visible_isUser h.visible_eq, visible_rip h.visible_eq,
    h.memory_eq]
  exact codeBytes_setCache ..

theorem keyed (hm : MemoryOk cpu.memory) : Alike cpu cpu.keyed :=
  ⟨(SameSurroundings.refl hm).setContext cpu.context _, visible_modeKey cpu.context⟩

theorem setSegmentOverride (h : Alike cpu cpu') (override : ℤ) :
    Alike (cpu.setSegmentOverride override) (cpu'.setSegmentOverride override) :=
  h.setContext h.visible_eq

end Alike

/-! ## Fetching -/

namespace Cpu

/-- The CPU behind the fetch at `rip`, past the page cache. -/
def behindFetch (cpu : Cpu) : Cpu :=
  cpu.fetched cpu.memory.pageCache
    (fetchEnd cpu.context cpu.memory cpu.hooks cpu.asked cpu.context.rip maxInstFetch 0)

end Cpu

namespace Alike

variable {cpu cpu' : Cpu}

/-- **A fetch** keeps CPUs alike. -/
theorem behindFetch (h : Alike cpu cpu') : Alike cpu.behindFetch cpu'.behindFetch := by
  have h64 := visible_is64BitCode h.visible_eq
  have huser := visible_isUser h.visible_eq
  have hrip := visible_rip h.visible_eq
  suffices hend : ∃ out out' k, out'.visible = out.visible ∧
      fetchEnd cpu.context cpu.memory cpu.hooks cpu.asked cpu.context.rip maxInstFetch 0 =
        (out, cpu.asked + k) ∧
      fetchEnd cpu'.context cpu'.memory cpu'.hooks cpu'.asked cpu'.context.rip maxInstFetch 0 =
        (out', cpu'.asked + k) by
    obtain ⟨out, out', k, hvisible, hout, hout'⟩ := hend
    unfold Cpu.behindFetch
    rw [hout, hout']
    exact ⟨⟨h.memory_eq, h.hooks.add k, h.ok, h.ok'⟩, hvisible⟩
  rw [hrip, h.memory_eq, fetchEnd_setCache]
  unfold fetchEnd
  rw [h64, huser]
  simp only
  split_ifs
  · exact ⟨cpu.context, cpu'.context, 0, h.visible_eq, rfl, rfl⟩
  · obtain ⟨ptr, out, out', k, hvisible, hout, hout'⟩ :=
      h.hooks.accessOutcome_visible h.visible_eq (accessView cpu.memory (cpu.context.rip +
        BitVec.ofNat 64 (0 + (codeBytes cpu.context.is64BitCode cpu.context.isUser cpu.memory
          cpu.context.rip maxInstFetch 0).length)) mmProtExec)
        (cpu.context.rip + BitVec.ofNat 64 (0 + (codeBytes cpu.context.is64BitCode
          cpu.context.isUser cpu.memory cpu.context.rip maxInstFetch 0).length)) .exec
    exact ⟨out, out', k, hvisible, by rw [hout], by rw [hout']⟩

/-- The CPU behind a fetch of the engine is alike. -/
theorem of_fetched {cpu₁ : Cpu} (hm : MemoryOk cpu.memory) (h : cpu.Fetched cpu₁) :
    Alike cpu.behindFetch cpu₁ := by
  obtain ⟨cache, hmc, rfl⟩ := h
  exact ⟨⟨rfl, .refl _ _, hm, hmc⟩, rfl⟩

/-- A fetch that finds all its bytes leaves the CPU alone. -/
theorem behindFetch_full (hm : MemoryOk cpu.memory) (h : cpu.codeView.length = maxInstFetch) :
    Alike cpu cpu.behindFetch := by
  unfold Cpu.behindFetch
  rw [fetchEnd_complete h]
  exact .refl hm

end Alike

end Cpueaxh
