/-
# The same surroundings

A CPU at two different times is surrounded by the same memory and the same hooks when the
memories differ in the page cache at most, and the callbacks answer from now on in the
same way; how often they have been asked before does not matter.

Two CPUs with one context in the same surroundings do the same: shown for single accesses,
for the operations of the instructions, and from these for an instruction as a whole.
-/
import Cpueaxh.CacheFree
import Cpueaxh.EngineFrame

namespace Cpueaxh

open HostMemory

/-! ## Hooks -/

/-- The same hooks are installed, and the answers from `asked'` on are those from `asked`
on. -/
structure SameHooks (hooks : Hooks) (asked : ℕ) (hooks' : Hooks) (asked' : ℕ) : Prop where
  installed_eq : hooks'.installed = hooks.installed
  answers_eq : ∀ n, hooks'.answers (asked' + n) = hooks.answers (asked + n)

namespace SameHooks

variable {hooks hooks' : Hooks} {asked asked' : ℕ}

theorem refl (hooks : Hooks) (asked : ℕ) : SameHooks hooks asked hooks asked :=
  ⟨rfl, fun _ => rfl⟩

theorem symm (h : SameHooks hooks asked hooks' asked') : SameHooks hooks' asked' hooks asked :=
  ⟨h.installed_eq.symm, fun n => (h.answers_eq n).symm⟩

theorem trans {hooks'' : Hooks} {asked'' : ℕ} (h : SameHooks hooks asked hooks' asked')
    (h' : SameHooks hooks' asked' hooks'' asked'') : SameHooks hooks asked hooks'' asked'' :=
  ⟨h'.installed_eq.trans h.installed_eq, fun n => (h'.answers_eq n).trans (h.answers_eq n)⟩

/-- The hooks stay the same while the callbacks are asked equally often. -/
theorem add (h : SameHooks hooks asked hooks' asked') (k : ℕ) :
    SameHooks hooks (asked + k) hooks' (asked' + k) := by
  constructor
  · exact h.installed_eq
  · intro n
    rw [Nat.add_assoc, Nat.add_assoc]
    exact h.answers_eq (k + n)

/-- The next answer. -/
theorem answer_eq (h : SameHooks hooks asked hooks' asked') :
    hooks'.answers asked' = hooks.answers asked := h.answers_eq 0

/-- The same violation is left after the same number of callbacks. -/
theorem faultOutcome (h : SameHooks hooks asked hooks' asked') (access : Access)
    (violation : Bool) (left : ℕ) : ∃ v k,
      faultOutcome hooks access violation left asked = (v, asked + k) ∧
      faultOutcome hooks' access violation left asked' = (v, asked' + k) := by
  induction left generalizing asked asked' with
  | zero => exact ⟨true, 0, rfl, rfl⟩
  | succ left ih =>
    unfold Cpueaxh.faultOutcome
    rw [h.installed_eq, h.answer_eq]
    split_ifs
    · -- the callback claims to have handled the fault: the next attempt is made
      obtain ⟨v, k, hv, hv'⟩ := ih (h.add 1)
      refine ⟨v, 1 + k, ?_, ?_⟩
      · rw [hv, Nat.add_assoc]
      · rw [hv', Nat.add_assoc]
    · exact ⟨violation, 1, rfl, rfl⟩
    · exact ⟨violation, 0, rfl, rfl⟩

/-- **An access** has the same outcome after the same number of callbacks. -/
theorem accessOutcome (h : SameHooks hooks asked hooks' asked') (ctx : CpuContext)
    (view : PtrResult) (address : U64) (access : Access) : ∃ ptr out k,
      accessOutcome ctx view hooks asked address access = (ptr, out, asked + k) ∧
      accessOutcome ctx view hooks' asked' address access = (ptr, out, asked' + k) := by
  unfold Cpueaxh.accessOutcome
  split_ifs
  · exact ⟨none, ctx, 0, rfl, rfl⟩
  · exact ⟨none, _, 0, rfl, rfl⟩
  · cases judgeAccess ctx.isUser view with
    | ok ptr => exact ⟨some ptr, ctx, 0, rfl, rfl⟩
    | error violation =>
      obtain ⟨v, k, hv, hv'⟩ := h.faultOutcome access violation 4
      refine ⟨none, cpuRaisePageFault ctx address access v, k, ?_, ?_⟩
      · simp only [hv]
      · simp only [hv']

end SameHooks

/-! ## Surroundings -/

/-- The CPU `cpu'` is surrounded by what `cpu` is surrounded by. -/
structure SameSurroundings (cpu cpu' : Cpu) : Prop where
  memory_eq : cpu'.memory = cpu.memory.setCache cpu'.memory.pageCache
  hooks : SameHooks cpu.hooks cpu.asked cpu'.hooks cpu'.asked
  ok : MemoryOk cpu.memory
  ok' : MemoryOk cpu'.memory

namespace SameSurroundings

variable {cpu cpu' : Cpu}

theorem refl (hm : MemoryOk cpu.memory) : SameSurroundings cpu cpu :=
  ⟨rfl, .refl cpu.hooks cpu.asked, hm, hm⟩

theorem symm (h : SameSurroundings cpu cpu') : SameSurroundings cpu' cpu where
  memory_eq := by
    rw [h.memory_eq]
    rfl
  hooks := h.hooks.symm
  ok := h.ok'
  ok' := h.ok

theorem trans {cpu'' : Cpu} (h : SameSurroundings cpu cpu') (h' : SameSurroundings cpu' cpu'') :
    SameSurroundings cpu cpu'' where
  memory_eq := by
    rw [h'.memory_eq, h.memory_eq]
    rfl
  hooks := h.hooks.trans h'.hooks
  ok := h.ok
  ok' := h'.ok'

theorem host_eq (h : SameSurroundings cpu cpu') : cpu'.memory.host = cpu.memory.host := by
  rw [h.memory_eq]
  rfl

/-- The surroundings are what is around the context. -/
theorem setContext (h : SameSurroundings cpu cpu') (ctx ctx' : CpuContext) :
    SameSurroundings (cpu.setContext ctx) (cpu'.setContext ctx') :=
  ⟨h.memory_eq, h.hooks, h.ok, h.ok'⟩

theorem hasHookType (h : SameSurroundings cpu cpu') (type : HookType) :
    cpu'.hasHookType type = cpu.hasHookType type :=
  congrFun h.hooks.installed_eq type

end SameSurroundings

/-! ## Twins -/

/-- Two CPUs with one context in the same surroundings. -/
structure Twin (cpu cpu' : Cpu) : Prop extends SameSurroundings cpu cpu' where
  context_eq : cpu'.context = cpu.context

namespace Twin

variable {cpu cpu' : Cpu}

/-- The same new context for both. -/
theorem setContext (h : Twin cpu cpu') (ctx : CpuContext) :
    Twin (cpu.setContext ctx) (cpu'.setContext ctx) :=
  ⟨h.toSameSurroundings.setContext ctx ctx, rfl⟩

/-- The same change of the context for both. -/
theorem mapContext (h : Twin cpu cpu') (f : CpuContext → CpuContext) :
    Twin (cpu.setContext (f cpu.context)) (cpu'.setContext (f cpu'.context)) := by
  rw [h.context_eq]
  exact h.setContext _

theorem resolveMemoryAccess (h : Twin cpu cpu') (address : U64) (access : Access) :
    (cpu.resolveMemoryAccess address access).1 = (cpu'.resolveMemoryAccess address access).1 ∧
      Twin (cpu.resolveMemoryAccess address access).2
        (cpu'.resolveMemoryAccess address access).2 := by
  obtain ⟨cache, hmc, heq⟩ := Cpu.resolveMemoryAccess_spec h.ok address access
  obtain ⟨cache', hmc', heq'⟩ := Cpu.resolveMemoryAccess_spec h.ok' address access
  obtain ⟨ptr, out, k, hout, hout'⟩ := h.hooks.accessOutcome cpu.context
    (accessView cpu.memory address access.perm) address access
  have hview : accessView cpu'.memory address access.perm =
      accessView cpu.memory address access.perm := by
    rw [h.memory_eq, accessView_setCache]
  rw [h.context_eq, hview, hout'] at heq'
  rw [hout] at heq
  rw [heq, heq']
  refine ⟨rfl, ⟨?_, h.hooks.add k, hmc, hmc'⟩, rfl⟩
  show cpu'.memory.setCache cache' = _
  rw [h.memory_eq]
  rfl

/-- **One operation** answers both alike and keeps them twins. -/
theorem cpuOp (o : CpuOp) (h : Twin cpu cpu') :
    (cpuOp o cpu).1 = (cpuOp o cpu').1 ∧ Twin (cpuOp o cpu).2 (cpuOp o cpu').2 := by
  have hctx := h.context_eq
  cases o with
  | context => exact ⟨hctx.symm, h⟩
  | setContext ctx => exact ⟨rfl, h.mapContext fun old => old.keepMode ctx⟩
  | raise fault errorCode =>
    exact ⟨rfl, h.mapContext fun old => old.raiseException fault.code errorCode⟩
  | resolve address store => exact h.resolveMemoryAccess address (dataAccess store)
  | load p =>
    refine ⟨?_, h⟩
    show (cpu.memory.host.read p).getD 0 = (cpu'.memory.host.read p).getD 0
    rw [h.host_eq]
  | store p value =>
    refine ⟨rfl, ⟨?_, h.hooks, h.ok.write p value, h.ok'.write p value⟩, hctx⟩
    show cpu'.memory.setHost (cpu'.memory.host.write p value) = _
    rw [h.memory_eq]
    rfl
  | notify type address size value => exact ⟨rfl, h⟩
  | tryHandleInvalid store =>
    simp only [Cpueaxh.cpuOp, hctx, Cpu.tryHandleInvalidMemoryAccess, h.hasHookType]
    split_ifs
    · exact ⟨rfl, h⟩
    · exact ⟨h.hooks.answer_eq.symm, ⟨h.memory_eq, h.hooks.add 1, h.ok, h.ok'⟩, rfl⟩
    · exact ⟨rfl, h⟩
  | raisePageFault address store =>
    simp only [Cpueaxh.cpuOp, hctx]
    split_ifs
    · exact ⟨trivial, h⟩
    · exact ⟨trivial, h.mapContext fun old => cpuRaisePageFault old address (dataAccess store) true⟩
  | canUsePageFastPath =>
    refine ⟨?_, h⟩
    show (cpu.memory.patches.length == 0) = (cpu'.memory.patches.length == 0)
    rw [h.memory_eq]
    rfl
  | isHostWritePassthrough =>
    refine ⟨?_, h⟩
    show cpu.memory.hostWritePassthrough = cpu'.memory.hostWritePassthrough
    rw [h.memory_eq]
    rfl

theorem farOp (o : FarOp) (h : Twin cpu cpu') :
    (farOp o cpu).1 = (farOp o cpu').1 ∧ Twin (farOp o cpu).2 (farOp o cpu').2 := by
  cases o with
  | cpu o => exact h.cpuOp o
  | writeCs selector descriptor =>
    exact ⟨rfl, h.mapContext fun old => { old with
      cs := { selector := selector, descriptor := descriptor } }⟩
  | invalidateModeKey =>
    exact ⟨rfl, h.mapContext fun old => { old with cachedModeKeyValid := false }⟩

theorem handlerOp (o : HandlerOp) (h : Twin cpu cpu') :
    (handlerOp o cpu).1 = (handlerOp o cpu').1 ∧
      Twin (handlerOp o cpu).2 (handlerOp o cpu').2 := by
  cases o with
  | cpu o => exact h.cpuOp o
  | far t =>
    refine ⟨rfl, ?_⟩
    exact (Program.run_simulation Twin (fun o _ _ h _ => h.farOp o) t.program cpu cpu' h
      (Program.along_of_forall (fun _ _ => trivial) t.program cpu)).2

/-- **The code of an instruction** keeps twins. -/
theorem handler (code : Handler) (h : Twin cpu cpu') :
    Twin (code.run Cpueaxh.handlerOp cpu).2 (code.run Cpueaxh.handlerOp cpu').2 :=
  (Program.run_simulation Twin (fun o _ _ h _ => h.handlerOp o) code cpu cpu' h
    (Program.along_of_forall (fun _ _ => trivial) code cpu)).2

/-! ## One instruction -/

theorem setSegmentOverride (h : Twin cpu cpu') (override : ℤ) :
    Twin (cpu.setSegmentOverride override) (cpu'.setSegmentOverride override) :=
  h.mapContext fun old => { old with segmentOverride := override }

theorem raise (h : Twin cpu cpu') (code : U32) : Twin (cpu.raise code) (cpu'.raise code) :=
  h.mapContext fun old => old.raiseException code 0

theorem notifyFetchedBytes (h : Twin cpu cpu') (dec : DecodedInst) :
    Twin (cpu.notifyFetchedBytes dec) (cpu'.notifyFetchedBytes dec) := by
  unfold Cpu.notifyFetchedBytes
  rw [h.hasHookType]
  split_ifs
  · exact h.raise cpuExceptionUd
  · exact h

theorem runCode (h : Twin cpu cpu') (dec : DecodedInst) (ripPre : U64) :
    Twin (cpu.runCode dec ripPre) (cpu'.runCode dec ripPre) := by
  have hcode := h.handler dec.code.1
  unfold Cpu.runCode
  simp only
  rw [hcode.context_eq]
  split_ifs
  · exact hcode.setContext _
  · exact hcode

theorem finish (h : Twin cpu cpu') (dec : DecodedInst) (snapshot : Option CpuContext)
    (result : StepResult) :
    (cpu.finish dec snapshot result).1 = (cpu'.finish dec snapshot result).1 ∧
      Twin (cpu.finish dec snapshot result).2 (cpu'.finish dec snapshot result).2 := by
  unfold Cpu.finish
  rw [h.context_eq]
  split_ifs
  · exact ⟨rfl, (h.setContext _).setSegmentOverride (-1)⟩
  · exact ⟨rfl, h.setSegmentOverride (-1)⟩

/-- **An instruction** has the same result on twins and keeps them. -/
theorem dispatchDecoded (h : Twin cpu cpu') (dec : DecodedInst) (ripPre : U64) :
    (cpu.dispatchDecoded dec ripPre).1 = (cpu'.dispatchDecoded dec ripPre).1 ∧
      Twin (cpu.dispatchDecoded dec ripPre).2 (cpu'.dispatchDecoded dec ripPre).2 := by
  have hbegin := (h.notifyFetchedBytes dec).setSegmentOverride dec.segmentOverride
  unfold Cpu.dispatchDecoded
  simp only
  rw [hbegin.context_eq]
  split_ifs
  · exact (hbegin.raise cpuExceptionUd).finish dec none .ud
  · exact (hbegin.raise cpuExceptionBp).finish dec none .exception
  · exact (hbegin.raise cpuExceptionDb).finish dec none .exception
  · exact (hbegin.runCode dec ripPre).finish dec _ .ok
  · exact (hbegin.runCode dec ripPre).finish dec _ .ok

end Twin

end Cpueaxh
