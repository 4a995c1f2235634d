/-
# Programs without the page cache

The page cache has no effect on what a program of the CPU does: past the cache, an access
asks the table, and a program returns the same value and ends in the same state but for
the cache.  So the facts about programs are proved for the operations past the cache.
-/
import Cpueaxh.Fetch

namespace Cpueaxh

open HostMemory

/-! ## Operations past the page cache -/

/-- The effect of an operation when accesses ask the table itself. -/
def viewOp : Program.Interpreter Cpu CpuOp CpuOp.Reply
  | .resolve address store, cpu =>
    let access := dataAccess store
    let out := accessOutcome cpu.context (accessView cpu.memory address access.perm) cpu.hooks
      cpu.asked address access
    (out.1, { cpu with context := out.2.1, asked := out.2.2 })
  | o, cpu => cpuOp o cpu

/-- Two CPUs that differ in their page caches at most, both of which are right. -/
structure UpToCache (cpu cpu' : Cpu) : Prop where
  eq : cpu' = cpu.setCache cpu'.memory.pageCache
  ok : MemoryOk cpu.memory
  ok' : MemoryOk cpu'.memory

theorem UpToCache.refl {cpu : Cpu} (hm : MemoryOk cpu.memory) : UpToCache cpu cpu :=
  ⟨rfl, hm, hm⟩

theorem UpToCache.context_eq {cpu cpu' : Cpu} (h : UpToCache cpu cpu') :
    cpu.context = cpu'.context :=
  (congrArg Cpu.context h.eq).symm

theorem UpToCache.host_eq {cpu cpu' : Cpu} (h : UpToCache cpu cpu') :
    cpu.memory.host = cpu'.memory.host :=
  (congrArg (fun c : Cpu => c.memory.host) h.eq).symm

theorem UpToCache.memory_eq {cpu cpu' : Cpu} (h : UpToCache cpu cpu') :
    cpu.memory = cpu'.memory.setCache cpu.memory.pageCache := by
  rw [h.eq]
  rfl

/-- **One operation** past the page cache answers as the operation does. -/
theorem cpuOp_viewOp (o : CpuOp) {cpu cpu' : Cpu} (h : UpToCache cpu cpu') :
    (cpuOp o cpu).1 = (viewOp o cpu').1 ∧ UpToCache (cpuOp o cpu).2 (viewOp o cpu').2 := by
  obtain ⟨heq, hm, hm'⟩ := h
  generalize cpu'.memory.pageCache = cache at heq
  subst heq
  cases o with
  | context => exact ⟨rfl, rfl, hm, hm'⟩
  | setContext ctx => exact ⟨rfl, rfl, hm, hm'⟩
  | raise fault errorCode => exact ⟨rfl, rfl, hm, hm'⟩
  | resolve address store =>
    obtain ⟨cache₂, hmc, hres⟩ := Cpu.resolveMemoryAccess_spec hm address (dataAccess store)
    show (cpu.resolveMemoryAccess address (dataAccess store)).1 = _ ∧
      UpToCache (cpu.resolveMemoryAccess address (dataAccess store)).2 _
    rw [hres]
    exact ⟨rfl, rfl, hmc, hm'⟩
  | load p => exact ⟨rfl, rfl, hm, hm'⟩
  | store p value => exact ⟨rfl, rfl, hm.write p value, hm'.write p value⟩
  | notify type address size value => exact ⟨rfl, rfl, hm, hm'⟩
  | tryHandleInvalid store =>
    simp only [viewOp, cpuOp, Cpu.tryHandleInvalidMemoryAccess, Cpu.hasHookType, Cpu.setCache]
    by_cases hexc : cpu.context.hasException = true
    · simp only [hexc, if_true]
      exact ⟨trivial, rfl, hm, hm'⟩
    by_cases hhook : cpu.hooks.installed
        (cpuGetInvalidMemoryHookType (dataAccess store) true) = true
    · simp only [hexc, hhook, Bool.false_eq_true, if_false, if_true]
      exact ⟨trivial, rfl, hm, hm'⟩
    · simp only [hexc, hhook, Bool.false_eq_true, if_false]
      exact ⟨trivial, rfl, hm, hm'⟩
  | raisePageFault address store =>
    simp only [viewOp, cpuOp, Cpu.raisePageFault, Cpu.setCache]
    by_cases hexc : cpu.context.hasException = true
    · simp only [hexc, if_true]
      exact ⟨trivial, rfl, hm, hm'⟩
    · simp only [hexc, Bool.false_eq_true, if_false]
      exact ⟨trivial, rfl, hm, hm'⟩
  | canUsePageFastPath => exact ⟨rfl, rfl, hm, hm'⟩
  | isHostWritePassthrough => exact ⟨rfl, rfl, hm, hm'⟩

/-- **A program** past the page cache, from a CPU that differs in its cache. -/
theorem run_viewOp_from {α : Type} (p : CpuProgram α) {cpu cpu' : Cpu} (h : UpToCache cpu cpu') :
    (p.run cpuOp cpu).1 = (p.run viewOp cpu').1 ∧
      UpToCache (p.run cpuOp cpu).2 (p.run viewOp cpu').2 :=
  Program.run_simulation UpToCache (fun o _ _ h _ => cpuOp_viewOp o h) p cpu cpu' h
    (Program.along_of_forall (fun _ _ => trivial) p cpu)

/-- **A program** past the page cache returns what the program returns. -/
theorem run_viewOp {α : Type} (p : CpuProgram α) {cpu : Cpu} (hm : MemoryOk cpu.memory) :
    (p.run cpuOp cpu).1 = (p.run viewOp cpu).1 ∧
      UpToCache (p.run cpuOp cpu).2 (p.run viewOp cpu).2 :=
  run_viewOp_from p (.refl hm)

/-- The effect of an operation of a far transfer past the page cache. -/
def viewFarOp : Program.Interpreter Cpu FarOp FarOp.Reply
  | .cpu o, cpu => viewOp o cpu
  | o, cpu => farOp o cpu

theorem farOp_viewFarOp (o : FarOp) {cpu cpu' : Cpu} (h : UpToCache cpu cpu') :
    (farOp o cpu).1 = (viewFarOp o cpu').1 ∧ UpToCache (farOp o cpu).2 (viewFarOp o cpu').2 := by
  cases o with
  | cpu o => exact cpuOp_viewOp o h
  | writeCs selector descriptor =>
    obtain ⟨heq, hm, hm'⟩ := h
    generalize cpu'.memory.pageCache = cache at heq
    subst heq
    exact ⟨rfl, rfl, hm, hm'⟩
  | invalidateModeKey =>
    obtain ⟨heq, hm, hm'⟩ := h
    generalize cpu'.memory.pageCache = cache at heq
    subst heq
    exact ⟨rfl, rfl, hm, hm'⟩

/-- **A far transfer** past the page cache. -/
theorem run_viewFarOp {α : Type} (p : FarProgram α) {cpu cpu' : Cpu} (h : UpToCache cpu cpu') :
    (p.run farOp cpu).1 = (p.run viewFarOp cpu').1 ∧
      UpToCache (p.run farOp cpu).2 (p.run viewFarOp cpu').2 :=
  Program.run_simulation UpToCache (fun o _ _ h _ => farOp_viewFarOp o h) p cpu cpu' h
    (Program.along_of_forall (fun _ _ => trivial) p cpu)

/-- An ordinary part of a far transfer runs as it does on its own. -/
@[simp] theorem run_ordinary_view {α : Type} (p : CpuProgram α) (cpu : Cpu) :
    (ordinary p).run viewFarOp cpu = p.run viewOp cpu := by
  have hop : ∀ (o : CpuOp) (s : Cpu), (viewFarOp (.cpu o) s).1 = (viewOp o s).1 ∧
      (viewFarOp (.cpu o) s).2 = (viewOp o s).2 := fun o s => ⟨rfl, rfl⟩
  exact Program.run_lift hop p cpu

end Cpueaxh
