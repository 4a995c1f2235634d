/-
# Accesses of the CPU to memory

`cpu/memory.hpp`: how an access of the CPU is resolved to a host pointer.  An access
that is not allowed raises a page fault, unless the host program has installed a hook
for such accesses; then the callback is asked, and the access is tried again, at most
four times, as long as the callback says that it handled the fault.

A callback here answers and leaves the engine alone.  The answer of the `n`-th callback
is the `n`-th entry of a schedule which the model leaves arbitrary; calls of the host
program that change the engine are steps of their own.
-/
import Cpueaxh.CpuContext
import Cpueaxh.MemoryCalls
import Cpueaxh.Program

namespace Cpueaxh

open HostMemory

/-! ## Hooks -/

/-- The hook types. -/
inductive HookType where
  | codePre | codePost
  | memRead | memWrite | memFetch
  | memReadUnmapped | memWriteUnmapped | memFetchUnmapped
  | memReadProt | memWriteProt | memFetchProt
  deriving DecidableEq, Repr

/-- The installed hooks, `hook_type_counts[type] != 0`, and the answers that the
callbacks for invalid accesses give one after the other. -/
structure Hooks where
  installed : HookType → Bool
  answers : ℕ → Bool

/-- No hook at all. -/
def Hooks.none : Hooks := { installed := fun _ => false, answers := fun _ => false }

/-- A CPU context with the memory manager and the hooks that it points to, and the
number of callbacks for invalid accesses so far. -/
structure Cpu where
  context : CpuContext
  memory : MemoryManager
  hooks : Hooks
  asked : ℕ

/-- The kind of an access: the `MM_PROT_*` constant that it asks for. -/
inductive Access where
  | read | write | exec
  deriving DecidableEq, Repr

/-- The constant of an access. -/
def Access.perm : Access → U32
  | .read => mmProtRead
  | .write => mmProtWrite
  | .exec => mmProtExec

/-! ## Faults -/

/-- `cpu_make_page_fault_error`. -/
def cpuMakePageFaultError (ctx : CpuContext) (access : Access) (protectionViolation : Bool) : U32 :=
  (if protectionViolation then 0x1 else 0)
    ||| (if access = .write then 0x2 else 0)
    ||| (if ctx.cpl = 3 then 0x4 else 0)
    ||| (if access = .exec then 0x10 else 0)

/-- `cpu_raise_page_fault`. -/
def cpuRaisePageFault (ctx : CpuContext) (faultAddress : U64) (access : Access)
    (protectionViolation : Bool) : CpuContext :=
  CpuContext.raiseException
    { ctx with controlRegs := Function.update ctx.controlRegs regCr2 faultAddress }
    cpuExceptionPf (cpuMakePageFaultError ctx access protectionViolation)

/-- `cpu_raise_noncanonical_address`. -/
def cpuRaiseNoncanonicalAddress (ctx : CpuContext) (segment : SegmentRegisterIndex) : CpuContext :=
  if segment = .ss then ctx.raiseException cpuExceptionSs 0
  else ctx.raiseException cpuExceptionGp 0

/-- `cpu_validate_linear_address`. -/
def cpuValidateLinearAddress (ctx : CpuContext) (address : U64) (segment : SegmentRegisterIndex) :
    Bool × CpuContext :=
  if ctx.is64BitCode && !cpuIsCanonicalAddress address then
    (false, cpuRaiseNoncanonicalAddress ctx segment)
  else (true, ctx)

/-- `cpu_get_invalid_memory_hook_type`. -/
def cpuGetInvalidMemoryHookType : Access → Bool → HookType
  | .read, true => .memReadProt
  | .write, true => .memWriteProt
  | .exec, true => .memFetchProt
  | .read, false => .memReadUnmapped
  | .write, false => .memWriteUnmapped
  | .exec, false => .memFetchUnmapped

/-- The CPU executes user code. -/
def CpuContext.isUser (ctx : CpuContext) : Bool := ctx.cpl == 3

/-- What the result of `mm_get_ptr_checked` means for user or supervisor code: the
pointer, or whether the fault is a protection violation. -/
def judgeAccess (user : Bool) (result : PtrResult) : Except Bool HostPtr :=
  match result.status with
  | .unmapped => .error false
  | .prot => .error true
  | .ok =>
    if user ∧ result.cpuAttrs &&& mmCpuAttrUser = 0 then .error true
    else .ok result.ptr

/-- The pointer of an access that is granted is that of the table. -/
theorem judgeAccess_ptr {user : Bool} {view : PtrResult} {ptr : HostPtr}
    (h : judgeAccess user view = .ok ptr) : ptr = view.ptr := by
  unfold judgeAccess at h
  rcases hstatus : view.status with _ | _ | _ <;> rw [hstatus] at h <;> simp only at h
  · split_ifs at h
    exact (Except.ok.inj h).symm
  · cases h
  · cases h

namespace Cpu

/-- `cpu_has_hook_type`. -/
def hasHookType (cpu : Cpu) (type : HookType) : Bool := cpu.hooks.installed type

/-- `cpu_try_handle_invalid_memory_access`: ask the callback, if there is one. -/
def tryHandleInvalidMemoryAccess (cpu : Cpu) (access : Access) (protectionViolation : Bool) :
    Bool × Cpu :=
  if cpu.hasHookType (cpuGetInvalidMemoryHookType access protectionViolation) then
    (cpu.hooks.answers cpu.asked, { cpu with asked := cpu.asked + 1 })
  else (false, cpu)

/-- `cpu_has_invalid_memory_hooks_for_access`. -/
def hasInvalidMemoryHooksForAccess (cpu : Cpu) (access : Access) : Bool :=
  cpu.hasHookType (cpuGetInvalidMemoryHookType access false)
    || cpu.hasHookType (cpuGetInvalidMemoryHookType access true)

/-- `cpu_raise_page_fault` on the context. -/
def raisePageFault (cpu : Cpu) (address : U64) (access : Access) (protectionViolation : Bool) :
    Cpu :=
  { cpu with context := cpuRaisePageFault cpu.context address access protectionViolation }

/-! ## Resolving an access -/

/-- One attempt of `cpu_resolve_memory_access`. -/
def attempt (cpu : Cpu) (address : U64) (access : Access) : Except Bool HostPtr × Cpu :=
  match mmGetPtrChecked cpu.memory address access.perm with
  | (result, memory) => (judgeAccess cpu.context.isUser result, { cpu with memory := memory })

/-- The loop of `cpu_resolve_memory_access`, with the number of attempts that are left. -/
def resolveLoop (address : U64) (access : Access) : ℕ → Cpu → Option HostPtr × Cpu
  | 0, cpu => (none, cpu.raisePageFault address access true)
  | left + 1, cpu =>
    match cpu.attempt address access with
    | (.ok ptr, cpu) => (some ptr, cpu)
    | (.error violation, cpu) =>
      match cpu.tryHandleInvalidMemoryAccess access violation with
      | (true, cpu) => resolveLoop address access left cpu
      | (false, cpu) => (none, cpu.raisePageFault address access violation)

/-- `cpu_resolve_memory_access`; `none` is any status but `MM_ACCESS_OK`. -/
def resolveMemoryAccess (cpu : Cpu) (address : U64) (access : Access) : Option HostPtr × Cpu :=
  if cpu.context.hasException then (none, cpu)
  else
    match cpuValidateLinearAddress cpu.context address .ds with
    | (false, ctx) => (none, { cpu with context := ctx })
    | (true, _) =>
      if cpu.hasInvalidMemoryHooksForAccess access then resolveLoop address access 4 cpu
      else
        match cpu.attempt address access with
        | (.ok ptr, cpu) => (some ptr, cpu)
        | (.error violation, cpu) => (none, cpu.raisePageFault address access violation)

end Cpu

/-! ## What an access does

Without the page cache, the outcome of an access is a function of the context, of what
the table grants at the address, and of the hooks. -/

/-- The violation that is reported after at most `left` attempts, and the number of
callbacks then. -/
def faultOutcome (hooks : Hooks) (access : Access) (violation : Bool) : ℕ → ℕ → Bool × ℕ
  | 0, asked => (true, asked)
  | left + 1, asked =>
    if hooks.installed (cpuGetInvalidMemoryHookType access violation) then
      if hooks.answers asked then faultOutcome hooks access violation left (asked + 1)
      else (violation, asked + 1)
    else (violation, asked)

/-- The outcome of an access to an address for which the table gives `view`: the
pointer, the context and the number of callbacks. -/
def accessOutcome (ctx : CpuContext) (view : PtrResult) (hooks : Hooks) (asked : ℕ)
    (address : U64) (access : Access) : Option HostPtr × CpuContext × ℕ :=
  if ctx.hasException then (none, ctx, asked)
  else if ctx.is64BitCode && !cpuIsCanonicalAddress address then
    (none, cpuRaiseNoncanonicalAddress ctx .ds, asked)
  else
    match judgeAccess ctx.isUser view with
    | .ok ptr => (some ptr, ctx, asked)
    | .error violation =>
      (none, cpuRaisePageFault ctx address access
        (faultOutcome hooks access violation 4 asked).1,
        (faultOutcome hooks access violation 4 asked).2)

namespace Cpu

/-- The CPU with another page cache. -/
def setCache (cpu : Cpu) (cache : ℕ → PageCacheEntry) : Cpu :=
  { cpu with memory := cpu.memory.setCache cache }

/-- One attempt judges what the table gives. -/
theorem attempt_spec {cpu : Cpu} (hm : MemoryOk cpu.memory) (address : U64) (access : Access) :
    ∃ cache, cpu.attempt address access =
        (judgeAccess cpu.context.isUser (accessView cpu.memory address access.perm), cpu.setCache cache) ∧
      MemoryOk (cpu.memory.setCache cache) := by
  obtain ⟨hfst, cache, hsnd, hc⟩ :=
    mmGetPtrChecked_spec hm.manager hm.cache address access.perm
  refine ⟨cache, ?_, hm.setCache hc⟩
  unfold attempt
  rcases hget : mmGetPtrChecked cpu.memory address access.perm with ⟨result, memory⟩
  rw [hget] at hfst hsnd
  simp only at hfst hsnd
  rw [hfst, hsnd]
  rfl

/-- The loop ends with the same pointer whatever the callbacks answer, and otherwise
with the fault that they leave. -/
theorem resolveLoop_spec (address : U64) (access : Access) (left : ℕ) :
    ∀ {cpu : Cpu}, MemoryOk cpu.memory →
      ∃ cache, MemoryOk (cpu.memory.setCache cache) ∧
        (∀ ptr, judgeAccess cpu.context.isUser (accessView cpu.memory address access.perm) = .ok ptr →
          0 < left → resolveLoop address access left cpu = (some ptr, cpu.setCache cache)) ∧
        (∀ violation,
          judgeAccess cpu.context.isUser (accessView cpu.memory address access.perm) = .error violation →
          resolveLoop address access left cpu =
            (none, { cpu.setCache cache with
              context := cpuRaisePageFault cpu.context address access
                (faultOutcome cpu.hooks access violation left cpu.asked).1
              asked := (faultOutcome cpu.hooks access violation left cpu.asked).2 })) := by
  induction left with
  | zero =>
    intro cpu hm
    exact ⟨cpu.memory.pageCache, hm, fun _ _ h => absurd h (lt_irrefl 0), fun _ _ => rfl⟩
  | succ left ih =>
    intro cpu hm
    obtain ⟨cache, hattempt, hmc⟩ := attempt_spec hm address access
    cases hjudge : judgeAccess cpu.context.isUser (accessView cpu.memory address access.perm) with
    | ok ptr =>
      refine ⟨cache, hmc, fun p hp _ => ?_, fun v hv => by cases hv⟩
      cases hp
      rw [resolveLoop, hattempt, hjudge]
    | error violation =>
      rw [hjudge] at hattempt
      by_cases hhook : cpu.hooks.installed (cpuGetInvalidMemoryHookType access violation) = true
      · cases hanswer : cpu.hooks.answers cpu.asked with
        | true =>
          -- the callback claims to have handled the fault: the loop goes on
          obtain ⟨cache', hmc', -, hfault⟩ :=
            @ih { cpu.setCache cache with asked := cpu.asked + 1 } hmc
          refine ⟨cache', hmc', fun p hp => (by cases hp), fun v hv => ?_⟩
          cases hv
          have htry : (cpu.setCache cache).tryHandleInvalidMemoryAccess access violation =
              (true, { cpu.setCache cache with asked := cpu.asked + 1 }) := by
            unfold tryHandleInvalidMemoryAccess hasHookType setCache
            rw [if_pos hhook, hanswer]
          rw [resolveLoop, hattempt]
          simp only [htry]
          rw [hfault violation hjudge]
          simp only [faultOutcome, hhook, hanswer, if_true]
          rfl
        | false =>
          refine ⟨cache, hmc, fun p hp => (by cases hp), fun v hv => ?_⟩
          cases hv
          have htry : (cpu.setCache cache).tryHandleInvalidMemoryAccess access violation =
              (false, { cpu.setCache cache with asked := cpu.asked + 1 }) := by
            unfold tryHandleInvalidMemoryAccess hasHookType setCache
            rw [if_pos hhook, hanswer]
          rw [resolveLoop, hattempt]
          simp only [htry, faultOutcome, hhook, hanswer, if_true, Bool.false_eq_true, if_false]
          rfl
      · refine ⟨cache, hmc, fun p hp => (by cases hp), fun v hv => ?_⟩
        cases hv
        have htry : (cpu.setCache cache).tryHandleInvalidMemoryAccess access violation =
            (false, cpu.setCache cache) := by
          unfold tryHandleInvalidMemoryAccess hasHookType setCache
          rw [if_neg hhook]
        rw [resolveLoop, hattempt]
        simp only [htry, faultOutcome, hhook, Bool.false_eq_true, if_false]
        rfl

/-- **An access** has its outcome, and fills the page cache at most. -/
theorem resolveMemoryAccess_spec {cpu : Cpu} (hm : MemoryOk cpu.memory) (address : U64)
    (access : Access) :
    ∃ cache, MemoryOk (cpu.memory.setCache cache) ∧
      cpu.resolveMemoryAccess address access =
        ((accessOutcome cpu.context (accessView cpu.memory address access.perm) cpu.hooks cpu.asked
            address access).1,
          { context := (accessOutcome cpu.context (accessView cpu.memory address access.perm)
              cpu.hooks cpu.asked address access).2.1
            memory := cpu.memory.setCache cache
            hooks := cpu.hooks
            asked := (accessOutcome cpu.context (accessView cpu.memory address access.perm)
              cpu.hooks cpu.asked address access).2.2 }) := by
  unfold resolveMemoryAccess accessOutcome cpuValidateLinearAddress
  by_cases hexc : cpu.context.hasException = true
  · simp only [hexc, if_true]
    exact ⟨cpu.memory.pageCache, hm, rfl⟩
  by_cases hcanon : (cpu.context.is64BitCode && !cpuIsCanonicalAddress address) = true
  · simp only [hexc, hcanon, if_true, Bool.false_eq_true, if_false]
    exact ⟨cpu.memory.pageCache, hm, rfl⟩
  simp only [hexc, hcanon, Bool.false_eq_true, if_false]
  by_cases hhooks : cpu.hasInvalidMemoryHooksForAccess access = true
  · rw [if_pos hhooks]
    obtain ⟨cache, hmc, hok, herror⟩ := resolveLoop_spec address access 4 hm
    refine ⟨cache, hmc, ?_⟩
    cases hjudge : judgeAccess cpu.context.isUser (accessView cpu.memory address access.perm) with
    | ok ptr =>
      rw [hok ptr hjudge (by decide)]
      rfl
    | error violation =>
      rw [herror violation hjudge]
      rfl
  · rw [if_neg hhooks]
    obtain ⟨cache, hattempt, hmc⟩ := attempt_spec hm address access
    refine ⟨cache, hmc, ?_⟩
    rw [hattempt]
    cases hjudge : judgeAccess cpu.context.isUser (accessView cpu.memory address access.perm) with
    | ok ptr => rfl
    | error violation =>
      have hnone : cpu.hooks.installed (cpuGetInvalidMemoryHookType access violation) = false := by
        simp only [hasInvalidMemoryHooksForAccess, hasHookType, Bool.or_eq_true, not_or,
          Bool.not_eq_true] at hhooks
        cases violation
        · exact hhooks.1
        · exact hhooks.2
      simp only [faultOutcome, hnone, Bool.false_eq_true, if_false]
      rfl

end Cpu

end Cpueaxh
