/-
# Runs and the page cache

The page cache is filled by queries and by accesses, and cleared by the calls that change
the table.  In every state of every run each valid entry is the one that a miss would
fill in now, so a query through the cache answers as one that finds the cache empty.
-/
import Cpueaxh.EngineRuns

namespace Cpueaxh

open HostMemory Transition

variable {isa : InstructionSet}

/-- What happens to the memory of an engine: a guest step or a call, or one of the lookups
that only fill the page cache. -/
inductive LookupEvent where
  | engine (event : EngineEvent)
  | query (address : U64)
  | access (address : U64) (perm : U32)

/-- The engine after an event. -/
def Engine.look (isa : InstructionSet) (engine : Engine) : LookupEvent → Engine
  | .engine event => engine.apply isa event
  | .query address => engine.setMemory (mmQuery engine.cpu.memory address).2
  | .access address perm => engine.setMemory (mmGetPtrChecked engine.cpu.memory address perm).2

/-- **One event** keeps the invariant of the memory, and with it the page cache right. -/
theorem memoryOk_look {engine : Engine} (hm : MemoryOk engine.cpu.memory) (event : LookupEvent) :
    MemoryOk (engine.look isa event).cpu.memory := by
  cases event with
  | engine event => exact (apply_frame hm event).ok hm
  | query address =>
    obtain ⟨-, cache, heq, hcache⟩ := mmQuery_spec hm.manager hm.cache address
    show MemoryOk (mmQuery engine.cpu.memory address).2
    rw [heq]
    exact hm.setCache hcache
  | access address perm => exact (mmGetPtrChecked_frame _ address perm).ok hm

/-- The manager with a cleared page cache. -/
def MemoryManager.clearCache (mgr : MemoryManager) : MemoryManager :=
  mgr.setCache fun _ => .zero

/-- A cleared cache misses. -/
theorem mmQuery_clearCache (mgr : MemoryManager) (address : U64) :
    (mmQuery mgr.clearCache address).1 =
      (pageEntry mgr address).map fun entry => entry.info address := by
  have hmiss : ¬ ((mgr.clearCache.pageCache (mmCacheSlot address)).valid
      && (mgr.clearCache.pageCache (mmCacheSlot address)).pageBase ==
        alignDownPage address) = true := by
    show ¬ (PageCacheEntry.zero.valid && _) = true
    simp [PageCacheEntry.zero]
  unfold mmQuery
  simp only [hmiss, Bool.false_eq_true, if_false]
  have hentry : pageEntry mgr.clearCache address = pageEntry mgr address := rfl
  rw [hentry]
  cases pageEntry mgr address <;> rfl

/-- **The page cache.**  In every state of every run, a query through the page cache gives
the pointer, the permissions and the attributes that a query past the cache gives. -/
theorem query_cached_eq_uncached (isa : InstructionSet) (compat32 cached : Bool)
    (host : HostMemory) (events : List LookupEvent) (address : U64) :
    let mgr := (run (Engine.look isa) (openEngine compat32 cached host) events).cpu.memory
    (mmQuery mgr address).1 = (mmQuery mgr.clearCache address).1 := by
  intro mgr
  have hm : MemoryOk mgr :=
    run_invariant_always (fun engine : Engine => MemoryOk engine.cpu.memory)
      (fun _ event h => memoryOk_look h event) events _
      (memoryOk_openEngine compat32 cached host)
  rw [(mmQuery_spec hm.manager hm.cache address).1, mmQuery_clearCache]

end Cpueaxh
