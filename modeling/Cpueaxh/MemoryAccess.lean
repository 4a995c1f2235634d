/-
# Access to guest memory

The part of `memory/manager.hpp` that serves single accesses: the page cache, the
check of the permissions of an address, the code patches that redirect reads in host
mode, and the raw reads and writes of the host program.

`accessView` is what an access gets from the region table itself.  The page cache only
remembers it: `PageCacheOk` says that every entry is what a miss would fill in, and
under it the cached lookup gives the same answer as `accessView`.
-/
import Cpueaxh.PageRefinement

namespace Cpueaxh

open HostMemory

/-! ## Lookup of an address -/

/-- `MM_ACCESS_STATUS`. -/
inductive MmAccessStatus where
  | ok | unmapped | prot
  deriving DecidableEq, Repr

/-- `MM_ACCESS_INFO` of an address that is mapped. -/
structure MmAccessInfo where
  ptr : HostPtr
  perms : U32
  cpuAttrs : U32
  deriving DecidableEq, Repr

/-- `mm_host_passthrough_perms`. -/
def mmHostPassthroughPerms (mgr : MemoryManager) : U32 :=
  (if mgr.hostReadPassthrough then mmProtRead else 0)
    ||| (if mgr.hostWritePassthrough then mmProtWrite else 0)
    ||| (if mgr.hostExecPassthrough then mmProtExec else 0)

/-- `mm_cache_slot`. -/
def mmCacheSlot (address : U64) : ℕ := ((address >>> 12) &&& 0xFF).toNat

/-- The manager with another page cache. -/
def MemoryManager.setCache (mgr : MemoryManager) (cache : ℕ → PageCacheEntry) : MemoryManager :=
  { mgr with pageCache := cache }

/-- The manager with another host memory. -/
def MemoryManager.setHost (mgr : MemoryManager) (host : HostMemory) : MemoryManager :=
  { mgr with host := host }

/-- What `mm_query` reads from a cache entry. -/
def PageCacheEntry.info (entry : PageCacheEntry) (address : U64) : MmAccessInfo :=
  { ptr := entry.hostPage.add (address - alignDownPage address),
    perms := entry.perms, cpuAttrs := entry.cpuAttrs }

/-- The entry that `mm_query` fills in on a miss: the page of a region, or a page of
the host process. -/
def pageEntry (mgr : MemoryManager) (address : U64) : Option PageCacheEntry :=
  let pageBase := alignDownPage address
  match mmFindRegion mgr address with
  | some region =>
    some { pageBase := pageBase, hostPage := region.data.add (pageBase - region.base),
           perms := region.perms, cpuAttrs := region.cpuAttrs, valid := true }
  | none =>
    if mmHostPassthroughPerms mgr != 0 then
      some { pageBase := pageBase, hostPage := .user pageBase,
             perms := mmHostPassthroughPerms mgr, cpuAttrs := mmCpuAttrUser, valid := true }
    else none

/-- `mm_query`; `none` is an address that is not mapped. -/
def mmQuery (mgr : MemoryManager) (address : U64) : Option MmAccessInfo × MemoryManager :=
  let cached := mgr.pageCache (mmCacheSlot address)
  if cached.valid && cached.pageBase == alignDownPage address then
    (some (cached.info address), mgr)
  else
    match pageEntry mgr address with
    | some entry =>
      (some (entry.info address),
        mgr.setCache (Function.update mgr.pageCache (mmCacheSlot address) entry))
    | none => (none, mgr)

/-! ## Patches -/

/-- `mm_patch_bounds_may_contain`. -/
def mmPatchBoundsMayContain (mgr : MemoryManager) (address : U64) : Bool :=
  mgr.patches.length != 0 && decide (mgr.patchMinAddress ≤ address)
    && decide (address ≤ mgr.patchMaxAddress)

/-- The patch covers the address. -/
def PatchEntry.covers (patch : PatchEntry) (address : U64) : Bool :=
  patch.size != 0 && decide (patch.address ≤ address)
    && decide (address ≤ patch.address + patch.size - 1)

/-- `mm_find_patch`. -/
def mmFindPatch (mgr : MemoryManager) (address : U64) : Option PatchEntry :=
  if mmPatchBoundsMayContain mgr address then mgr.patches.find? fun p => p.covers address
  else none

/-- `mm_patch_range_overlaps`. -/
def mmPatchRangeOverlaps (leftAddress leftSize rightAddress rightSize : U64) : Bool :=
  if leftSize = 0 || rightSize = 0 then false
  else !(decide (leftAddress + leftSize - 1 < rightAddress)
    || decide (rightAddress + rightSize - 1 < leftAddress))

/-- `mm_rebuild_patch_bounds`. -/
def mmRebuildPatchBounds (mgr : MemoryManager) : MemoryManager :=
  let patches := mgr.patches.filter fun p => p.size != 0
  let minAddress := patches.foldl
    (fun low p => if p.address < low then p.address else low) (BitVec.allOnes 64)
  let maxAddress := patches.foldl
    (fun high p => if high < p.address + p.size - 1 then p.address + p.size - 1 else high) 0
  { mgr with
    patchMinAddress := if minAddress = BitVec.allOnes 64 then 0 else minAddress
    patchMaxAddress := maxAddress }

/-- `MM_PATCH_STATUS`. -/
inductive MmPatchStatus where
  | ok | arg | nomem | conflict | notFound
  deriving DecidableEq, Repr

/-- `mm_reserve_patch_capacity`. -/
def mmReservePatchCapacity (mgr : MemoryManager) (capacity : ℕ) : Bool × MemoryManager :=
  if capacity ≤ mgr.patchCapacity then (true, mgr)
  else if mgr.host.request.1 then
    (true, { mgr with
      host := mgr.host.request.2
      patchCapacity := growCapacity capacity 64
        (if mgr.patchCapacity = 0 then 8 else mgr.patchCapacity) })
  else (false, { mgr with host := mgr.host.request.2 })

/-- `CPUEAXH_MEMCPY` from a buffer of the caller into a block. -/
def copyIn (host : HostMemory) (target : HostPtr) (bytes : U64 → U8) (size : U64) : HostMemory :=
  match target with
  | .user _ => host
  | .heap block _ =>
    match host.blocks block with
    | some b =>
      { host with
        blocks := Function.update host.blocks block
          (some { b with bytes := fun o => if o < size then bytes o else b.bytes o }) }
    | none => host

/-- The manager with one more patch at the end of the array. -/
def appendPatch (mgr : MemoryManager) (address size : U64) (data : HostPtr) : MemoryManager :=
  let first := mgr.patches.length = 0
  { mgr with
    patches := mgr.patches ++
      [{ handle := mgr.nextPatchHandle, address := address, size := size, data := data }]
    nextPatchHandle := mgr.nextPatchHandle + 1
    patchMinAddress :=
      if first ∨ address < mgr.patchMinAddress then address else mgr.patchMinAddress
    patchMaxAddress :=
      if first ∨ mgr.patchMaxAddress < address + size - 1 then address + size - 1
      else mgr.patchMaxAddress }

/-- `mm_add_patch`. -/
def mmAddPatch (mgr : MemoryManager) (address : U64) (bytes : U64 → U8) (size : U64) :
    MmPatchStatus × MemoryManager :=
  if size = 0 || mmRangeOverflows address size then (.arg, mgr)
  else if mgr.patches.any fun p => mmPatchRangeOverlaps address size p.address p.size then
    (.conflict, mgr)
  else
    match mmReservePatchCapacity mgr (mgr.patches.length + 1) with
    | (false, mgr) => (.nomem, mgr)
    | (true, mgr) =>
      match mgr.host.allocZeroed size with
      | (none, host) => (.nomem, { mgr with host := host })
      | (some data, host) =>
        (.ok, mmBumpCodeVersion
          (appendPatch { mgr with host := copyIn host data bytes size } address size data))

/-- `mm_del_patch`. -/
def mmDelPatch (mgr : MemoryManager) (handle : U64) : MmPatchStatus × MemoryManager :=
  if handle = 0 then (.arg, mgr)
  else
    match mgr.patches.find? fun p => p.handle == handle with
    | none => (.notFound, mgr)
    | some patch =>
      (.ok, mmBumpCodeVersion (mmRebuildPatchBounds
        { mgr with
          patches := mgr.patches.eraseP fun p => p.handle == handle
          host := mgr.host.free patch.data }))

/-! ## Checked accesses -/

/-- What `mm_get_ptr_checked` returns: the status, `*out_ptr` and `*out_cpu_attrs`. -/
structure PtrResult where
  status : MmAccessStatus
  ptr : HostPtr
  cpuAttrs : U32
  deriving DecidableEq, Repr

/-- The part of `mm_get_ptr_checked` after the lookup. -/
def checkInfo (mgr : MemoryManager) (address : U64) (perm : U32) : Option MmAccessInfo → PtrResult
  | none => { status := .unmapped, ptr := .null, cpuAttrs := 0 }
  | some info =>
    if info.perms &&& perm = 0 then { status := .prot, ptr := .null, cpuAttrs := info.cpuAttrs }
    else
      let patch :=
        if mgr.patches.length != 0 && mmHostPassthroughPerms mgr != 0 then mmFindPatch mgr address
        else none
      match patch with
      | some patch =>
        { status := .ok, ptr := patch.data.add (address - patch.address), cpuAttrs := info.cpuAttrs }
      | none => { status := .ok, ptr := info.ptr, cpuAttrs := info.cpuAttrs }

/-- `mm_get_ptr_checked`. -/
def mmGetPtrChecked (mgr : MemoryManager) (address : U64) (perm : U32) :
    PtrResult × MemoryManager :=
  (checkInfo mgr address perm (mmQuery mgr address).1, (mmQuery mgr address).2)

/-- `mm_write_byte_checked`. -/
def mmWriteByteChecked (mgr : MemoryManager) (address : U64) (value : U8) :
    MmAccessStatus × MemoryManager :=
  match mmGetPtrChecked mgr address mmProtWrite with
  | (result, mgr) =>
    match result.status with
    | .ok => (.ok, mgr.setHost (mgr.host.write result.ptr value))
    | status => (status, mgr)

/-- The loop of `cpueaxh_mem_write_raw`, with the number of bytes that are left. -/
def memWriteLoop (address : U64) (bytes : U64 → U8) :
    ℕ → U64 → MemoryManager → MmAccessStatus × MemoryManager
  | 0, _, mgr => (.ok, mgr)
  | left + 1, index, mgr =>
    match mmWriteByteChecked mgr (address + index) (bytes index) with
    | (.ok, mgr) => memWriteLoop address bytes left (index + 1) mgr
    | (status, mgr) => (status, mgr)

/-- `cpueaxh_mem_write_raw`. -/
def memWriteRaw (mgr : MemoryManager) (address : U64) (bytes : U64 → U8) (size : U64) :
    MmAccessStatus × MemoryManager :=
  memWriteLoop address bytes size.toNat 0 mgr

/-! ## The page cache remembers the table -/

/-- What an access gets when the page cache is left aside. -/
def accessView (mgr : MemoryManager) (address : U64) (perm : U32) : PtrResult :=
  checkInfo mgr address perm ((pageEntry mgr address).map fun entry => entry.info address)

/-- Every valid entry of the page cache is the one that a miss would fill in. -/
def PageCacheOk (mgr : MemoryManager) : Prop :=
  ∀ slot, (mgr.pageCache slot).valid = true →
    pageEntry mgr (mgr.pageCache slot).pageBase = some (mgr.pageCache slot)

theorem alignDownPage_eq_pageOf (address : U64) : alignDownPage address = (pageOf address).1 := rfl

/-- Rounding down twice is rounding down. -/
theorem alignDownPage_idem (address : U64) :
    alignDownPage (alignDownPage address) = alignDownPage address := by
  simp [alignDownPage, BitVec.and_assoc]

/-- All addresses of a page have the same entry. -/
theorem pageEntry_alignDownPage {mgr : MemoryManager} (hm : ManagerOk mgr) (address : U64) :
    pageEntry mgr (alignDownPage address) = pageEntry mgr address := by
  have hfind := mmFindRegion_pageOf hm address
  rw [← alignDownPage_eq_pageOf] at hfind
  simp only [pageEntry, alignDownPage_idem, hfind]

/-- The entry of an address belongs to the page of the address, and is valid. -/
theorem pageEntry_page {mgr : MemoryManager} {address : U64} {entry : PageCacheEntry}
    (h : pageEntry mgr address = some entry) :
    entry.pageBase = alignDownPage address ∧ entry.valid = true := by
  unfold pageEntry at h
  cases hr : mmFindRegion mgr address with
  | some region =>
    simp only [hr, Option.some.injEq] at h
    subst h
    exact ⟨rfl, rfl⟩
  | none =>
    simp only [hr, Option.ite_none_right_eq_some, Option.some.injEq] at h
    obtain ⟨-, rfl⟩ := h
    exact ⟨rfl, rfl⟩

@[simp] theorem pageEntry_setCache (mgr : MemoryManager) (cache : ℕ → PageCacheEntry)
    (address : U64) : pageEntry (mgr.setCache cache) address = pageEntry mgr address := rfl

@[simp] theorem accessView_setCache (mgr : MemoryManager) (cache : ℕ → PageCacheEntry)
    (address : U64) (perm : U32) :
    accessView (mgr.setCache cache) address perm = accessView mgr address perm := rfl

@[simp] theorem accessView_setHost (mgr : MemoryManager) (host : HostMemory)
    (address : U64) (perm : U32) :
    accessView (mgr.setHost host) address perm = accessView mgr address perm := rfl

/-- The entries depend on the regions and the passthrough flags only. -/
theorem pageEntry_congr {mgr mgr' : MemoryManager} (hregions : mgr'.regions = mgr.regions)
    (hperms : mmHostPassthroughPerms mgr' = mmHostPassthroughPerms mgr) (address : U64) :
    pageEntry mgr' address = pageEntry mgr address := by
  have hfind : mmFindRegion mgr' address = mmFindRegion mgr address := by
    simp only [mmFindRegion, mmFindRegionIndex, hregions]
  simp only [pageEntry, hfind, hperms]

/-- **The cached lookup.**  A query answers as the table does, and changes nothing but
the page cache, which stays right. -/
theorem mmQuery_spec {mgr : MemoryManager} (hm : ManagerOk mgr) (hc : PageCacheOk mgr)
    (address : U64) :
    (mmQuery mgr address).1 = (pageEntry mgr address).map (fun entry => entry.info address) ∧
      ∃ cache, (mmQuery mgr address).2 = mgr.setCache cache ∧ PageCacheOk (mgr.setCache cache) := by
  unfold mmQuery
  by_cases hhit : ((mgr.pageCache (mmCacheSlot address)).valid
      && (mgr.pageCache (mmCacheSlot address)).pageBase == alignDownPage address) = true
  · simp only [hhit, if_true]
    rw [Bool.and_eq_true, beq_iff_eq] at hhit
    have hentry := hc _ hhit.1
    rw [hhit.2, pageEntry_alignDownPage hm] at hentry
    refine ⟨?_, mgr.pageCache, rfl, hc⟩
    rw [hentry]
    rfl
  · simp only [hhit, Bool.false_eq_true, if_false]
    cases hentry : pageEntry mgr address with
    | none => exact ⟨rfl, mgr.pageCache, rfl, hc⟩
    | some entry =>
      refine ⟨rfl, _, rfl, ?_⟩
      intro slot hvalid
      rw [pageEntry_setCache]
      simp only [MemoryManager.setCache] at hvalid ⊢
      by_cases hslot : slot = mmCacheSlot address
      · subst hslot
        rw [Function.update_self, (pageEntry_page hentry).1, pageEntry_alignDownPage hm]
        exact hentry
      · rw [Function.update_of_ne hslot] at hvalid ⊢
        exact hc slot hvalid

/-- **A checked access** gets what the table gives. -/
theorem mmGetPtrChecked_spec {mgr : MemoryManager} (hm : ManagerOk mgr) (hc : PageCacheOk mgr)
    (address : U64) (perm : U32) :
    (mmGetPtrChecked mgr address perm).1 = accessView mgr address perm ∧
      ∃ cache, (mmGetPtrChecked mgr address perm).2 = mgr.setCache cache ∧
        PageCacheOk (mgr.setCache cache) := by
  obtain ⟨hinfo, hcache⟩ := mmQuery_spec hm hc address
  refine ⟨?_, hcache⟩
  show checkInfo mgr address perm (mmQuery mgr address).1 = _
  rw [hinfo, accessView]

end Cpueaxh
