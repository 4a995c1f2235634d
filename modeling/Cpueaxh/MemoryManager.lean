/-
# The memory manager

The region table of `memory/manager.hpp` and the operations that edit it.  The
array of regions is a list, together with the capacity that decides when an
insertion asks for a larger array; bounds of regions are 64-bit words, so the
end of a region wraps to zero at the top of the address space as it does in C++.

`mm_unmap`, `mm_protect` and `mm_set_cpu_attrs` run one loop over the regions
under a range and differ only in what becomes of the part inside the range, so
they share `replaceLoop`, which takes that choice as an argument.
-/
import Cpueaxh.HostMemory
import Cpueaxh.ProbeSearch

namespace Cpueaxh

/-! ## Data -/

/-- `CPUEAXH_PAGE_SIZE`. -/
def pageSize : U64 := 0x1000

/-- `CPUEAXH_PAGE_MASK`. -/
def pageMask : U64 := ~~~(pageSize - 1)

/-- `MM_PAGE_CACHE_SIZE`. -/
def mmPageCacheSize : ℕ := 256

def mmProtRead : U32 := 0x1
def mmProtWrite : U32 := 0x2
def mmProtExec : U32 := 0x4

def mmCpuAttrUser : U32 := 0x1

/-- `MEMORY_REGION`. -/
structure MemoryRegion where
  base : U64
  size : U64
  data : HostPtr
  perms : U32
  cpuAttrs : U32
  external : Bool
  deriving DecidableEq, Repr

/-- `region->base + region->size`, modulo `2^64`. -/
def MemoryRegion.regionEnd (r : MemoryRegion) : U64 := r.base + r.size

/-- `MM_PAGE_CACHE_ENTRY`. -/
structure PageCacheEntry where
  pageBase : U64
  hostPage : HostPtr
  perms : U32
  cpuAttrs : U32
  valid : Bool
  deriving DecidableEq, Repr

/-- An entry of a cleared page cache. -/
def PageCacheEntry.zero : PageCacheEntry :=
  { pageBase := 0, hostPage := .null, perms := 0, cpuAttrs := 0, valid := false }

/-- `MM_PATCH_ENTRY`. -/
structure PatchEntry where
  handle : U64
  address : U64
  size : U64
  data : HostPtr
  deriving DecidableEq, Repr

/-- `MEMORY_MANAGER`, together with the host memory that it allocates from. -/
structure MemoryManager where
  regions : List MemoryRegion
  regionCapacity : ℕ
  patches : List PatchEntry
  patchCapacity : ℕ
  patchMinAddress : U64
  patchMaxAddress : U64
  nextPatchHandle : U64
  hostReadPassthrough : Bool
  hostWritePassthrough : Bool
  hostExecPassthrough : Bool
  pageCache : ℕ → PageCacheEntry
  codeVersion : U64
  host : HostMemory

/-! ## Arithmetic on addresses -/

/-- `align_down_page`. -/
def alignDownPage (address : U64) : U64 := address &&& pageMask

/-- `mm_is_page_aligned`. -/
def mmIsPageAligned (value : U64) : Bool := value &&& (pageSize - 1) == 0

/-- `mm_is_valid_perms`. -/
def mmIsValidPerms (perms : U32) : Bool :=
  perms &&& ~~~(mmProtRead ||| mmProtWrite ||| mmProtExec) == 0

/-- `mm_is_valid_cpu_attrs`. -/
def mmIsValidCpuAttrs (attrs : U32) : Bool := attrs &&& ~~~mmCpuAttrUser == 0

/-- `mm_range_overflows`. -/
def mmRangeOverflows (address size : U64) : Bool :=
  size != 0 && decide (address + size - 1 < address)

/-! ## Initial state and invalidation -/

/-- `mm_init`. -/
def mmInit (host : HostMemory) : MemoryManager where
  regions := []
  regionCapacity := 0
  patches := []
  patchCapacity := 0
  patchMinAddress := 0
  patchMaxAddress := 0
  nextPatchHandle := 1
  hostReadPassthrough := false
  hostWritePassthrough := false
  hostExecPassthrough := false
  pageCache := fun _ => .zero
  codeVersion := 1
  host := host

/-- `mm_bump_code_version`: the counter skips zero when it wraps. -/
def mmBumpCodeVersion (mgr : MemoryManager) : MemoryManager :=
  let version := mgr.codeVersion + 1
  { mgr with codeVersion := if version = 0 then 1 else version }

/-- `mm_invalidate_cache`. -/
def mmInvalidateCache (mgr : MemoryManager) : MemoryManager :=
  mmBumpCodeVersion { mgr with pageCache := fun _ => .zero }

/-- `mm_set_host_passthrough`. -/
def mmSetHostPassthrough (mgr : MemoryManager) (perms : U32) (enabled : Bool) : MemoryManager :=
  mmInvalidateCache
    { mgr with
      hostReadPassthrough := enabled && perms &&& mmProtRead != 0
      hostWritePassthrough := enabled && perms &&& mmProtWrite != 0
      hostExecPassthrough := enabled && perms &&& mmProtExec != 0 }

/-! ## Searching the table -/

/-- The comparison of `mm_find_insertion_index` at one index. -/
def insertionProbe (regions : List MemoryRegion) (base : U64) (i : ℕ) : Bool :=
  match regions[i]? with
  | some r => decide (r.base < base)
  | none => false

/-- `mm_find_insertion_index`. -/
def mmFindInsertionIndex (mgr : MemoryManager) (base : U64) : ℕ :=
  ProbeSearch.lowerBound (insertionProbe mgr.regions base) mgr.regions.length 0 mgr.regions.length

/-- The three comparisons of `mm_find_region_index` at one index. -/
def regionProbe (regions : List MemoryRegion) (address : U64) (i : ℕ) : Ordering :=
  match regions[i]? with
  | some r =>
    if address < r.base then .lt
    else if r.regionEnd ≤ address then .gt
    else .eq
  | none => .lt

/-- `mm_find_region_index`; `none` is the result `(size_t)-1`. -/
def mmFindRegionIndex (mgr : MemoryManager) (address : U64) : Option ℕ :=
  ProbeSearch.search (regionProbe mgr.regions address) mgr.regions.length 0 mgr.regions.length

/-- `mm_find_region`. -/
def mmFindRegion (mgr : MemoryManager) (address : U64) : Option MemoryRegion :=
  (mmFindRegionIndex mgr address).bind fun i => mgr.regions[i]?

/-- `mm_has_overlap`. -/
def mmHasOverlap (mgr : MemoryManager) (base size : U64) : Bool :=
  if size == 0 || mmRangeOverflows base size then true
  else
    let index := mmFindInsertionIndex mgr base
    let previousOverlaps :=
      match mgr.regions[index - 1]? with
      | some previous => decide (0 < index) && decide (base < previous.regionEnd)
      | none => false
    let currentOverlaps :=
      match mgr.regions[index]? with
      | some current => decide (current.base < base + size)
      | none => false
    previousOverlaps || currentOverlaps

/-- The loop of `mm_check_range_mapped`.  Each turn moves `current` forward, so
the distance to the end of the range is fuel enough. -/
def checkLoop (mgr : MemoryManager) (endAddress : U64) : ℕ → U64 → Bool
  | 0, _ => true
  | fuel + 1, current =>
    if current < endAddress then
      match mmFindRegion mgr current with
      | none => false
      | some region =>
        if region.regionEnd ≤ current then false
        else checkLoop mgr endAddress fuel
          (if region.regionEnd < endAddress then region.regionEnd else endAddress)
    else true

/-- `mm_check_range_mapped`. -/
def mmCheckRangeMapped (mgr : MemoryManager) (address size : U64) : Bool :=
  if size = 0 then true
  else if mmRangeOverflows address size then false
  else checkLoop mgr (address + size) size.toNat address

/-! ## Editing the table -/

/-- The doubling loop of `mm_reserve_region_capacity`.  The value doubles at each
turn and the loop ends above half the range of `size_t`. -/
def growCapacity (capacity : ℕ) : ℕ → ℕ → ℕ
  | 0, n => n
  | fuel + 1, n =>
    if n < capacity then
      if (2 ^ 64 - 1) / 2 < n then capacity
      else growCapacity capacity fuel (n * 2)
    else n

/-- The capacity that an array of the given capacity grows to. -/
def grownCapacity (old capacity : ℕ) : ℕ :=
  growCapacity capacity 64 (if old = 0 then 16 else old)

/-- `mm_reserve_region_capacity`. -/
def mmReserveRegionCapacity (mgr : MemoryManager) (capacity : ℕ) : Bool × MemoryManager :=
  if capacity ≤ mgr.regionCapacity then (true, mgr)
  else if mgr.host.request.1 then
    (true, { mgr with
      host := mgr.host.request.2
      regionCapacity := grownCapacity mgr.regionCapacity capacity })
  else (false, { mgr with host := mgr.host.request.2 })

/-- `mm_release_region`; only blocks of the manager are freed. -/
def mmReleaseRegion (host : HostMemory) (region : MemoryRegion) : HostMemory :=
  if region.external then host else host.free region.data

/-- `mm_insert_region`. -/
def mmInsertRegion (mgr : MemoryManager) (index : ℕ) (region : MemoryRegion) :
    Bool × MemoryManager :=
  match mmReserveRegionCapacity mgr (mgr.regions.length + 1) with
  | (false, mgr) => (false, mgr)
  | (true, mgr) =>
    (true, { mgr with regions := mgr.regions.take index ++ region :: mgr.regions.drop index })

/-- `mm_replace_region`. -/
def mmReplaceRegion (mgr : MemoryManager) (index : ℕ) (replacements : List MemoryRegion) :
    Bool × MemoryManager :=
  match mgr.regions[index]? with
  | none => (false, mgr)
  | some original =>
    match mmReserveRegionCapacity mgr (mgr.regions.length - 1 + replacements.length) with
    | (false, mgr) => (false, mgr)
    | (true, mgr) =>
      (true, mmInvalidateCache
        { mgr with
          regions := mgr.regions.take index ++ replacements ++ mgr.regions.drop (index + 1)
          host := mmReleaseRegion mgr.host original })

/-- The arguments of one call of `mm_build_region_segment`. -/
structure Segment where
  base : U64
  size : U64
  perms : U32
  cpuAttrs : U32

/-- `mm_build_region_segment`: an external segment shares the storage of its
source, an internal one gets a copy. -/
def mmBuildRegionSegment (host : HostMemory) (source : MemoryRegion) (segment : Segment) :
    Option MemoryRegion × HostMemory :=
  if segment.size = 0 then (none, host)
  else
    let region (data : HostPtr) : MemoryRegion :=
      { base := segment.base, size := segment.size, data := data,
        perms := segment.perms, cpuAttrs := segment.cpuAttrs, external := source.external }
    let start := source.data.add (segment.base - source.base)
    if source.external then (some (region start), host)
    else
      match host.allocZeroed segment.size with
      | (none, host) => (none, host)
      | (some data, host) => (some (region data), host.copy data start segment.size)

/-- Build the segments of one source in turn.  When one cannot be built, those
built before it are released. -/
def buildSegments (source : MemoryRegion) :
    HostMemory → List MemoryRegion → List Segment → Option (List MemoryRegion) × HostMemory
  | host, built, [] => (some built, host)
  | host, built, segment :: rest =>
    match mmBuildRegionSegment host source segment with
    | (none, host) => (none, built.foldl mmReleaseRegion host)
    | (some region, host) => buildSegments source host (built ++ [region]) rest

/-- What an operation makes of the part of a region inside its range, given the
permissions and attributes of the region: nothing, or a segment with these ones. -/
abbrev MiddlePart := U32 → U32 → Option (U32 × U32)

/-- The segments that take the place of a region, of which `[current, chunkEnd)`
is inside the range: what is left of it, that part, what is right of it. -/
def replacementSegments (middle : MiddlePart) (original : MemoryRegion)
    (current chunkEnd : U64) : List Segment :=
  (if original.base < current then
    [⟨original.base, current - original.base, original.perms, original.cpuAttrs⟩] else []) ++
  (match middle original.perms original.cpuAttrs with
    | some (perms, cpuAttrs) => [⟨current, chunkEnd - current, perms, cpuAttrs⟩]
    | none => []) ++
  (if chunkEnd < original.regionEnd then
    [⟨chunkEnd, original.regionEnd - chunkEnd, original.perms, original.cpuAttrs⟩] else [])

/-- The end of the part of a region that is inside the range. -/
def chunkEnd (original : MemoryRegion) (endAddress : U64) : U64 :=
  if original.regionEnd < endAddress then original.regionEnd else endAddress

/-- One turn of the loop: replace the region at `index` by its segments. -/
def replaceChunk (middle : MiddlePart) (mgr : MemoryManager) (index : ℕ)
    (original : MemoryRegion) (current endAddress : U64) : Bool × MemoryManager :=
  match buildSegments original mgr.host []
      (replacementSegments middle original current (chunkEnd original endAddress)) with
  | (none, host) => (false, { mgr with host := host })
  | (some replacements, host) =>
    match mmReplaceRegion { mgr with host := host } index replacements with
    | (true, mgr) => (true, mgr)
    | (false, mgr) => (false, { mgr with host := replacements.foldl mmReleaseRegion mgr.host })

/-- The loop of `mm_unmap`, `mm_protect` and `mm_set_cpu_attrs`.  Each turn moves
`current` forward, so the distance to the end of the range is fuel enough. -/
def replaceLoop (middle : MiddlePart) (endAddress : U64) :
    ℕ → U64 → MemoryManager → Bool × MemoryManager
  | 0, _, mgr => (true, mgr)
  | fuel + 1, current, mgr =>
    if current < endAddress then
      match mmFindRegionIndex mgr current with
      | none => (false, mgr)
      | some index =>
        match mgr.regions[index]? with
        | none => (false, mgr)
        | some original =>
          match replaceChunk middle mgr index original current endAddress with
          | (false, mgr) => (false, mgr)
          | (true, mgr) => replaceLoop middle endAddress fuel (chunkEnd original endAddress) mgr
    else (true, mgr)

/-- The checks and the loop that the three range operations share; `valid` is the
check of the operation's own argument. -/
def replaceRange (middle : MiddlePart) (valid : Bool) (mgr : MemoryManager)
    (address size : U64) : Bool × MemoryManager :=
  if size = 0 then (true, mgr)
  else if !mmIsPageAligned address || !mmIsPageAligned size || mmRangeOverflows address size then
    (false, mgr)
  else if !valid || !mmCheckRangeMapped mgr address size then (false, mgr)
  else replaceLoop middle (address + size) size.toNat address mgr

/-! ## The operations -/

/-- `mm_map_internal`. -/
def mmMapInternal (mgr : MemoryManager) (address size : U64) (perms : U32) :
    Bool × MemoryManager :=
  if size = 0 || !mmIsPageAligned address || !mmIsPageAligned size
      || mmRangeOverflows address size then (false, mgr)
  else if !mmIsValidPerms perms || mmHasOverlap mgr address size then (false, mgr)
  else
    match mgr.host.allocZeroed size with
    | (none, host) => (false, { mgr with host := host })
    | (some data, host) =>
      let region : MemoryRegion :=
        { base := address, size := size, data := data, perms := perms,
          cpuAttrs := mmCpuAttrUser, external := false }
      match mmInsertRegion { mgr with host := host } (mmFindInsertionIndex mgr address) region with
      | (false, mgr) => (false, { mgr with host := mmReleaseRegion mgr.host region })
      | (true, mgr) => (true, mmInvalidateCache mgr)

/-- `mm_map_host`; the host pointer is an address in the caller's memory. -/
def mmMapHost (mgr : MemoryManager) (address size : U64) (perms : U32) (hostPtr : U64) :
    Bool × MemoryManager :=
  if size = 0 || hostPtr = 0 || !mmIsPageAligned address || !mmIsPageAligned size
      || mmRangeOverflows address size then (false, mgr)
  else if !mmIsValidPerms perms || mmHasOverlap mgr address size then (false, mgr)
  else
    let region : MemoryRegion :=
      { base := address, size := size, data := .user hostPtr, perms := perms,
        cpuAttrs := mmCpuAttrUser, external := true }
    match mmInsertRegion mgr (mmFindInsertionIndex mgr address) region with
    | (false, mgr) => (false, mgr)
    | (true, mgr) => (true, mmInvalidateCache mgr)

/-- What `mm_unmap` makes of the part in its range. -/
def unmapMiddle : MiddlePart := fun _ _ => none

/-- What `mm_protect` makes of the part in its range. -/
def protectMiddle (perms : U32) : MiddlePart := fun _ cpuAttrs => some (perms, cpuAttrs)

/-- What `mm_set_cpu_attrs` makes of the part in its range. -/
def setCpuAttrsMiddle (attrs : U32) : MiddlePart := fun perms _ => some (perms, attrs)

/-- `mm_unmap`. -/
def mmUnmap (mgr : MemoryManager) (address size : U64) : Bool × MemoryManager :=
  replaceRange unmapMiddle true mgr address size

/-- `mm_protect`. -/
def mmProtect (mgr : MemoryManager) (address size : U64) (perms : U32) :
    Bool × MemoryManager :=
  replaceRange (protectMiddle perms) (mmIsValidPerms perms) mgr address size

/-- `mm_set_cpu_attrs`. -/
def mmSetCpuAttrs (mgr : MemoryManager) (address size : U64) (attrs : U32) :
    Bool × MemoryManager :=
  replaceRange (setCpuAttrsMiddle attrs) (mmIsValidCpuAttrs attrs) mgr address size

/-! ## Sequences of layout calls -/

/-- A call that edits the layout of guest memory. -/
inductive LayoutCall where
  | map (address size : U64) (perms : U32)
  | mapPtr (address size : U64) (perms : U32) (hostPtr : U64)
  | unmap (address size : U64)
  | protect (address size : U64) (perms : U32)
  | setCpuAttrs (address size : U64) (attrs : U32)
  deriving DecidableEq, Repr

/-- Perform a layout call: whether it succeeds, and the manager after it. -/
def layoutCall (mgr : MemoryManager) : LayoutCall → Bool × MemoryManager
  | .map address size perms => mmMapInternal mgr address size perms
  | .mapPtr address size perms hostPtr => mmMapHost mgr address size perms hostPtr
  | .unmap address size => mmUnmap mgr address size
  | .protect address size perms => mmProtect mgr address size perms
  | .setCpuAttrs address size attrs => mmSetCpuAttrs mgr address size attrs

/-- The manager after a layout call, whatever it returns. -/
def layoutStep (mgr : MemoryManager) (call : LayoutCall) : MemoryManager :=
  (layoutCall mgr call).2

/-- A store that is allowed: one byte behind the pointer of the region. -/
def storeByte (mgr : MemoryManager) (address : U64) (value : U8) : MemoryManager :=
  match mmFindRegion mgr address with
  | none => mgr
  | some r => { mgr with host := mgr.host.write (r.data.add (address - r.base)) value }

/-- What happens to the memory manager between two looks at it: a layout call, or a
store of the guest or of the host program. -/
inductive MemoryEvent where
  | layout (call : LayoutCall)
  | store (address : U64) (value : U8)
  deriving DecidableEq, Repr

/-- The manager after an event. -/
def memoryStep (mgr : MemoryManager) : MemoryEvent → MemoryManager
  | .layout call => layoutStep mgr call
  | .store address value => storeByte mgr address value

end Cpueaxh
