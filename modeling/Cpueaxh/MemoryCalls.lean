/-
# What the calls of the host program change

Between two guest steps the host program edits the layout, writes memory, adds and
deletes patches, and switches the passthrough to its own memory.  Decoded instructions
stay valid over such a call only if `code_version` does not tell otherwise, so what
matters is that a call which leaves the version alone leaves alone everything that a
fetch can see.

A layout call may bump the version once for each region it replaces.  The counter runs
through a cycle of `2 ^ 64 - 1` values, and one call replaces fewer regions than that.
-/
import Cpueaxh.MemoryAccess
import Cpueaxh.LayoutRuns

namespace Cpueaxh

open HostMemory

/-! ## The calls -/

/-- A call of the host program that reaches the memory manager. -/
inductive MemoryCall where
  | layout (call : LayoutCall)
  | setHostPassthrough (perms : U32) (enabled : Bool)
  | addPatch (address : U64) (bytes : U64 → U8) (size : U64)
  | delPatch (handle : U64)
  | write (address : U64) (bytes : U64 → U8) (size : U64)

/-- `cpueaxh_mem_write`: the raw write, and a bump whether it succeeds or not. -/
def memWrite (mgr : MemoryManager) (address : U64) (bytes : U64 → U8) (size : U64) :
    MmAccessStatus × MemoryManager :=
  match memWriteRaw mgr address bytes size with
  | (status, mgr) => (status, if size ≠ 0 then mmBumpCodeVersion mgr else mgr)

/-- The manager after a call, whatever it returns. -/
def memoryCall (mgr : MemoryManager) : MemoryCall → MemoryManager
  | .layout call => layoutStep mgr call
  | .setHostPassthrough perms enabled => mmSetHostPassthrough mgr perms enabled
  | .addPatch address bytes size => (mmAddPatch mgr address bytes size).2
  | .delPatch handle => (mmDelPatch mgr handle).2
  | .write address bytes size => (memWrite mgr address bytes size).2

/-! ## The version counter -/

/-- The next value of `code_version`. -/
def nextVersion (version : U64) : U64 := if version + 1 = 0 then 1 else version + 1

@[simp] theorem mmBumpCodeVersion_codeVersion (mgr : MemoryManager) :
    (mmBumpCodeVersion mgr).codeVersion = nextVersion mgr.codeVersion := rfl

/-- The counter skips zero. -/
theorem nextVersion_ne_zero (version : U64) : nextVersion version ≠ 0 := by
  unfold nextVersion
  split_ifs with h
  · decide
  · exact h

theorem iterate_nextVersion_ne_zero {version : U64} (h : version ≠ 0) (k : ℕ) :
    nextVersion^[k] version ≠ 0 := by
  cases k with
  | zero => exact h
  | succ k =>
    rw [Function.iterate_succ_apply']
    exact nextVersion_ne_zero _

/-- A bump as an addition on the cycle of non-zero words. -/
theorem nextVersion_toNat {version : U64} (h : version ≠ 0) :
    (nextVersion version).toNat = version.toNat % (2 ^ 64 - 1) + 1 := by
  have hpos : version.toNat ≠ 0 := fun h0 => h (BitVec.eq_of_toNat_eq h0)
  have hlt := version.isLt
  have hone : (version + 1).toNat = (version.toNat + 1) % 2 ^ 64 := BitVec.toNat_add _ _
  unfold nextVersion
  split_ifs with hz
  · have h0 : (version.toNat + 1) % 2 ^ 64 = 0 := by
      rw [← hone, hz]
      rfl
    show 1 = _
    omega
  · have h0 : (version.toNat + 1) % 2 ^ 64 ≠ 0 := fun h0 =>
      hz (BitVec.eq_of_toNat_eq (hone.trans h0))
    rw [hone]
    omega

/-- Fewer bumps than the cycle is long do not bring a value back. -/
theorem iterate_nextVersion_ne {version : U64} (h : version ≠ 0) {k : ℕ} (hpos : 0 < k)
    (hlt : k < 2 ^ 64 - 1) : nextVersion^[k] version ≠ version := by
  have hsum : ∀ n, (nextVersion^[n] version).toNat % (2 ^ 64 - 1) =
      (version.toNat + n) % (2 ^ 64 - 1) := by
    intro n
    induction n with
    | zero => rfl
    | succ n ih =>
      rw [Function.iterate_succ_apply',
        nextVersion_toNat (iterate_nextVersion_ne_zero h n), ih]
      omega
  intro heq
  have := hsum k
  rw [heq] at this
  omega

/-! ## The invariant -/

/-- Each patch has a block of its own. -/
structure PatchesStored (mgr : MemoryManager) : Prop where
  owned : ∀ p ∈ mgr.patches, ∃ block, p.data = .heap block 0 ∧ block < mgr.host.nextBlock
  distinct : ∀ p ∈ mgr.patches, ∀ r ∈ mgr.regions, r.external = false → r.data ≠ p.data

/-- The invariant of the memory manager. -/
structure MemoryOk (mgr : MemoryManager) : Prop where
  manager : ManagerOk mgr
  patches : PatchesStored mgr
  cache : PageCacheOk mgr
  version_ne : mgr.codeVersion ≠ 0

/-- The manager `mgr'` shows the same memory under the same version. -/
structure SameView (mgr mgr' : MemoryManager) : Prop where
  access_eq : ∀ address perm, accessView mgr' address perm = accessView mgr address perm
  read_eq : ∀ address perm, mgr'.host.read (accessView mgr address perm).ptr =
    mgr.host.read (accessView mgr address perm).ptr

theorem memoryOk_mmInit (host : HostMemory) : MemoryOk (mmInit host) where
  manager := managerOk_mmInit host
  patches := ⟨fun _ h => absurd h List.not_mem_nil, fun _ h => absurd h List.not_mem_nil⟩
  cache := fun _ h => by cases h
  version_ne := show (1 : U64) ≠ 0 by decide

/-! ## Changes of the table -/

/-- What a layout call does to the rest of the manager: `mgr'` has the patches and the
flags of `mgr`, its regions keep their blocks or have fresh ones, and either the version
was bumped and the page cache cleared, or nothing changed but the allocator. -/
structure TableChange (n : ℕ) (mgr mgr' : MemoryManager) : Prop where
  patches_eq : mgr'.patches = mgr.patches
  bounds_eq : mgr'.patchMinAddress = mgr.patchMinAddress ∧
    mgr'.patchMaxAddress = mgr.patchMaxAddress
  perms_eq : mmHostPassthroughPerms mgr' = mmHostPassthroughPerms mgr
  nextBlock_le : mgr.host.nextBlock ≤ mgr'.host.nextBlock
  data_cases : ∀ r ∈ mgr'.regions, r.external = false →
    (∃ s ∈ mgr.regions, s.external = false ∧ s.data = r.data) ∨
      ∀ b o, r.data = .heap b o → mgr.host.nextBlock ≤ b
  bumps : ∃ k ≤ n, mgr'.codeVersion = nextVersion^[k] mgr.codeVersion ∧
    (k = 0 → mgr'.regions = mgr.regions ∧ mgr'.pageCache = mgr.pageCache ∧
      AgreesBelow mgr.host.nextBlock mgr.host mgr'.host) ∧
    (0 < k → mgr'.pageCache = fun _ => .zero)

/-- The manager changed in its table and its host memory only. -/
def TableOnly (mgr mgr' : MemoryManager) : Prop :=
  mgr' = { mgr with
    regions := mgr'.regions, regionCapacity := mgr'.regionCapacity, host := mgr'.host }

/-- The manager changed in its table and its host memory, and was invalidated. -/
def TableInvalidated (mgr mgr' : MemoryManager) : Prop :=
  mgr' = { mgr with
    regions := mgr'.regions, regionCapacity := mgr'.regionCapacity, host := mgr'.host,
    pageCache := fun _ => .zero, codeVersion := nextVersion mgr.codeVersion }

namespace TableChange

variable {m n : ℕ} {mgr mgr' mgr'' : MemoryManager}

/-- Only the allocator changed. -/
theorem of_agrees (n : ℕ) (hregions : mgr'.regions = mgr.regions)
    (hagree : AgreesBelow mgr.host.nextBlock mgr.host mgr'.host)
    (hrest : TableOnly mgr mgr') : TableChange n mgr mgr' where
  patches_eq := by rw [hrest]
  bounds_eq := by
    rw [hrest]
    exact ⟨rfl, rfl⟩
  perms_eq := by
    rw [hrest]
    rfl
  nextBlock_le := hagree.nextBlock_le
  data_cases r hr hext := Or.inl ⟨r, hregions ▸ hr, hext, rfl⟩
  bumps := ⟨0, Nat.zero_le n, by rw [hrest]; rfl,
    fun _ => ⟨hregions, by rw [hrest], hagree⟩, fun h => absurd h (lt_irrefl 0)⟩

/-- The table changed, and with it the version. -/
theorem of_invalidated (hrest : TableInvalidated mgr mgr')
    (hnext : mgr.host.nextBlock ≤ mgr'.host.nextBlock)
    (hdata : ∀ r ∈ mgr'.regions, r.external = false →
      (∃ s ∈ mgr.regions, s.external = false ∧ s.data = r.data) ∨
        ∀ b o, r.data = .heap b o → mgr.host.nextBlock ≤ b) :
    TableChange 1 mgr mgr' where
  patches_eq := by rw [hrest]
  bounds_eq := by
    rw [hrest]
    exact ⟨rfl, rfl⟩
  perms_eq := by
    rw [hrest]
    rfl
  nextBlock_le := hnext
  data_cases := hdata
  bumps := ⟨1, le_rfl, by rw [hrest]; rfl, fun h => absurd h one_ne_zero,
    fun _ => by rw [hrest]⟩

theorem trans (h : TableChange m mgr mgr') (h' : TableChange n mgr' mgr'') :
    TableChange (m + n) mgr mgr'' where
  patches_eq := h'.patches_eq.trans h.patches_eq
  bounds_eq := ⟨h'.bounds_eq.1.trans h.bounds_eq.1, h'.bounds_eq.2.trans h.bounds_eq.2⟩
  perms_eq := h'.perms_eq.trans h.perms_eq
  nextBlock_le := h.nextBlock_le.trans h'.nextBlock_le
  data_cases r hr hext := by
    rcases h'.data_cases r hr hext with ⟨s, hs, hsext, hdata⟩ | hfresh
    · rcases h.data_cases s hs hsext with ⟨u, hu, huext, hdata'⟩ | hfresh
      · exact Or.inl ⟨u, hu, huext, hdata'.trans hdata⟩
      · exact Or.inr fun b o heq => hfresh b o (hdata.trans heq)
    · exact Or.inr fun b o heq => h.nextBlock_le.trans (hfresh b o heq)
  bumps := by
    obtain ⟨k, hk, hversion, hquiet, hloud⟩ := h.bumps
    obtain ⟨k', hk', hversion', hquiet', hloud'⟩ := h'.bumps
    refine ⟨k' + k, by omega, ?_, ?_, ?_⟩
    · rw [hversion', hversion, Function.iterate_add_apply]
    · intro h0
      obtain ⟨hregions, hcache, hagree⟩ := hquiet (by omega)
      obtain ⟨hregions', hcache', hagree'⟩ := hquiet' (by omega)
      exact ⟨hregions'.trans hregions, hcache'.trans hcache,
        hagree.trans (hagree'.mono hagree.nextBlock_le)⟩
    · intro hpos
      rcases Nat.eq_zero_or_pos k' with h0 | hpos'
      · rw [(hquiet' h0).2.1]
        exact hloud (by omega)
      · exact hloud' hpos'

theorem mono (h : TableChange m mgr mgr') (hmn : m ≤ n) : TableChange n mgr mgr' where
  __ := h
  bumps := by
    obtain ⟨k, hk, hrest⟩ := h.bumps
    exact ⟨k, hk.trans hmn, hrest⟩

end TableChange

/-! ## One turn of a range operation -/

/-- What replacing a region does to the rest of the manager. -/
theorem mmReplaceRegion_rest {mgr mgr' : MemoryManager} {i : ℕ} {ok : Bool}
    {replacements : List MemoryRegion} (h : mmReplaceRegion mgr i replacements = (ok, mgr')) :
    (ok = false ∧ TableOnly mgr mgr') ∨ (ok = true ∧ TableInvalidated mgr mgr') := by
  rw [mmReplaceRegion] at h
  cases hi : mgr.regions[i]? with
  | none =>
    rw [hi] at h
    cases h
    exact Or.inl ⟨rfl, rfl⟩
  | some original =>
    obtain ⟨host, capacity, hres, -⟩ := mmReserveRegionCapacity_snd mgr
      (mgr.regions.length - 1 + replacements.length)
    simp only [hi] at h
    rcases hcase : mmReserveRegionCapacity mgr (mgr.regions.length - 1 + replacements.length)
      with ⟨b, mgr₁⟩
    rw [hcase] at h hres
    simp only at hres
    subst hres
    cases b with
    | false =>
      cases h
      exact Or.inl ⟨rfl, rfl⟩
    | true =>
      cases h
      exact Or.inr ⟨rfl, rfl⟩

/-- What one turn does to the rest of the manager. -/
theorem replaceChunk_rest {middle : MiddlePart} {mgr mgr' : MemoryManager} {i : ℕ}
    {r : MemoryRegion} {current endAddress : U64} {ok : Bool}
    (h : replaceChunk middle mgr i r current endAddress = (ok, mgr')) :
    (ok = false ∧ TableOnly mgr mgr') ∨ (ok = true ∧ TableInvalidated mgr mgr') := by
  rw [replaceChunk] at h
  rcases hbuild : buildSegments r mgr.host []
      (replacementSegments middle r current (chunkEnd r endAddress)) with ⟨result, host₁⟩
  rw [hbuild] at h
  cases result with
  | none =>
    cases h
    exact Or.inl ⟨rfl, rfl⟩
  | some replacements =>
    simp only at h
    rcases hrep : mmReplaceRegion { mgr with host := host₁ } i replacements with ⟨b, mgr₂⟩
    rw [hrep] at h
    rcases mmReplaceRegion_rest hrep with ⟨rfl, hrest⟩ | ⟨rfl, hrest⟩
    · cases h
      refine Or.inl ⟨rfl, ?_⟩
      rw [hrest]
      rfl
    · cases h
      exact Or.inr ⟨rfl, hrest⟩

/-- The regions after a successful turn keep their block or have a fresh one. -/
theorem TurnDone.data_cases {middle : MiddlePart} {mgr mgr' : MemoryManager} {i : ℕ}
    {r : MemoryRegion} {current endAddress : U64} {host : HostMemory} {new : List MemoryRegion}
    (t : TurnDone middle mgr mgr' i r current endAddress host new) :
    ∀ s ∈ mgr'.regions, s.external = false →
      (∃ u ∈ mgr.regions, u.external = false ∧ u.data = s.data) ∨
        ∀ b o, s.data = .heap b o → mgr.host.nextBlock ≤ b := by
  intro s hs hext
  rcases t.mem_cases hs with ⟨-, hold⟩ | hnew
  · exact Or.inl ⟨s, hold, hext, rfl⟩
  · obtain ⟨segment, -, hseg⟩ := exists_of_mem_right t.segments hnew
    exact Or.inr fun b o hd => (hseg.fresh hext hd).1

/-- **The loop.**  A range operation bumps the version at most once for each turn. -/
theorem replaceLoop_change (middle : MiddlePart) {endAddress : U64}
    (hend : endAddress.toNat % 4096 = 0) (fuel : ℕ) :
    ∀ (current : U64) (mgr : MemoryManager), ManagerOk mgr → current.toNat % 4096 = 0 →
      TableChange fuel mgr (replaceLoop middle endAddress fuel current mgr).2 := by
  induction fuel with
  | zero =>
    intro current mgr _ _
    exact .of_agrees 0 rfl (.refl _ _) rfl
  | succ fuel ih =>
    intro current mgr hm hcur
    rw [replaceLoop]
    by_cases hlt : current < endAddress
    · rw [if_pos hlt]
      cases hfind : mmFindRegionIndex mgr current with
      | none => exact .of_agrees _ rfl (.refl _ _) rfl
      | some i =>
        obtain ⟨r, hi, hcov⟩ := (mmFindRegionIndex_eq_some_iff hm.table.arranged).mp hfind
        have hmem := List.mem_of_getElem? hi
        have hat : ChunkAt r current endAddress :=
          ⟨hm.table.shape r hmem, hcov, hcur, hend, BitVec.lt_def.mp hlt⟩
        simp only [hi]
        rcases hturn : replaceChunk middle mgr i r current endAddress with ⟨b, mgr₁⟩
        have hrest := replaceChunk_rest hturn
        rcases replaceChunk_cases hi hat (hm.stored r hmem) hturn with
          ⟨rfl, hregions, hagree⟩ | ⟨rfl, host, new, t⟩
        · obtain ⟨-, honly⟩ := hrest.resolve_right fun h => by cases h.1
          exact .of_agrees _ hregions hagree honly
        · obtain ⟨-, hinv⟩ := hrest.resolve_left fun h => by cases h.1
          have hnext : mgr.host.nextBlock ≤ mgr₁.host.nextBlock := by
            rw [t.host_eq, release_nextBlock]
            exact t.agrees.nextBlock_le
          have hone := TableChange.of_invalidated hinv hnext t.data_cases
          refine (hone.trans (ih _ mgr₁ (t.managerOk hm) hat.chunkEnd_aligned)).mono ?_
          omega
    · rw [if_neg hlt]
      exact .of_agrees _ rfl (.refl _ _) rfl

/-- A range operation replaces fewer regions than there are bytes in its range. -/
theorem replaceRange_change (middle : MiddlePart) (valid : Bool) {mgr : MemoryManager}
    (hm : ManagerOk mgr) (address size : U64) :
    TableChange (2 ^ 64 - 2) mgr (replaceRange middle valid mgr address size).2 := by
  by_cases h : RangeAccepted valid mgr address size
  · have haddr := (mmIsPageAligned_iff address).mp h.address_aligned
    have hsize := (mmIsPageAligned_iff size).mp h.size_aligned
    have hlt := size.isLt
    rw [replaceRange_eq_loop h]
    refine (replaceLoop_change middle ?_ size.toNat address mgr hm haddr).mono (by omega)
    rw [BitVec.toNat_add]
    omega
  · rw [replaceRange_rejected h]
    exact .of_agrees _ rfl (.refl _ _) rfl

/-! ## The mapping operations -/

/-- An insertion touches the table and the allocator. -/
theorem mmInsertRegion_rest (mgr : MemoryManager) (index : ℕ) (region : MemoryRegion) :
    TableOnly mgr (mmInsertRegion mgr index region).2 := by
  obtain ⟨host, capacity, hres, -⟩ := mmReserveRegionCapacity_snd mgr (mgr.regions.length + 1)
  unfold mmInsertRegion
  rcases hcase : mmReserveRegionCapacity mgr (mgr.regions.length + 1) with ⟨b, mgr₁⟩
  rw [hcase] at hres
  simp only at hres
  subst hres
  cases b <;> rfl

/-- What `mm_map_internal` does to the rest of the manager. -/
theorem mmMapInternal_rest {mgr mgr' : MemoryManager} {address size : U64} {perms : U32}
    {ok : Bool} (h : mmMapInternal mgr address size perms = (ok, mgr')) :
    (ok = false ∧ TableOnly mgr mgr') ∨ (ok = true ∧ TableInvalidated mgr mgr') := by
  rw [mmMapInternal] at h
  split_ifs at h with hargs hperms
  · cases h
    exact Or.inl ⟨rfl, rfl⟩
  · cases h
    exact Or.inl ⟨rfl, rfl⟩
  · rcases halloc : mgr.host.allocZeroed size with ⟨data, host⟩
    rw [halloc] at h
    cases data with
    | none =>
      cases h
      exact Or.inl ⟨rfl, rfl⟩
    | some data =>
      simp only at h
      have hrest := mmInsertRegion_rest { mgr with host := host }
        (mmFindInsertionIndex mgr address) ⟨address, size, data, perms, mmCpuAttrUser, false⟩
      rcases hins : mmInsertRegion { mgr with host := host } (mmFindInsertionIndex mgr address)
        ⟨address, size, data, perms, mmCpuAttrUser, false⟩ with ⟨b, mgr₂⟩
      rw [hins] at h hrest
      simp only at hrest
      rw [hrest] at h
      cases b with
      | false =>
        cases h
        exact Or.inl ⟨rfl, rfl⟩
      | true =>
        cases h
        exact Or.inr ⟨rfl, rfl⟩

/-- What `mm_map_host` does to the rest of the manager. -/
theorem mmMapHost_rest {mgr mgr' : MemoryManager} {address size : U64} {perms : U32}
    {hostPtr : U64} {ok : Bool} (h : mmMapHost mgr address size perms hostPtr = (ok, mgr')) :
    (ok = false ∧ TableOnly mgr mgr') ∨ (ok = true ∧ TableInvalidated mgr mgr') := by
  rw [mmMapHost] at h
  split_ifs at h with hargs hperms
  · cases h
    exact Or.inl ⟨rfl, rfl⟩
  · cases h
    exact Or.inl ⟨rfl, rfl⟩
  · have hrest := mmInsertRegion_rest mgr (mmFindInsertionIndex mgr address)
      ⟨address, size, .user hostPtr, perms, mmCpuAttrUser, true⟩
    rcases hins : mmInsertRegion mgr (mmFindInsertionIndex mgr address)
      ⟨address, size, .user hostPtr, perms, mmCpuAttrUser, true⟩ with ⟨b, mgr₂⟩
    simp only [hins] at h
    rw [hins] at hrest
    simp only at hrest
    rw [hrest] at h
    cases b with
    | false =>
      cases h
      exact Or.inl ⟨rfl, rfl⟩
    | true =>
      cases h
      exact Or.inr ⟨rfl, rfl⟩

/-- A new mapping changes the table like a range operation does. -/
theorem MapDone.change {mgr mgr' : MemoryManager} {region : MemoryRegion}
    (m : MapDone mgr mgr' region) (hrest : TableInvalidated mgr mgr') :
    TableChange 1 mgr mgr' := by
  refine .of_invalidated hrest m.agrees.nextBlock_le fun r hr hext => ?_
  rw [m.regions_eq] at hr
  rcases List.mem_append.mp hr with hr | hr
  · exact Or.inl ⟨r, List.mem_of_mem_take hr, hext, rfl⟩
  · rcases List.mem_cons.mp hr with rfl | hr
    · exact Or.inr m.fresh
    · exact Or.inl ⟨r, List.mem_of_mem_drop hr, hext, rfl⟩

/-- **A layout call** changes the version whenever it changes the table. -/
theorem layoutStep_change {mgr : MemoryManager} (hm : ManagerOk mgr) (call : LayoutCall) :
    TableChange (2 ^ 64 - 2) mgr (layoutStep mgr call) := by
  cases call with
  | map address size perms =>
    rcases hcall : mmMapInternal mgr address size perms with ⟨ok, mgr'⟩
    rw [layoutStep, layoutCall, hcall]
    have hrest := mmMapInternal_rest hcall
    rcases mmMapInternal_cases hcall with ⟨rfl, hregions, hagree⟩ | ⟨rfl, block, -, m⟩
    · obtain ⟨-, honly⟩ := hrest.resolve_right fun h => by cases h.1
      exact .of_agrees _ hregions hagree honly
    · obtain ⟨-, hinv⟩ := hrest.resolve_left fun h => by cases h.1
      exact (m.change hinv).mono (by decide)
  | mapPtr address size perms hostPtr =>
    rcases hcall : mmMapHost mgr address size perms hostPtr with ⟨ok, mgr'⟩
    rw [layoutStep, layoutCall, hcall]
    have hrest := mmMapHost_rest hcall
    rcases mmMapHost_cases hcall with ⟨rfl, hregions, hagree⟩ | ⟨rfl, m⟩
    · obtain ⟨-, honly⟩ := hrest.resolve_right fun h => by cases h.1
      exact .of_agrees _ hregions hagree honly
    · obtain ⟨-, hinv⟩ := hrest.resolve_left fun h => by cases h.1
      exact (m.change hinv).mono (by decide)
  | unmap address size => exact replaceRange_change _ _ hm address size
  | protect address size perms => exact replaceRange_change _ _ hm address size
  | setCpuAttrs address size attrs => exact replaceRange_change _ _ hm address size

/-! ## What an access reads -/

/-- The pointer of an access stays below the allocation pointer. -/
theorem MemoryOk.ptr_below {mgr : MemoryManager} (hm : MemoryOk mgr) {address : U64}
    {perm : U32} {block : ℕ} {offset : U64}
    (h : (accessView mgr address perm).ptr = .heap block offset) :
    block < mgr.host.nextBlock := by
  have hpatch : ∀ patch ∈ mgr.patches, ∀ n, patch.data.add n = .heap block offset →
      block < mgr.host.nextBlock := by
    intro patch hp n heq
    obtain ⟨c, hdata, hlt⟩ := hm.patches.owned patch hp
    obtain ⟨o, heq'⟩ := HostPtr.add_eq_heap heq
    rw [hdata] at heq'
    cases heq'
    exact hlt
  have hpage : ∀ entry, pageEntry mgr address = some entry →
      (entry.info address).ptr = .heap block offset → block < mgr.host.nextBlock := by
    intro entry hentry heq
    obtain ⟨o, heq'⟩ := HostPtr.add_eq_heap heq
    unfold pageEntry at hentry
    cases hr : mmFindRegion mgr address with
    | some region =>
      simp only [hr, Option.some.injEq] at hentry
      subst hentry
      obtain ⟨o', hdata⟩ := HostPtr.add_eq_heap heq'
      rw [mmFindRegion_eq_lookup hm.manager.table.arranged] at hr
      exact (hm.manager.stored region (IntervalTable.lookup_sound hr).1).block_lt hdata
    | none =>
      simp only [hr, Option.ite_none_right_eq_some, Option.some.injEq] at hentry
      obtain ⟨-, rfl⟩ := hentry
      cases heq'
  unfold accessView at h
  cases hentry : pageEntry mgr address with
  | none =>
    rw [hentry] at h
    cases h
  | some entry =>
    simp only [hentry, Option.map_some, checkInfo] at h
    split_ifs at h with hprot hfind
    · cases h
    · cases hp : mmFindPatch mgr address with
      | none =>
        rw [hp] at h
        exact hpage entry hentry h
      | some patch =>
        rw [hp] at h
        refine hpatch patch ?_ _ h
        unfold mmFindPatch at hp
        split_ifs at hp
        exact List.mem_of_find?_eq_some hp
    · exact hpage entry hentry h

/-- Accesses depend on the regions, the passthrough flags and the patches only. -/
theorem accessView_congr {mgr mgr' : MemoryManager} (hregions : mgr'.regions = mgr.regions)
    (hperms : mmHostPassthroughPerms mgr' = mmHostPassthroughPerms mgr)
    (hpatches : mgr'.patches = mgr.patches)
    (hbounds : mgr'.patchMinAddress = mgr.patchMinAddress ∧
      mgr'.patchMaxAddress = mgr.patchMaxAddress) (address : U64) (perm : U32) :
    accessView mgr' address perm = accessView mgr address perm := by
  have hfind : mmFindPatch mgr' address = mmFindPatch mgr address := by
    unfold mmFindPatch mmPatchBoundsMayContain
    rw [hpatches, hbounds.1, hbounds.2]
  unfold accessView
  rw [pageEntry_congr hregions hperms]
  cases (pageEntry mgr address).map fun entry => entry.info address with
  | none => rfl
  | some info => simp only [checkInfo, hfind, hpatches, hperms]

/-- What the allocator does out of sight is not seen. -/
theorem SameView.of_agrees {mgr mgr' : MemoryManager} (hm : MemoryOk mgr)
    (hview : ∀ address perm, accessView mgr' address perm = accessView mgr address perm)
    (hagree : AgreesBelow mgr.host.nextBlock mgr.host mgr'.host) : SameView mgr mgr' where
  access_eq := hview
  read_eq _ _ := hagree.read_eq fun _ _ h => hm.ptr_below h

theorem SameView.refl (mgr : MemoryManager) : SameView mgr mgr :=
  ⟨fun _ _ => rfl, fun _ _ => rfl⟩

theorem SameView.trans {mgr mgr' mgr'' : MemoryManager} (h : SameView mgr mgr')
    (h' : SameView mgr' mgr'') : SameView mgr mgr'' where
  access_eq address perm := (h'.access_eq address perm).trans (h.access_eq address perm)
  read_eq address perm := by
    have hread := h'.read_eq address perm
    rw [h.access_eq] at hread
    exact hread.trans (h.read_eq address perm)

/-! ## Every call keeps the invariant -/

/-- A cleared page cache is right. -/
theorem pageCacheOk_of_zero {mgr : MemoryManager} (h : mgr.pageCache = fun _ => .zero) :
    PageCacheOk mgr := by
  intro slot hvalid
  rw [h] at hvalid
  cases hvalid

/-- **A layout call** keeps the invariant, and does not change the view unseen. -/
theorem TableChange.memoryOk {n : ℕ} {mgr mgr' : MemoryManager} (hm : MemoryOk mgr)
    (h : TableChange n mgr mgr') (hmanager : ManagerOk mgr') (hn : n < 2 ^ 64 - 1) :
    MemoryOk mgr' ∧ (mgr'.codeVersion = mgr.codeVersion → SameView mgr mgr') := by
  obtain ⟨k, hk, hversion, hquiet, hloud⟩ := h.bumps
  refine ⟨⟨hmanager, ⟨?_, ?_⟩, ?_, ?_⟩, ?_⟩
  · intro p hp
    rw [h.patches_eq] at hp
    obtain ⟨block, hdata, hlt⟩ := hm.patches.owned p hp
    exact ⟨block, hdata, hlt.trans_le h.nextBlock_le⟩
  · intro p hp r hr hext heq
    rw [h.patches_eq] at hp
    rcases h.data_cases r hr hext with ⟨s, hs, hsext, hdata⟩ | hfresh
    · exact hm.patches.distinct p hp s hs hsext (hdata.trans heq)
    · obtain ⟨block, hdata, hlt⟩ := hm.patches.owned p hp
      exact absurd (hfresh block 0 (heq.trans hdata)) (not_le.mpr hlt)
  · rcases Nat.eq_zero_or_pos k with h0 | hpos
    · obtain ⟨hregions, hcache, -⟩ := hquiet h0
      intro slot hvalid
      rw [hcache] at hvalid ⊢
      rw [pageEntry_congr hregions h.perms_eq]
      exact hm.cache slot hvalid
    · exact pageCacheOk_of_zero (hloud hpos)
  · rw [hversion]
    exact iterate_nextVersion_ne_zero hm.version_ne k
  · intro hsame
    rcases Nat.eq_zero_or_pos k with h0 | hpos
    · obtain ⟨hregions, -, hagree⟩ := hquiet h0
      exact .of_agrees hm
        (accessView_congr hregions h.perms_eq h.patches_eq h.bounds_eq) hagree
    · rw [hversion] at hsame
      exact absurd hsame (iterate_nextVersion_ne hm.version_ne hpos (by omega))

/-- A bump is seen. -/
theorem nextVersion_ne {version : U64} (h : version ≠ 0) : nextVersion version ≠ version :=
  iterate_nextVersion_ne h one_pos (by decide)

/-- A change that comes with a bump needs to keep the invariant only. -/
theorem memoryOk_of_bump {mgr mgr' : MemoryManager} (hversion : mgr.codeVersion ≠ 0)
    (hmanager : ManagerOk mgr') (hpatches : PatchesStored mgr') (hcache : PageCacheOk mgr')
    (hbump : mgr'.codeVersion = nextVersion mgr.codeVersion) :
    MemoryOk mgr' ∧ (mgr'.codeVersion = mgr.codeVersion → SameView mgr mgr') := by
  refine ⟨⟨hmanager, hpatches, hcache, ?_⟩, fun hsame => ?_⟩
  · rw [hbump]
    exact nextVersion_ne_zero _
  · rw [hbump] at hsame
    exact absurd hsame (nextVersion_ne hversion)

/-- The page cache stays right while the table and the flags stay. -/
theorem PageCacheOk.congr {mgr mgr' : MemoryManager} (h : PageCacheOk mgr)
    (hcache : mgr'.pageCache = mgr.pageCache) (hregions : mgr'.regions = mgr.regions)
    (hperms : mmHostPassthroughPerms mgr' = mmHostPassthroughPerms mgr) : PageCacheOk mgr' := by
  intro slot hvalid
  rw [hcache] at hvalid ⊢
  rw [pageEntry_congr hregions hperms]
  exact h slot hvalid

/-- The allocator alone changed. -/
theorem MemoryOk.of_agrees {mgr mgr' : MemoryManager} (hm : MemoryOk mgr)
    (hagree : AgreesBelow mgr.host.nextBlock mgr.host mgr'.host)
    (hrest : mgr' = { mgr with patchCapacity := mgr'.patchCapacity, host := mgr'.host }) :
    MemoryOk mgr' ∧ SameView mgr mgr' := by
  have hregions : mgr'.regions = mgr.regions := by rw [hrest]
  have hpatches : mgr'.patches = mgr.patches := by rw [hrest]
  have hperms : mmHostPassthroughPerms mgr' = mmHostPassthroughPerms mgr := by
    rw [hrest]
    rfl
  refine ⟨⟨hm.manager.of_agrees hregions hagree, ⟨?_, ?_⟩, ?_, ?_⟩, .of_agrees hm ?_ hagree⟩
  · intro p hp
    rw [hpatches] at hp
    obtain ⟨block, hdata, hlt⟩ := hm.patches.owned p hp
    exact ⟨block, hdata, hlt.trans_le hagree.nextBlock_le⟩
  · rw [hpatches, hregions]
    exact hm.patches.distinct
  · exact hm.cache.congr (by rw [hrest]) hregions hperms
  · rw [hrest]
    exact hm.version_ne
  · refine accessView_congr hregions hperms hpatches ?_
    rw [hrest]
    exact ⟨rfl, rfl⟩

/-- Reserving room for patches may ask for memory, and changes nothing else. -/
theorem mmReservePatchCapacity_snd (mgr : MemoryManager) (capacity : ℕ) :
    ∃ host patchCapacity, (mmReservePatchCapacity mgr capacity).2 =
        { mgr with host := host, patchCapacity := patchCapacity } ∧
      ∀ n, AgreesBelow n mgr.host host := by
  unfold mmReservePatchCapacity
  by_cases hfits : capacity ≤ mgr.patchCapacity
  · rw [if_pos hfits]
    exact ⟨mgr.host, mgr.patchCapacity, rfl, fun n => .refl n _⟩
  · rw [if_neg hfits]
    by_cases hgrant : mgr.host.request.1 = true
    · rw [if_pos hgrant]
      exact ⟨mgr.host.request.2, _, rfl, fun n => request_agrees n _⟩
    · rw [if_neg hgrant]
      exact ⟨mgr.host.request.2, mgr.patchCapacity, rfl, fun n => request_agrees n _⟩

/-- A granted allocation, seen from the blocks below. -/
theorem allocZeroed_fresh {host : HostMemory} (size : U64)
    (h : host.grants host.requests = true) :
    ∃ host', host.allocZeroed size = (some (.heap host.nextBlock 0), host') ∧
      host'.nextBlock = host.nextBlock + 1 ∧ AgreesBelow host.nextBlock host host' := by
  rw [allocZeroed_granted h]
  exact ⟨_, rfl, rfl, fun b hb => Function.update_of_ne (by omega) _ _, rfl, rfl, Nat.le_succ _⟩

/-- Filling a fresh block leaves the blocks below it alone. -/
theorem copyIn_agrees {n : ℕ} {host : HostMemory} {target : HostPtr} {bytes : U64 → U8}
    {size : U64} (h : ∀ b o, target = .heap b o → n ≤ b) :
    AgreesBelow n host (copyIn host target bytes size) := by
  cases target with
  | user a => exact .refl n host
  | heap block o =>
    simp only [copyIn]
    cases hb : host.blocks block with
    | none => exact .refl n host
    | some b =>
      refine ⟨fun c hc => ?_, rfl, rfl, le_rfl⟩
      have hle := h block o rfl
      exact Function.update_of_ne (by omega) _ _

/-- A new patch in a fresh block keeps the invariant. -/
theorem memoryOk_appendPatch {mgr : MemoryManager} (hm : MemoryOk mgr) {host : HostMemory}
    {block : ℕ} (hagree : AgreesBelow mgr.host.nextBlock mgr.host host)
    (hfresh : mgr.host.nextBlock ≤ block) (hlt : block < host.nextBlock) (address size : U64) :
    MemoryOk (mmBumpCodeVersion
        (appendPatch { mgr with host := host } address size (.heap block 0))) ∧
      ((mmBumpCodeVersion (appendPatch { mgr with host := host } address size
          (.heap block 0))).codeVersion = mgr.codeVersion →
        SameView mgr (mmBumpCodeVersion
          (appendPatch { mgr with host := host } address size (.heap block 0)))) := by
  refine memoryOk_of_bump hm.version_ne (hm.manager.of_agrees rfl hagree) ⟨?_, ?_⟩
    (hm.cache.congr rfl rfl rfl) rfl
  · intro p hp
    rcases List.mem_append.mp hp with hp | hp
    · obtain ⟨c, hdata, hc⟩ := hm.patches.owned p hp
      exact ⟨c, hdata, hc.trans_le hagree.nextBlock_le⟩
    · rw [List.mem_singleton.mp hp]
      exact ⟨block, rfl, hlt⟩
  · intro p hp r hr hext heq
    rcases List.mem_append.mp hp with hp | hp
    · exact hm.patches.distinct p hp r hr hext heq
    · rw [List.mem_singleton.mp hp] at heq
      have := (hm.manager.stored r hr).block_lt heq
      omega

/-- **`mm_add_patch`** keeps the invariant. -/
theorem mmAddPatch_ok {mgr : MemoryManager} (hm : MemoryOk mgr) (address : U64)
    (bytes : U64 → U8) (size : U64) :
    MemoryOk (mmAddPatch mgr address bytes size).2 ∧
      ((mmAddPatch mgr address bytes size).2.codeVersion = mgr.codeVersion →
        SameView mgr (mmAddPatch mgr address bytes size).2) := by
  rw [mmAddPatch]
  split_ifs with hargs hconflict
  · exact ⟨hm, fun _ => .refl mgr⟩
  · exact ⟨hm, fun _ => .refl mgr⟩
  · obtain ⟨host, capacity, hres, hagree⟩ :=
      mmReservePatchCapacity_snd mgr (mgr.patches.length + 1)
    rcases hcase : mmReservePatchCapacity mgr (mgr.patches.length + 1) with ⟨b, mgr₁⟩
    rw [hcase] at hres
    simp only at hres
    subst hres
    have h₁ : MemoryOk { mgr with host := host, patchCapacity := capacity } ∧
        SameView mgr { mgr with host := host, patchCapacity := capacity } :=
      hm.of_agrees (hagree _) rfl
    obtain ⟨hm₁, hview₁⟩ := h₁
    cases b with
    | false => exact ⟨hm₁, fun _ => hview₁⟩
    | true =>
      simp only
      cases hgrant : host.grants host.requests with
      | false =>
        rw [allocZeroed_denied hgrant]
        have h₂ : MemoryOk { mgr with host := host.request.2, patchCapacity := capacity } ∧
            SameView { mgr with host := host, patchCapacity := capacity }
              { mgr with host := host.request.2, patchCapacity := capacity } :=
          hm₁.of_agrees (request_agrees _ host) rfl
        exact ⟨h₂.1, fun _ => hview₁.trans h₂.2⟩
      | true =>
        obtain ⟨host₂, halloc, hnext, hagree₂⟩ := allocZeroed_fresh size hgrant
        rw [halloc]
        -- the patch gets the fresh block, which is filled before the version is bumped
        have hfill : AgreesBelow host.nextBlock host₂
            (copyIn host₂ (.heap host.nextBlock 0) bytes size) := by
          refine copyIn_agrees fun b o heq => ?_
          cases heq
          exact le_rfl
        have hlt : host.nextBlock <
            (copyIn host₂ (.heap host.nextBlock 0) bytes size).nextBlock := by
          have := hfill.nextBlock_le
          omega
        obtain ⟨hok, hsame⟩ :=
          memoryOk_appendPatch hm₁ (hagree₂.trans hfill) le_rfl hlt address size
        exact ⟨hok, fun h => hview₁.trans (hsame h)⟩

/-- Freeing the block of a patch leaves the regions stored. -/
theorem ManagerOk.free {mgr mgr' : MemoryManager} (hm : ManagerOk mgr) {block : ℕ}
    (hregions : mgr'.regions = mgr.regions)
    (hhost : mgr'.host = mgr.host.free (.heap block 0))
    (hdistinct : ∀ r ∈ mgr.regions, r.external = false → r.data ≠ .heap block 0) :
    ManagerOk mgr' where
  table := hregions ▸ hm.table
  distinct := hregions ▸ hm.distinct
  stored r hr := by
    rw [hregions] at hr
    refine ⟨(hm.stored r hr).shared, fun hext => ?_⟩
    obtain ⟨c, b, hdata, hlt, hb, hsize⟩ := (hm.stored r hr).owned hext
    have hne : c ≠ block := by
      rintro rfl
      exact hdistinct r hr hext hdata
    rw [hhost]
    exact ⟨c, b, hdata, hlt, (Function.update_of_ne hne _ _).trans hb, hsize⟩

/-- **`mm_del_patch`** keeps the invariant. -/
theorem mmDelPatch_ok {mgr : MemoryManager} (hm : MemoryOk mgr) (handle : U64) :
    MemoryOk (mmDelPatch mgr handle).2 ∧
      ((mmDelPatch mgr handle).2.codeVersion = mgr.codeVersion →
        SameView mgr (mmDelPatch mgr handle).2) := by
  rw [mmDelPatch]
  split_ifs with hzero
  · exact ⟨hm, fun _ => .refl mgr⟩
  · cases hfind : mgr.patches.find? fun p => p.handle == handle with
    | none => exact ⟨hm, fun _ => .refl mgr⟩
    | some patch =>
      have hmem := List.mem_of_find?_eq_some hfind
      obtain ⟨block, hdata, -⟩ := hm.patches.owned patch hmem
      have hmanager : ManagerOk (mmBumpCodeVersion (mmRebuildPatchBounds
          { mgr with
            patches := mgr.patches.eraseP fun p => p.handle == handle
            host := mgr.host.free patch.data })) := by
        have hdistinct := hm.patches.distinct patch hmem
        rw [hdata] at hdistinct ⊢
        exact hm.manager.free rfl rfl hdistinct
      refine memoryOk_of_bump hm.version_ne hmanager ⟨?_, ?_⟩ (hm.cache.congr rfl rfl rfl) rfl
      · intro p hp
        obtain ⟨c, hc, hlt⟩ := hm.patches.owned p (List.mem_of_mem_eraseP hp)
        refine ⟨c, hc, ?_⟩
        show c < (mgr.host.free patch.data).nextBlock
        rw [hdata]
        exact hlt
      · intro p hp r hr
        exact hm.patches.distinct p (List.mem_of_mem_eraseP hp) r hr

/-- A store through a pointer leaves the allocator alone. -/
@[simp] theorem write_nextBlock (host : HostMemory) (p : HostPtr) (value : U8) :
    (host.write p value).nextBlock = host.nextBlock := by
  cases p with
  | user a => rfl
  | heap block o =>
    simp only [HostMemory.write]
    cases host.blocks block <;> rfl

/-- A store keeps the invariant. -/
theorem MemoryOk.write {mgr : MemoryManager} (hm : MemoryOk mgr) (p : HostPtr) (value : U8) :
    MemoryOk (mgr.setHost (mgr.host.write p value)) where
  manager := managerOk_write hm.manager p value
  patches := by
    refine ⟨fun q hq => ?_, hm.patches.distinct⟩
    obtain ⟨block, hdata, hlt⟩ := hm.patches.owned q hq
    exact ⟨block, hdata, by simpa [MemoryManager.setHost] using hlt⟩
  cache := hm.cache.congr rfl rfl rfl
  version_ne := hm.version_ne

/-- A change of the page cache that keeps it right keeps the invariant. -/
theorem MemoryOk.setCache {mgr : MemoryManager} (hm : MemoryOk mgr)
    {cache : ℕ → PageCacheEntry} (hc : PageCacheOk (mgr.setCache cache)) :
    MemoryOk (mgr.setCache cache) :=
  ⟨⟨hm.manager.table, hm.manager.stored, hm.manager.distinct⟩,
    ⟨hm.patches.owned, hm.patches.distinct⟩, hc, hm.version_ne⟩

/-- One byte of a raw write keeps the invariant and the version. -/
theorem mmWriteByteChecked_ok {mgr : MemoryManager} (hm : MemoryOk mgr) (address : U64)
    (value : U8) :
    MemoryOk (mmWriteByteChecked mgr address value).2 ∧
      (mmWriteByteChecked mgr address value).2.codeVersion = mgr.codeVersion := by
  obtain ⟨-, cache, hsnd, hc⟩ := mmGetPtrChecked_spec hm.manager hm.cache address mmProtWrite
  unfold mmWriteByteChecked
  rcases hget : mmGetPtrChecked mgr address mmProtWrite with ⟨result, mgr₁⟩
  rw [hget] at hsnd
  simp only at hsnd
  subst hsnd
  have hm₁ := hm.setCache hc
  cases hstatus : result.status with
  | ok =>
    simp only [hstatus]
    exact ⟨hm₁.write result.ptr value, rfl⟩
  | unmapped =>
    simp only [hstatus]
    exact ⟨hm₁, rfl⟩
  | prot =>
    simp only [hstatus]
    exact ⟨hm₁, rfl⟩

/-- **A raw write** keeps the invariant and does not touch the version. -/
theorem memWriteLoop_ok (address : U64) (bytes : U64 → U8) (left : ℕ) :
    ∀ (index : U64) (mgr : MemoryManager), MemoryOk mgr →
      MemoryOk (memWriteLoop address bytes left index mgr).2 ∧
        (memWriteLoop address bytes left index mgr).2.codeVersion = mgr.codeVersion := by
  induction left with
  | zero =>
    intro index mgr hm
    exact ⟨hm, rfl⟩
  | succ left ih =>
    intro index mgr hm
    obtain ⟨hm₁, hversion⟩ := mmWriteByteChecked_ok hm (address + index) (bytes index)
    unfold memWriteLoop
    rcases hwrite : mmWriteByteChecked mgr (address + index) (bytes index) with ⟨status, mgr₁⟩
    rw [hwrite] at hm₁ hversion
    cases status with
    | ok =>
      obtain ⟨hm₂, hversion₂⟩ := ih (index + 1) mgr₁ hm₁
      exact ⟨hm₂, hversion₂.trans hversion⟩
    | unmapped => exact ⟨hm₁, hversion⟩
    | prot => exact ⟨hm₁, hversion⟩

/-- A bump keeps the invariant. -/
theorem MemoryOk.bump {mgr : MemoryManager} (hm : MemoryOk mgr) :
    MemoryOk (mmBumpCodeVersion mgr) where
  manager := ⟨hm.manager.table, hm.manager.stored, hm.manager.distinct⟩
  patches := ⟨hm.patches.owned, hm.patches.distinct⟩
  cache := hm.cache.congr rfl rfl rfl
  version_ne := nextVersion_ne_zero _

/-- **Every call** keeps the invariant, and one that leaves the version alone leaves
alone all that an access can see. -/
theorem memoryCall_ok {mgr : MemoryManager} (hm : MemoryOk mgr) (call : MemoryCall) :
    MemoryOk (memoryCall mgr call) ∧
      ((memoryCall mgr call).codeVersion = mgr.codeVersion →
        SameView mgr (memoryCall mgr call)) := by
  cases call with
  | layout call =>
    exact (layoutStep_change hm.manager call).memoryOk hm (layoutStep_keeps mgr call hm.manager).1
      (by decide)
  | setHostPassthrough perms enabled =>
    exact memoryOk_of_bump hm.version_ne
      ⟨hm.manager.table, hm.manager.stored, hm.manager.distinct⟩
      ⟨hm.patches.owned, hm.patches.distinct⟩ (pageCacheOk_of_zero rfl) rfl
  | addPatch address bytes size => exact mmAddPatch_ok hm address bytes size
  | delPatch handle => exact mmDelPatch_ok hm handle
  | write address bytes size =>
    obtain ⟨hm₁, hversion⟩ := memWriteLoop_ok address bytes size.toNat 0 mgr hm
    show MemoryOk (if size ≠ 0 then mmBumpCodeVersion (memWriteRaw mgr address bytes size).2
        else (memWriteRaw mgr address bytes size).2) ∧ _
    by_cases hsize : size = 0
    · subst hsize
      exact ⟨hm, fun _ => .refl mgr⟩
    · rw [if_pos hsize]
      refine ⟨hm₁.bump, fun hsame => ?_⟩
      have hbump : (memoryCall mgr (.write address bytes size)).codeVersion =
          nextVersion mgr.codeVersion := by
        show (if size ≠ 0 then mmBumpCodeVersion (memWriteRaw mgr address bytes size).2
          else (memWriteRaw mgr address bytes size).2).codeVersion = _
        rw [if_pos hsize, mmBumpCodeVersion_codeVersion]
        exact congrArg nextVersion hversion
      rw [hbump] at hsame
      exact absurd hsame (nextVersion_ne hm.version_ne)

end Cpueaxh
