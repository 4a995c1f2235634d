/-
# Runs of layout calls

Every sequence of layout calls keeps the invariant of the manager, whatever the
allocator grants.  The table is the sorted table of disjoint ranges that lookup
takes it for as long as no mapping reaches the top of the address space; a mapping
that does so is accepted and never found again.
-/
import Cpueaxh.RangeLoop

namespace Cpueaxh

open IntervalTable HostMemory

/-! ## One call -/

/-- A layout call maps a range that ends at the top of the address space. -/
def LayoutCall.MapsToTop : LayoutCall → Prop
  | .map address size _ => address.toNat + size.toNat = 2 ^ 64
  | .mapPtr address size _ _ => address.toNat + size.toNat = 2 ^ 64
  | .unmap _ _ => False
  | .protect _ _ _ => False
  | .setCpuAttrs _ _ _ => False

/-- No region reaches the top of the address space. -/
def NoTopRegion (mgr : MemoryManager) : Prop := ∀ r ∈ mgr.regions, ¬ r.ReachesTop

theorem managerOk_mmInit (host : HostMemory) : ManagerOk (mmInit host) :=
  { table := ⟨List.Pairwise.nil, fun _ hr => absurd hr List.not_mem_nil⟩
    stored := fun _ hr => absurd hr List.not_mem_nil
    distinct := List.Pairwise.nil }

/-- A range operation keeps the invariant, and adds no region at the top. -/
theorem replaceRange_keeps (middle : MiddlePart) (valid : Bool) {mgr : MemoryManager}
    (address size : U64) (hm : ManagerOk mgr) :
    ManagerOk (replaceRange middle valid mgr address size).2 ∧
      (NoTopRegion mgr → NoTopRegion (replaceRange middle valid mgr address size).2) := by
  by_cases h : RangeAccepted valid mgr address size
  · have d := replaceRange_spec middle hm h
    refine ⟨d.managerOk, fun htop r hr => ?_⟩
    rcases d.mem_cases r hr with hr | hr
    · exact htop r hr
    · exact hr
  · rw [replaceRange_rejected h]
    exact ⟨hm, id⟩

/-- A mapping keeps the invariant, and adds no region but its own. -/
theorem MapDone.keeps {mgr mgr' : MemoryManager} {region : MemoryRegion}
    (m : MapDone mgr mgr' region) (hm : ManagerOk mgr) :
    ManagerOk mgr' ∧ (¬ region.ReachesTop → NoTopRegion mgr → NoTopRegion mgr') := by
  refine ⟨m.managerOk hm, fun hnot htop r hr => ?_⟩
  rw [m.regions_eq] at hr
  rcases List.mem_append.mp hr with hr | hr
  · exact htop r (List.mem_of_mem_take hr)
  · rcases List.mem_cons.mp hr with rfl | hr
    · exact hnot
    · exact htop r (List.mem_of_mem_drop hr)

/-- **One call.**  A layout call keeps the invariant, and makes no region reach the
top unless it maps one there. -/
theorem layoutStep_keeps (mgr : MemoryManager) (call : LayoutCall) (hm : ManagerOk mgr) :
    ManagerOk (layoutStep mgr call) ∧
      (¬ call.MapsToTop → NoTopRegion mgr → NoTopRegion (layoutStep mgr call)) := by
  cases call with
  | map address size perms =>
    rcases hcall : mmMapInternal mgr address size perms with ⟨ok, mgr'⟩
    rw [layoutStep, layoutCall, hcall]
    rcases mmMapInternal_cases hcall with ⟨-, hregions, hagree⟩ | ⟨-, block, -, m⟩
    · exact ⟨hm.of_agrees hregions hagree, fun _ htop => by rw [NoTopRegion, hregions]; exact htop⟩
    · exact m.keeps hm
  | mapPtr address size perms hostPtr =>
    rcases hcall : mmMapHost mgr address size perms hostPtr with ⟨ok, mgr'⟩
    rw [layoutStep, layoutCall, hcall]
    rcases mmMapHost_cases hcall with ⟨-, hregions, hagree⟩ | ⟨-, m⟩
    · exact ⟨hm.of_agrees hregions hagree, fun _ htop => by rw [NoTopRegion, hregions]; exact htop⟩
    · exact m.keeps hm
  | unmap address size =>
    obtain ⟨h1, h2⟩ := replaceRange_keeps unmapMiddle true address size hm
    exact ⟨h1, fun _ => h2⟩
  | protect address size perms =>
    obtain ⟨h1, h2⟩ := replaceRange_keeps (protectMiddle perms) (mmIsValidPerms perms)
      address size hm
    exact ⟨h1, fun _ => h2⟩
  | setCpuAttrs address size attrs =>
    obtain ⟨h1, h2⟩ := replaceRange_keeps (setCpuAttrsMiddle attrs) (mmIsValidCpuAttrs attrs)
      address size hm
    exact ⟨h1, fun _ => h2⟩

/-! ## What lookup relies on -/

/-- The table is what lookup takes it for: sorted, disjoint, aligned and non-empty
ranges, with exactly the covering region found at each address. -/
structure TableOk (mgr : MemoryManager) : Prop where
  sorted : mgr.regions.Pairwise fun r s => r.base.toNat < s.base.toNat
  disjoint : mgr.regions.Pairwise fun r s => ∀ address, ¬ (r.Contains address ∧ s.Contains address)
  aligned : ∀ r ∈ mgr.regions, mmIsPageAligned r.base = true ∧ mmIsPageAligned r.size = true
  nonempty : ∀ r ∈ mgr.regions, r.size ≠ 0
  find_iff : ∀ address i, mmFindRegionIndex mgr address = some i ↔
    ∃ r, mgr.regions[i]? = some r ∧ r.Contains address

/-- Below the top the computed end of a region is its real end. -/
theorem tableOk_of_noTop {mgr : MemoryManager} (hm : ManagerOk mgr) (htop : NoTopRegion mgr) :
    TableOk mgr := by
  have hshape := hm.table.shape
  have hhi : ∀ r ∈ mgr.regions, regionHi r = r.base.toNat + r.size.toNat := fun r hr =>
    (hshape r hr).regionHi_eq (htop r hr)
  have hends : mgr.regions.Pairwise fun r s =>
      0 < r.size.toNat ∧ r.base.toNat + r.size.toNat ≤ s.base.toNat := by
    refine hm.table.arranged.imp_of_mem fun {r s} hr _ h => ?_
    have hend := h.2
    rw [hhi r hr] at hend
    exact ⟨(hshape r hr).size_pos, hend⟩
  refine ⟨?_, ?_, ?_, ?_, ?_⟩
  · refine hends.imp fun {r s} h => ?_
    omega
  · refine hends.imp fun {r s} h address hboth => ?_
    obtain ⟨⟨-, h1⟩, ⟨h2, -⟩⟩ := hboth
    omega
  · intro r hr
    exact ⟨(mmIsPageAligned_iff _).mpr (hshape r hr).base_aligned,
      (mmIsPageAligned_iff _).mpr (hshape r hr).size_aligned⟩
  · rintro r hr hzero
    have hpos := (hshape r hr).size_pos
    rw [hzero] at hpos
    exact absurd hpos (by decide)
  · intro address i
    rw [mmFindRegionIndex_eq_some_iff hm.table.arranged]
    refine exists_congr fun r => and_congr_right fun hr => ?_
    rw [Covers, hhi r (List.mem_of_getElem? hr), MemoryRegion.Contains]

/-- A region at the top is in the table, and lookup does not find it. -/
theorem not_tableOk_of_top {mgr : MemoryManager} {r : MemoryRegion} (hr : r ∈ mgr.regions)
    (hsize : 0 < r.size.toNat) (htop : r.ReachesTop) : ¬ TableOk mgr := by
  intro h
  obtain ⟨i, hi⟩ := List.mem_iff_getElem?.mp hr
  have hcontains : r.Contains r.base := ⟨le_rfl, by omega⟩
  have hfind := (h.find_iff r.base i).mpr ⟨r, hi, hcontains⟩
  obtain ⟨-, hlt, hprobe⟩ := ProbeSearch.search_sound _ _ _ _ _ hfind
  obtain ⟨r', hr', hcov⟩ := (regionProbe_eq_eq hlt).mp hprobe
  obtain rfl : r = r' := Option.some.inj (hi.symm.trans hr')
  exact Covers.not_reachesTop hcov htop

/-! ## Runs -/

/-- Every state of a run has the invariant. -/
theorem managerOk_run (host : HostMemory) (calls : List LayoutCall) :
    ManagerOk (Transition.run layoutStep (mmInit host) calls) :=
  Transition.run_invariant_always ManagerOk
    (fun mgr call hm => (layoutStep_keeps mgr call hm).1) calls _ (managerOk_mmInit host)

/-- A successful mapping has put its range in the table. -/
theorem mem_of_mapsToTop {mgr : MemoryManager} {call : LayoutCall} (htop : call.MapsToTop)
    (hok : (layoutCall mgr call).1 = true) :
    ∃ r ∈ (layoutStep mgr call).regions, 0 < r.size.toNat ∧ r.ReachesTop := by
  cases call with
  | map address size perms =>
    rcases hcall : mmMapInternal mgr address size perms with ⟨ok, mgr'⟩
    rw [layoutCall, hcall] at hok
    rw [layoutStep, layoutCall, hcall]
    rcases mmMapInternal_cases hcall with ⟨rfl, -, -⟩ | ⟨-, block, -, m⟩
    · cases hok
    · exact ⟨_, by rw [m.regions_eq]; simp, m.shape.size_pos, htop⟩
  | mapPtr address size perms hostPtr =>
    rcases hcall : mmMapHost mgr address size perms hostPtr with ⟨ok, mgr'⟩
    rw [layoutCall, hcall] at hok
    rw [layoutStep, layoutCall, hcall]
    rcases mmMapHost_cases hcall with ⟨rfl, -, -⟩ | ⟨-, m⟩
    · cases hok
    · exact ⟨_, by rw [m.regions_eq]; simp, m.shape.size_pos, htop⟩
  | unmap address size => exact htop.elim
  | protect address size perms => exact htop.elim
  | setCpuAttrs address size attrs => exact htop.elim

/-- **The region table.**  In every run without a mapping that reaches the top, the
table is in order in every state, and lookup finds exactly what covers an address.
A mapping that reaches the top and is accepted breaks the table at once. -/
theorem region_table_ok_until_top_mapped (host : HostMemory) (calls : List LayoutCall) :
    ((∀ call ∈ calls, ¬ call.MapsToTop) →
      ∀ n, TableOk (Transition.run layoutStep (mmInit host) (calls.take n))) ∧
    ∀ mgr call, call.MapsToTop → (layoutCall mgr call).1 = true →
      ¬ TableOk (layoutStep mgr call) := by
  constructor
  · intro hcalls n
    have hkeep : ∀ mgr call, ManagerOk mgr ∧ NoTopRegion mgr → ¬ call.MapsToTop →
        ManagerOk (layoutStep mgr call) ∧ NoTopRegion (layoutStep mgr call) := by
      intro mgr call hinv htop
      obtain ⟨h1, h2⟩ := layoutStep_keeps mgr call hinv.1
      exact ⟨h1, h2 htop hinv.2⟩
    have hinv := Transition.run_invariant (fun mgr => ManagerOk mgr ∧ NoTopRegion mgr) hkeep
      (calls.take n) (mmInit host) ⟨managerOk_mmInit host, fun _ hr => absurd hr List.not_mem_nil⟩
      (Transition.along_of_forall _ (fun call hcall => hcalls call (List.mem_of_mem_take hcall)) _)
    exact tableOk_of_noTop hinv.1 hinv.2
  · intro mgr call htop hok
    obtain ⟨r, hr, hsize, hreach⟩ := mem_of_mapsToTop htop hok
    exact not_tableOk_of_top hr hsize hreach

/-- The last page of the address space: the mapping is accepted, the region covers
the page, and lookup does not find it. -/
theorem last_page_mapped_but_not_found :
    let host := HostMemory.initial (fun _ => 0) (fun _ => true)
    let call := LayoutCall.map 0xFFFFFFFFFFFFF000 0x1000 3
    let mgr := layoutStep (mmInit host) call
    (layoutCall (mmInit host) call).1 = true ∧
      (∃ r ∈ mgr.regions, r.Contains 0xFFFFFFFFFFFFF000) ∧
      mmFindRegionIndex mgr 0xFFFFFFFFFFFFF000 = none ∧ ¬ TableOk mgr := by
  refine ⟨by decide, ⟨⟨0xFFFFFFFFFFFFF000, 0x1000, .heap 0 0, 3, 1, false⟩, by decide, ?_⟩,
    by decide, ?_⟩
  · rw [MemoryRegion.Contains]
    decide
  · exact not_tableOk_of_top (r := ⟨0xFFFFFFFFFFFFF000, 0x1000, .heap 0 0, 3, 1, false⟩)
      (by decide) (by decide) (by rw [MemoryRegion.ReachesTop]; decide)

end Cpueaxh
