/-
# The region table refines the page map

A run of successful layout calls below the top of the address space, with stores in
between, takes the region table through the same page maps as the abstract memory
that is updated one page at a time.  Splitting a region moves the bytes that the
manager owns, so the pointer of such a page is not part of the page map; the pointer
of a page that was mapped with one is.
-/
import Cpueaxh.LayoutRuns

namespace Cpueaxh

open IntervalTable HostMemory

/-! ## Layout calls -/

/-- The call's range ends below the top of the address space. -/
def LayoutCall.BelowTop : LayoutCall → Prop
  | .map address size _ => address.toNat + size.toNat < 2 ^ 64
  | .mapPtr address size _ _ => address.toNat + size.toNat < 2 ^ 64
  | .unmap address size => address.toNat + size.toNat < 2 ^ 64
  | .protect address size _ => address.toNat + size.toNat < 2 ^ 64
  | .setCpuAttrs address size _ => address.toNat + size.toNat < 2 ^ 64

/-- The abstract memory in which nothing is mapped. -/
def FlatMemory.empty (user : U64 → U8) : FlatMemory := { user := user, page := fun _ => none }

theorem FlatMemory.ext {a b : FlatMemory} (huser : a.user = b.user)
    (hpage : ∀ p, a.page p = b.page p) : a = b := by
  cases a
  cases b
  simp only at huser hpage
  rw [huser, funext hpage]

theorem toFlat_mmInit (host : HostMemory) :
    toFlat (mmInit host) = FlatMemory.empty host.user := rfl

/-- A range operation that succeeds below the top updates the pages of its range. -/
theorem toFlat_replaceRange {middle : MiddlePart} {valid : Bool} {mgr : MemoryManager}
    {address size : U64} (hm : ManagerOk mgr) (htop : address.toNat + size.toNat < 2 ^ 64)
    (hok : (replaceRange middle valid mgr address size).1 = true) :
    toFlat (replaceRange middle valid mgr address size).2 =
      (toFlat mgr).updatePages (fun _ record => record.bind (applyMiddle middle))
        (pageCount size) address := by
  by_cases h : RangeAccepted valid mgr address size
  · have d := replaceRange_spec middle hm h
    have haddr := (mmIsPageAligned_iff address).mp h.address_aligned
    have hsize := (mmIsPageAligned_iff size).mp h.size_aligned
    have hend : (address + size).toNat = address.toNat + size.toNat := by
      rw [BitVec.toNat_add]
      omega
    have hstop := d.ok_iff.mp hok
    have hstop' := d.stop_le (by omega)
    apply FlatMemory.ext
    · rw [updatePages_user]
      exact d.user_eq
    · intro p
      rw [updatePages_range _ _ p haddr hsize htop.le]
      refine (d.pageAt_eq p).trans (if_congr ?_ rfl rfl)
      rw [Page.InRange]
      omega
  · rw [replaceRange_rejected h] at hok ⊢
    have hzero : size = 0 := of_decide_eq_true hok
    rw [hzero]
    rfl

/-- A mapping below the top updates the pages of its range. -/
theorem MapDone.toFlat_eq {mgr mgr' : MemoryManager} {region : MemoryRegion}
    (m : MapDone mgr mgr' region) (hm : ManagerOk mgr)
    (htop : region.base.toNat + region.size.toNat < 2 ^ 64) (f : U64 → PageRecord)
    (hf : ∀ p : Page, p.InRange region.base region.size →
      pageRecord mgr'.host region p.1 = f p.1) :
    toFlat mgr' = (toFlat mgr).updatePages (fun p _ => some (f p))
      (pageCount region.size) region.base := by
  have hhi := m.shape.regionHi_eq (by rw [MemoryRegion.ReachesTop]; omega)
  apply FlatMemory.ext
  · rw [updatePages_user]
    exact m.agrees.user_eq
  · intro p
    rw [updatePages_range _ _ p m.shape.base_aligned m.shape.size_aligned htop.le]
    refine (m.pageAt_eq hm p).trans ?_
    by_cases hin : p.InRange region.base region.size
    · have hcov : Covers regionLo regionHi region p.1.toNat := ⟨hin.1, by rw [hhi]; exact hin.2⟩
      rw [if_pos hcov, if_pos hin, hf p hin]
    · have hcov : ¬ Covers regionLo regionHi region p.1.toNat := by
        rintro ⟨h1, h2⟩
        rw [hhi] at h2
        exact hin ⟨h1, h2⟩
      rw [if_neg hcov, if_neg hin]
      rfl

/-- **One call.**  A layout call that succeeds below the top takes the page map of the
table to the one that the call on the abstract memory gives. -/
theorem toFlat_layoutStep {mgr : MemoryManager} {call : LayoutCall} (hm : ManagerOk mgr)
    (htop : call.BelowTop) (hok : (layoutCall mgr call).1 = true) :
    toFlat (layoutStep mgr call) = (toFlat mgr).step call := by
  cases call with
  | map address size perms =>
    rcases hcall : mmMapInternal mgr address size perms with ⟨ok, mgr'⟩
    rw [layoutCall, hcall] at hok
    rw [layoutStep, layoutCall, hcall]
    rcases mmMapInternal_cases hcall with ⟨rfl, -, -⟩ | ⟨-, block, ⟨b, hb, hsize, hbytes⟩, m⟩
    · cases hok
    · refine m.toFlat_eq hm htop (fun _ => ⟨.own fun _ => 0, perms, mmCpuAttrUser⟩) ?_
      intro p hin
      have hstorage : pageStorage mgr'.host (.heap block (0 + (p.1 - address))) =
          .own fun _ => 0 := by
        rw [pageStorage, PageStorage.own.injEq]
        funext i
        have hlt := page_offset_lt (i := i) ((mmIsPageAligned_iff p.1).mp p.2)
          m.shape.base_aligned m.shape.size_aligned hin.1 hin.2
        have hzero : (0 : U64) + (p.1 - address) = p.1 - address := BitVec.zero_add _
        rw [hzero, read_heap hb (by rw [hsize]; exact hlt), hbytes]
        rfl
      simp only [pageRecord, HostPtr.add, hstorage]
  | mapPtr address size perms hostPtr =>
    rcases hcall : mmMapHost mgr address size perms hostPtr with ⟨ok, mgr'⟩
    rw [layoutCall, hcall] at hok
    rw [layoutStep, layoutCall, hcall]
    rcases mmMapHost_cases hcall with ⟨rfl, -, -⟩ | ⟨-, m⟩
    · cases hok
    · exact m.toFlat_eq hm htop
        (fun p => ⟨.host (hostPtr + (p - address)), perms, mmCpuAttrUser⟩) fun _ _ => rfl
  | unmap address size =>
    refine (toFlat_replaceRange hm htop hok).trans ?_
    rw [FlatMemory.step]
    congr 1
    funext _ record
    cases record <;> rfl
  | protect address size perms =>
    refine (toFlat_replaceRange hm htop hok).trans ?_
    rw [FlatMemory.step]
    congr 1
    funext _ record
    cases record <;> rfl
  | setCpuAttrs address size attrs =>
    refine (toFlat_replaceRange hm htop hok).trans ?_
    rw [FlatMemory.step]
    congr 1
    funext _ record
    cases record <;> rfl

/-! ## Stores -/

/-- The page of an address starts at the multiple of 4096 below it. -/
theorem pageOf_toNat (address : U64) :
    (pageOf address).1.toNat = address.toNat - address.toNat % 4096 := by
  have hmask : (alignDownPage address).toNat + address.toNat % 4096 = address.toNat := by
    have hlow : address.toNat % 4096 = (address &&& (pageSize - 1)).toNat := by
      rw [BitVec.toNat_and]
      exact (Nat.and_two_pow_sub_one_eq_mod address.toNat 12).symm
    have hdisj : alignDownPage address &&& (address &&& (pageSize - 1)) = 0#64 := by
      rw [alignDownPage, pageMask]
      ext i
      simp only [BitVec.getElem_and, BitVec.getElem_not, BitVec.getElem_zero]
      cases address[i] <;> cases (pageSize - 1)[i] <;> rfl
    rw [hlow, ← BitVec.toNat_add_of_and_eq_zero hdisj, BitVec.add_eq_or_of_and_eq_zero _ _ hdisj,
      alignDownPage, pageMask]
    congr 1
    ext i
    simp only [BitVec.getElem_or, BitVec.getElem_and, BitVec.getElem_not]
    cases address[i] <;> cases (pageSize - 1)[i] <;> rfl
  show (alignDownPage address).toNat = _
  omega

theorem pageOffset_toNat (address : U64) : (pageOffset address).toNat = address.toNat % 4096 := by
  rw [pageOffset, BitVec.toNat_setWidth]

theorem setWidth_offset_toNat (i : BitVec 12) : (i.setWidth 64).toNat = i.toNat := by
  have hlt := i.isLt
  rw [BitVec.toNat_setWidth]
  omega

/-- An address is its page and its offset there. -/
theorem page_add_offset (address base : U64) :
    (pageOf address).1 - base + (pageOffset address).setWidth 64 = address - base := by
  have h : (pageOf address).1 + (pageOffset address).setWidth 64 = address := by
    apply BitVec.eq_of_toNat_eq
    have h1 := pageOf_toNat address
    have h2 := setWidth_offset_toNat (pageOffset address)
    have h3 := pageOffset_toNat address
    have h4 := address.isLt
    rw [BitVec.toNat_add, h1, h2, h3]
    omega
  calc (pageOf address).1 - base + (pageOffset address).setWidth 64
      = (pageOf address).1 + (pageOffset address).setWidth 64 - base := by bv_omega
    _ = address - base := by rw [h]

/-- Only the page of an address, at its offset, reaches the address. -/
theorem page_add_offset_inj {p : Page} {i : BitVec 12} {address base : U64}
    (h : p.1 - base + i.setWidth 64 = address - base) :
    p.1 = (pageOf address).1 ∧ i = pageOffset address := by
  have hp := (mmIsPageAligned_iff p.1).mp p.2
  have h1 := pageOf_toNat address
  have h2 := setWidth_offset_toNat i
  have h3 := pageOffset_toNat address
  have h4 := address.isLt
  have h5 := i.isLt
  have h6 := p.1.isLt
  have hadd : (p.1 + i.setWidth 64).toNat = address.toNat := by
    have heq : p.1 + i.setWidth 64 = address := by bv_omega
    rw [heq]
  rw [BitVec.toNat_add, h2] at hadd
  constructor
  · apply BitVec.eq_of_toNat_eq
    omega
  · apply BitVec.eq_of_toNat_eq
    omega

/-- A region covers an address exactly when it covers its page. -/
theorem covers_pageOf {r : MemoryRegion} (h : RegionShape r) (address : U64) :
    Covers regionLo regionHi r (pageOf address).1.toNat ↔
      Covers regionLo regionHi r address.toNat := by
  have h1 := pageOf_toNat address
  have h2 := h.base_aligned
  have h3 := h.size_aligned
  have hhi : regionHi r % 4096 = 0 := by
    rw [regionHi, MemoryRegion.regionEnd, BitVec.toNat_add]
    omega
  simp only [Covers, regionLo, h1]
  omega

/-- Lookup finds for an address what it finds for its page. -/
theorem mmFindRegion_pageOf {mgr : MemoryManager} (hm : ManagerOk mgr) (address : U64) :
    mmFindRegion mgr (pageOf address).1 = mmFindRegion mgr address := by
  have harr := hm.table.arranged
  rw [mmFindRegion_eq_lookup harr, mmFindRegion_eq_lookup harr]
  apply Option.ext
  intro r
  rw [harr.lookup_eq_some_iff, harr.lookup_eq_some_iff]
  exact and_congr_right fun hr => covers_pageOf (hm.table.shape r hr) address

instance : Std.Symm DistinctStorage where
  symm _ _ h hext hext' heq := h hext' hext heq.symm

/-- Different regions own different blocks. -/
theorem ManagerOk.distinct_of_ne {mgr : MemoryManager} (hm : ManagerOk mgr) {r s : MemoryRegion}
    (hr : r ∈ mgr.regions) (hs : s ∈ mgr.regions) (hne : s ≠ r) : DistinctStorage s r :=
  hm.distinct.forall hs hr hne

/-- A store through a region keeps the invariant. -/
theorem managerOk_write {mgr : MemoryManager} (hm : ManagerOk mgr) (p : HostPtr) (value : U8) :
    ManagerOk { mgr with host := mgr.host.write p value } where
  table := hm.table
  distinct := hm.distinct
  stored r hr := by
    have hstored := hm.stored r hr
    cases p with
    | user a => exact ⟨hstored.shared, hstored.owned⟩
    | heap c o =>
      simp only [HostMemory.write]
      cases hc : mgr.host.blocks c with
      | none => exact hstored
      | some b =>
        refine ⟨hstored.shared, fun hext => ?_⟩
        obtain ⟨block, b', hd, hlt, hb, hsize⟩ := hstored.owned hext
        by_cases heq : block = c
        · subst heq
          rw [hc] at hb
          cases hb
          exact ⟨block, _, hd, hlt, Function.update_self .., hsize⟩
        · exact ⟨block, b', hd, hlt, (Function.update_of_ne heq _ _).trans hb, hsize⟩

/-- A store keeps the invariant. -/
theorem storeByte_managerOk {mgr : MemoryManager} (hm : ManagerOk mgr) (address : U64)
    (value : U8) : ManagerOk (storeByte mgr address value) := by
  rw [storeByte]
  cases mmFindRegion mgr address with
  | none => exact hm
  | some r => exact managerOk_write hm _ value

/-- **A store to the bytes of a page** changes that page at that offset. -/
theorem pageAt_store_owned (value : U8) {mgr : MemoryManager} (hm : ManagerOk mgr)
    {address : U64} {r : MemoryRegion} (hr : mmFindRegion mgr address = some r) {block : ℕ}
    {b : HeapBlock} (hd : r.data = .heap block 0) (hb : mgr.host.blocks block = some b)
    (hsize : b.size = r.size) (p : Page) :
    pageAt { mgr with host := mgr.host.write (r.data.add (address - r.base)) value } p =
      if p.1 = (pageOf address).1 then
        some { pageRecord mgr.host r p.1 with
          storage := .own (Function.update
            (fun i => (mgr.host.read (.heap block (0 + (p.1 - r.base) + i.setWidth 64))).getD 0)
            (pageOffset address) value) }
      else pageAt mgr p := by
  obtain ⟨hmem, hcov⟩ := mmFindRegion_sound hm.table.arranged hr
  have hshape := hm.table.shape r hmem
  have hpage := (mmFindRegion_pageOf hm address).trans hr
  have hzero : ∀ x : U64, 0 + x = x := BitVec.zero_add
  have hhi := hshape.regionHi_eq (Covers.not_reachesTop hcov)
  -- what the block reads after the store
  have hread : ∀ o, o < r.size → (mgr.host.write (r.data.add (address - r.base)) value).read
      (.heap block o) = some (Function.update b.bytes (address - r.base) value o) := by
    intro o ho
    simp only [hd, HostPtr.add, HostMemory.write, hb, hzero]
    have hblock : Function.update mgr.host.blocks block
        (some { b with bytes := Function.update b.bytes (address - r.base) value }) block =
        some { b with bytes := Function.update b.bytes (address - r.base) value } :=
      Function.update_self ..
    rw [HostMemory.read]
    simp only [hblock, if_pos (show o < b.size by rw [hsize]; exact ho)]
  have hother : ∀ c, c ≠ block → (mgr.host.write (r.data.add (address - r.base)) value).blocks c =
      mgr.host.blocks c := by
    intro c hc
    simp only [hd, HostPtr.add, HostMemory.write, hb]
    exact Function.update_of_ne hc _ _
  rw [pageAt, pageAt]
  show Option.map _ (mmFindRegion mgr p.1) = _
  cases hs : mmFindRegion mgr p.1 with
  | none =>
    have hne : p.1 ≠ (pageOf address).1 := by
      intro heq
      rw [heq, hpage] at hs
      cases hs
    rw [if_neg hne]
    rfl
  | some s =>
    obtain ⟨hsmem, hscov⟩ := mmFindRegion_sound hm.table.arranged hs
    by_cases heq : s = r
    · subst heq
      have hin : ∀ i : BitVec 12, p.1 - s.base + i.setWidth 64 < s.size := fun i =>
        page_offset_lt ((mmIsPageAligned_iff p.1).mp p.2) hshape.base_aligned
          hshape.size_aligned hscov.1 (by rw [← hhi]; exact hscov.2)
      have hold : ∀ i : BitVec 12, mgr.host.read (.heap block (p.1 - s.base + i.setWidth 64)) =
          some (b.bytes (p.1 - s.base + i.setWidth 64)) := fun i =>
        read_heap hb (by rw [hsize]; exact hin i)
      simp only [Option.map_some, pageRecord, hd, HostPtr.add, pageStorage, hzero]
      have hnew : ∀ i : BitVec 12, (mgr.host.write (.heap block (address - s.base)) value).read
          (.heap block (p.1 - s.base + i.setWidth 64)) =
          some (Function.update b.bytes (address - s.base) value
            (p.1 - s.base + i.setWidth 64)) := by
        intro i
        have h := hread _ (hin i)
        rwa [hd, HostPtr.add, hzero] at h
      simp only [hold, hnew, Option.getD_some]
      split_ifs with hp
      · congr 2
        simp only [PageStorage.own.injEq]
        funext i
        by_cases hi : i = pageOffset address
        · subst hi
          rw [hp, page_add_offset, Function.update_self, Function.update_self]
        · rw [Function.update_of_ne hi, Function.update_of_ne]
          exact fun h => hi (page_add_offset_inj h).2
      · congr 2
        simp only [PageStorage.own.injEq]
        funext i
        rw [Function.update_of_ne]
        exact fun h => hp (page_add_offset_inj h).1
    · have hne : p.1 ≠ (pageOf address).1 := by
        intro hp
        rw [hp, hpage] at hs
        exact heq (Option.some.inj hs).symm
      rw [if_neg hne]
      simp only [Option.map_some, Option.some.injEq]
      refine pageRecord_congr p.1 fun c o hc => hother c ?_
      rintro rfl
      obtain ⟨hsext, rfl⟩ := (hm.stored s hsmem).data_eq hc
      exact hm.distinct_of_ne hmem hsmem heq hsext
        ((hm.stored r hmem).data_eq hd).1 (hc.trans hd.symm)

/-- **One store.**  A store takes the page map to the one that the store to the
abstract memory gives. -/
theorem toFlat_storeByte {mgr : MemoryManager} (hm : ManagerOk mgr) (address : U64) (value : U8) :
    toFlat (storeByte mgr address value) = (toFlat mgr).store address value := by
  have hpage : (toFlat mgr).page (pageOf address) =
      (mmFindRegion mgr address).map fun r => pageRecord mgr.host r (pageOf address).1 := by
    show pageAt mgr (pageOf address) = _
    rw [pageAt, mmFindRegion_pageOf hm]
  rw [storeByte, FlatMemory.store, hpage]
  cases hr : mmFindRegion mgr address with
  | none => rfl
  | some r =>
    obtain ⟨hmem, -⟩ := mmFindRegion_sound hm.table.arranged hr
    have hstored := hm.stored r hmem
    simp only [Option.map_some, pageRecord]
    cases hext : r.external with
    | true =>
      obtain ⟨a, ha⟩ := hstored.shared hext
      simp only [ha, HostPtr.add, pageStorage, HostMemory.write]
      apply FlatMemory.ext
      · show Function.update mgr.host.user _ value = Function.update mgr.host.user _ value
        rw [BitVec.add_assoc, page_add_offset]
      · intro p
        show pageAt _ p = pageAt _ p
        rw [pageAt, pageAt]
        congr 1
    | false =>
      obtain ⟨block, b, hd, -, hb, hsize⟩ := hstored.owned hext
      have hstore := pageAt_store_owned value hm hr hd hb hsize
      rw [hd] at hstore ⊢
      simp only [HostPtr.add, pageStorage] at hstore ⊢
      apply FlatMemory.ext
      · simp only [toFlat, HostMemory.write, hb]
        rfl
      · intro p
        refine (hstore p).trans ?_
        rw [updatePage_page]
        split_ifs with hp
        · rw [hp]
          rfl
        · rfl

/-! ## Runs -/

/-- An event that is part of a successful run below the top: a layout call below the
top that succeeds, or any store. -/
def MemoryEvent.Accepted (mgr : MemoryManager) : MemoryEvent → Prop
  | .layout call => call.BelowTop ∧ (layoutCall mgr call).1 = true
  | .store _ _ => True

/-- **The region table refines the page map.**  In every run of layout calls that
succeed below the top, with any stores in between, the table stands for the page map
that the same events give when they are applied one page at a time: which pages are
mapped, their bytes, permissions and attributes, and the host pointers of those
mapped with one. -/
theorem region_table_refines_page_map (host : HostMemory) (events : List MemoryEvent)
    (h : Transition.Along memoryStep MemoryEvent.Accepted (mmInit host) events) :
    toFlat (Transition.run memoryStep (mmInit host) events) =
      Transition.run FlatMemory.memoryStep (FlatMemory.empty host.user) events := by
  have hstep : ∀ mgr flat event, ManagerOk mgr ∧ toFlat mgr = flat →
      MemoryEvent.Accepted mgr event → ManagerOk (memoryStep mgr event) ∧
        toFlat (memoryStep mgr event) = flat.memoryStep event := by
    rintro mgr flat event ⟨hm, rfl⟩ hacc
    cases event with
    | layout call =>
      exact ⟨(layoutStep_keeps mgr call hm).1, toFlat_layoutStep hm hacc.1 hacc.2⟩
    | store address value =>
      exact ⟨storeByte_managerOk hm address value, toFlat_storeByte hm address value⟩
  have hsim := Transition.run_simulation (fun mgr flat => ManagerOk mgr ∧ toFlat mgr = flat) hstep
    events (mmInit host) (FlatMemory.empty host.user) ⟨managerOk_mmInit host, toFlat_mmInit host⟩ h
  exact hsim.2

/-- Two pages are mapped, a byte is stored in each, the second page is protected, the
first is unmapped, and a page of the caller is mapped in its place. -/
theorem refines_page_map_example :
    let host := HostMemory.initial (fun _ => 7) (fun _ => true)
    let events : List MemoryEvent :=
      [.layout (.map 0x1000 0x2000 3), .store 0x1004 5, .store 0x2008 6,
        .layout (.protect 0x2000 0x1000 1), .layout (.unmap 0x1000 0x1000),
        .layout (.mapPtr 0x1000 0x1000 5 0x7000), .layout (.setCpuAttrs 0x1000 0x1000 0)]
    toFlat (Transition.run memoryStep (mmInit host) events) =
      Transition.run FlatMemory.memoryStep (FlatMemory.empty host.user) events := by
  intro host events
  refine region_table_refines_page_map host events
    ⟨⟨?_, ?_⟩, trivial, trivial, ⟨?_, ?_⟩, ⟨?_, ?_⟩, ⟨?_, ?_⟩, ⟨?_, ?_⟩, trivial⟩
  all_goals first | decide | (rw [LayoutCall.BelowTop]; decide)

/-- The host address of a page of the table. -/
def pageHostPtr (mgr : MemoryManager) (p : U64) : Option HostPtr :=
  (mmFindRegion mgr p).map fun r => r.data.add (p - r.base)

/-- Protecting the second of two pages that were mapped together moves the first: its
bytes are then found at another host address. -/
theorem protect_moves_other_page :
    let host := HostMemory.initial (fun _ => 0) (fun _ => true)
    let mgr := layoutStep (mmInit host) (.map 0x1000 0x2000 3)
    let call := LayoutCall.protect 0x2000 0x1000 1
    call.BelowTop ∧ (layoutCall mgr call).1 = true ∧
      pageHostPtr mgr 0x1000 = some (.heap 0 0) ∧
      pageHostPtr (layoutStep mgr call) 0x1000 = some (.heap 1 0) := by
  refine ⟨?_, by decide, by decide, by decide⟩
  rw [LayoutCall.BelowTop]
  decide

end Cpueaxh
