/-
# Pages after an edit

A turn of the loop of `mm_unmap`, `mm_protect` and `mm_set_cpu_attrs` changes the
page map exactly at the pages of the part in its range.  A new mapping changes it
exactly at the pages that it maps.
-/
import Cpueaxh.RegionEdit

namespace Cpueaxh

open IntervalTable HostMemory

/-! ## A turn of the loop -/

/-- What an operation makes of the record of a page. -/
def applyMiddle (middle : MiddlePart) (record : PageRecord) : Option PageRecord :=
  (middle record.perms record.cpuAttrs).map fun m =>
    { record with perms := m.1, cpuAttrs := m.2 }

namespace TurnDone

variable {middle : MiddlePart} {mgr mgr' : MemoryManager} {i : ℕ} {r : MemoryRegion}
  {current endAddress : U64} {host : HostMemory} {new : List MemoryRegion}

/-- A page of a segment has the permissions of the segment after the turn, and the
bytes that it had before. -/
theorem pageAt_segment (t : TurnDone middle mgr mgr' i r current endAddress host new)
    (h : ManagerOk mgr) {segment : Segment}
    (hsegment : segment ∈ replacementSegments middle r current (chunkEnd r endAddress))
    (p : Page) (hle : segment.base.toNat ≤ p.1.toNat)
    (hlt : p.1.toNat < segment.base.toNat + segment.size.toNat) :
    pageAt mgr' p = some { pageRecord mgr.host r p.1 with
      perms := segment.perms, cpuAttrs := segment.cpuAttrs } := by
  have hr := h.stored r (List.mem_of_getElem? t.found)
  have hw := (replacementSegments_within middle t.place).1 segment hsegment
  obtain ⟨s, hs, hseg⟩ := exists_of_mem_right
    (List.Forall₂.flip (R := flip (SegmentOf mgr.host.nextBlock mgr.host host r)) t.segments) hsegment
  have hseg : SegmentOf mgr.host.nextBlock mgr.host host r segment s := hseg
  obtain ⟨h1, h2⟩ := hseg.regionHi_eq hw r.regionEnd.isLt
  have hmem : s ∈ mgr'.regions := by
    rw [t.regions_eq]
    simp [hs]
  have hfind : mmFindRegion mgr' p.1 = some s := by
    rw [mmFindRegion_eq_lookup (t.managerOk h).table.arranged]
    exact (t.managerOk h).table.arranged.lookup_eq_some_iff.mpr ⟨hmem, by rw [h1]; exact hle, by rw [h2]; exact hlt⟩
  have hrelease : pageRecord mgr'.host s p.1 = pageRecord host s p.1 := by
    rw [t.host_eq]
    refine pageRecord_congr p.1 fun b o hd => ?_
    refine block_after_release hr (hseg.regionStored hr) ?_ hd
    intro hsext hrext heq
    exact hseg.distinct hr hrext hsext heq.symm
  rw [pageAt, hfind, Option.map_some, hrelease, hseg.pageRecord_eq hr
    ((mmIsPageAligned_iff p.1).mp p.2) hw.base_aligned hw.size_aligned hle hlt]

/-- The lookup after a turn: the pages of the replaced region are looked up among
its segments. -/
theorem lookup_eq (t : TurnDone middle mgr mgr' i r current endAddress host new)
    (h : ManagerOk mgr) (x : ℕ) :
    lookup regionLo regionHi mgr'.regions x =
      if Covers regionLo regionHi r x then lookup regionLo regionHi new x
      else lookup regionLo regionHi mgr.regions x := by
  have hsplit := regions_split t.found
  have hinside := t.new_inside
  have harr := h.table.arranged
  rw [hsplit] at harr
  rw [t.regions_eq, harr.lookup_splice fun s hs => (hinside s hs).2.2, ← hsplit]

/-- A page of another region keeps its record. -/
theorem pageAt_outside (t : TurnDone middle mgr mgr' i r current endAddress host new)
    (h : ManagerOk mgr) (p : Page) (hcov : ¬ Covers regionLo regionHi r p.1.toNat) :
    pageAt mgr' p = pageAt mgr p := by
  have hr := h.stored r (List.mem_of_getElem? t.found)
  rw [pageAt, pageAt, mmFindRegion_eq_lookup (t.managerOk h).table.arranged,
    mmFindRegion_eq_lookup h.table.arranged, t.lookup_eq h,
    if_neg hcov]
  cases hs : lookup regionLo regionHi mgr.regions p.1.toNat with
  | none => rfl
  | some s =>
    obtain ⟨hmem, hscov⟩ := lookup_sound hs
    have hsrest : s ∈ mgr.regions.take i ++ mgr.regions.drop (i + 1) := by
      rw [regions_split t.found] at hmem
      rcases List.mem_append.mp hmem with hm | hm
      · exact List.mem_append_left _ hm
      · rcases List.mem_cons.mp hm with rfl | hm
        · exact absurd hscov hcov
        · exact List.mem_append_right _ hm
    have hstored := h.stored s hmem
    simp only [Option.map_some, Option.some.injEq, t.host_eq]
    refine pageRecord_congr p.1 fun b o hd => ?_
    rw [block_after_release hr hstored (h.distinct_rest t.found s hsrest) hd]
    exact t.agrees.blocks_eq b (hstored.block_lt hd)

/-- No segment is built for the part in the range when the operation drops it. -/
theorem lookup_new_eq_none (t : TurnDone middle mgr mgr' i r current endAddress host new)
    (hmid : middle r.perms r.cpuAttrs = none) {x : ℕ} (hx : current.toNat ≤ x)
    (hx' : x < (chunkEnd r endAddress).toNat) : lookup regionLo regionHi new x = none := by
  refine lookup_eq_none_iff.mpr fun s hs hscov => ?_
  obtain ⟨segment, hseg, hof⟩ := exists_of_mem_right t.segments hs
  have hw := (replacementSegments_within middle t.place).1 segment hseg
  obtain ⟨h1, h2⟩ := hof.regionHi_eq hw r.regionEnd.isLt
  obtain ⟨hc1, hc2⟩ := hscov
  rw [h1] at hc1
  rw [h2] at hc2
  rw [replacementSegments, hmid, List.append_nil, List.mem_append] at hseg
  rcases hseg with hseg | hseg
  · split_ifs at hseg with hlt
    · obtain rfl := List.mem_singleton.mp hseg
      have hle := ((t.place.segments_within r.perms r.cpuAttrs).1 hlt).le_hi
      omega
    · cases hseg
  · split_ifs at hseg
    · obtain rfl := List.mem_singleton.mp hseg
      have hc1' : (chunkEnd r endAddress).toNat ≤ x := hc1
      omega
    · cases hseg

/-- **The pages after a turn.** -/
theorem pageAt_eq (t : TurnDone middle mgr mgr' i r current endAddress host new)
    (h : ManagerOk mgr) (p : Page) :
    pageAt mgr' p =
      if current.toNat ≤ p.1.toNat ∧ p.1.toNat < (chunkEnd r endAddress).toNat
      then (pageAt mgr p).bind (applyMiddle middle) else pageAt mgr p := by
  have harr := h.table.arranged
  have hlo : r.base.toNat ≤ current.toNat := t.place.covers.1
  have hstop := t.place.chunkEnd_toNat
  have hlt := t.place.current_lt_chunkEnd
  by_cases hcov : Covers regionLo regionHi r p.1.toNat
  · -- the page belongs to `r`: it is left of the range, in it, or right of it
    have hbefore : pageAt mgr p = some (pageRecord mgr.host r p.1) := by
      rw [pageAt, mmFindRegion_eq_lookup harr,
        harr.lookup_eq_some_iff.mpr ⟨List.mem_of_getElem? t.found, hcov⟩, Option.map_some]
    have hbase : r.base.toNat ≤ p.1.toNat := hcov.1
    have hhi : p.1.toNat < r.regionEnd.toNat := hcov.2
    have hpart : ∀ (lo hi : U64) (perms cpuAttrs : U32),
        ⟨lo, hi - lo, perms, cpuAttrs⟩ ∈
          replacementSegments middle r current (chunkEnd r endAddress) →
        lo.toNat ≤ p.1.toNat → p.1.toNat < hi.toNat → pageAt mgr' p =
          some { pageRecord mgr.host r p.1 with perms := perms, cpuAttrs := cpuAttrs } := by
      intro lo hi' perms cpuAttrs hmem hle hlt
      refine t.pageAt_segment h hmem p hle ?_
      show p.1.toNat < lo.toNat + (hi' - lo).toNat
      rw [toNat_sub_of_le (by omega)]
      omega
    rw [hbefore]
    by_cases hleft : p.1.toNat < current.toNat
    · rw [if_neg (by omega)]
      refine hpart r.base current r.perms r.cpuAttrs ?_ hbase hleft
      rw [replacementSegments, if_pos (BitVec.lt_def.mpr (by omega))]
      simp
    · by_cases hright : (chunkEnd r endAddress).toNat ≤ p.1.toNat
      · rw [if_neg (by omega)]
        refine hpart (chunkEnd r endAddress) r.regionEnd r.perms r.cpuAttrs ?_ hright hhi
        rw [replacementSegments, if_pos (c := chunkEnd r endAddress < r.regionEnd)
          (BitVec.lt_def.mpr (by omega))]
        simp
      · rw [if_pos (by omega), Option.bind_some]
        cases hmid : middle r.perms r.cpuAttrs with
        | some m =>
          have hres : applyMiddle middle (pageRecord mgr.host r p.1) = some
              { pageRecord mgr.host r p.1 with perms := m.1, cpuAttrs := m.2 } := by
            simp only [applyMiddle, pageRecord, hmid, Option.map_some]
          rw [hres]
          refine hpart current (chunkEnd r endAddress) m.1 m.2 ?_ (by omega) (by omega)
          simp [replacementSegments, hmid]
        | none =>
          have hres : applyMiddle middle (pageRecord mgr.host r p.1) = none := by
            simp only [applyMiddle, pageRecord, hmid, Option.map_none]
          rw [hres, pageAt, mmFindRegion_eq_lookup (t.managerOk h).table.arranged,
            t.lookup_eq h, if_pos hcov,
            t.lookup_new_eq_none hmid (by omega) (by omega), Option.map_none]
  · have hout : ¬ (current.toNat ≤ p.1.toNat ∧ p.1.toNat < (chunkEnd r endAddress).toNat) := by
      rintro ⟨hge, hlt'⟩
      refine hcov ⟨hlo.trans hge, ?_⟩
      omega
    rw [if_neg hout]
    exact t.pageAt_outside h p hcov

end TurnDone

/-! ## A new mapping -/

/-- A mapping that succeeded: `region` was inserted where it fits. -/
structure MapDone (mgr mgr' : MemoryManager) (region : MemoryRegion) : Prop where
  shape : RegionShape region
  no_overlap : mmHasOverlap mgr region.base region.size = false
  regions_eq : mgr'.regions = mgr.regions.take (mmFindInsertionIndex mgr region.base) ++
    region :: mgr.regions.drop (mmFindInsertionIndex mgr region.base)
  agrees : AgreesBelow mgr.host.nextBlock mgr.host mgr'.host
  stored : RegionStored mgr'.host region
  fresh : ∀ b o, region.data = .heap b o → mgr.host.nextBlock ≤ b

/-- The two outcomes of an insertion. -/
theorem mmInsertRegion_cases {mgr mgr' : MemoryManager} {index : ℕ} {region : MemoryRegion}
    {ok : Bool} (h : mmInsertRegion mgr index region = (ok, mgr')) :
    (∀ n, AgreesBelow n mgr.host mgr'.host) ∧
      ((ok = false ∧ mgr'.regions = mgr.regions) ∨
        (ok = true ∧
          mgr'.regions = mgr.regions.take index ++ region :: mgr.regions.drop index)) := by
  obtain ⟨host, capacity, hres, hagree⟩ := mmReserveRegionCapacity_snd mgr (mgr.regions.length + 1)
  rw [mmInsertRegion] at h
  rcases hcase : mmReserveRegionCapacity mgr (mgr.regions.length + 1) with ⟨b, mgr₁⟩
  rw [hcase] at h hres
  simp only at hres
  cases b with
  | false =>
    cases h
    subst hres
    exact ⟨hagree, Or.inl ⟨rfl, rfl⟩⟩
  | true =>
    cases h
    subst hres
    exact ⟨hagree, Or.inr ⟨rfl, rfl⟩⟩

/-- What the argument checks of the two mapping operations establish. -/
theorem regionShape_of_args {address size : U64} {data : HostPtr} {perms cpuAttrs : U32}
    {external : Bool} (hsize : size ≠ 0) (haddr : mmIsPageAligned address = true)
    (halign : mmIsPageAligned size = true) (hover : mmRangeOverflows address size = false) :
    RegionShape ⟨address, size, data, perms, cpuAttrs, external⟩ where
  base_aligned := (mmIsPageAligned_iff address).mp haddr
  size_aligned := (mmIsPageAligned_iff size).mp halign
  size_pos := Nat.pos_of_ne_zero fun h => hsize (BitVec.eq_of_toNat_eq h)
  fits := (mmRangeOverflows_iff hsize).mp hover

/-- **The outcomes of `mm_map_internal`.** -/
theorem mmMapInternal_cases {mgr mgr' : MemoryManager} {address size : U64} {perms : U32}
    {ok : Bool} (h : mmMapInternal mgr address size perms = (ok, mgr')) :
    (ok = false ∧ mgr'.regions = mgr.regions ∧
      AgreesBelow mgr.host.nextBlock mgr.host mgr'.host) ∨
    (ok = true ∧ ∃ block, (∃ b, mgr'.host.blocks block = some b ∧ b.size = size ∧
        b.bytes = fun _ => 0) ∧
      MapDone mgr mgr' ⟨address, size, .heap block 0, perms, mmCpuAttrUser, false⟩) := by
  rw [mmMapInternal] at h
  split_ifs at h with hargs hperms
  · cases h
    exact Or.inl ⟨rfl, rfl, .refl _ _⟩
  · cases h
    exact Or.inl ⟨rfl, rfl, .refl _ _⟩
  · simp only [Bool.or_eq_true, not_or, decide_eq_true_eq, Bool.not_eq_eq_eq_not, Bool.not_true,
      Bool.not_eq_false, Bool.not_eq_true] at hargs hperms
    obtain ⟨⟨⟨hsize, haddr⟩, halign⟩, hover⟩ := hargs
    cases hgrant : mgr.host.grants mgr.host.requests with
    | false =>
      rw [allocZeroed_denied hgrant] at h
      cases h
      exact Or.inl ⟨rfl, rfl, request_agrees _ _⟩
    | true =>
      rw [allocZeroed_granted hgrant] at h
      obtain ⟨host₁, hhost₁⟩ : ∃ host₁ : HostMemory, host₁ = { mgr.host with
          requests := mgr.host.requests + 1
          blocks := Function.update mgr.host.blocks mgr.host.nextBlock
            (some { size := size, bytes := fun _ => 0 })
          nextBlock := mgr.host.nextBlock + 1 } := ⟨_, rfl⟩
      have hagree₁ : AgreesBelow mgr.host.nextBlock mgr.host host₁ := by
        rw [hhost₁]
        exact ⟨fun b hb => Function.update_of_ne (by omega) _ _, rfl, rfl, Nat.le_succ _⟩
      have hblock : host₁.blocks mgr.host.nextBlock =
          some { size := size, bytes := fun _ => 0 } := by
        rw [hhost₁]
        exact Function.update_self ..
      have hnext : host₁.nextBlock = mgr.host.nextBlock + 1 := by rw [hhost₁]
      rw [← hhost₁] at h
      simp only at h
      rcases hins : mmInsertRegion { mgr with host := host₁ } (mmFindInsertionIndex mgr address)
        ⟨address, size, .heap mgr.host.nextBlock 0, perms, mmCpuAttrUser, false⟩ with ⟨b, mgr₂⟩
      obtain ⟨hagree₂, hcases⟩ := mmInsertRegion_cases hins
      rw [hins] at h
      rcases hcases with ⟨rfl, hregions⟩ | ⟨rfl, hregions⟩
      · cases h
        -- the block is freed again, and it is a fresh one
        have hfree : AgreesBelow mgr.host.nextBlock mgr₂.host
            (mgr₂.host.free (.heap mgr.host.nextBlock 0)) := by
          refine free_agrees fun b o hd => ?_
          cases hd
          exact le_rfl
        exact Or.inl ⟨rfl, hregions, (hagree₁.trans (hagree₂ _)).trans hfree⟩
      · cases h
        have hlt : mgr.host.nextBlock < host₁.nextBlock := by omega
        have hlive := (hagree₂ host₁.nextBlock).blocks_eq _ hlt
        refine Or.inr ⟨rfl, mgr.host.nextBlock, ⟨_, hlive.trans hblock, rfl, rfl⟩, ?_⟩
        refine ⟨regionShape_of_args hsize haddr halign hover, hperms.2, hregions,
          hagree₁.trans (hagree₂ _), ⟨?_, ?_⟩, ?_⟩
        · intro hext
          cases hext
        · intro _
          exact ⟨_, _, rfl, hlt.trans_le (hagree₂ 0).nextBlock_le, hlive.trans hblock, rfl⟩
        · intro b o hd
          cases hd
          exact le_rfl

/-- **The outcomes of `mm_map_host`.** -/
theorem mmMapHost_cases {mgr mgr' : MemoryManager} {address size : U64} {perms : U32}
    {hostPtr : U64} {ok : Bool} (h : mmMapHost mgr address size perms hostPtr = (ok, mgr')) :
    (ok = false ∧ mgr'.regions = mgr.regions ∧
      AgreesBelow mgr.host.nextBlock mgr.host mgr'.host) ∨
    (ok = true ∧ MapDone mgr mgr' ⟨address, size, .user hostPtr, perms, mmCpuAttrUser, true⟩) := by
  rw [mmMapHost] at h
  split_ifs at h with hargs hperms
  · cases h
    exact Or.inl ⟨rfl, rfl, .refl _ _⟩
  · cases h
    exact Or.inl ⟨rfl, rfl, .refl _ _⟩
  · simp only [Bool.or_eq_true, not_or, decide_eq_true_eq, Bool.not_eq_eq_eq_not, Bool.not_true,
      Bool.not_eq_false, Bool.not_eq_true] at hargs hperms
    obtain ⟨⟨⟨⟨hsize, -⟩, haddr⟩, halign⟩, hover⟩ := hargs
    rcases hins : mmInsertRegion mgr (mmFindInsertionIndex mgr address)
      ⟨address, size, .user hostPtr, perms, mmCpuAttrUser, true⟩ with ⟨b, mgr₂⟩
    obtain ⟨hagree, hcases⟩ := mmInsertRegion_cases hins
    simp only [hins] at h
    rcases hcases with ⟨rfl, hregions⟩ | ⟨rfl, hregions⟩
    · cases h
      exact Or.inl ⟨rfl, hregions, hagree _⟩
    · cases h
      refine Or.inr ⟨rfl, regionShape_of_args hsize haddr halign hover, hperms.2, hregions,
        hagree _, ⟨?_, ?_⟩, ?_⟩
      · intro _
        exact ⟨_, rfl⟩
      · intro hext
        cases hext
      · intro b o hd
        cases hd

namespace MapDone

variable {mgr mgr' : MemoryManager} {region : MemoryRegion}

/-- **A mapping keeps the invariant.** -/
theorem managerOk (m : MapDone mgr mgr' region) (h : ManagerOk mgr) : ManagerOk mgr' := by
  obtain ⟨hpre, hpost⟩ := fits_at_insertionIndex h.table.arranged m.no_overlap
  have hmem : ∀ s ∈ mgr'.regions, s ∈ mgr.regions ∨ s = region := by
    intro s hs
    rw [m.regions_eq] at hs
    rcases List.mem_append.mp hs with hs | hs
    · exact Or.inl (List.mem_of_mem_take hs)
    · rcases List.mem_cons.mp hs with rfl | hs
      · exact Or.inr rfl
      · exact Or.inl (List.mem_of_mem_drop hs)
  have hdistinct : ∀ s ∈ mgr.regions, DistinctStorage s region := by
    intro s hs hext hext' heq
    obtain ⟨block, b, hd, hlt, -, -⟩ := (h.stored s hs).owned hext
    have hge := m.fresh block 0 (heq ▸ hd)
    omega
  refine ⟨⟨?_, fun s hs => ?_⟩, fun s hs => ?_, ?_⟩
  · rw [m.regions_eq]
    refine Arranged.insert ?_ hpre hpost
    rw [List.take_append_drop]
    exact h.table.arranged
  · rcases hmem s hs with hs | rfl
    · exact h.table.shape s hs
    · exact m.shape
  · rcases hmem s hs with hs | rfl
    · exact (h.stored s hs).of_agrees m.agrees
    · exact m.stored
  · have hold := h.distinct
    rw [← List.take_append_drop (mmFindInsertionIndex mgr region.base) mgr.regions] at hold
    obtain ⟨htake, hdrop, hacross⟩ := List.pairwise_append.mp hold
    rw [m.regions_eq]
    refine List.pairwise_append.mpr ⟨htake, List.pairwise_cons.mpr ⟨fun s hs => ?_, hdrop⟩, ?_⟩
    · intro hext hext' heq
      exact hdistinct s (List.mem_of_mem_drop hs) hext' hext heq.symm
    · intro s hs u hu
      rcases List.mem_cons.mp hu with rfl | hu
      · exact hdistinct s (List.mem_of_mem_take hs)
      · exact hacross s hs u hu

/-- **The pages after a mapping.** -/
theorem pageAt_eq (m : MapDone mgr mgr' region) (h : ManagerOk mgr) (p : Page) :
    pageAt mgr' p = if Covers regionLo regionHi region p.1.toNat
      then some (pageRecord mgr'.host region p.1) else pageAt mgr p := by
  have harr := h.table.arranged
  have harr' := (m.managerOk h).table.arranged
  have hlook := harr'
  rw [m.regions_eq] at hlook
  rw [pageAt, pageAt, mmFindRegion_eq_lookup harr', mmFindRegion_eq_lookup harr, m.regions_eq,
    hlook.lookup_insert, List.take_append_drop]
  split_ifs with hcov
  · rfl
  · cases hs : lookup regionLo regionHi mgr.regions p.1.toNat with
    | none => rfl
    | some s =>
      have hstored := h.stored s (lookup_sound hs).1
      simp only [Option.map_some, Option.some.injEq]
      exact pageRecord_congr p.1 fun b o hd => m.agrees.blocks_eq b (hstored.block_lt hd)

end MapDone

end Cpueaxh
