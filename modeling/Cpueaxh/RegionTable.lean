/-
# The region table stays ordered

Every layout call keeps the table arranged: each region starts at or after the
end of the regions before it, where the end is the 64-bit word that the code
computes.  A region that reaches the top of the address space has end zero, so
for the code it is an empty interval; the table stays arranged even then, but
no lookup ever finds that region.

As long as no region reaches the top the computed ends are the real ones, and
the table is a sorted list of disjoint aligned ranges which lookup represents
exactly.
-/
import Cpueaxh.MemoryManager
import Cpueaxh.IntervalTable
import Cpueaxh.Transition

namespace Cpueaxh

open IntervalTable

/-! ## Words as naturals -/

/-- A difference of words that does not wrap. -/
theorem toNat_sub_of_le {lo hi : U64} (h : lo.toNat ≤ hi.toNat) :
    (hi - lo).toNat = hi.toNat - lo.toNat :=
  BitVec.toNat_sub_of_le (BitVec.le_def.mpr h)

/-- A word is page aligned when it is a multiple of 4096. -/
theorem mmIsPageAligned_iff (value : U64) :
    mmIsPageAligned value = true ↔ value.toNat % 4096 = 0 := by
  have hmask : (value &&& (pageSize - 1)).toNat = value.toNat % 4096 := by
    rw [BitVec.toNat_and]
    exact Nat.and_two_pow_sub_one_eq_mod value.toNat 12
  rw [mmIsPageAligned, beq_iff_eq, ← BitVec.toNat_inj, hmask]
  rfl

/-- A range that does not overflow ends at most at the top. -/
theorem mmRangeOverflows_iff {address size : U64} (hsize : size ≠ 0) :
    mmRangeOverflows address size = false ↔ address.toNat + size.toNat ≤ 2 ^ 64 := by
  have hpos : 0 < size.toNat := by
    have := BitVec.toNat_ne.mp hsize
    simpa [Nat.pos_iff_ne_zero] using this
  have hone : (1 : U64).toNat = 1 := rfl
  simp only [mmRangeOverflows, Bool.and_eq_false_iff, bne_eq_false_iff_eq, hsize, false_or,
    decide_eq_false_iff_not, BitVec.lt_def, BitVec.toNat_sub, BitVec.toNat_add, hone]
  omega

/-! ## Regions as intervals -/

/-- The first address of a region. -/
abbrev regionLo (r : MemoryRegion) : ℕ := r.base.toNat

/-- The computed end of a region, zero for a region that reaches the top. -/
abbrev regionHi (r : MemoryRegion) : ℕ := r.regionEnd.toNat

/-- The region covers an address, in the integers. -/
def MemoryRegion.Contains (r : MemoryRegion) (address : U64) : Prop :=
  r.base.toNat ≤ address.toNat ∧ address.toNat < r.base.toNat + r.size.toNat

/-- A region is an aligned, non-empty range inside the address space. -/
structure RegionShape (r : MemoryRegion) : Prop where
  base_aligned : r.base.toNat % 4096 = 0
  size_aligned : r.size.toNat % 4096 = 0
  size_pos : 0 < r.size.toNat
  fits : r.base.toNat + r.size.toNat ≤ 2 ^ 64

/-- The table is arranged and each region is well shaped. -/
structure TableShape (regions : List MemoryRegion) : Prop where
  arranged : Arranged regionLo regionHi regions
  shape : ∀ r ∈ regions, RegionShape r

/-- The region reaches the top of the address space. -/
def MemoryRegion.ReachesTop (r : MemoryRegion) : Prop := r.base.toNat + r.size.toNat = 2 ^ 64

theorem RegionShape.regionHi_eq {r : MemoryRegion} (h : RegionShape r) (htop : ¬ r.ReachesTop) :
    regionHi r = r.base.toNat + r.size.toNat := by
  have hfits := h.fits
  rw [MemoryRegion.ReachesTop] at htop
  rw [regionHi, MemoryRegion.regionEnd, BitVec.toNat_add]
  omega

theorem MemoryRegion.ReachesTop.regionHi_eq {r : MemoryRegion} (h : r.ReachesTop) :
    regionHi r = 0 := by
  rw [regionHi, MemoryRegion.regionEnd, BitVec.toNat_add, h]
  rfl

/-- A region that covers a point for the code does not reach the top. -/
theorem Covers.not_reachesTop {r : MemoryRegion} {x : ℕ} (h : Covers regionLo regionHi r x) :
    ¬ r.ReachesTop := by
  intro htop
  have hend := h.2
  rw [htop.regionHi_eq] at hend
  omega

/-! ## Lookup -/

/-- What the probe answers at an index of the table. -/
theorem regionProbe_eq_eq {regions : List MemoryRegion} {address : U64} {i : ℕ}
    (hi : i < regions.length) :
    regionProbe regions address i = .eq ↔
      ∃ r, regions[i]? = some r ∧ Covers regionLo regionHi r address.toNat := by
  rw [regionProbe, List.getElem?_eq_getElem hi]
  simp only [Option.some.injEq, exists_eq_left', Covers, regionLo, regionHi]
  split_ifs with h1 h2
  · rw [BitVec.lt_def] at h1
    simp only [false_iff]
    omega
  · rw [BitVec.le_def] at h2
    simp only [false_iff]
    omega
  · rw [BitVec.lt_def] at h1
    rw [BitVec.le_def] at h2
    simp only [true_iff]
    omega

/-- **Lookup by index.**  On an arranged table the bisection returns an index exactly
when the region there covers the address. -/
theorem mmFindRegionIndex_eq_some_iff {mgr : MemoryManager}
    (h : Arranged regionLo regionHi mgr.regions) {address : U64} {i : ℕ} :
    mmFindRegionIndex mgr address = some i ↔
      ∃ r, mgr.regions[i]? = some r ∧ Covers regionLo regionHi r address.toNat := by
  constructor
  · intro hfind
    obtain ⟨-, hlt, heq⟩ := ProbeSearch.search_sound _ _ _ _ _ hfind
    exact (regionProbe_eq_eq hlt).mp heq
  · rintro ⟨r, hr, hcov⟩
    obtain ⟨hlt, hget⟩ := List.getElem?_eq_some_iff.mp hr
    have hpair := List.pairwise_iff_getElem.mp h
    apply ProbeSearch.search_complete _ _ _ _ i (Nat.zero_le i) hlt (by omega)
    · exact (regionProbe_eq_eq hlt).mpr ⟨r, hr, hcov⟩
    · -- a region before `i` ends at or before the base of `r`
      intro j _ hj
      obtain ⟨hlo, hhi⟩ := hpair j i (by omega) hlt hj
      have hjlt : j < mgr.regions.length := by omega
      rw [hget] at hlo hhi
      rw [regionProbe, List.getElem?_eq_getElem hjlt]
      have h1 : ¬ address < mgr.regions[j].base := by
        rw [BitVec.lt_def]
        exact not_lt.mpr (hlo.trans hcov.1)
      have h2 : mgr.regions[j].regionEnd ≤ address := by
        rw [BitVec.le_def]
        exact hhi.trans hcov.1
      simp only [if_neg h1, if_pos h2]
    · -- a region after `i` starts at or after the end of `r`
      intro j hj hjlt
      obtain ⟨-, hhi⟩ := hpair i j hlt hjlt hj
      rw [hget] at hhi
      rw [regionProbe, List.getElem?_eq_getElem hjlt]
      have h1 : address < mgr.regions[j].base := by
        rw [BitVec.lt_def]
        exact lt_of_lt_of_le hcov.2 hhi
      simp only [if_pos h1]

/-- On an arranged table the bisection is the abstract lookup. -/
theorem mmFindRegion_eq_lookup {mgr : MemoryManager}
    (h : Arranged regionLo regionHi mgr.regions) (address : U64) :
    mmFindRegion mgr address = lookup regionLo regionHi mgr.regions address.toNat := by
  apply Option.ext
  intro r
  rw [h.lookup_eq_some_iff, mmFindRegion, Option.bind_eq_some_iff]
  constructor
  · rintro ⟨i, hi, hr⟩
    obtain ⟨r', hr', hcov⟩ := (mmFindRegionIndex_eq_some_iff h).mp hi
    obtain rfl : r = r' := Option.some.inj (hr.symm.trans hr')
    exact ⟨List.mem_of_getElem? hr, hcov⟩
  · rintro ⟨hmem, hcov⟩
    obtain ⟨i, hi⟩ := List.mem_iff_getElem?.mp hmem
    exact ⟨i, (mmFindRegionIndex_eq_some_iff h).mpr ⟨r, hi, hcov⟩, hi⟩

/-- A region that lookup finds is in the table and covers the address. -/
theorem mmFindRegion_sound {mgr : MemoryManager}
    (h : Arranged regionLo regionHi mgr.regions) {address : U64} {r : MemoryRegion}
    (hr : mmFindRegion mgr address = some r) :
    r ∈ mgr.regions ∧ Covers regionLo regionHi r address.toNat := by
  rw [mmFindRegion_eq_lookup h] at hr
  exact lookup_sound hr

/-! ## Insertion -/

/-- The insertion point separates the regions that start below an address from
those that do not. -/
theorem mmFindInsertionIndex_spec {mgr : MemoryManager}
    (h : Arranged regionLo regionHi mgr.regions) (base : U64) :
    mmFindInsertionIndex mgr base ≤ mgr.regions.length ∧
    (∀ r ∈ mgr.regions.take (mmFindInsertionIndex mgr base), r.base.toNat < base.toNat) ∧
    (∀ r ∈ mgr.regions.drop (mmFindInsertionIndex mgr base), base.toNat ≤ r.base.toNat) := by
  have hpair := List.pairwise_iff_getElem.mp h
  have hprobe : ∀ i (hi : i < mgr.regions.length),
      insertionProbe mgr.regions base i = true ↔ mgr.regions[i].base.toNat < base.toNat := by
    intro i hi
    rw [insertionProbe, List.getElem?_eq_getElem hi]
    simp only [decide_eq_true_eq, BitVec.lt_def]
  have hmono : ∀ i j, 0 ≤ i → i ≤ j → j < mgr.regions.length →
      insertionProbe mgr.regions base j = true → insertionProbe mgr.regions base i = true := by
    intro i j _ hij hj hb
    rcases Nat.eq_or_lt_of_le hij with rfl | hlt
    · exact hb
    · rw [hprobe j hj] at hb
      rw [hprobe i (by omega)]
      exact lt_of_le_of_lt (hpair i j (by omega) hj hlt).1 hb
  obtain ⟨-, hle, hbefore, hafter⟩ := ProbeSearch.lowerBound_spec
    (insertionProbe mgr.regions base) mgr.regions.length 0 mgr.regions.length
    (Nat.zero_le _) (by omega) hmono
  rw [← mmFindInsertionIndex] at hle hbefore hafter
  refine ⟨hle, fun r hr => ?_, fun r hr => ?_⟩
  · obtain ⟨i, hi, rfl⟩ := List.mem_take_iff_getElem.mp hr
    exact (hprobe i (by omega)).mp (hbefore i (Nat.zero_le i) (by omega))
  · obtain ⟨i, hi, rfl⟩ := List.mem_drop_iff_getElem.mp hr
    have hb := hafter (mmFindInsertionIndex mgr base + i) (by omega) (by omega)
    by_contra hlt
    rw [(hprobe _ (by omega)).mpr (by omega)] at hb
    exact Bool.noConfusion hb

/-- The check for overlap looks at the two neighbours of the insertion point. -/
theorem mmHasOverlap_eq_false {mgr : MemoryManager} {base size : U64}
    (h : mmHasOverlap mgr base size = false) :
    (∀ p, mgr.regions[mmFindInsertionIndex mgr base - 1]? = some p →
      0 < mmFindInsertionIndex mgr base → p.regionEnd ≤ base) ∧
    (∀ c, mgr.regions[mmFindInsertionIndex mgr base]? = some c → base + size ≤ c.base) := by
  rw [mmHasOverlap] at h
  split_ifs at h
  simp only [Bool.or_eq_false_iff] at h
  obtain ⟨hprev, hcurr⟩ := h
  constructor
  · intro p hp hpos
    rw [hp] at hprev
    simp only [hpos, decide_true, Bool.true_and, decide_eq_false_iff_not] at hprev
    rw [BitVec.lt_def] at hprev
    rw [BitVec.le_def]
    omega
  · intro c hc
    rw [hc] at hcurr
    simp only [decide_eq_false_iff_not] at hcurr
    rw [BitVec.lt_def] at hcurr
    rw [BitVec.le_def]
    omega

/-- A range that overlaps nothing fits at its insertion point. -/
theorem fits_at_insertionIndex {mgr : MemoryManager}
    (h : Arranged regionLo regionHi mgr.regions) {base size : U64}
    (hover : mmHasOverlap mgr base size = false) :
    (∀ p ∈ mgr.regions.take (mmFindInsertionIndex mgr base),
      p.base.toNat ≤ base.toNat ∧ regionHi p ≤ base.toNat) ∧
    (∀ t ∈ mgr.regions.drop (mmFindInsertionIndex mgr base),
      base.toNat ≤ t.base.toNat ∧ (base + size).toNat ≤ t.base.toNat) := by
  obtain ⟨hle, hbefore, hafter⟩ := mmFindInsertionIndex_spec h base
  obtain ⟨hprev, hcurr⟩ := mmHasOverlap_eq_false hover
  have hpair := List.pairwise_iff_getElem.mp h
  constructor
  · intro p hp
    refine ⟨(hbefore p hp).le, ?_⟩
    obtain ⟨i, hi, rfl⟩ := List.mem_take_iff_getElem.mp hp
    have hlast := hprev _ (List.getElem?_eq_getElem (by omega)) (by omega)
    rcases Nat.lt_or_ge i (mmFindInsertionIndex mgr base - 1) with hlt | hge
    · -- earlier regions end before the last one below the insertion point starts
      have h1 := (hpair i (mmFindInsertionIndex mgr base - 1) (by omega) (by omega) hlt).2
      have hlastlt : mmFindInsertionIndex mgr base - 1 < mgr.regions.length := by omega
      have h2 := hbefore mgr.regions[mmFindInsertionIndex mgr base - 1]
        (List.mem_take_iff_getElem.mpr ⟨mmFindInsertionIndex mgr base - 1, by omega, rfl⟩)
      exact h1.trans h2.le
    · obtain rfl : i = mmFindInsertionIndex mgr base - 1 := by omega
      exact hlast
  · intro t ht
    refine ⟨hafter t ht, ?_⟩
    obtain ⟨i, hi, rfl⟩ := List.mem_drop_iff_getElem.mp ht
    have hfirst := hcurr _ (List.getElem?_eq_getElem (by omega))
    rw [BitVec.le_def] at hfirst
    rcases Nat.eq_zero_or_pos i with rfl | hpos
    · exact hfirst
    · exact hfirst.trans (hpair (mmFindInsertionIndex mgr base) _ (by omega) (by omega) (by omega)).1

end Cpueaxh
