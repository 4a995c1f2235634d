/-
# The storage of regions

A region that the manager allocated owns a block of its own; a region mapped from
a host pointer refers to the caller's memory.  Splitting a region copies the bytes
of an owned one into fresh blocks and shares those of the other kind.

The operations touch only fresh blocks and the block of the region they replace,
so nothing that belongs to another region moves or changes.
-/
import Cpueaxh.RegionTable

namespace Cpueaxh

open IntervalTable HostMemory

/-- In related lists each member on the right has a partner on the left. -/
theorem exists_of_mem_right {α β : Type*} {rel : α → β → Prop} {l : List α} {m : List β}
    (h : List.Forall₂ rel l m) {b : β} (hb : b ∈ m) : ∃ a ∈ l, rel a b := by
  induction h with
  | nil => cases hb
  | cons hab _ ih =>
    rcases List.mem_cons.mp hb with rfl | hb
    · exact ⟨_, List.mem_cons_self .., hab⟩
    · obtain ⟨a, ha, hab'⟩ := ih hb
      exact ⟨a, List.mem_cons_of_mem _ ha, hab'⟩

/-! ## Ownership -/

/-- Where the bytes of a region are kept. -/
structure RegionStored (host : HostMemory) (r : MemoryRegion) : Prop where
  shared : r.external = true → ∃ address, r.data = .user address
  owned : r.external = false → ∃ block b, r.data = .heap block 0 ∧ block < host.nextBlock ∧
    host.blocks block = some b ∧ b.size = r.size

/-- Two regions do not own the same block. -/
def DistinctStorage (r s : MemoryRegion) : Prop :=
  r.external = false → s.external = false → r.data ≠ s.data

/-- The invariant of the manager: the table is in shape, and each region either
owns its block alone or refers to the caller's memory. -/
structure ManagerOk (mgr : MemoryManager) : Prop where
  table : TableShape mgr.regions
  stored : ∀ r ∈ mgr.regions, RegionStored mgr.host r
  distinct : mgr.regions.Pairwise DistinctStorage

/-- The blocks of a stored region are below the allocation pointer. -/
theorem RegionStored.block_lt {host : HostMemory} {r : MemoryRegion} (h : RegionStored host r)
    {block : ℕ} {offset : U64} (hd : r.data = .heap block offset) : block < host.nextBlock := by
  cases hext : r.external with
  | true =>
    obtain ⟨address, ha⟩ := h.shared hext
    rw [hd] at ha
    cases ha
  | false =>
    obtain ⟨c, b, hc, hlt, -, -⟩ := h.owned hext
    rw [hd] at hc
    cases hc
    exact hlt

/-- Pointer arithmetic stays in the block. -/
theorem HostPtr.add_eq_heap {p : HostPtr} {n : U64} {block : ℕ} {offset : U64}
    (h : p.add n = .heap block offset) : ∃ o, p = .heap block o := by
  cases p with
  | user a => simp [HostPtr.add] at h
  | heap c o =>
    simp only [HostPtr.add, HostPtr.heap.injEq] at h
    exact ⟨o, by rw [h.1]⟩

/-- A stored region stays stored where its block is untouched. -/
theorem RegionStored.of_agrees {host host' : HostMemory} {r : MemoryRegion}
    (h : RegionStored host r) (hagree : AgreesBelow host.nextBlock host host') :
    RegionStored host' r where
  shared := h.shared
  owned hext := by
    obtain ⟨block, b, hd, hlt, hb, hsize⟩ := h.owned hext
    exact ⟨block, b, hd, hlt.trans_le hagree.nextBlock_le,
      (hagree.blocks_eq block hlt).trans hb, hsize⟩

/-! ## One segment -/

/-- `r` is the segment of `source` that a build in `host` produced: in `host'` it
shares the bytes of an external source, or has a copy of the bytes of an internal
one in a block at or above `n`. -/
structure SegmentOf (n : ℕ) (host host' : HostMemory) (source : MemoryRegion)
    (segment : Segment) (r : MemoryRegion) : Prop where
  base_eq : r.base = segment.base
  size_eq : r.size = segment.size
  perms_eq : r.perms = segment.perms
  cpuAttrs_eq : r.cpuAttrs = segment.cpuAttrs
  external_eq : r.external = source.external
  shared : source.external = true → r.data = source.data.add (segment.base - source.base)
  copied : source.external = false → ∃ block b, r.data = .heap block 0 ∧ n ≤ block ∧
    block < host'.nextBlock ∧ host'.blocks block = some b ∧ b.size = segment.size ∧
    ∀ o, o < segment.size →
      b.bytes o = (host.read (source.data.add (segment.base - source.base + o))).getD 0

/-- A segment stays one while later blocks are allocated. -/
theorem SegmentOf.extend {n : ℕ} {host host' host'' : HostMemory} {source r : MemoryRegion}
    {segment : Segment} (h : SegmentOf n host host' source segment r)
    (hagree : AgreesBelow host'.nextBlock host' host'') :
    SegmentOf n host host'' source segment r where
  __ := h
  copied hext := by
    obtain ⟨block, b, hd, hn, hlt, hb, hsize, hbytes⟩ := h.copied hext
    exact ⟨block, b, hd, hn, hlt.trans_le hagree.nextBlock_le,
      (hagree.blocks_eq block hlt).trans hb, hsize, hbytes⟩

/-- A segment built after some later blocks is a segment of the earlier memory. -/
theorem SegmentOf.rebase {m n : ℕ} {host host' host'' : HostMemory} {source r : MemoryRegion}
    {segment : Segment} (h : SegmentOf n host' host'' source segment r)
    (hagree : AgreesBelow m host host') (hmn : m ≤ n)
    (hsource : ∀ b o, source.data = .heap b o → b < m) :
    SegmentOf m host host'' source segment r where
  __ := h
  copied hext := by
    obtain ⟨block, b, hd, hn, hlt, hb, hsize, hbytes⟩ := h.copied hext
    refine ⟨block, b, hd, hmn.trans hn, hlt, hb, hsize, fun o ho => ?_⟩
    rw [hbytes o ho, hagree.read_eq]
    intro c o' heq
    obtain ⟨o'', hdata⟩ := HostPtr.add_eq_heap heq
    exact hsource c o'' hdata

/-- **One segment.**  A build, failed or not, leaves the existing blocks alone, and
a build that succeeds produces the segment. -/
theorem mmBuildRegionSegment_spec {host host' : HostMemory} {source : MemoryRegion}
    {segment : Segment} {result : Option MemoryRegion}
    (hsource : ∀ b o, source.data = .heap b o → b < host.nextBlock)
    (h : mmBuildRegionSegment host source segment = (result, host')) :
    AgreesBelow host.nextBlock host host' ∧
      ∀ r, result = some r → SegmentOf host.nextBlock host host' source segment r := by
  rw [mmBuildRegionSegment] at h
  split_ifs at h with hsize hext
  · cases h
    exact ⟨.refl _ _, fun r hr => by cases hr⟩
  · cases h
    refine ⟨.refl _ _, fun r hr => ?_⟩
    cases hr
    exact ⟨rfl, rfl, rfl, rfl, rfl, fun _ => rfl, fun hfalse => by simp [hext] at hfalse⟩
  · cases hgrant : host.grants host.requests with
    | false =>
      rw [allocZeroed_denied hgrant] at h
      cases h
      exact ⟨request_agrees _ _, fun r hr => by cases hr⟩
    | true =>
      rw [allocZeroed_granted hgrant] at h
      obtain ⟨host₁, hhost₁⟩ : ∃ host₁ : HostMemory, host₁ = { host with
          requests := host.requests + 1
          blocks := Function.update host.blocks host.nextBlock
            (some { size := segment.size, bytes := fun _ => 0 })
          nextBlock := host.nextBlock + 1 } := ⟨_, rfl⟩
      have hfresh : host₁.blocks host.nextBlock =
          some { size := segment.size, bytes := fun _ => 0 } := by
        rw [hhost₁]
        exact Function.update_self ..
      simp only [← hhost₁, copy_heap hfresh] at h
      cases h
      have hold : ∀ b, b ≠ host.nextBlock → host₁.blocks b = host.blocks b := by
        intro b hb
        rw [hhost₁]
        exact Function.update_of_ne hb _ _
      have hnext : host₁.nextBlock = host.nextBlock + 1 := by rw [hhost₁]
      refine ⟨⟨fun b hb => ?_, by rw [hhost₁], by rw [hhost₁],
        (Nat.le_succ _).trans hnext.ge⟩, fun r hr => ?_⟩
      · have hne : b ≠ host.nextBlock := by omega
        exact (Function.update_of_ne hne _ _).trans (hold b hne)
      · cases hr
        refine ⟨rfl, rfl, rfl, rfl, rfl, fun htrue => absurd htrue hext, fun _ => ?_⟩
        refine ⟨host.nextBlock, _, rfl, le_rfl, hnext ▸ Nat.lt_succ_self _,
          Function.update_self .., rfl, fun o ho => ?_⟩
        simp only [if_pos ho, HostPtr.add_add]
        congr 1
        -- the source is read after the allocation, but from an older block
        apply read_congr (by rw [hhost₁])
        intro b o' heq
        obtain ⟨o'', hdata⟩ := HostPtr.add_eq_heap heq
        have hlt := hsource b o'' hdata
        exact hold b (by omega)

/-! ## All segments of a region -/

/-- Releasing regions that own only later blocks keeps the blocks below. -/
theorem foldl_release_agrees {n : ℕ} (regions : List MemoryRegion) (host : HostMemory)
    (h : ∀ r ∈ regions, r.external = false → ∀ b o, r.data = .heap b o → n ≤ b) :
    AgreesBelow n host (regions.foldl mmReleaseRegion host) := by
  induction regions generalizing host with
  | nil => exact .refl n host
  | cons r regions ih =>
    have hone : AgreesBelow n host (mmReleaseRegion host r) := by
      rw [mmReleaseRegion]
      split_ifs with hext
      · exact .refl n host
      · exact free_agrees (h r (List.mem_cons_self ..) (by simpa using hext))
    exact hone.trans (ih _ fun s hs => h s (List.mem_cons_of_mem _ hs))

/-- The block of an internal segment is a fresh one. -/
theorem SegmentOf.fresh {n : ℕ} {host host' : HostMemory} {source r : MemoryRegion}
    {segment : Segment} (h : SegmentOf n host host' source segment r)
    (hext : r.external = false) {block : ℕ} {offset : U64} (hd : r.data = .heap block offset) :
    n ≤ block ∧ block < host'.nextBlock := by
  obtain ⟨c, b, hc, hn, hlt, -, -, -⟩ := h.copied (h.external_eq.symm.trans hext)
  rw [hd] at hc
  cases hc
  exact ⟨hn, hlt⟩

/-- Segments that cannot all be built leave the existing blocks alone. -/
theorem buildSegments_agrees {source : MemoryRegion} {n : ℕ} (segments : List Segment) :
    ∀ (host : HostMemory) (built : List MemoryRegion), n ≤ host.nextBlock →
      (∀ b o, source.data = .heap b o → b < host.nextBlock) →
      (∀ r ∈ built, r.external = false → ∀ b o, r.data = .heap b o → n ≤ b) →
      AgreesBelow n host (buildSegments source host built segments).2 := by
  induction segments with
  | nil =>
    intro host built _ _ _
    exact .refl n host
  | cons segment rest ih =>
    intro host built hn hsource hbuilt
    rw [buildSegments]
    rcases hone : mmBuildRegionSegment host source segment with ⟨result, host'⟩
    obtain ⟨hagree, hseg⟩ := mmBuildRegionSegment_spec hsource hone
    cases result with
    | none => exact (hagree.mono hn).trans (foldl_release_agrees built host' hbuilt)
    | some region =>
      refine (hagree.mono hn).trans (ih host' _ (hn.trans hagree.nextBlock_le)
        (fun b o hd => (hsource b o hd).trans_le hagree.nextBlock_le) ?_)
      intro r hr hext b o hd
      rcases List.mem_append.mp hr with hr | hr
      · exact hbuilt r hr hext b o hd
      · obtain rfl := List.mem_singleton.mp hr
        exact hn.trans ((hseg _ rfl).fresh hext hd).1

/-- **All segments.**  When every segment is built, they appear in order behind the
ones built before, in fresh blocks of their own. -/
theorem buildSegments_spec {source : MemoryRegion} (segments : List Segment) :
    ∀ (host : HostMemory) (built : List MemoryRegion) (rs : List MemoryRegion)
      (host' : HostMemory),
      (∀ b o, source.data = .heap b o → b < host.nextBlock) →
      buildSegments source host built segments = (some rs, host') →
      AgreesBelow host.nextBlock host host' ∧
      ∃ new, rs = built ++ new ∧
        List.Forall₂ (SegmentOf host.nextBlock host host' source) segments new ∧
        new.Pairwise DistinctStorage := by
  induction segments with
  | nil =>
    intro host built rs host' _ h
    rw [buildSegments] at h
    cases h
    exact ⟨.refl _ _, [], (List.append_nil _).symm, .nil, .nil⟩
  | cons segment rest ih =>
    intro host built rs host' hsource h
    rw [buildSegments] at h
    rcases hone : mmBuildRegionSegment host source segment with ⟨result, host₁⟩
    obtain ⟨hagree, hseg⟩ := mmBuildRegionSegment_spec hsource hone
    rw [hone] at h
    cases result with
    | none => simp at h
    | some region =>
      obtain ⟨hagree', new, hrs, hforall, hpair⟩ := ih host₁ (built ++ [region]) rs host'
        (fun b o hd => (hsource b o hd).trans_le hagree.nextBlock_le) h
      have hregion := hseg region rfl
      refine ⟨hagree.trans (hagree'.mono hagree.nextBlock_le), region :: new, by simp [hrs],
        .cons (hregion.extend hagree') ?_, List.pairwise_cons.mpr ⟨?_, hpair⟩⟩
      · exact hforall.imp fun _ _ hs => hs.rebase hagree hagree.nextBlock_le hsource
      · -- the block of `region` is older than all blocks of the rest
        intro s hs hext hext' heq
        obtain ⟨segment', -, hs'⟩ := exists_of_mem_right hforall hs
        obtain ⟨b, -, hb, -, -, -, -, -⟩ := hregion.copied (hregion.external_eq.symm.trans hext)
        have h1 := (hregion.fresh hext hb).2
        have h2 := (hs'.fresh hext' (heq.symm.trans hb)).1
        omega

end Cpueaxh
