/-
# Editing the region table

One turn of the loop of `mm_unmap`, `mm_protect` and `mm_set_cpu_attrs` replaces a
region by what is left of the range, the part in the range, and what is right of
the range.  The turn keeps the invariant of the manager and changes the page map
exactly at the pages of the part in the range; a turn that fails changes nothing.
-/
import Cpueaxh.PageMap

namespace Cpueaxh

open IntervalTable HostMemory

/-! ## The segments of a region -/

/-- The place of a turn: the region `r` covers the aligned address `current`, which
is below the aligned end of the range. -/
structure ChunkAt (r : MemoryRegion) (current endAddress : U64) : Prop where
  shape : RegionShape r
  covers : Covers regionLo regionHi r current.toNat
  current_aligned : current.toNat % 4096 = 0
  end_aligned : endAddress.toNat % 4096 = 0
  lt_end : current.toNat < endAddress.toNat

/-- A segment is an aligned, non-empty range between two bounds. -/
structure SegmentWithin (lo hi : ℕ) (segment : Segment) : Prop where
  base_aligned : segment.base.toNat % 4096 = 0
  size_aligned : segment.size.toNat % 4096 = 0
  size_pos : 0 < segment.size.toNat
  lo_le : lo ≤ segment.base.toNat
  le_hi : segment.base.toNat + segment.size.toNat ≤ hi

/-- The segment from one aligned word up to another. -/
theorem segmentWithin_sub {lo hi : U64} (hlo : lo.toNat % 4096 = 0) (hhi : hi.toNat % 4096 = 0)
    (hlt : lo.toNat < hi.toNat) (perms cpuAttrs : U32) :
    SegmentWithin lo.toNat hi.toNat ⟨lo, hi - lo, perms, cpuAttrs⟩ := by
  have hsub := toNat_sub_of_le hlt.le
  refine ⟨hlo, ?_, ?_, le_rfl, ?_⟩
  · rw [hsub]
    omega
  · rw [hsub]
    omega
  · show lo.toNat + (hi - lo).toNat ≤ hi.toNat
    rw [hsub]
    omega

theorem SegmentWithin.mono {lo hi lo' hi' : ℕ} {segment : Segment}
    (h : SegmentWithin lo hi segment) (hlo : lo' ≤ lo) (hhi : hi ≤ hi') :
    SegmentWithin lo' hi' segment :=
  { h with lo_le := hlo.trans h.lo_le, le_hi := h.le_hi.trans hhi }

namespace ChunkAt

variable {r : MemoryRegion} {current endAddress : U64}

theorem regionHi_eq (h : ChunkAt r current endAddress) :
    regionHi r = r.base.toNat + r.size.toNat :=
  h.shape.regionHi_eq (Covers.not_reachesTop h.covers)

/-- The part in the range ends at the end of the region or of the range. -/
theorem chunkEnd_toNat (_h : ChunkAt r current endAddress) :
    (chunkEnd r endAddress).toNat = min (regionHi r) endAddress.toNat := by
  rw [chunkEnd, regionHi]
  split_ifs with hlt
  · rw [BitVec.lt_def] at hlt
    omega
  · rw [BitVec.lt_def] at hlt
    omega

theorem chunkEnd_aligned (h : ChunkAt r current endAddress) :
    (chunkEnd r endAddress).toNat % 4096 = 0 := by
  have h1 := h.regionHi_eq
  have h2 := h.shape.base_aligned
  have h3 := h.shape.size_aligned
  have h4 := h.end_aligned
  rw [h.chunkEnd_toNat]
  omega

theorem current_lt_chunkEnd (h : ChunkAt r current endAddress) :
    current.toNat < (chunkEnd r endAddress).toNat := by
  have h1 := h.covers.2
  have h2 := h.lt_end
  rw [h.chunkEnd_toNat]
  omega

/-- The three parts of the region: left of the range, in it, and right of it. -/
theorem segments_within (h : ChunkAt r current endAddress) (perms cpuAttrs : U32) :
    (r.base < current → SegmentWithin r.base.toNat current.toNat
      ⟨r.base, current - r.base, perms, cpuAttrs⟩) ∧
    SegmentWithin current.toNat (chunkEnd r endAddress).toNat
      ⟨current, chunkEnd r endAddress - current, perms, cpuAttrs⟩ ∧
    (chunkEnd r endAddress < r.regionEnd →
      SegmentWithin (chunkEnd r endAddress).toNat (regionHi r)
        ⟨chunkEnd r endAddress, r.regionEnd - chunkEnd r endAddress, perms, cpuAttrs⟩) := by
  have hend : r.regionEnd.toNat % 4096 = 0 := by
    have h1 := h.regionHi_eq
    have h2 := h.shape.base_aligned
    have h3 := h.shape.size_aligned
    rw [regionHi] at h1
    omega
  exact ⟨fun hlt => segmentWithin_sub h.shape.base_aligned h.current_aligned
      (BitVec.lt_def.mp hlt) perms cpuAttrs,
    segmentWithin_sub h.current_aligned h.chunkEnd_aligned h.current_lt_chunkEnd perms cpuAttrs,
    fun hlt => segmentWithin_sub h.chunkEnd_aligned hend (BitVec.lt_def.mp hlt) perms cpuAttrs⟩

end ChunkAt

/-- The segments that replace a region are in order and inside it. -/
theorem replacementSegments_within (middle : MiddlePart) {r : MemoryRegion}
    {current endAddress : U64} (h : ChunkAt r current endAddress) :
    (∀ s ∈ replacementSegments middle r current (chunkEnd r endAddress),
      SegmentWithin r.base.toNat (regionHi r) s) ∧
    (replacementSegments middle r current (chunkEnd r endAddress)).Pairwise
      (fun s t => s.base.toNat + s.size.toNat ≤ t.base.toNat) := by
  have h1 : r.base.toNat ≤ current.toNat := h.covers.1
  have h2 := h.current_lt_chunkEnd
  have h3 := h.chunkEnd_toNat
  have hleft := fun p c => (h.segments_within p c).1
  have hmid := fun p c => (h.segments_within p c).2.1
  have hright := fun p c => (h.segments_within p c).2.2
  constructor
  · intro s hs
    rw [replacementSegments, List.mem_append, List.mem_append] at hs
    rcases hs with (hs | hs) | hs
    · split_ifs at hs with hlt
      · obtain rfl := List.mem_singleton.mp hs
        exact (hleft _ _ hlt).mono le_rfl h.covers.2.le
      · cases hs
    · split at hs
      · obtain rfl := List.mem_singleton.mp hs
        exact (hmid _ _).mono h1 (by omega)
      · cases hs
    · split_ifs at hs with hlt
      · obtain rfl := List.mem_singleton.mp hs
        exact (hright _ _ hlt).mono (by omega) le_rfl
      · cases hs
  · rw [replacementSegments, List.append_assoc]
    refine List.pairwise_append.mpr ⟨?_, List.pairwise_append.mpr ⟨?_, ?_, ?_⟩, ?_⟩
    · split_ifs <;> simp
    · split <;> simp
    · split_ifs <;> simp
    · -- the part in the range ends where the right part starts
      intro s hs t ht
      split at hs
      · split_ifs at ht with hlt
        · obtain rfl := List.mem_singleton.mp hs
          obtain rfl := List.mem_singleton.mp ht
          exact (hmid _ _).le_hi
        · cases ht
      · cases hs
    · -- the left part ends where the range starts
      intro s hs t ht
      split_ifs at hs with hlt
      · obtain rfl := List.mem_singleton.mp hs
        have hle := (hleft r.perms r.cpuAttrs hlt).le_hi
        rcases List.mem_append.mp ht with ht | ht
        · split at ht
          · obtain rfl := List.mem_singleton.mp ht
            exact hle
          · cases ht
        · split_ifs at ht with hlt'
          · obtain rfl := List.mem_singleton.mp ht
            exact hle.trans h2.le
          · cases ht
      · cases hs

/-! ## The regions that are built -/

/-- A region built for a segment has the interval of the segment. -/
theorem SegmentOf.regionHi_eq {n lo hi : ℕ} {host host' : HostMemory} {source r : MemoryRegion}
    {segment : Segment} (h : SegmentOf n host host' source segment r)
    (hw : SegmentWithin lo hi segment) (hhi : hi < 2 ^ 64) :
    regionLo r = segment.base.toNat ∧ regionHi r = segment.base.toNat + segment.size.toNat := by
  have hle := hw.le_hi
  rw [regionLo, regionHi, MemoryRegion.regionEnd, h.base_eq, h.size_eq, BitVec.toNat_add]
  exact ⟨rfl, Nat.mod_eq_of_lt (by omega)⟩

theorem SegmentOf.regionShape {n lo hi : ℕ} {host host' : HostMemory} {source r : MemoryRegion}
    {segment : Segment} (h : SegmentOf n host host' source segment r)
    (hw : SegmentWithin lo hi segment) (hhi : hi < 2 ^ 64) : RegionShape r where
  base_aligned := h.base_eq ▸ hw.base_aligned
  size_aligned := h.size_eq ▸ hw.size_aligned
  size_pos := h.size_eq ▸ hw.size_pos
  fits := by
    have hle := hw.le_hi
    rw [h.base_eq, h.size_eq]
    omega

/-- Regions built for segments in order are arranged. -/
theorem arranged_of_segments {n lo hi : ℕ} {host host' : HostMemory} {source : MemoryRegion}
    {segments : List Segment} {new : List MemoryRegion} (hhi : hi < 2 ^ 64)
    (h : List.Forall₂ (SegmentOf n host host' source) segments new)
    (hw : ∀ s ∈ segments, SegmentWithin lo hi s)
    (hpair : segments.Pairwise fun s t => s.base.toNat + s.size.toNat ≤ t.base.toNat) :
    Arranged regionLo regionHi new := by
  induction h with
  | nil => exact List.Pairwise.nil
  | cons hs hrest ih =>
    obtain ⟨hhead, htail⟩ := List.pairwise_cons.mp hpair
    refine List.pairwise_cons.mpr ⟨fun t ht => ?_,
      ih (fun s hs => hw s (List.mem_cons_of_mem _ hs)) htail⟩
    obtain ⟨s', hs', ht'⟩ := exists_of_mem_right hrest ht
    obtain ⟨h1, h2⟩ := hs.regionHi_eq (hw _ (List.mem_cons_self ..)) hhi
    obtain ⟨h3, -⟩ := ht'.regionHi_eq (hw s' (List.mem_cons_of_mem _ hs')) hhi
    have hle := hhead s' hs'
    rw [h1, h2, h3]
    exact ⟨by omega, hle⟩

/-! ## Replacing a region -/

/-- Reserving room in the table may ask for memory, and changes nothing else. -/
theorem mmReserveRegionCapacity_snd (mgr : MemoryManager) (capacity : ℕ) :
    ∃ host regionCapacity, (mmReserveRegionCapacity mgr capacity).2 =
        { mgr with host := host, regionCapacity := regionCapacity } ∧
      ∀ n, AgreesBelow n mgr.host host := by
  rw [mmReserveRegionCapacity]
  split_ifs
  · exact ⟨mgr.host, mgr.regionCapacity, rfl, fun n => .refl n _⟩
  · exact ⟨mgr.host.request.2, _, rfl, fun n => request_agrees n _⟩
  · exact ⟨mgr.host.request.2, mgr.regionCapacity, rfl, fun n => request_agrees n _⟩

/-- A table around one of its regions. -/
theorem regions_split {regions : List MemoryRegion} {i : ℕ} {r : MemoryRegion}
    (hi : regions[i]? = some r) : regions = regions.take i ++ r :: regions.drop (i + 1) := by
  obtain ⟨hlt, rfl⟩ := List.getElem?_eq_some_iff.mp hi
  rw [← List.drop_eq_getElem_cons hlt, List.take_append_drop]

/-- The two outcomes of replacing a region. -/
theorem mmReplaceRegion_cases {mgr mgr' : MemoryManager} {i : ℕ} {r : MemoryRegion}
    {replacements : List MemoryRegion} {ok : Bool} (hi : mgr.regions[i]? = some r)
    (h : mmReplaceRegion mgr i replacements = (ok, mgr')) :
    ∃ host, (∀ n, AgreesBelow n mgr.host host) ∧
      ((ok = false ∧ mgr'.regions = mgr.regions ∧ mgr'.host = host) ∨
        (ok = true ∧ mgr'.host = mmReleaseRegion host r ∧
          mgr'.regions = mgr.regions.take i ++ replacements ++ mgr.regions.drop (i + 1))) := by
  obtain ⟨host, capacity, hres, hagree⟩ := mmReserveRegionCapacity_snd mgr
    (mgr.regions.length - 1 + replacements.length)
  rw [mmReplaceRegion, hi] at h
  simp only at h
  rcases hcase : mmReserveRegionCapacity mgr (mgr.regions.length - 1 + replacements.length)
    with ⟨b, mgr₁⟩
  rw [hcase] at h hres
  simp only at hres
  refine ⟨host, hagree, ?_⟩
  cases b with
  | false =>
    cases h
    exact Or.inl ⟨rfl, by rw [hres], by rw [hres]⟩
  | true =>
    cases h
    exact Or.inr ⟨rfl, by rw [hres]; rfl, by rw [hres]; rfl⟩

/-- A turn of the loop that succeeded: in `host` the segments of `r` were built as
`new`, which took the place of `r`, and then `r` was freed. -/
structure TurnDone (middle : MiddlePart) (mgr mgr' : MemoryManager) (i : ℕ) (r : MemoryRegion)
    (current endAddress : U64) (host : HostMemory) (new : List MemoryRegion) : Prop where
  found : mgr.regions[i]? = some r
  place : ChunkAt r current endAddress
  agrees : AgreesBelow mgr.host.nextBlock mgr.host host
  segments : List.Forall₂ (SegmentOf mgr.host.nextBlock mgr.host host r)
    (replacementSegments middle r current (chunkEnd r endAddress)) new
  distinct : new.Pairwise DistinctStorage
  host_eq : mgr'.host = mmReleaseRegion host r
  regions_eq : mgr'.regions = mgr.regions.take i ++ new ++ mgr.regions.drop (i + 1)

/-- **The two outcomes of a turn.**  A failed turn leaves the table and all existing
blocks alone. -/
theorem replaceChunk_cases {middle : MiddlePart} {mgr mgr' : MemoryManager} {i : ℕ}
    {r : MemoryRegion} {current endAddress : U64} {ok : Bool} (hi : mgr.regions[i]? = some r)
    (hat : ChunkAt r current endAddress) (hstored : RegionStored mgr.host r)
    (h : replaceChunk middle mgr i r current endAddress = (ok, mgr')) :
    (ok = false ∧ mgr'.regions = mgr.regions ∧
      AgreesBelow mgr.host.nextBlock mgr.host mgr'.host) ∨
    (ok = true ∧ ∃ host new, TurnDone middle mgr mgr' i r current endAddress host new) := by
  have hsource : ∀ b o, r.data = .heap b o → b < mgr.host.nextBlock := fun b o =>
    hstored.block_lt
  rw [replaceChunk] at h
  rcases hbuild : buildSegments r mgr.host []
      (replacementSegments middle r current (chunkEnd r endAddress)) with ⟨result, host₁⟩
  rw [hbuild] at h
  cases result with
  | none =>
    cases h
    have hagree := buildSegments_agrees (n := mgr.host.nextBlock)
      (replacementSegments middle r current (chunkEnd r endAddress)) mgr.host [] le_rfl hsource
      (fun s hs => by cases hs)
    rw [hbuild] at hagree
    exact Or.inl ⟨rfl, rfl, hagree⟩
  | some replacements =>
    obtain ⟨hagree, new, hnew, hforall, hpair⟩ := buildSegments_spec _ _ _ _ _ hsource hbuild
    rw [List.nil_append] at hnew
    subst hnew
    simp only at h
    rcases hrep : mmReplaceRegion { mgr with host := host₁ } i replacements with ⟨b, mgr₂⟩
    have hi₁ : ({ mgr with host := host₁ } : MemoryManager).regions[i]? = some r := hi
    obtain ⟨host₂, hagree₂, hcases⟩ := mmReplaceRegion_cases hi₁ hrep
    have hto₂ : AgreesBelow mgr.host.nextBlock mgr.host host₂ := hagree.trans (hagree₂ _)
    rw [hrep] at h
    rcases hcases with ⟨rfl, hregions, hhost⟩ | ⟨rfl, hhost, hregions⟩
    · cases h
      refine Or.inl ⟨rfl, hregions, ?_⟩
      -- the segments are released again, and they own only fresh blocks
      simp only [hhost]
      refine hto₂.trans (foldl_release_agrees _ _ fun s hs hext b o hd => ?_)
      obtain ⟨segment, -, hseg⟩ := exists_of_mem_right hforall hs
      exact (hseg.fresh hext hd).1
    · cases h
      exact Or.inr ⟨rfl, host₂, replacements, hi, hat, hto₂,
        hforall.imp fun _ _ hs => hs.extend (hagree₂ _), hpair, hhost, hregions⟩

/-! ## The invariant after a turn -/

/-- Releasing a region frees at most the block that it owns. -/
theorem release_blocks {host : HostMemory} {r : MemoryRegion} {b : ℕ}
    (h : r.external = false → ∀ o, r.data ≠ .heap b o) :
    (mmReleaseRegion host r).blocks b = host.blocks b := by
  rw [mmReleaseRegion]
  split_ifs with hext
  · rfl
  · cases hd : r.data with
    | user a => rfl
    | heap c o =>
      have hne : b ≠ c := by
        rintro rfl
        exact h (by simpa using hext) o hd
      simp [free, Function.update_of_ne hne]

@[simp] theorem release_user (host : HostMemory) (r : MemoryRegion) :
    (mmReleaseRegion host r).user = host.user := by
  rw [mmReleaseRegion]
  split_ifs
  · rfl
  · cases r.data <;> rfl

@[simp] theorem release_nextBlock (host : HostMemory) (r : MemoryRegion) :
    (mmReleaseRegion host r).nextBlock = host.nextBlock := by
  rw [mmReleaseRegion]
  split_ifs
  · rfl
  · cases r.data <;> rfl

@[simp] theorem release_requests (host : HostMemory) (r : MemoryRegion) :
    (mmReleaseRegion host r).requests = host.requests := by
  rw [mmReleaseRegion]
  split_ifs
  · rfl
  · cases r.data <;> rfl

@[simp] theorem release_grants (host : HostMemory) (r : MemoryRegion) :
    (mmReleaseRegion host r).grants = host.grants := by
  rw [mmReleaseRegion]
  split_ifs
  · rfl
  · cases r.data <;> rfl

/-- The data of a stored region names the block that the region owns. -/
theorem RegionStored.data_eq {host : HostMemory} {r : MemoryRegion} (h : RegionStored host r)
    {block : ℕ} {offset : U64} (hd : r.data = .heap block offset) :
    r.external = false ∧ offset = 0 := by
  cases hext : r.external with
  | true =>
    obtain ⟨a, ha⟩ := h.shared hext
    rw [hd] at ha
    cases ha
  | false =>
    obtain ⟨c, b, hc, -, -, -⟩ := h.owned hext
    rw [hd] at hc
    cases hc
    exact ⟨rfl, rfl⟩

/-- A region with storage of its own does not see the release of another one. -/
theorem block_after_release {host : HostMemory} {r s : MemoryRegion} {hostR hostS : HostMemory}
    (hr : RegionStored hostR r) (hs : RegionStored hostS s) (hne : DistinctStorage s r)
    {block : ℕ} {offset : U64} (hd : s.data = .heap block offset) :
    (mmReleaseRegion host r).blocks block = host.blocks block := by
  refine release_blocks fun hext o heq => ?_
  obtain ⟨hsext, rfl⟩ := hs.data_eq hd
  obtain ⟨-, rfl⟩ := hr.data_eq heq
  exact hne hsext hext (hd.trans heq.symm)

/-- A stored region stays stored when another one is released. -/
theorem RegionStored.release {host hostR : HostMemory} {r s : MemoryRegion}
    (hs : RegionStored host s) (hr : RegionStored hostR r) (hne : DistinctStorage s r) :
    RegionStored (mmReleaseRegion host r) s where
  shared := hs.shared
  owned hext := by
    obtain ⟨block, b, hd, hlt, hb, hsize⟩ := hs.owned hext
    exact ⟨block, b, hd, by rw [release_nextBlock]; exact hlt,
      (block_after_release hr hs hne hd).trans hb, hsize⟩

/-- A segment that was built is stored. -/
theorem SegmentOf.regionStored {n : ℕ} {host host' hostR : HostMemory}
    {source r : MemoryRegion} {segment : Segment} (h : SegmentOf n host host' source segment r)
    (hsource : RegionStored hostR source) : RegionStored host' r where
  shared hext := by
    rw [h.external_eq] at hext
    obtain ⟨a, ha⟩ := hsource.shared hext
    exact ⟨_, by rw [h.shared hext, ha]; rfl⟩
  owned hext := by
    rw [h.external_eq] at hext
    obtain ⟨block, b, hd, -, hlt, hb, hsize, -⟩ := h.copied hext
    exact ⟨block, b, hd, hlt, hb, hsize.trans h.size_eq.symm⟩

/-- A region that was there before a build and a segment built then are distinct. -/
theorem SegmentOf.distinct {host host' : HostMemory} {source r s : MemoryRegion}
    {segment : Segment} (h : SegmentOf host.nextBlock host host' source segment r)
    (hs : RegionStored host s) : DistinctStorage s r := by
  intro hsext hrext heq
  obtain ⟨block, b, hd, hlt, -, -⟩ := hs.owned hsext
  have hge := (h.fresh hrext (heq.symm.trans hd)).1
  omega

/-- The table around one region: the others are stored apart from it. -/
theorem ManagerOk.distinct_rest {mgr : MemoryManager} (h : ManagerOk mgr) {i : ℕ}
    {r : MemoryRegion} (hi : mgr.regions[i]? = some r) :
    ∀ s ∈ mgr.regions.take i ++ mgr.regions.drop (i + 1), DistinctStorage s r := by
  have hpair := h.distinct
  rw [regions_split hi] at hpair
  obtain ⟨-, hrest, hcross⟩ := List.pairwise_append.mp hpair
  obtain ⟨hr, -⟩ := List.pairwise_cons.mp hrest
  intro s hs
  rcases List.mem_append.mp hs with hs | hs
  · exact hcross s hs r (List.mem_cons_self ..)
  · intro hsext hrext heq
    exact hr s hs hrext hsext heq.symm

/-- What a failed operation leaves: the table and all blocks of the table. -/
theorem ManagerOk.of_agrees {mgr mgr' : MemoryManager} (h : ManagerOk mgr)
    (hregions : mgr'.regions = mgr.regions)
    (hagree : AgreesBelow mgr.host.nextBlock mgr.host mgr'.host) : ManagerOk mgr' where
  table := hregions ▸ h.table
  stored := by
    rw [hregions]
    exact fun s hs => (h.stored s hs).of_agrees hagree
  distinct := hregions ▸ h.distinct

/-- The page map that goes with it. -/
theorem toFlat_of_agrees {mgr mgr' : MemoryManager} (h : ManagerOk mgr)
    (hregions : mgr'.regions = mgr.regions)
    (hagree : AgreesBelow mgr.host.nextBlock mgr.host mgr'.host) : toFlat mgr' = toFlat mgr := by
  have harr := h.table.arranged
  have hpage : pageAt mgr' = pageAt mgr := by
    funext p
    rw [pageAt, pageAt, mmFindRegion_eq_lookup (hregions ▸ harr), mmFindRegion_eq_lookup harr,
      hregions]
    cases hlook : lookup regionLo regionHi mgr.regions p.1.toNat with
    | none => rfl
    | some s =>
      have hstored := h.stored s (lookup_sound hlook).1
      simp only [Option.map_some, Option.some.injEq]
      exact pageRecord_congr p.1 fun b o hd => hagree.blocks_eq b (hstored.block_lt hd)
  rw [toFlat, toFlat, hpage, hagree.user_eq]

namespace TurnDone

variable {middle : MiddlePart} {mgr mgr' : MemoryManager} {i : ℕ} {r : MemoryRegion}
  {current endAddress : U64} {host : HostMemory} {new : List MemoryRegion}

/-- The regions that are built lie inside the region they replace. -/
theorem new_inside (t : TurnDone middle mgr mgr' i r current endAddress host new) :
    ∀ s ∈ new, RegionShape s ∧ ¬ s.ReachesTop ∧
      regionLo r ≤ regionLo s ∧ regionLo s ≤ regionHi r ∧ regionHi s ≤ regionHi r := by
  intro s hs
  have hhi : regionHi r < 2 ^ 64 := r.regionEnd.isLt
  obtain ⟨segment, hsegment, hseg⟩ := exists_of_mem_right t.segments hs
  have hw := (replacementSegments_within middle t.place).1 segment hsegment
  obtain ⟨h1, h2⟩ := hseg.regionHi_eq hw hhi
  have h3 := hw.lo_le
  have h4 := hw.le_hi
  refine ⟨hseg.regionShape hw hhi, ?_, by rw [h1]; exact h3, by omega, by omega⟩
  rw [MemoryRegion.ReachesTop, hseg.base_eq, hseg.size_eq]
  omega

/-- A member of the new table is an old region, or a segment. -/
theorem mem_cases (t : TurnDone middle mgr mgr' i r current endAddress host new)
    {s : MemoryRegion} (hs : s ∈ mgr'.regions) :
    (s ∈ mgr.regions.take i ++ mgr.regions.drop (i + 1) ∧ s ∈ mgr.regions) ∨ s ∈ new := by
  rw [t.regions_eq] at hs
  simp only [List.mem_append] at hs ⊢
  rcases hs with (hs | hs) | hs
  · exact Or.inl ⟨Or.inl hs, List.mem_of_mem_take hs⟩
  · exact Or.inr hs
  · exact Or.inl ⟨Or.inr hs, List.mem_of_mem_drop hs⟩

/-- **A successful turn keeps the invariant.** -/
theorem managerOk (t : TurnDone middle mgr mgr' i r current endAddress host new)
    (h : ManagerOk mgr) : ManagerOk mgr' := by
  have hsplit := regions_split t.found
  have hr := h.stored r (List.mem_of_getElem? t.found)
  have hwithin := replacementSegments_within middle t.place
  have harrnew := arranged_of_segments r.regionEnd.isLt t.segments hwithin.1 hwithin.2
  have hcross : ∀ s ∈ mgr.regions, ∀ u ∈ new, DistinctStorage s u := by
    intro s hs u hu
    obtain ⟨segment, -, hseg⟩ := exists_of_mem_right t.segments hu
    exact hseg.distinct (h.stored s hs)
  refine ⟨⟨?_, ?_⟩, ?_, ?_⟩
  · have harr := h.table.arranged
    rw [hsplit] at harr
    rw [t.regions_eq]
    exact harr.splice harrnew fun s hs => (t.new_inside s hs).2.2
  · intro s hs
    rcases t.mem_cases hs with ⟨-, hs⟩ | hs
    · exact h.table.shape s hs
    · exact (t.new_inside s hs).1
  · intro s hs
    rw [t.host_eq]
    rcases t.mem_cases hs with ⟨hrest, hs⟩ | hs
    · exact ((h.stored s hs).of_agrees t.agrees).release hr (h.distinct_rest t.found s hrest)
    · obtain ⟨segment, -, hseg⟩ := exists_of_mem_right t.segments hs
      refine (hseg.regionStored hr).release hr ?_
      intro hsext hrext heq
      exact hseg.distinct hr hrext hsext heq.symm
  · have hold := h.distinct
    rw [hsplit] at hold
    obtain ⟨htake, hdrop, hacross⟩ := List.pairwise_append.mp hold
    rw [t.regions_eq, List.append_assoc]
    refine List.pairwise_append.mpr ⟨htake, List.pairwise_append.mpr
      ⟨t.distinct, (List.pairwise_cons.mp hdrop).2, ?_⟩, ?_⟩
    · intro u hu s hs hext hext' heq
      exact hcross s (List.mem_of_mem_drop hs) u hu hext' hext heq.symm
    · intro s hs u hu
      rcases List.mem_append.mp hu with hu | hu
      · exact hcross s (List.mem_of_mem_take hs) u hu
      · exact hacross s hs u (List.mem_cons_of_mem _ hu)

end TurnDone

end Cpueaxh
