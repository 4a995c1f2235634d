/-
# The table of patches

The live patches are disjoint, and the bounds that `mm_find_patch` looks at first cover
all of them, so it finds the patch of an address exactly when there is one.  Additions
reject every overlap, and a deletion computes the bounds again.
-/
import Cpueaxh.CacheRuns
import Cpueaxh.Operands

namespace Cpueaxh

open HostMemory Transition

/-! ## Shape -/

/-- The last address of a patch. -/
def PatchEntry.last (patch : PatchEntry) : U64 := patch.address + patch.size - 1

/-- The pointer to the byte of a patch that stands for an address. -/
def PatchEntry.byteAt (patch : PatchEntry) (address : U64) : HostPtr :=
  patch.data.add (address - patch.address)

theorem PatchEntry.covers_iff (patch : PatchEntry) (address : U64) :
    patch.covers address = true ↔
      patch.size ≠ 0 ∧ patch.address ≤ address ∧ address ≤ patch.last := by
  simp [PatchEntry.covers, PatchEntry.last, and_assoc]

/-- No patch reaches into another one. -/
def PatchEntry.Apart (p q : PatchEntry) : Prop := p.last < q.address ∨ q.last < p.address

instance : Std.Symm PatchEntry.Apart := ⟨fun _ _ h => h.symm⟩

/-- Patches that are apart cover no address together. -/
theorem PatchEntry.Apart.not_covers {p q : PatchEntry} (h : p.Apart q) {address : U64}
    (hp : p.covers address = true) : ¬ q.covers address = true := by
  rw [covers_iff] at hp ⊢
  rcases h with h | h <;> bv_omega

/-- The invariant of the patches. -/
structure PatchTable (mgr : MemoryManager) : Prop where
  shape : ∀ p ∈ mgr.patches, p.size ≠ 0 ∧ p.address ≤ p.last
  apart : mgr.patches.Pairwise PatchEntry.Apart
  bounds : ∀ p ∈ mgr.patches, mgr.patchMinAddress ≤ p.address ∧ p.last ≤ mgr.patchMaxAddress
  blocks : mgr.patches.Pairwise fun p q => p.data ≠ q.data

theorem PatchTable.of_nil {mgr : MemoryManager} (h : mgr.patches = []) : PatchTable mgr where
  shape p hp := by simp [h] at hp
  apart := by simp [h]
  bounds p hp := by simp [h] at hp
  blocks := by simp [h]

/-- The same patches and bounds. -/
theorem PatchTable.congr {mgr mgr' : MemoryManager} (h : PatchTable mgr)
    (hpatches : mgr'.patches = mgr.patches)
    (hbounds : mgr'.patchMinAddress = mgr.patchMinAddress ∧
      mgr'.patchMaxAddress = mgr.patchMaxAddress) : PatchTable mgr' where
  shape := hpatches ▸ h.shape
  apart := hpatches ▸ h.apart
  bounds := by
    rw [hpatches, hbounds.1, hbounds.2]
    exact h.bounds
  blocks := hpatches ▸ h.blocks

/-- Two patches that cover one address are the same. -/
theorem PatchTable.unique {mgr : MemoryManager} (h : PatchTable mgr) {p q : PatchEntry}
    (hp : p ∈ mgr.patches) (hq : q ∈ mgr.patches) {address : U64}
    (hcp : p.covers address = true) (hcq : q.covers address = true) : p = q := by
  by_contra hne
  exact (h.apart.forall hp hq hne).not_covers hcp hcq

/-- The bounds cover every patch. -/
theorem PatchTable.boundsContain {mgr : MemoryManager} (h : PatchTable mgr) {p : PatchEntry}
    (hp : p ∈ mgr.patches) {address : U64} (hcovers : p.covers address = true) :
    mmPatchBoundsMayContain mgr address = true := by
  obtain ⟨-, hlow, hhigh⟩ := (p.covers_iff address).mp hcovers
  obtain ⟨hmin, hmax⟩ := h.bounds p hp
  have hlen : mgr.patches.length ≠ 0 := List.length_pos_of_mem hp |>.ne'
  simp only [mmPatchBoundsMayContain, Bool.and_eq_true, bne_iff_ne, decide_eq_true_eq]
  exact ⟨⟨hlen, BitVec.le_trans hmin hlow⟩, BitVec.le_trans hhigh hmax⟩

/-- **`mm_find_patch`** finds the patch that covers the address. -/
theorem PatchTable.find_iff {mgr : MemoryManager} (h : PatchTable mgr) (address : U64)
    (patch : PatchEntry) :
    mmFindPatch mgr address = some patch ↔
      patch ∈ mgr.patches ∧ patch.covers address = true := by
  unfold mmFindPatch
  constructor
  · intro hfind
    split_ifs at hfind
    have hcovers := List.find?_some (p := fun q : PatchEntry => q.covers address) hfind
    exact ⟨List.mem_of_find?_eq_some hfind, hcovers⟩
  · rintro ⟨hmem, hcovers⟩
    rw [if_pos (h.boundsContain hmem hcovers)]
    have hsome : (mgr.patches.find? fun p => p.covers address).isSome = true :=
      List.find?_isSome.mpr ⟨patch, hmem, hcovers⟩
    obtain ⟨q, hq⟩ := Option.isSome_iff_exists.mp hsome
    have hcq := List.find?_some (p := fun r : PatchEntry => r.covers address) hq
    rw [hq, h.unique (List.mem_of_find?_eq_some hq) hmem hcq hcovers]

/-! ## Additions -/

/-- `mm_patch_range_overlaps` of a patch that fits with one of the table. -/
theorem apart_of_not_overlaps {p q : PatchEntry} (hp : p.size ≠ 0) (hq : q.size ≠ 0)
    (h : mmPatchRangeOverlaps p.address p.size q.address q.size = false) : p.Apart q := by
  simp only [mmPatchRangeOverlaps, hp, hq, decide_false, Bool.or_false, Bool.false_eq_true,
    if_false, Bool.not_eq_false', Bool.or_eq_true, decide_eq_true_eq] at h
  exact h

/-- An accepted addition: the new patch has a fresh block with the given bytes. -/
structure PatchAdded (mgr mgr' : MemoryManager) (patch : PatchEntry) (bytes : U64 → U8) :
    Prop where
  patches_eq : mgr'.patches = mgr.patches ++ [patch]
  handle_eq : patch.handle = mgr.nextPatchHandle
  next_eq : mgr'.nextPatchHandle = mgr.nextPatchHandle + 1
  shape : patch.size ≠ 0 ∧ patch.address ≤ patch.last
  apart : ∀ p ∈ mgr.patches, patch.Apart p
  min_le : mgr'.patchMinAddress ≤ patch.address ∧
    (mgr.patches ≠ [] → mgr'.patchMinAddress ≤ mgr.patchMinAddress)
  le_max : patch.last ≤ mgr'.patchMaxAddress ∧
    (mgr.patches ≠ [] → mgr.patchMaxAddress ≤ mgr'.patchMaxAddress)
  block : ∃ block, patch.data = .heap block 0 ∧ mgr.host.nextBlock ≤ block
  filled : ∀ offset < patch.size, mgr'.host.read (patch.data.add offset) = some (bytes offset)
  rest : mgr'.regions = mgr.regions ∧ mmHostPassthroughPerms mgr' = mmHostPassthroughPerms mgr
  agrees : AgreesBelow mgr.host.nextBlock mgr.host mgr'.host

/-- The manager changed in the capacity of its patches and in the allocator at most. -/
structure PatchesKept (mgr mgr' : MemoryManager) : Prop where
  same : mgr' = { mgr with patchCapacity := mgr'.patchCapacity, host := mgr'.host }
  agrees : AgreesBelow mgr.host.nextBlock mgr.host mgr'.host

/-- Filling a fresh block: what the new patch reads as. -/
theorem read_copyIn {host : HostMemory} {block : ℕ} {size : U64} {zeros : U64 → U8}
    (hb : host.blocks block = some { size := size, bytes := zeros }) {bytes : U64 → U8}
    {offset : U64} (hlt : offset < size) :
    (copyIn host (.heap block 0) bytes size).read (.heap block offset) = some (bytes offset) := by
  simp [copyIn, hb, HostMemory.read, hlt]

/-- The patch that `appendPatch` puts at the end. -/
theorem patchAdded_append {mgr : MemoryManager} {host : HostMemory} {capacity block : ℕ}
    {address size : U64} {bytes : U64 → U8} (hsize : size ≠ 0)
    (hfits : address ≤ address + size - 1)
    (happart : ∀ p ∈ mgr.patches,
      (PatchEntry.mk mgr.nextPatchHandle address size (.heap block 0)).Apart p)
    (hblock : mgr.host.nextBlock ≤ block)
    (hfilled : ∀ offset < size, host.read (.heap block offset) = some (bytes offset))
    (hagree : AgreesBelow mgr.host.nextBlock mgr.host host) :
    PatchAdded mgr
      (mmBumpCodeVersion (appendPatch { mgr with host := host, patchCapacity := capacity }
        address size (.heap block 0)))
      (PatchEntry.mk mgr.nextPatchHandle address size (.heap block 0)) bytes where
  patches_eq := rfl
  handle_eq := rfl
  next_eq := rfl
  shape := ⟨hsize, hfits⟩
  apart := happart
  min_le := by
    constructor
    · simp only [mmBumpCodeVersion, appendPatch]
      split_ifs with h
      · exact BitVec.le_refl address
      · exact BitVec.not_lt.mp (not_or.mp h).2
    · intro hne
      have hlen : ¬ mgr.patches.length = 0 := fun h => hne (List.length_eq_zero_iff.mp h)
      simp only [mmBumpCodeVersion, appendPatch, hlen, false_or]
      split_ifs with h
      · exact BitVec.le_of_lt h
      · exact BitVec.le_refl _
  le_max := by
    constructor
    · simp only [mmBumpCodeVersion, appendPatch, PatchEntry.last]
      split_ifs with h
      · exact BitVec.le_refl _
      · exact BitVec.not_lt.mp (not_or.mp h).2
    · intro hne
      have hlen : ¬ mgr.patches.length = 0 := fun h => hne (List.length_eq_zero_iff.mp h)
      simp only [mmBumpCodeVersion, appendPatch, hlen, false_or]
      split_ifs with h
      · exact BitVec.le_of_lt h
      · exact BitVec.le_refl _
  block := ⟨block, rfl, hblock⟩
  filled offset hlt := by
    have hadd : (HostPtr.heap block 0).add offset = .heap block offset := by simp [HostPtr.add]
    show host.read ((HostPtr.heap block 0).add offset) = some (bytes offset)
    rw [hadd]
    exact hfilled offset hlt
  rest := ⟨rfl, rfl⟩
  agrees := hagree

/-- **The outcomes of `mm_add_patch`.** -/
theorem mmAddPatch_cases {mgr : MemoryManager} (hsizes : ∀ p ∈ mgr.patches, p.size ≠ 0)
    (address : U64) (bytes : U64 → U8) (size : U64) :
    ((mmAddPatch mgr address bytes size).1 ≠ .ok ∧
        PatchesKept mgr (mmAddPatch mgr address bytes size).2) ∨
      ((mmAddPatch mgr address bytes size).1 = .ok ∧
        ∃ patch, patch.address = address ∧ patch.size = size ∧
          PatchAdded mgr (mmAddPatch mgr address bytes size).2 patch bytes) := by
  rw [mmAddPatch]
  split_ifs with hargs hconflict
  · exact Or.inl ⟨fun h => (by cases h), rfl, .refl _ _⟩
  · exact Or.inl ⟨fun h => (by cases h), rfl, .refl _ _⟩
  obtain ⟨host, capacity, hres, hagree⟩ :=
    mmReservePatchCapacity_snd mgr (mgr.patches.length + 1)
  rcases hcase : mmReservePatchCapacity mgr (mgr.patches.length + 1) with ⟨b, mgr₁⟩
  rw [hcase] at hres
  simp only at hres
  subst hres
  cases b with
  | false => exact Or.inl ⟨fun h => (by cases h), rfl, hagree _⟩
  | true =>
    simp only
    cases hgrant : host.grants host.requests with
    | false =>
      rw [allocZeroed_denied hgrant]
      exact Or.inl ⟨fun h => (by cases h), rfl, (hagree _).trans (request_agrees _ host)⟩
    | true =>
      rw [allocZeroed_granted hgrant]
      have hargs' : size ≠ 0 ∧ mmRangeOverflows address size = false := by
        simpa using hargs
      have hfits : address ≤ address + size - 1 := by
        have hover := hargs'.2
        simp only [mmRangeOverflows, Bool.and_eq_false_iff, bne_eq_false_iff_eq,
          decide_eq_false_iff_not] at hover
        exact BitVec.not_lt.mp (hover.resolve_left hargs'.1)
      have happart : ∀ p ∈ mgr.patches, (PatchEntry.mk mgr.nextPatchHandle address size
          (.heap host.nextBlock 0)).Apart p := by
        intro p hp
        have hover : mmPatchRangeOverlaps address size p.address p.size = false := by
          simp only [List.any_eq_true, not_exists, not_and, Bool.not_eq_true] at hconflict
          exact hconflict p hp
        exact apart_of_not_overlaps hargs'.1 (hsizes p hp) hover
      -- the fresh block is above the blocks that the manager knew
      have hfresh := (hagree 0).nextBlock_le
      obtain ⟨host₂, halloc, hnext, hagree₂⟩ := allocZeroed_fresh size hgrant
      rw [allocZeroed_granted hgrant, Prod.mk.injEq] at halloc
      obtain ⟨-, rfl⟩ := halloc
      refine Or.inr ⟨rfl, _, rfl, rfl, patchAdded_append hargs'.1 hfits happart hfresh ?_ ?_⟩
      · intro offset hlt
        exact read_copyIn (Function.update_self _ _ _) hlt
      · refine (hagree _).trans ((hagree₂.mono hfresh).trans (copyIn_agrees fun b o heq => ?_))
        cases heq
        exact hfresh

/-- A rejected addition leaves the table alone. -/
theorem PatchTable.kept {mgr mgr' : MemoryManager} (h : PatchTable mgr)
    (hkept : PatchesKept mgr mgr') : PatchTable mgr' := by
  refine h.congr ?_ ⟨?_, ?_⟩
  · rw [hkept.same]
  · rw [hkept.same]
  · rw [hkept.same]

/-- **An addition** keeps the table. -/
theorem PatchTable.added {mgr mgr' : MemoryManager} (h : PatchTable mgr)
    (hstored : PatchesStored mgr) {patch : PatchEntry} {bytes : U64 → U8}
    (hadd : PatchAdded mgr mgr' patch bytes) : PatchTable mgr' where
  shape p hp := by
    rw [hadd.patches_eq, List.mem_append, List.mem_singleton] at hp
    rcases hp with hp | rfl
    · exact h.shape p hp
    · exact hadd.shape
  apart := by
    rw [hadd.patches_eq, List.pairwise_append]
    refine ⟨h.apart, List.pairwise_singleton _ _, fun p hp q hq => ?_⟩
    rw [List.mem_singleton.mp hq]
    exact (hadd.apart p hp).symm
  bounds p hp := by
    rw [hadd.patches_eq, List.mem_append, List.mem_singleton] at hp
    rcases hp with hp | rfl
    · have hne : mgr.patches ≠ [] := List.ne_nil_of_mem hp
      obtain ⟨hmin, hmax⟩ := h.bounds p hp
      exact ⟨BitVec.le_trans (hadd.min_le.2 hne) hmin, BitVec.le_trans hmax (hadd.le_max.2 hne)⟩
    · exact ⟨hadd.min_le.1, hadd.le_max.1⟩
  blocks := by
    rw [hadd.patches_eq, List.pairwise_append]
    refine ⟨h.blocks, List.pairwise_singleton _ _, fun p hp q hq heq => ?_⟩
    -- the block of the new patch is above those of the others
    obtain ⟨b, hdata, hlt⟩ := hstored.owned p hp
    obtain ⟨c, hfresh, hle⟩ := hadd.block
    rw [List.mem_singleton.mp hq, hdata, hfresh] at heq
    cases heq
    omega

/-! ## Deletions -/

section Bounds

variable {α : Type}

/-- A running minimum is below its start and below what it saw. -/
theorem foldl_low_le (f : α → U64) (l : List α) : ∀ low : U64,
    let m := l.foldl (fun low a => if f a < low then f a else low) low
    m ≤ low ∧ ∀ a ∈ l, m ≤ f a := by
  induction l with
  | nil =>
    intro low
    exact ⟨BitVec.le_refl low, fun a ha => absurd ha List.not_mem_nil⟩
  | cons b rest ih =>
    intro low
    obtain ⟨hlow, hrest⟩ := ih (if f b < low then f b else low)
    have hstep : (if f b < low then f b else low) ≤ low ∧
        (if f b < low then f b else low) ≤ f b := by
      split_ifs with hlt
      · exact ⟨BitVec.le_of_lt hlt, BitVec.le_refl _⟩
      · exact ⟨BitVec.le_refl _, BitVec.not_lt.mp hlt⟩
    refine ⟨BitVec.le_trans hlow hstep.1, fun a ha => ?_⟩
    rcases List.mem_cons.mp ha with rfl | ha
    · exact BitVec.le_trans hlow hstep.2
    · exact hrest a ha

/-- A running maximum is above its start and above what it saw. -/
theorem le_foldl_high (f : α → U64) (l : List α) : ∀ high : U64,
    let m := l.foldl (fun high a => if high < f a then f a else high) high
    high ≤ m ∧ ∀ a ∈ l, f a ≤ m := by
  induction l with
  | nil =>
    intro high
    exact ⟨BitVec.le_refl high, fun a ha => absurd ha List.not_mem_nil⟩
  | cons b rest ih =>
    intro high
    obtain ⟨hhigh, hrest⟩ := ih (if high < f b then f b else high)
    have hstep : high ≤ (if high < f b then f b else high) ∧
        f b ≤ (if high < f b then f b else high) := by
      split_ifs with hlt
      · exact ⟨BitVec.le_of_lt hlt, BitVec.le_refl _⟩
      · exact ⟨BitVec.le_refl _, BitVec.not_lt.mp hlt⟩
    refine ⟨BitVec.le_trans hstep.1 hhigh, fun a ha => ?_⟩
    rcases List.mem_cons.mp ha with rfl | ha
    · exact BitVec.le_trans hstep.2 hhigh
    · exact hrest a ha

end Bounds

/-- **`mm_rebuild_patch_bounds`** covers all patches. -/
theorem mmRebuildPatchBounds_bounds {mgr : MemoryManager} {p : PatchEntry}
    (hp : p ∈ mgr.patches) (hsize : p.size ≠ 0) :
    (mmRebuildPatchBounds mgr).patchMinAddress ≤ p.address ∧
      p.last ≤ (mmRebuildPatchBounds mgr).patchMaxAddress := by
  have hmem : p ∈ mgr.patches.filter fun p => p.size != 0 :=
    List.mem_filter.mpr ⟨hp, bne_iff_ne.mpr hsize⟩
  constructor
  · have hlow := (foldl_low_le PatchEntry.address
      (mgr.patches.filter fun p => p.size != 0) (BitVec.allOnes 64)).2 p hmem
    simp only [mmRebuildPatchBounds]
    split_ifs with h
    · rw [BitVec.le_def]
      exact Nat.zero_le _
    · exact hlow
  · exact (le_foldl_high PatchEntry.last
      (mgr.patches.filter fun p => p.size != 0) 0).2 p hmem

/-- **A deletion** keeps the table. -/
theorem PatchTable.deleted {mgr : MemoryManager} (h : PatchTable mgr) (handle : U64) :
    PatchTable (mmDelPatch mgr handle).2 := by
  rw [mmDelPatch]
  split_ifs with hzero
  · exact h
  cases hfind : mgr.patches.find? fun p => p.handle == handle with
  | none => exact h
  | some patch =>
    have hsub : (mgr.patches.eraseP fun p => p.handle == handle).Sublist mgr.patches :=
      List.eraseP_sublist
    exact
      { shape := fun p hp => h.shape p (hsub.subset hp)
        apart := h.apart.sublist hsub
        bounds := fun p hp => mmRebuildPatchBounds_bounds hp (h.shape p (hsub.subset hp)).1
        blocks := h.blocks.sublist hsub }

/-! ## Runs -/

variable {isa : InstructionSet}

/-- Accesses leave the table alone. -/
theorem PatchTable.frame {mgr mgr' : MemoryManager} (h : PatchTable mgr)
    (hframe : MemoryFrame mgr mgr') : PatchTable mgr' := by
  refine h.congr ?_ ⟨?_, ?_⟩
  · rw [hframe.same]
  · rw [hframe.same]
  · rw [hframe.same]

/-- **A call** keeps the table. -/
theorem patchTable_call {mgr : MemoryManager} (hm : MemoryOk mgr) (h : PatchTable mgr)
    (call : MemoryCall) : PatchTable (memoryCall mgr call) := by
  cases call with
  | layout call =>
    have hchange := layoutStep_change hm.manager call
    exact h.congr hchange.patches_eq hchange.bounds_eq
  | setHostPassthrough perms enabled => exact h.congr rfl ⟨rfl, rfl⟩
  | addPatch address bytes size =>
    rcases mmAddPatch_cases (fun p hp => (h.shape p hp).1) address bytes size with
      ⟨-, hkept⟩ | ⟨-, patch, -, -, hadd⟩
    · exact h.kept hkept
    · exact h.added hm.patches hadd
  | delPatch handle => exact h.deleted handle
  | write address bytes size =>
    have hwrite := h.frame (memWriteLoop_frame address bytes size.toNat 0 mgr)
    show PatchTable (if size ≠ 0 then mmBumpCodeVersion (memWriteRaw mgr address bytes size).2
      else (memWriteRaw mgr address bytes size).2)
    split_ifs
    · exact hwrite.congr rfl ⟨rfl, rfl⟩
    · exact hwrite

/-- **One event** keeps the table. -/
theorem patchTable_look {engine : Engine} (hm : MemoryOk engine.cpu.memory)
    (h : PatchTable engine.cpu.memory) (event : LookupEvent) :
    PatchTable (engine.look isa event).cpu.memory := by
  cases event with
  | query address =>
    obtain ⟨-, cache, heq, -⟩ := mmQuery_spec hm.manager hm.cache address
    show PatchTable (mmQuery engine.cpu.memory address).2
    rw [heq]
    exact h.congr rfl ⟨rfl, rfl⟩
  | access address perm => exact h.frame (mmGetPtrChecked_frame _ address perm)
  | engine event =>
    cases event with
    | step => exact h.frame (Engine.step_stepped hm).memory
    | hookedStep => exact h.frame (Engine.hookedStep_stepped hm).memory
    | memory call => exact patchTable_call hm h call
    | rawWrite address bytes size =>
      exact h.frame (memWriteLoop_frame address bytes size.toNat 0 engine.cpu.memory)
    | exceptionRaise code errorCode =>
      show PatchTable (if _ then _ else _ : Engine).cpu.memory
      split_ifs
      · exact h
      · exact h
    | regWrite | contextWrite | exceptionClear | setHooks | setEscapes => exact h

end Cpueaxh
