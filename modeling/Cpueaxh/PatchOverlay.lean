/-
# The overlay of patches

In host mode an access reaches the byte of the patch that covers its address, and the
byte of the table or of the host process where no patch does.  Operands of any size are
taken apart into bytes, so they are right at every cut by the edge of a patch.
-/
import Cpueaxh.PatchTable

namespace Cpueaxh

open HostMemory Transition

/-! ## Reads of the host program -/

/-- `mm_read_byte_checked`: the status, and the byte if it may be read. -/
def mmReadByteChecked (mgr : MemoryManager) (address : U64) (perm : U32) :
    (MmAccessStatus × U8) × MemoryManager :=
  match mmGetPtrChecked mgr address perm with
  | (result, mgr) =>
    match result.status with
    | .ok => ((.ok, (mgr.host.read result.ptr).getD 0), mgr)
    | status => ((status, 0), mgr)

/-- The loop of `cpueaxh_mem_read_raw`, with the number of bytes that are left: the status
and the bytes that it stores. -/
def memReadLoop (address : U64) :
    ℕ → U64 → MemoryManager → (MmAccessStatus × List U8) × MemoryManager
  | 0, _, mgr => ((.ok, []), mgr)
  | left + 1, index, mgr =>
    match mmReadByteChecked mgr (address + index) mmProtRead with
    | ((.ok, byte), mgr) =>
      match memReadLoop address left (index + 1) mgr with
      | ((status, bytes), mgr) => ((status, byte :: bytes), mgr)
    | ((status, _), mgr) => ((status, []), mgr)

/-- `cpueaxh_mem_read_raw`. -/
def memReadRaw (mgr : MemoryManager) (address size : U64) :
    (MmAccessStatus × List U8) × MemoryManager :=
  memReadLoop address size.toNat 0 mgr

/-! ## The byte behind an address -/

/-- The pointer to the byte under the patches: of the table, or of the host process. -/
def underlyingPtr (mgr : MemoryManager) (address : U64) : Option HostPtr :=
  (pageEntry mgr address).map fun entry => (entry.info address).ptr

/-- The byte under the patches. -/
def underlyingByte (mgr : MemoryManager) (address : U64) : Option U8 :=
  (underlyingPtr mgr address).bind mgr.host.read

/-- The pointer to the byte of the patch that covers the address, or to the byte under
the patches where none does. -/
def OverlayPtr (mgr : MemoryManager) (address : U64) (ptr : HostPtr) : Prop :=
  (∃ p ∈ mgr.patches, p.covers address = true ∧ ptr = p.byteAt address) ∨
    ((∀ p ∈ mgr.patches, ¬ p.covers address = true) ∧ underlyingPtr mgr address = some ptr)

/-- The addresses of the bytes of an operand. -/
def operandAddresses (address : U64) : ℕ → U64 → List U64
  | 0, _ => []
  | left + 1, offset => (address + offset) :: operandAddresses address left (offset + 1)

/-- The pointers to the bytes of an operand. -/
abbrev OverlayPtrs (mgr : MemoryManager) (address : U64) (size : ℕ) (offset : U64)
    (ptrs : List HostPtr) : Prop :=
  List.Forall₂ (OverlayPtr mgr) (operandAddresses address size offset) ptrs

/-- The memory manager is in host mode. -/
def HostMode (mgr : MemoryManager) : Prop := mmHostPassthroughPerms mgr ≠ 0

variable {mgr mgr' : MemoryManager}

/-- The overlay depends on the patches, the regions and the flags only. -/
theorem OverlayPtr.congr (hpatches : mgr'.patches = mgr.patches)
    (hregions : mgr'.regions = mgr.regions)
    (hperms : mmHostPassthroughPerms mgr' = mmHostPassthroughPerms mgr) {address : U64}
    {ptr : HostPtr} : OverlayPtr mgr' address ptr ↔ OverlayPtr mgr address ptr := by
  unfold OverlayPtr underlyingPtr
  rw [hpatches, pageEntry_congr hregions hperms]

/-- **An access** that is granted gets the pointer of the overlay. -/
theorem accessView_overlay (h : PatchTable mgr) (hhost : HostMode mgr) {address : U64}
    {perm : U32} (hok : (accessView mgr address perm).status = .ok) :
    OverlayPtr mgr address (accessView mgr address perm).ptr := by
  unfold accessView at hok ⊢
  cases hentry : pageEntry mgr address with
  | none =>
    rw [hentry] at hok
    cases hok
  | some entry =>
    rw [hentry] at hok
    simp only [Option.map_some, checkInfo] at hok ⊢
    split_ifs at hok ⊢ with hperm hsome
    · cases hfind : mmFindPatch mgr address with
      | some patch =>
        obtain ⟨hmem, hcovers⟩ := (h.find_iff address patch).mp hfind
        exact Or.inl ⟨patch, hmem, hcovers, rfl⟩
      | none =>
        refine Or.inr ⟨fun p hp hcovers => ?_, ?_⟩
        · rw [(h.find_iff address p).mpr ⟨hp, hcovers⟩] at hfind
          cases hfind
        · rw [underlyingPtr, hentry]
          rfl
    · -- there are no patches
      have hnil : mgr.patches = [] := by
        simp only [Bool.and_eq_true, bne_iff_ne, ne_eq, not_and, not_not] at hsome
        by_contra hne
        exact hhost (hsome fun hlen => hne (List.length_eq_zero_iff.mp hlen))
      refine Or.inr ⟨fun p hp => ?_, ?_⟩
      · rw [hnil] at hp
        exact absurd hp List.not_mem_nil
      · rw [underlyingPtr, hentry]
        rfl

/-! ## Storage -/

/-- The byte of a patch is in the block of the patch. -/
theorem PatchEntry.byteAt_heap {patch : PatchEntry} {block : ℕ}
    (h : patch.data = .heap block 0) (address : U64) :
    patch.byteAt address = .heap block (address - patch.address) := by
  simp [PatchEntry.byteAt, h, HostPtr.add]

/-- A byte under the patches in a block of the manager belongs to a region. -/
theorem underlyingPtr_region (hm : MemoryOk mgr) {address : U64} {block : ℕ} {offset : U64}
    (h : underlyingPtr mgr address = some (.heap block offset)) :
    ∃ region ∈ mgr.regions, region.external = false ∧ region.data = .heap block 0 := by
  obtain ⟨entry, hentry, hptr⟩ := Option.map_eq_some_iff.mp h
  obtain ⟨o, hpage⟩ := HostPtr.add_eq_heap hptr
  unfold pageEntry at hentry
  cases hr : mmFindRegion mgr address with
  | none =>
    simp only [hr, Option.ite_none_right_eq_some, Option.some.injEq] at hentry
    obtain ⟨-, rfl⟩ := hentry
    cases hpage
  | some region =>
    simp only [hr, Option.some.injEq] at hentry
    subst hentry
    obtain ⟨o', hdata⟩ := HostPtr.add_eq_heap hpage
    rw [mmFindRegion_eq_lookup hm.manager.table.arranged] at hr
    have hmem := (IntervalTable.lookup_sound hr).1
    have hstored := hm.manager.stored region hmem
    cases hext : region.external with
    | true =>
      obtain ⟨a, ha⟩ := hstored.shared hext
      rw [hdata] at ha
      cases ha
    | false =>
      obtain ⟨c, b, hc, -, -, -⟩ := hstored.owned hext
      refine ⟨region, hmem, hext, ?_⟩
      rw [hdata] at hc
      cases hc
      exact hdata

/-- **The bytes of a patch** are apart from those under the patches. -/
theorem byteAt_ne_underlying (hm : MemoryOk mgr) {p : PatchEntry} (hp : p ∈ mgr.patches)
    (address b : U64) : underlyingPtr mgr b ≠ some (p.byteAt address) := by
  intro heq
  obtain ⟨block, hdata, -⟩ := hm.patches.owned p hp
  rw [p.byteAt_heap hdata] at heq
  obtain ⟨region, hregion, hext, hblock⟩ := underlyingPtr_region hm heq
  exact hm.patches.distinct p hp region hregion hext (hblock.trans hdata.symm)

/-- **The bytes of a patch** are apart from each other and from those of other patches. -/
theorem byteAt_inj (hm : MemoryOk mgr) (h : PatchTable mgr) {p q : PatchEntry}
    (hp : p ∈ mgr.patches) (hq : q ∈ mgr.patches) {a b : U64}
    (heq : p.byteAt a = q.byteAt b) : p = q ∧ a = b := by
  obtain ⟨block, hdata, -⟩ := hm.patches.owned p hp
  obtain ⟨block', hdata', -⟩ := hm.patches.owned q hq
  rw [p.byteAt_heap hdata, q.byteAt_heap hdata'] at heq
  obtain ⟨rfl, hoffset⟩ := HostPtr.heap.inj heq
  have hpq : p = q := by
    by_contra hne
    have : Std.Symm fun p q : PatchEntry => p.data ≠ q.data := ⟨fun _ _ h => h.symm⟩
    exact h.blocks.forall hp hq hne (hdata.trans hdata'.symm)
  subst hpq
  exact ⟨rfl, by bv_omega⟩

/-! ## Reads -/

/-- **A read of the host program** that succeeds has the bytes of the overlay. -/
theorem memReadLoop_overlay (address : U64) (left : ℕ) : ∀ (index : U64) (mgr : MemoryManager),
    MemoryOk mgr → PatchTable mgr → HostMode mgr →
    (memReadLoop address left index mgr).1.1 = .ok →
    ∃ ptrs, OverlayPtrs mgr address left index ptrs ∧
      (memReadLoop address left index mgr).1.2 = ptrs.map fun p => (mgr.host.read p).getD 0 := by
  induction left with
  | zero =>
    intro index mgr _ _ _ _
    exact ⟨[], .nil, rfl⟩
  | succ left ih =>
    intro index mgr hm htable hhost hok
    obtain ⟨hview, cache, hsnd, hc⟩ :=
      mmGetPtrChecked_spec hm.manager hm.cache (address + index) mmProtRead
    unfold memReadLoop mmReadByteChecked at hok ⊢
    rcases hget : mmGetPtrChecked mgr (address + index) mmProtRead with ⟨result, mgr₁⟩
    rw [hget] at hview hsnd
    simp only at hview hsnd
    subst hview hsnd
    simp only [hget] at hok ⊢
    cases hstatus : (accessView mgr (address + index) mmProtRead).status with
    | unmapped =>
      simp only [hstatus] at hok
      cases hok
    | prot =>
      simp only [hstatus] at hok
      cases hok
    | ok =>
      simp only [hstatus] at hok ⊢
      obtain ⟨ptrs, hptrs, hbytes⟩ := ih (index + 1) (mgr.setCache cache) (hm.setCache hc)
        (htable.congr rfl ⟨rfl, rfl⟩) hhost hok
      refine ⟨_ :: ptrs, .cons (accessView_overlay htable hhost hstatus) hptrs, ?_⟩
      rw [hbytes]
      rfl

variable {cpu : Cpu}

/-- The pointer of a guest access is that of the overlay. -/
theorem dataPtr_overlay (h : PatchTable cpu.memory) (hhost : HostMode cpu.memory) {store : Bool}
    {address : U64} {ptr : HostPtr} (hptr : cpu.dataPtr store address = some ptr) :
    OverlayPtr cpu.memory address ptr := by
  unfold Cpu.dataPtr grantedPtr at hptr
  split_ifs at hptr
  generalize hview : accessView cpu.memory address (dataAccess store).perm = view at hptr
  unfold judgeAccess at hptr
  cases hstatus : view.status with
  | unmapped =>
    rw [hstatus] at hptr
    cases hptr
  | prot =>
    rw [hstatus] at hptr
    cases hptr
  | ok =>
    rw [hstatus] at hptr
    by_cases huser : cpu.context.isUser = true ∧ view.cpuAttrs &&& mmCpuAttrUser = 0
    · simp only [huser, and_self, if_true] at hptr
      cases hptr
    · simp only [huser, if_false] at hptr
      obtain rfl := Option.some.inj hptr
      subst hview
      exact accessView_overlay h hhost hstatus

/-- The pointers of a guest operand are those of the overlay. -/
theorem operandPtrs_overlay (h : PatchTable cpu.memory) (hhost : HostMode cpu.memory)
    {store : Bool} {address : U64} (left : ℕ) : ∀ {offset : U64} {ptrs : List HostPtr},
    cpu.operandPtrs store address left offset = .ok ptrs →
    OverlayPtrs cpu.memory address left offset ptrs := by
  induction left with
  | zero =>
    intro offset ptrs hptrs
    obtain rfl := Except.ok.inj hptrs
    exact .nil
  | succ left ih =>
    intro offset ptrs hptrs
    unfold Cpu.operandPtrs at hptrs
    cases hfirst : cpu.dataPtr store (address + offset) with
    | none =>
      rw [hfirst] at hptrs
      cases hptrs
    | some p =>
      rw [hfirst] at hptrs
      cases hrest : cpu.operandPtrs store address left (offset + 1) with
      | error a =>
        rw [hrest] at hptrs
        cases hptrs
      | ok rest =>
        rw [hrest] at hptrs
        obtain rfl := Except.ok.inj hptrs
        exact .cons (dataPtr_overlay h hhost hfirst) (ih hrest)

/-- **A load of the guest** that is not refused has the bytes of the overlay. -/
theorem readMemory_overlay (hm : MemoryOk cpu.memory) (htable : PatchTable cpu.memory)
    (hhost : HostMode cpu.memory) (hexc : cpu.context.hasException = false) {size : ℕ}
    (hsize : 0 < size) (address : U64)
    (hdone : ((readMemory size address).run cpuOp cpu).2.context.hasException = false) :
    ∃ ptrs, OverlayPtrs cpu.memory address size 0 ptrs ∧
      ((readMemory size address).run cpuOp cpu).1 = loadValue cpu.memory.host ptrs := by
  obtain ⟨hvalue, hstate⟩ := run_viewOp (readMemory size address) hm
  have hcontext := congrArg Cpu.context hstate.eq
  rw [run_readMemory hm.manager hexc hsize] at hvalue hcontext
  rw [hvalue]
  cases hptrs : cpu.operandPtrs false address size 0 with
  | ok ptrs => exact ⟨ptrs, operandPtrs_overlay htable hhost size hptrs, rfl⟩
  | error a =>
    rw [hptrs] at hcontext
    have hrefused := refused_hasException hexc (operandPtrs_error size hptrs)
    rw [show (cpu.refused false a).context = _ from hcontext] at hrefused
    rw [← Bool.not_eq_true] at hdone
    exact absurd hrefused hdone

/-! ## Writes -/

/-- The bytes of the host memory changed at most through the overlay of some addresses. -/
def OnlyThrough (mgr : MemoryManager) (addresses : List U64) (host : HostMemory) : Prop :=
  ∀ ptr, (∀ a ∈ addresses, ¬ OverlayPtr mgr a ptr) → host.read ptr = mgr.host.read ptr

/-- **A write of the host program** stores through the overlay, whether it succeeds or not. -/
theorem memWriteLoop_only (address : U64) (bytes : U64 → U8) (left : ℕ) :
    ∀ (index : U64) (mgr : MemoryManager), MemoryOk mgr → PatchTable mgr → HostMode mgr →
    OnlyThrough mgr (operandAddresses address left index)
      (memWriteLoop address bytes left index mgr).2.host := by
  induction left with
  | zero =>
    intro index mgr _ _ _ ptr _
    rfl
  | succ left ih =>
    intro index mgr hm htable hhost ptr hptr
    obtain ⟨hview, cache, hsnd, hc⟩ :=
      mmGetPtrChecked_spec hm.manager hm.cache (address + index) mmProtWrite
    unfold memWriteLoop mmWriteByteChecked
    rcases hget : mmGetPtrChecked mgr (address + index) mmProtWrite with ⟨result, mgr₁⟩
    rw [hget] at hview hsnd
    simp only at hview hsnd
    subst hview hsnd
    cases hstatus : (accessView mgr (address + index) mmProtWrite).status with
    | unmapped =>
      simp only [hstatus]
      rfl
    | prot =>
      simp only [hstatus]
      rfl
    | ok =>
      simp only [hstatus]
      have hm₁ := (hm.setCache hc).write (accessView mgr (address + index) mmProtWrite).ptr
        (bytes index)
      rw [ih (index + 1) _ hm₁ (htable.congr rfl ⟨rfl, rfl⟩) hhost ptr fun a ha =>
        hptr a (List.mem_cons_of_mem _ ha)]
      -- the byte itself is stored through the overlay of its address
      have hne : ptr ≠ (accessView mgr (address + index) mmProtWrite).ptr := by
        rintro rfl
        exact hptr _ List.mem_cons_self (accessView_overlay htable hhost hstatus)
      show (mgr.host.write _ _).read ptr = mgr.host.read ptr
      rw [read_write, if_neg hne]

/-- Every pointer to an operand is one to a byte of it. -/
theorem mem_of_overlayPtrs {addresses : List U64} {ptrs : List HostPtr}
    (h : List.Forall₂ (OverlayPtr mgr) addresses ptrs) {ptr : HostPtr} (hptr : ptr ∈ ptrs) :
    ∃ a ∈ addresses, OverlayPtr mgr a ptr := by
  induction h with
  | nil => exact absurd hptr List.not_mem_nil
  | @cons a p _ _ hfirst _ ih =>
    rcases List.mem_cons.mp hptr with rfl | hptr
    · exact ⟨a, List.mem_cons_self, hfirst⟩
    · obtain ⟨b, hb, hover⟩ := ih hptr
      exact ⟨b, List.mem_cons_of_mem a hb, hover⟩

/-- **A store of the guest** stores through the overlay, whether it is refused or not. -/
theorem writeMemory_only (hm : MemoryOk cpu.memory) (htable : PatchTable cpu.memory)
    (hhost : HostMode cpu.memory) (hexc : cpu.context.hasException = false) {size : ℕ}
    (hsize : 0 < size) (address value : U64) :
    OnlyThrough cpu.memory (operandAddresses address size 0)
      ((writeMemory size address value).run cpuOp cpu).2.memory.host := by
  obtain ⟨-, hstate⟩ := run_viewOp (writeMemory size address value) hm
  have hbytes : ((writeMemory size address value).run viewOp cpu).2.memory.host =
      ((writeMemory size address value).run cpuOp cpu).2.memory.host := by
    rw [hstate.eq]
    rfl
  intro ptr hptr
  rw [← hbytes, run_writeMemory hm.manager hexc hsize]
  cases hptrs : cpu.operandPtrs true address size 0 with
  | error a => rfl
  | ok ptrs =>
    refine read_storeBytes ptrs _ _ fun hmem => ?_
    obtain ⟨a, ha, hover⟩ := mem_of_overlayPtrs (operandPtrs_overlay htable hhost size hptrs) hmem
    exact hptr a ha hover

/-- All these addresses are covered by patches. -/
def Covered (mgr : MemoryManager) (addresses : List U64) : Prop :=
  ∀ a ∈ addresses, ∃ p ∈ mgr.patches, p.covers a = true

/-- The overlay of a covered address is a byte of a patch. -/
theorem OverlayPtr.of_covered {address : U64} {ptr : HostPtr} (h : OverlayPtr mgr address ptr)
    (hcovered : ∃ p ∈ mgr.patches, p.covers address = true) :
    ∃ p ∈ mgr.patches, p.covers address = true ∧ ptr = p.byteAt address := by
  refine h.resolve_right ?_
  rintro ⟨hnone, -⟩
  obtain ⟨p, hp, hcovers⟩ := hcovered
  exact hnone p hp hcovers

/-- What a store to covered addresses leaves alone: all bytes under the patches, and the
bytes of patches for other addresses. -/
structure StoresPatches (mgr mgr' : MemoryManager) (addresses : List U64) : Prop where
  underlying : ∀ b, underlyingByte mgr' b = underlyingByte mgr b
  others : ∀ p ∈ mgr.patches, ∀ b ∉ addresses,
    mgr'.host.read (p.byteAt b) = mgr.host.read (p.byteAt b)

/-- **A store to covered addresses** changes only the bytes of the patches. -/
theorem OnlyThrough.storesPatches (hm : MemoryOk mgr) (htable : PatchTable mgr)
    {addresses : List U64} (hcovered : Covered mgr addresses) (hframe : MemoryFrame mgr mgr')
    (h : OnlyThrough mgr addresses mgr'.host) : StoresPatches mgr mgr' addresses where
  underlying b := by
    have hptr : underlyingPtr mgr' b = underlyingPtr mgr b := by
      rw [hframe.same]
      rfl
    unfold underlyingByte
    rw [hptr]
    cases hb : underlyingPtr mgr b with
    | none => rfl
    | some ptr =>
      refine h ptr fun a ha hover => ?_
      obtain ⟨p, hp, -, rfl⟩ := hover.of_covered (hcovered a ha)
      exact byteAt_ne_underlying hm hp a b hb
  others p hp b hb := by
    refine h _ fun a ha hover => ?_
    obtain ⟨q, hq, -, heq⟩ := hover.of_covered (hcovered a ha)
    obtain ⟨-, rfl⟩ := byteAt_inj hm htable hp hq heq
    exact hb ha

/-! ## Additions and deletions -/

/-- The bytes under the patches stay when the blocks of the regions do. -/
theorem underlyingByte_congr (hm : MemoryOk mgr) (hregions : mgr'.regions = mgr.regions)
    (hperms : mmHostPassthroughPerms mgr' = mmHostPassthroughPerms mgr)
    (huser : mgr'.host.user = mgr.host.user)
    (hblocks : ∀ region ∈ mgr.regions, region.external = false → ∀ block,
      region.data = .heap block 0 → mgr'.host.blocks block = mgr.host.blocks block) (b : U64) :
    underlyingByte mgr' b = underlyingByte mgr b := by
  have hptr : underlyingPtr mgr' b = underlyingPtr mgr b := by
    unfold underlyingPtr
    rw [pageEntry_congr hregions hperms]
  unfold underlyingByte
  rw [hptr]
  cases hb : underlyingPtr mgr b with
  | none => rfl
  | some ptr =>
    refine read_congr huser fun block offset heq => ?_
    rw [heq] at hb
    obtain ⟨region, hregion, hext, hdata⟩ := underlyingPtr_region hm hb
    exact hblocks region hregion hext block hdata

/-- What the addition of a patch does to the overlay. -/
structure OverlayAdded (mgr mgr' : MemoryManager) (address : U64) (bytes : U64 → U8)
    (size : U64) : Prop where
  underlying : ∀ b, underlyingByte mgr' b = underlyingByte mgr b
  others : ∀ p ∈ mgr.patches, p ∈ mgr'.patches ∧
    ∀ b, mgr'.host.read (p.byteAt b) = mgr.host.read (p.byteAt b)
  filled : ∀ offset < size, ∃ ptr, OverlayPtr mgr' (address + offset) ptr ∧
    mgr'.host.read ptr = some (bytes offset)

/-- **An addition** shows the new bytes and leaves the others. -/
theorem PatchAdded.overlay (hm : MemoryOk mgr) {patch : PatchEntry} {bytes : U64 → U8}
    (h : PatchAdded mgr mgr' patch bytes) :
    OverlayAdded mgr mgr' patch.address bytes patch.size where
  underlying := by
    refine underlyingByte_congr hm h.rest.1 h.rest.2 h.agrees.user_eq ?_
    intro region hregion hext block hdata
    exact h.agrees.blocks_eq block ((hm.manager.stored region hregion).block_lt hdata)
  others p hp := by
    refine ⟨?_, fun b => h.agrees.read_eq fun block offset heq => ?_⟩
    · rw [h.patches_eq]
      exact List.mem_append_left _ hp
    · obtain ⟨c, hdata, hlt⟩ := hm.patches.owned p hp
      rw [p.byteAt_heap hdata] at heq
      cases heq
      exact hlt
  filled offset hlt := by
    refine ⟨patch.byteAt (patch.address + offset), Or.inl ⟨patch, ?_, ?_, rfl⟩, ?_⟩
    · rw [h.patches_eq]
      exact List.mem_append_right _ List.mem_cons_self
    · obtain ⟨hsize, hfits⟩ := h.shape
      rw [PatchEntry.covers_iff]
      unfold PatchEntry.last at hfits ⊢
      refine ⟨hsize, ?_, ?_⟩ <;> bv_omega
    · have hoffset : patch.address + offset - patch.address = offset := by bv_omega
      rw [PatchEntry.byteAt, hoffset]
      exact h.filled offset hlt

/-- What is left when the entries with one key are erased, if the keys are distinct. -/
theorem mem_eraseP_iff {α β : Type} [DecidableEq β] {key : α → β} {b : β} {l : List α}
    (h : l.Pairwise fun p q => key p ≠ key q) {q : α} :
    q ∈ l.eraseP (fun p => key p == b) ↔ q ∈ l ∧ key q ≠ b := by
  induction l with
  | nil => simp
  | cons p rest ih =>
    obtain ⟨hfirst, hrest⟩ := List.pairwise_cons.mp h
    by_cases hp : key p = b
    · rw [List.eraseP_cons_of_pos (by simp [hp])]
      constructor
      · intro hq
        refine ⟨List.mem_cons_of_mem p hq, fun hb => hfirst q hq ?_⟩
        rw [hp, hb]
      · rintro ⟨hq, hne⟩
        rcases List.mem_cons.mp hq with rfl | hq
        · exact absurd hp hne
        · exact hq
    · rw [List.eraseP_cons_of_neg (by simp [hp]), List.mem_cons, List.mem_cons, ih hrest]
      constructor
      · rintro (rfl | ⟨hq, hne⟩)
        · exact ⟨Or.inl rfl, hp⟩
        · exact ⟨Or.inr hq, hne⟩
      · rintro ⟨rfl | hq, hne⟩
        · exact Or.inl rfl
        · exact Or.inr ⟨hq, hne⟩

/-- What the deletion of a patch does to the overlay. -/
structure OverlayDeleted (mgr mgr' : MemoryManager) (patch : PatchEntry) : Prop where
  patches : ∀ q, q ∈ mgr'.patches ↔ q ∈ mgr.patches ∧ q ≠ patch
  underlying : ∀ b, underlyingByte mgr' b = underlyingByte mgr b
  others : ∀ q ∈ mgr'.patches, ∀ b, mgr'.host.read (q.byteAt b) = mgr.host.read (q.byteAt b)
  reappears : ∀ b, patch.covers b = true → ∀ ptr, OverlayPtr mgr' b ptr →
    underlyingPtr mgr b = some ptr

/-- The regions and the flags stay when a patch is deleted. -/
theorem mmDelPatch_rest (mgr : MemoryManager) (handle : U64) :
    (mmDelPatch mgr handle).2.regions = mgr.regions ∧
      mmHostPassthroughPerms (mmDelPatch mgr handle).2 = mmHostPassthroughPerms mgr := by
  unfold mmDelPatch
  split_ifs
  · exact ⟨rfl, rfl⟩
  · cases mgr.patches.find? fun p => p.handle == handle with
    | none => exact ⟨rfl, rfl⟩
    | some patch => exact ⟨rfl, rfl⟩

/-- A deletion frees the block of a patch at most. -/
theorem mmDelPatch_host (hm : MemoryOk mgr) (handle : U64) :
    (mmDelPatch mgr handle).2.host.user = mgr.host.user ∧
      ∀ block, (∀ p ∈ mgr.patches, p.data ≠ .heap block 0) →
        (mmDelPatch mgr handle).2.host.blocks block = mgr.host.blocks block := by
  unfold mmDelPatch
  split_ifs
  · exact ⟨rfl, fun _ _ => rfl⟩
  · cases hfind : mgr.patches.find? fun p => p.handle == handle with
    | none => exact ⟨rfl, fun _ _ => rfl⟩
    | some patch =>
      have hp := List.mem_of_find?_eq_some hfind
      obtain ⟨c, hdata, -⟩ := hm.patches.owned patch hp
      show (mgr.host.free patch.data).user = mgr.host.user ∧
        ∀ block, _ → (mgr.host.free patch.data).blocks block = mgr.host.blocks block
      rw [hdata]
      refine ⟨rfl, fun block hne => Function.update_of_ne ?_ _ _⟩
      rintro rfl
      exact hne patch hp hdata

/-- **A deletion** leaves the bytes under the patches, whatever it deletes. -/
theorem mmDelPatch_underlying (hm : MemoryOk mgr) (handle b : U64) :
    underlyingByte (mmDelPatch mgr handle).2 b = underlyingByte mgr b := by
  obtain ⟨hregions, hperms⟩ := mmDelPatch_rest mgr handle
  obtain ⟨huser, hblocks⟩ := mmDelPatch_host hm handle
  refine underlyingByte_congr hm hregions hperms huser (fun region hregion hext block hdata => ?_) b
  refine hblocks block fun p hp heq => ?_
  exact hm.patches.distinct p hp region hregion hext (hdata.trans heq.symm)

/-- **A deletion** removes the patch of the handle, and what is under it reappears. -/
theorem mmDelPatch_overlay (hm : MemoryOk mgr) (htable : PatchTable mgr)
    (hhandles : mgr.patches.Pairwise fun p q => p.handle ≠ q.handle) {patch : PatchEntry}
    (hp : patch ∈ mgr.patches) (hzero : patch.handle ≠ 0) :
    OverlayDeleted mgr (mmDelPatch mgr patch.handle).2 patch := by
  have : Std.Symm fun p q : PatchEntry => p.handle ≠ q.handle := ⟨fun _ _ h => h.symm⟩
  have hsome : (mgr.patches.find? fun p => p.handle == patch.handle).isSome = true :=
    List.find?_isSome.mpr ⟨patch, hp, beq_self_eq_true _⟩
  obtain ⟨found, hfind⟩ := Option.isSome_iff_exists.mp hsome
  have hfound : found = patch := by
    have hkey := List.find?_some (p := fun p : PatchEntry => p.handle == patch.handle) hfind
    by_contra hne
    exact hhandles.forall (List.mem_of_find?_eq_some hfind) hp hne (eq_of_beq hkey)
  subst hfound
  obtain ⟨block, hdata, -⟩ := hm.patches.owned found hp
  have hpatches : ∀ q, q ∈ (mmDelPatch mgr found.handle).2.patches ↔
      q ∈ mgr.patches ∧ q ≠ found := by
    intro q
    rw [mmDelPatch, if_neg hzero, hfind]
    show q ∈ mgr.patches.eraseP (fun p => p.handle == found.handle) ↔ _
    rw [mem_eraseP_iff hhandles]
    refine and_congr_right fun hq => ⟨fun h heq => h (heq ▸ rfl), fun hne => ?_⟩
    exact hhandles.forall hq hp hne
  refine ⟨hpatches, mmDelPatch_underlying hm found.handle, fun q hq b => ?_, ?_⟩
  · obtain ⟨hq, hne⟩ := (hpatches q).mp hq
    obtain ⟨c, hdata', -⟩ := hm.patches.owned q hq
    have hblock : c ≠ block := by
      rintro rfl
      have : Std.Symm fun p q : PatchEntry => p.data ≠ q.data := ⟨fun _ _ h => h.symm⟩
      exact htable.blocks.forall hq hp hne (hdata'.trans hdata.symm)
    rw [mmDelPatch, if_neg hzero, hfind]
    show (mgr.host.free found.data).read _ = _
    rw [hdata, q.byteAt_heap hdata']
    simp [HostMemory.free, HostMemory.read, Function.update_of_ne hblock]
  · intro b hcovers ptr hover
    have hnone : ¬ ∃ q ∈ (mmDelPatch mgr found.handle).2.patches,
        q.covers b = true ∧ ptr = q.byteAt b := by
      rintro ⟨q, hq, hcq, -⟩
      obtain ⟨hq, hne⟩ := (hpatches q).mp hq
      exact hne (htable.unique hq hp hcq hcovers)
    obtain ⟨-, hptr⟩ := hover.resolve_left hnone
    obtain ⟨hregions, hperms⟩ := mmDelPatch_rest mgr found.handle
    unfold underlyingPtr at hptr ⊢
    rw [← pageEntry_congr hregions hperms]
    exact hptr

end Cpueaxh
