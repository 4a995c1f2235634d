/-
# Guest memory as a map of pages

The abstract state that the region table stands for: a function from pages to
page records, together with the bytes of the caller's memory.  A page either has
bytes of its own or names a page of the caller's memory, and carries permissions
and attributes.  The layout operations update the function one page at a time.

The second half reads the page map off the region table.
-/
import Cpueaxh.RegionStorage

namespace Cpueaxh

open IntervalTable HostMemory

/-! ## The abstract memory -/

/-- A page of the guest address space, named by its first address. -/
abbrev Page := { address : U64 // mmIsPageAligned address = true }

/-- The bytes of a page: its own, or those at an address of the caller's memory. -/
inductive PageStorage where
  | own (bytes : BitVec 12 → U8)
  | host (ptr : U64)

/-- What is known of a mapped page. -/
structure PageRecord where
  storage : PageStorage
  perms : U32
  cpuAttrs : U32

/-- The abstract memory: the caller's bytes and the record of each mapped page. -/
structure FlatMemory where
  user : U64 → U8
  page : Page → Option PageRecord

/-- The byte of a page at an offset. -/
def PageRecord.byte (user : U64 → U8) (record : PageRecord) (offset : BitVec 12) : U8 :=
  match record.storage with
  | .own bytes => bytes offset
  | .host ptr => user (ptr + offset.setWidth 64)

/-- The host pointer of a page that was mapped with one. -/
def PageRecord.hostPtr (record : PageRecord) : Option U64 :=
  match record.storage with
  | .own _ => none
  | .host ptr => some ptr

/-- The page lies in the range `[address, address + size)`, in the integers. -/
def Page.InRange (p : Page) (address size : U64) : Prop :=
  address.toNat ≤ p.1.toNat ∧ p.1.toNat < address.toNat + size.toNat

instance (p : Page) (address size : U64) : Decidable (p.InRange address size) :=
  inferInstanceAs (Decidable (_ ∧ _))

/-- Update one page. -/
def FlatMemory.updatePage (flat : FlatMemory) (p : U64)
    (f : Option PageRecord → Option PageRecord) : FlatMemory :=
  { flat with page := fun q => if q.1 = p then f (flat.page q) else flat.page q }

/-- Update `count` pages from an address on, one after the other. -/
def FlatMemory.updatePages (f : U64 → Option PageRecord → Option PageRecord) :
    ℕ → U64 → FlatMemory → FlatMemory
  | 0, _, flat => flat
  | count + 1, p, flat => updatePages f count (p + pageSize) (flat.updatePage p (f p))

/-- The page of an address. -/
def pageOf (address : U64) : Page :=
  ⟨alignDownPage address, by
    have h : alignDownPage address &&& (pageSize - 1) = 0 := by
      rw [alignDownPage, pageMask, BitVec.and_assoc, BitVec.and_comm (~~~(pageSize - 1)),
        BitVec.and_not_self]
      exact BitVec.and_zero
    rw [mmIsPageAligned, h]
    rfl⟩

/-- The offset of an address in its page. -/
def pageOffset (address : U64) : BitVec 12 := address.setWidth 12

/-- A store to the abstract memory. -/
def FlatMemory.store (flat : FlatMemory) (address : U64) (value : U8) : FlatMemory :=
  match flat.page (pageOf address) with
  | none => flat
  | some record =>
    match record.storage with
    | .own bytes =>
      flat.updatePage (pageOf address).1 fun _ =>
        some { record with storage := .own (Function.update bytes (pageOffset address) value) }
    | .host ptr =>
      { flat with
        user := Function.update flat.user (ptr + (pageOffset address).setWidth 64) value }

/-- The number of pages of a range. -/
def pageCount (size : U64) : ℕ := size.toNat / 4096

/-- A layout call on the abstract memory. -/
def FlatMemory.step (flat : FlatMemory) : LayoutCall → FlatMemory
  | .map address size perms =>
    flat.updatePages (fun _ _ => some ⟨.own fun _ => 0, perms, mmCpuAttrUser⟩)
      (pageCount size) address
  | .mapPtr address size perms hostPtr =>
    flat.updatePages (fun p _ => some ⟨.host (hostPtr + (p - address)), perms, mmCpuAttrUser⟩)
      (pageCount size) address
  | .unmap address size => flat.updatePages (fun _ _ => none) (pageCount size) address
  | .protect address size perms =>
    flat.updatePages (fun _ record => record.map ({ · with perms := perms }))
      (pageCount size) address
  | .setCpuAttrs address size attrs =>
    flat.updatePages (fun _ record => record.map ({ · with cpuAttrs := attrs }))
      (pageCount size) address

/-- An event on the abstract memory. -/
def FlatMemory.memoryStep (flat : FlatMemory) : MemoryEvent → FlatMemory
  | .layout call => flat.step call
  | .store address value => flat.store address value

/-! ## A range of pages at once -/

@[simp] theorem updatePage_page (flat : FlatMemory) (p : U64)
    (f : Option PageRecord → Option PageRecord) (q : Page) :
    (flat.updatePage p f).page q = if q.1 = p then f (flat.page q) else flat.page q := rfl

/-- Page by page, the updates reach exactly the pages of the range. -/
theorem updatePages_page (f : U64 → Option PageRecord → Option PageRecord) (count : ℕ) :
    ∀ (p : U64) (flat : FlatMemory) (q : Page), p.toNat % 4096 = 0 →
      p.toNat + count * 4096 ≤ 2 ^ 64 →
      (flat.updatePages f count p).page q =
        if p.toNat ≤ q.1.toNat ∧ q.1.toNat < p.toNat + count * 4096 then f q.1 (flat.page q)
        else flat.page q := by
  induction count with
  | zero =>
    intro p flat q _ _
    rw [FlatMemory.updatePages, if_neg (by omega)]
  | succ count ih =>
    intro p flat q hp hfits
    have hq := (mmIsPageAligned_iff q.1).mp q.2
    have hpage : (pageSize : U64).toNat = 4096 := rfl
    -- the first page is updated now, the others by the rest of the loop
    have hrest : ((flat.updatePage p (f p)).updatePages f count (p + pageSize)).page q =
        if p.toNat + 4096 ≤ q.1.toNat ∧ q.1.toNat < p.toNat + (count + 1) * 4096
        then f q.1 ((flat.updatePage p (f p)).page q)
        else (flat.updatePage p (f p)).page q := by
      by_cases hlast : count = 0
      · subst hlast
        rw [FlatMemory.updatePages, if_neg (by omega)]
      · have hnext : (p + pageSize).toNat = p.toNat + 4096 := by
          rw [BitVec.toNat_add, hpage]
          omega
        rw [ih _ _ q (by omega) (by omega), hnext]
        exact if_congr (by omega) rfl rfl
    rw [FlatMemory.updatePages, hrest, updatePage_page]
    by_cases heq : q.1 = p
    · have hnat : q.1.toNat = p.toNat := congrArg BitVec.toNat heq
      rw [if_pos heq, if_neg (by omega), if_pos (by omega), heq]
    · have hne : q.1.toNat ≠ p.toNat := fun h => heq (BitVec.eq_of_toNat_eq h)
      rw [if_neg heq]
      exact if_congr (by omega) rfl rfl

/-- The pages of an aligned range that is updated as a whole. -/
theorem updatePages_range (f : U64 → Option PageRecord → Option PageRecord)
    {address size : U64} (flat : FlatMemory) (q : Page) (haddr : address.toNat % 4096 = 0)
    (hsize : size.toNat % 4096 = 0) (hfits : address.toNat + size.toNat ≤ 2 ^ 64) :
    (flat.updatePages f (pageCount size) address).page q =
      if q.InRange address size then f q.1 (flat.page q) else flat.page q := by
  have hcount : pageCount size * 4096 = size.toNat := by
    rw [pageCount]
    omega
  rw [updatePages_page f _ _ _ _ haddr (by omega), hcount]
  rfl

theorem updatePages_user (f : U64 → Option PageRecord → Option PageRecord) (count : ℕ) :
    ∀ (p : U64) (flat : FlatMemory), (flat.updatePages f count p).user = flat.user := by
  induction count with
  | zero => intro p flat; rfl
  | succ count ih => intro p flat; exact ih _ _

/-! ## The page map of a region table -/

/-- The storage of the page at a host pointer. -/
def pageStorage (host : HostMemory) : HostPtr → PageStorage
  | .user address => .host address
  | .heap block offset =>
    .own fun i => (host.read (.heap block (offset + i.setWidth 64))).getD 0

/-- The record of a page inside a region. -/
def pageRecord (host : HostMemory) (r : MemoryRegion) (p : U64) : PageRecord :=
  { storage := pageStorage host (r.data.add (p - r.base)), perms := r.perms,
    cpuAttrs := r.cpuAttrs }

/-- The record that the manager has of a page. -/
def pageAt (mgr : MemoryManager) (p : Page) : Option PageRecord :=
  (mmFindRegion mgr p.1).map fun r => pageRecord mgr.host r p.1

/-- The abstract memory that a manager stands for. -/
def toFlat (mgr : MemoryManager) : FlatMemory :=
  { user := mgr.host.user, page := pageAt mgr }

/-- A record depends only on the block of the region. -/
theorem pageRecord_congr {host host' : HostMemory} {r : MemoryRegion} (p : U64)
    (hblock : ∀ b o, r.data = .heap b o → host'.blocks b = host.blocks b) :
    pageRecord host' r p = pageRecord host r p := by
  have hstorage : pageStorage host' (r.data.add (p - r.base)) =
      pageStorage host (r.data.add (p - r.base)) := by
    cases hd : r.data with
    | user a => rfl
    | heap b o =>
      have hread : ∀ x, host'.read (.heap b x) = host.read (.heap b x) := by
        intro x
        simp only [HostMemory.read, hblock b o hd]
      simp only [HostPtr.add, pageStorage, hread]
  simp only [pageRecord, hstorage]

/-- An aligned page inside an aligned range lies in it with all its bytes. -/
theorem page_offset_lt {p lo size : U64} {i : BitVec 12} (hp : p.toNat % 4096 = 0)
    (hlo : lo.toNat % 4096 = 0) (hsize : size.toNat % 4096 = 0) (hle : lo.toNat ≤ p.toNat)
    (hlt : p.toNat < lo.toNat + size.toNat) : p - lo + i.setWidth 64 < size := by
  have hi : (i.setWidth 64).toNat = i.toNat := by
    rw [BitVec.toNat_setWidth]
    have := i.isLt
    omega
  have hilt := i.isLt
  have hsub := toNat_sub_of_le hle
  have hslt := size.isLt
  rw [BitVec.lt_def, BitVec.toNat_add, hi, hsub]
  omega

/-- **Splitting moves bytes but does not change them.**  The page of a segment has
the storage that the page had in the source, and the permissions of the segment. -/
theorem SegmentOf.pageRecord_eq {n : ℕ} {host host' : HostMemory} {source r : MemoryRegion}
    {segment : Segment} (h : SegmentOf n host host' source segment r)
    (hstored : RegionStored host source) {p : U64} (hp : p.toNat % 4096 = 0)
    (hlo : segment.base.toNat % 4096 = 0) (hsize : segment.size.toNat % 4096 = 0)
    (hle : segment.base.toNat ≤ p.toNat)
    (hlt : p.toNat < segment.base.toNat + segment.size.toNat) :
    pageRecord host' r p =
      { pageRecord host source p with perms := segment.perms, cpuAttrs := segment.cpuAttrs } := by
  have hstorage : pageStorage host' (r.data.add (p - r.base)) =
      pageStorage host (source.data.add (p - source.base)) := by
    have hoffset : ∀ x : U64,
        segment.base - source.base + (p - segment.base + x) = p - source.base + x := by
      intro x
      have h1 : segment.base - source.base + (p - segment.base) = p - source.base := by
        bv_omega
      rw [← BitVec.add_assoc, h1]
    cases hext : source.external with
    | true =>
      obtain ⟨a, ha⟩ := hstored.shared hext
      have h0 : segment.base - source.base + (p - segment.base) = p - source.base := by
        bv_omega
      rw [h.shared hext, h.base_eq, HostPtr.add_add, h0, ha]
      rfl
    | false =>
      obtain ⟨c, blk, hc, -, -, -⟩ := hstored.owned hext
      obtain ⟨block, b, hb, -, -, hblocks, hbsize, hbytes⟩ := h.copied hext
      rw [hb, hc, h.base_eq]
      simp only [HostPtr.add, pageStorage, PageStorage.own.injEq]
      funext i
      have hin := page_offset_lt (i := i) hp hlo hsize hle hlt
      have hzero : ∀ x : U64, 0 + x = x := BitVec.zero_add
      have hread : host'.read (.heap block (0 + (p - segment.base) + i.setWidth 64)) =
          some (b.bytes (p - segment.base + i.setWidth 64)) := by
        rw [hzero, read_heap hblocks (by rw [hbsize]; exact hin)]
      rw [hread, Option.getD_some, hbytes _ hin, hc, hoffset]
      simp only [HostPtr.add, hzero]
  simp only [pageRecord, hstorage, h.perms_eq, h.cpuAttrs_eq]

end Cpueaxh
