/-
# Blocks of elements

What a repeated string instruction does to whole blocks: `MOVS` copies one, `STOS` fills
one, and `CMPS` and `SCAS` look for the first pair of elements that ends them.  The blocks
are those of the registers in front of the repetition.
-/
import Cpueaxh.BitTestLaw
import Cpueaxh.RepRestart
import Cpueaxh.StackTransfers

namespace Cpueaxh

open HostMemory Repetition

/-- The instructions that store their destination element. -/
def StringOp.stores : StringOp → Bool
  | .movs | .stos => true
  | .cmps | .lods | .scas => false

namespace StringInst

variable (inst : StringInst)

/-! ## Places -/

/-- The address of the source element behind `k` elements. -/
def sourceBlock (ctx : CpuContext) (k : ℕ) : U64 :=
  ctx.segmentBaseForAddressing inst.sourceSegment +
    truncateTo inst.addressSize
      (displaced inst.addressSize (ctx.regs regRsi) (inst.delta ctx) k)

/-- The address of the destination element behind `k` elements. -/
def destBlock (ctx : CpuContext) (k : ℕ) : U64 :=
  ctx.segmentBaseForAddressing .es +
    truncateTo inst.addressSize
      (displaced inst.addressSize (ctx.regs regRdi) (inst.delta ctx) k)

/-- The place of a byte of a source element. -/
def sourcePlace (cpu : Cpu) (k b : ℕ) : Option HostPtr :=
  cpu.dataPtr false (inst.sourceBlock cpu.context k + BitVec.ofNat 64 b)

/-- The place of a byte of a destination element. -/
def destPlace (cpu : Cpu) (k b : ℕ) : Option HostPtr :=
  cpu.dataPtr inst.op.stores (inst.destBlock cpu.context k + BitVec.ofNat 64 b)

/-- Every byte of the elements behind `k` others may be accessed. -/
def Reaches (cpu : Cpu) (k : ℕ) : Prop :=
  (inst.op.usesSource = true → ∀ b < inst.bytes, inst.sourcePlace cpu k b ≠ none) ∧
    (inst.op.usesDest = true → ∀ b < inst.bytes, inst.destPlace cpu k b ≠ none)

instance (cpu : Cpu) (k : ℕ) : Decidable (inst.Reaches cpu k) :=
  inferInstanceAs (Decidable (_ ∧ _))

end StringInst

variable {inst : StringInst} {s c u : Cpu} {k : ℕ}

theorem StringInst.bytes_pos (inst : StringInst) : 0 < inst.bytes := by
  have := inst.eight_le
  unfold StringInst.bytes
  omega

theorem StringInst.bytes_le (inst : StringInst) : inst.bytes ≤ 8 := by
  have := inst.operandSize_ok
  unfold StringInst.bytes
  omega

namespace StringInst

/-- What a CPU behind some turns still has of the one in front of them. -/
theorem Behind.dataPtr (h : inst.Behind k s c) (store : Bool) (address : U64) :
    c.dataPtr store address = s.dataPtr store address := by
  obtain ⟨regs, rflags, host, rfl⟩ := h.same
  rfl

theorem Behind.operandPtrs (h : inst.Behind k s c) (store : Bool) (address : U64) (left : ℕ)
    (offset : U64) : c.operandPtrs store address left offset =
      s.operandPtrs store address left offset :=
  operandPtrs_congr (h.dataPtr store) left offset

theorem Behind.sourceAddress (h : inst.Behind k s c) (huses : inst.op.usesSource = true) :
    inst.sourceAddress c.context = inst.sourceBlock s.context k := by
  have hindex := h.source
  rw [if_pos huses] at hindex
  have hbase : c.context.segmentBaseForAddressing inst.sourceSegment =
      s.context.segmentBaseForAddressing inst.sourceSegment := by
    obtain ⟨regs, rflags, host, rfl⟩ := h.same
    rfl
  unfold StringInst.sourceAddress sourceBlock getReg
  rw [hindex, hbase]

theorem Behind.destAddress (h : inst.Behind k s c) (huses : inst.op.usesDest = true) :
    inst.destAddress c.context = inst.destBlock s.context k := by
  have hindex := h.dest
  rw [if_pos huses] at hindex
  have hbase : c.context.segmentBaseForAddressing .es =
      s.context.segmentBaseForAddressing .es := by
    obtain ⟨regs, rflags, host, rfl⟩ := h.same
    rfl
  unfold StringInst.destAddress destBlock getReg
  rw [hindex, hbase]

/-- The accumulator is as it was, but for `LODS`. -/
theorem Behind.accumulator (h : inst.Behind k s c) (hop : inst.op ≠ .lods) (size : ℕ) :
    readAccumulator size c.context = readAccumulator size s.context := by
  have hrax : c.context.regs regRax = s.context.regs regRax :=
    h.others regRax (by decide) (by decide) (by decide) fun _ => hop
  unfold readAccumulator getReg
  rw [hrax]

end StringInst

/-! ## When an element is made -/

/-- A load succeeds when each of its bytes may be read. -/
theorem loadAt_ok_iff_places {cpu : Cpu} {size : ℕ} {address : U64} :
    (∃ value, cpu.loadAt size address = .ok value) ↔
      ∀ b < size, cpu.dataPtr false (address + BitVec.ofNat 64 b) ≠ none := by
  rw [← operandPtrs_iff]
  constructor
  · rintro ⟨value, h⟩
    obtain ⟨ptrs, hptrs, -⟩ := loadAt_ok_iff.mp h
    exact ⟨ptrs, hptrs⟩
  · rintro ⟨ptrs, hptrs⟩
    exact ⟨_, loadAt_ok_iff.mpr ⟨ptrs, hptrs, rfl⟩⟩

theorem storedAt_ok_iff {cpu stored : Cpu} {size : ℕ} {address value : U64} :
    cpu.storedAt size address value = .ok stored ↔
      ∃ ptrs, cpu.operandPtrs true address size 0 = .ok ptrs ∧
        stored = cpu.setHost (storeBytes cpu.memory.host ptrs value) := by
  unfold Cpu.storedAt Cpu.slotPtrs
  cases cpu.operandPtrs true address size 0 with
  | error a =>
    constructor
    · intro h
      cases h
    · rintro ⟨_, ⟨⟩, _⟩
  | ok ptrs =>
    constructor
    · intro h
      exact ⟨ptrs, rfl, (Except.ok.inj h).symm⟩
    · rintro ⟨_, ⟨⟩, rfl⟩
      rfl

/-- A store succeeds when each of its bytes may be written. -/
theorem storedAt_ok_iff_places {cpu : Cpu} {size : ℕ} {address value : U64} :
    (∃ stored, cpu.storedAt size address value = .ok stored) ↔
      ∀ b < size, cpu.dataPtr true (address + BitVec.ofNat 64 b) ≠ none := by
  rw [← operandPtrs_iff]
  constructor
  · rintro ⟨stored, h⟩
    obtain ⟨ptrs, hptrs, -⟩ := storedAt_ok_iff.mp h
    exact ⟨ptrs, hptrs⟩
  · rintro ⟨ptrs, hptrs⟩
    exact ⟨_, storedAt_ok_iff.mpr ⟨ptrs, hptrs, rfl⟩⟩

/-- An address whose first byte may be accessed is a valid one. -/
theorem validAddress_of_place {cpu : Cpu} {store : Bool} {address : U64}
    (h : cpu.dataPtr store address ≠ none) (segment : SegmentRegisterIndex) :
    cpu.validAddress address segment = .ok () := by
  unfold Cpu.validAddress
  refine if_neg fun hbad => h ?_
  unfold Cpu.dataPtr grantedPtr
  exact if_pos hbad

theorem validAddress_of_places {cpu : Cpu} {store : Bool} {size : ℕ} {address : U64}
    (hsize : 0 < size) (h : ∀ b < size, cpu.dataPtr store (address + BitVec.ofNat 64 b) ≠ none)
    (segment : SegmentRegisterIndex) : cpu.validAddress address segment = .ok () := by
  have hfirst := h 0 hsize
  rw [show address + BitVec.ofNat 64 0 = address from BitVec.add_zero address] at hfirst
  exact validAddress_of_place hfirst segment

namespace StringInst

/-- **An element is made** exactly when all of its bytes may be accessed. -/
theorem Behind.element_iff (h : inst.Behind k s c) :
    (∃ next, inst.element c = .ok next) ↔ inst.Reaches s k := by
  have hpos := inst.bytes_pos
  -- the element asks for its places from the start of the instruction on
  have hsource : inst.op.usesSource = true → ((∃ value, c.loadAt inst.bytes
      (inst.sourceAddress c.context) = .ok value) ↔
      ∀ b < inst.bytes, inst.sourcePlace s k b ≠ none) := fun huses => by
    rw [loadAt_ok_iff_places, h.sourceAddress huses]
    simp only [h.dataPtr]
    rfl
  have hloaded : inst.op.usesDest = true → inst.op.stores = false →
      ((∃ value, c.loadAt inst.bytes (inst.destAddress c.context) = .ok value) ↔
      ∀ b < inst.bytes, inst.destPlace s k b ≠ none) := fun huses hstores => by
    rw [loadAt_ok_iff_places, h.destAddress huses]
    unfold destPlace
    simp only [h.dataPtr, hstores]
  have hstored : ∀ value, inst.op.usesDest = true → inst.op.stores = true →
      ((∃ stored, c.storedAt inst.bytes (inst.destAddress c.context) value = .ok stored) ↔
      ∀ b < inst.bytes, inst.destPlace s k b ≠ none) := fun value huses hstores => by
    rw [storedAt_ok_iff_places, h.destAddress huses]
    unfold destPlace
    simp only [h.dataPtr, hstores]
  -- what may be accessed is at a valid address
  have hsourceValid : inst.op.usesSource = true → (∃ value, c.loadAt inst.bytes
      (inst.sourceAddress c.context) = .ok value) →
      c.validAddress (inst.sourceAddress c.context) inst.sourceSegment = .ok () :=
    fun huses hload => validAddress_of_places hpos (loadAt_ok_iff_places.mp hload) _
  unfold StringInst.element Reaches
  -- each instruction uses its own ones of the two places
  cases hop : inst.op with
  | movs =>
    rw [hop] at hsource hstored hsourceValid
    simp only [ok_bind_iff, StringOp.usesSource, StringOp.usesDest, forall_const]
    rw [← hsource rfl]
    constructor
    · rintro ⟨next, _, -, _, -, value, hload, stored, hstore, -⟩
      exact ⟨⟨value, hload⟩, (hstored value rfl rfl).mp ⟨stored, hstore⟩⟩
    · rintro ⟨⟨value, hload⟩, hdest⟩
      obtain ⟨stored, hstore⟩ := (hstored value rfl rfl).mpr hdest
      exact ⟨_, (), hsourceValid rfl ⟨value, hload⟩, (),
        validAddress_of_places hpos (storedAt_ok_iff_places.mp ⟨stored, hstore⟩) _, value, hload,
        stored, hstore, rfl⟩
  | cmps =>
    rw [hop] at hsource hloaded hsourceValid
    simp only [ok_bind_iff, StringOp.usesSource, StringOp.usesDest, forall_const]
    rw [← hsource rfl, ← hloaded rfl rfl]
    constructor
    · rintro ⟨next, _, -, _, -, value, hload, value', hload', -⟩
      exact ⟨⟨value, hload⟩, value', hload'⟩
    · rintro ⟨⟨value, hload⟩, value', hload'⟩
      exact ⟨_, (), hsourceValid rfl ⟨value, hload⟩, (),
        validAddress_of_places hpos (loadAt_ok_iff_places.mp ⟨value', hload'⟩) _, value, hload,
        value', hload', rfl⟩
  | stos =>
    rw [hop] at hstored
    simp only [ok_bind_iff, StringOp.usesSource, StringOp.usesDest, forall_const,
      Bool.false_eq_true, false_implies, true_and]
    rw [← hstored (readAccumulator inst.operandSize c.context) rfl rfl]
    constructor
    · rintro ⟨_, stored, hstore, -⟩
      exact ⟨stored, hstore⟩
    · rintro ⟨stored, hstore⟩
      exact ⟨_, stored, hstore, rfl⟩
  | lods =>
    rw [hop] at hsource hsourceValid
    simp only [ok_bind_iff, StringOp.usesSource, StringOp.usesDest, forall_const,
      Bool.false_eq_true, false_implies, and_true]
    rw [← hsource rfl]
    constructor
    · rintro ⟨_, _, -, value, hload, -⟩
      exact ⟨value, hload⟩
    · rintro ⟨value, hload⟩
      exact ⟨_, (), hsourceValid rfl ⟨value, hload⟩, value, hload, rfl⟩
  | scas =>
    rw [hop] at hloaded
    simp only [ok_bind_iff, StringOp.usesSource, StringOp.usesDest, forall_const,
      Bool.false_eq_true, false_implies, true_and]
    rw [← hloaded rfl rfl]
    constructor
    · rintro ⟨_, value, hload, -⟩
      exact ⟨value, hload⟩
    · rintro ⟨value, hload⟩
      exact ⟨_, value, hload, rfl⟩

end StringInst

/-! ## Blocks that are stored -/

namespace StringInst

variable (inst)

/-- The byte that an element stores as its byte `b`, in terms of the CPU in front of the
repetition. -/
def storedByte (cpu : Cpu) (k b : ℕ) : U8 :=
  if inst.op.usesSource then ((inst.sourcePlace cpu k b).bind cpu.memory.host.read).getD 0
  else (readAccumulator inst.operandSize cpu.context >>> (8 * b)).setWidth 8

/-- A memory in which the first `k` elements are stored, and nothing else. -/
structure Holds (k : ℕ) (s : Cpu) (host : HostMemory) : Prop where
  stored : ∀ i < k, ∀ b < inst.bytes, ∀ q, inst.destPlace s i b = some q →
    host.read q = (s.memory.host.read q).map fun _ => inst.storedByte s i b
  kept : ∀ q, (∀ i < k, ∀ b < inst.bytes, inst.destPlace s i b ≠ some q) →
    host.read q = s.memory.host.read q

/-- The first `n` elements have places of their own: no byte is stored twice, and none is
read behind a store to it. -/
structure Apart (n : ℕ) (s : Cpu) : Prop where
  dests : ∀ i < n, ∀ b < inst.bytes, ∀ j < n, ∀ d < inst.bytes, ∀ q,
    inst.destPlace s i b = some q → inst.destPlace s j d = some q → i = j ∧ b = d
  sources : inst.op.usesSource = true → ∀ j < n, ∀ i < j, ∀ b < inst.bytes, ∀ d < inst.bytes,
    ∀ q, inst.destPlace s i b = some q → inst.sourcePlace s j d ≠ some q

end StringInst

/-- The pointers of an operand, byte by byte. -/
theorem operandPtrs_place {cpu : Cpu} {store : Bool} {size : ℕ} {address : U64}
    {ptrs : List HostPtr} (h : cpu.operandPtrs store address size 0 = .ok ptrs) {b : ℕ}
    (hb : b < size) : cpu.dataPtr store (address + BitVec.ofNat 64 b) = ptrs[b]? := by
  have hbyte := operandPtrs_getElem size h b hb
  rwa [show (0 : U64) + BitVec.ofNat 64 b = BitVec.ofNat 64 b from BitVec.zero_add _] at hbyte

namespace StringInst

/-- What an element stores. -/
theorem element_stores (hstores : inst.op.stores = true) (h : inst.element c = .ok u) :
    ∃ ptrs value, c.operandPtrs true (inst.destAddress c.context) inst.bytes 0 = .ok ptrs ∧
      u.memory.host = storeBytes c.memory.host ptrs value ∧
      if inst.op.usesSource then
        c.loadAt inst.bytes (inst.sourceAddress c.context) = .ok value
      else value = readAccumulator inst.operandSize c.context := by
  unfold StringInst.element at h
  cases hop : inst.op with
  | movs =>
    simp only [hop, ok_bind_iff] at h
    obtain ⟨_, -, _, -, value, hload, stored, hstore, h⟩ := h
    obtain ⟨ptrs, hptrs, rfl⟩ := storedAt_ok_iff.mp hstore
    cases h
    exact ⟨ptrs, value, hptrs, rfl, hload⟩
  | stos =>
    simp only [hop, ok_bind_iff] at h
    obtain ⟨stored, hstore, h⟩ := h
    obtain ⟨ptrs, hptrs, rfl⟩ := storedAt_ok_iff.mp hstore
    cases h
    exact ⟨ptrs, _, hptrs, rfl, rfl⟩
  | cmps => rw [hop] at hstores; cases hstores
  | lods => rw [hop] at hstores; cases hstores
  | scas => rw [hop] at hstores; cases hstores

/-- The value that an element stores has the bytes that it should store. -/
theorem Behind.storedByte (h : inst.Behind k s c) (hstores : inst.op.stores = true) {n : ℕ}
    (hapart : inst.Apart n s) (hk : k < n) (hheld : inst.Holds k s c.memory.host) {value : U64}
    (hvalue : if inst.op.usesSource then
        c.loadAt inst.bytes (inst.sourceAddress c.context) = .ok value
      else value = readAccumulator inst.operandSize c.context) {b : ℕ} (hb : b < inst.bytes) :
    (value >>> (8 * b)).setWidth 8 = inst.storedByte s k b := by
  unfold StringInst.storedByte
  split_ifs at hvalue ⊢ with huses
  · obtain ⟨ptrs, hptrs, rfl⟩ := loadAt_ok_iff.mp hvalue
    have hlength := operandPtrs_length _ hptrs
    have hplace := operandPtrs_place hptrs hb
    rw [h.dataPtr, h.sourceAddress huses] at hplace
    have hget : ptrs[b]? = some ptrs[b] := List.getElem?_eq_getElem (by omega)
    have hsource : inst.sourcePlace s k b = some ptrs[b] := hplace.trans hget
    rw [byte_loadValue c.memory.host ptrs hget (hlength ▸ inst.bytes_le), hsource,
      Option.bind_some, hheld.kept]
    -- no earlier element was stored there
    exact fun i hi d hd hdest => hapart.sources huses k hk i hi d hd b hb _ hdest hsource
  · have hop : inst.op ≠ .lods := by
      intro hop
      rw [hop] at hstores
      cases hstores
    rw [hvalue, h.accumulator hop]

/-- **One element** more is stored. -/
theorem Holds.element (hheld : inst.Holds k s c.memory.host) (h : inst.Behind k s c)
    (hstores : inst.op.stores = true) {n : ℕ} (hapart : inst.Apart n s) (hk : k < n)
    (helement : inst.element c = .ok u) : inst.Holds (k + 1) s u.memory.host := by
  obtain ⟨ptrs, value, hptrs, hhost, hvalue⟩ := element_stores hstores helement
  have huses : inst.op.usesDest = true := by
    revert hstores
    cases inst.op <;> decide
  have hlength := operandPtrs_length _ hptrs
  have hplace : ∀ b < inst.bytes, inst.destPlace s k b = ptrs[b]? := by
    intro b hb
    have hbyte := operandPtrs_place hptrs hb
    rw [h.dataPtr, h.destAddress huses] at hbyte
    unfold destPlace
    rwa [hstores]
  -- the pointers of the element are its places
  have hmem : ∀ q, q ∈ ptrs → ∃ b < inst.bytes, inst.destPlace s k b = some q := by
    intro q hq
    obtain ⟨b, hb, rfl⟩ := List.getElem_of_mem hq
    exact ⟨b, by omega, (hplace b (by omega)).trans (List.getElem?_eq_getElem hb)⟩
  rw [hhost]
  constructor
  · intro i hi b hb q hq
    -- an element that was made before is not stored over, as no place is shared
    by_cases hik : i = k
    · subst hik
      have hin : q ∈ ptrs := List.mem_of_getElem? ((hplace b hb).symm.trans hq)
      obtain ⟨j, hj, -, hread⟩ := read_storeBytes_mem ptrs c.memory.host value hin
      have hjlt : j < inst.bytes := by
        obtain ⟨hlt, -⟩ := List.getElem?_eq_some_iff.mp hj
        omega
      obtain ⟨-, rfl⟩ := hapart.dests i hk b hb i hk j hjlt q hq ((hplace j hjlt).trans hj)
      rw [hread, h.storedByte hstores hapart hk hheld hvalue hb, hheld.kept]
      intro i' hi' d hd hdest
      have := (hapart.dests i hk b hb i' (by omega) d hd q hq hdest).1
      omega
    · have hout : q ∉ ptrs := by
        intro hin
        obtain ⟨d, hd, hdest⟩ := hmem q hin
        exact hik (hapart.dests i (by omega) b hb k hk d hd q hq hdest).1
      rw [read_storeBytes ptrs _ _ hout]
      exact hheld.stored i (by omega) b hb q hq
  · intro q hq
    have hout : q ∉ ptrs := by
      intro hin
      obtain ⟨d, hd, hdest⟩ := hmem q hin
      exact hq k (by omega) d hd hdest
    rw [read_storeBytes ptrs _ _ hout]
    exact hheld.kept q fun i hi => hq i (by omega)

/-- An element stores to its own places only. -/
theorem Behind.element_keeps (h : inst.Behind k s c) (hstores : inst.op.stores = true)
    (helement : inst.element c = .ok u) {q : HostPtr}
    (hq : ∀ b < inst.bytes, inst.destPlace s k b ≠ some q) :
    u.memory.host.read q = c.memory.host.read q := by
  obtain ⟨ptrs, value, hptrs, hhost, -⟩ := element_stores hstores helement
  have huses : inst.op.usesDest = true := by
    revert hstores
    cases inst.op <;> decide
  have hlength := operandPtrs_length _ hptrs
  have hout : q ∉ ptrs := by
    intro hin
    obtain ⟨b, hb, rfl⟩ := List.getElem_of_mem hin
    have hbyte := operandPtrs_place hptrs (show b < inst.bytes by omega)
    rw [h.dataPtr, h.destAddress huses, List.getElem?_eq_getElem hb] at hbyte
    apply hq b (by omega)
    unfold destPlace
    rwa [hstores]
  rw [hhost, read_storeBytes ptrs _ _ hout]

/-- **Some turns** of a repetition store to the places of their elements only, whether or not these
are places of their own. -/
theorem kept_turns {rep : RepPrefix} (hstores : inst.op.stores = true)
    (h : (inst.repetition rep).Turns k s c) {q : HostPtr}
    (hq : ∀ i < k, ∀ b < inst.bytes, inst.destPlace s i b ≠ some q) :
    c.memory.host.read q = s.memory.host.read q := by
  induction h with
  | zero s => rfl
  | @succ k s t u turns goes turn ih =>
    obtain ⟨next, helement, hnext⟩ := ok_bind_iff.mp turn
    cases hnext
    have hkept := (behind_turns turns).element_keeps hstores helement (hq k (by omega))
    exact hkept.trans (ih fun i hi => hq i (by omega))

/-- **The memory behind some turns** of a repetition that stores. -/
theorem holds_turns {rep : RepPrefix} (hstores : inst.op.stores = true) {n : ℕ}
    (hapart : inst.Apart n s) (h : (inst.repetition rep).Turns k s c) (hk : k ≤ n) :
    inst.Holds k s c.memory.host := by
  induction h with
  | zero s =>
    refine ⟨fun i hi => absurd hi (Nat.not_lt_zero i), fun _ _ => rfl⟩
  | succ turns goes turn ih =>
    obtain ⟨next, helement, hnext⟩ := ok_bind_iff.mp turn
    cases hnext
    have hheld := (ih hapart (by omega)).element (behind_turns turns) hstores hapart (by omega)
      helement
    exact hheld

end StringInst

/-! ## Pairs that are compared -/

namespace StringInst

variable (inst)

/-- The value of an element that is loaded. -/
def loadedValue (cpu : Cpu) (address : U64) : U64 :=
  match cpu.loadAt inst.bytes address with
  | .ok value => value
  | .error _ => 0

/-- What an element compares: the source element or the accumulator with the destination
element. -/
def comparedPair (cpu : Cpu) (k : ℕ) : BitVec inst.operandSize × BitVec inst.operandSize :=
  ((if inst.op.usesSource then inst.loadedValue cpu (inst.sourceBlock cpu.context k)
    else readAccumulator inst.operandSize cpu.context).setWidth inst.operandSize,
    (inst.loadedValue cpu (inst.destBlock cpu.context k)).setWidth inst.operandSize)

/-- A pair ends a comparison under a prefix: it differs under `REPE`, and is equal under
`REPNE`. -/
def PairEnds (rep : RepPrefix) (cpu : Cpu) (k : ℕ) : Prop :=
  match rep with
  | .repe => (inst.comparedPair cpu k).1 ≠ (inst.comparedPair cpu k).2
  | .repne => (inst.comparedPair cpu k).1 = (inst.comparedPair cpu k).2

instance (rep : RepPrefix) (cpu : Cpu) (k : ℕ) : Decidable (inst.PairEnds rep cpu k) :=
  match rep with
  | .repe => inferInstanceAs (Decidable (_ ≠ _))
  | .repne => inferInstanceAs (Decidable (_ = _))

end StringInst

/-- The zero flag behind a comparison. -/
theorem compareFlags_zf {w : ℕ} (rflags : U64) (lhs rhs : BitVec w) :
    (compareFlags rflags lhs rhs &&& rflagsZf != 0) = decide (lhs = rhs) := by
  show hasFlag (compareFlags rflags lhs rhs) .zf = _
  unfold compareFlags
  simp only [List.foldl_cons, List.foldl_nil]
  rw [show rflagsCf = StatusFlag.cf.mask from rfl, show rflagsOf = StatusFlag.of.mask from rfl,
    show rflagsSf = StatusFlag.sf.mask from rfl, show rflagsZf = StatusFlag.zf.mask from rfl,
    show rflagsAf = StatusFlag.af.mask from rfl, show rflagsPf = StatusFlag.pf.mask from rfl]
  simp only [hasFlag_withFlag]
  rfl

/-- A comparison sets all the flags that an earlier one has set. -/
theorem compareFlags_compareFlags {w : ℕ} (rflags : U64) (lhs rhs lhs' rhs' : BitVec w) :
    compareFlags (compareFlags rflags lhs' rhs') lhs rhs = compareFlags rflags lhs rhs := by
  unfold compareFlags
  simp only [List.foldl_cons, List.foldl_nil]
  rw [show rflagsCf = StatusFlag.cf.mask from rfl, show rflagsOf = StatusFlag.of.mask from rfl,
    show rflagsSf = StatusFlag.sf.mask from rfl, show rflagsZf = StatusFlag.zf.mask from rfl,
    show rflagsAf = StatusFlag.af.mask from rfl, show rflagsPf = StatusFlag.pf.mask from rfl]
  apply BitVec.eq_of_getLsbD_eq
  intro i _
  simp only [getLsbD_withFlag]
  split_ifs <;> rfl

namespace StringInst

/-- What a comparison leaves: the flags of its pair, and the memory as it was. -/
theorem Behind.element_compares (h : inst.Behind k s c) (hscan : inst.conditionalScan = true)
    (hhost : c.memory.host = s.memory.host) (helement : inst.element c = .ok u) :
    u.memory.host = s.memory.host ∧
      u.context.rflags = compareFlags c.context.rflags (inst.comparedPair s k).1
        (inst.comparedPair s k).2 := by
  have hload : ∀ {address value}, c.loadAt inst.bytes address = .ok value →
      inst.loadedValue s address = value := by
    intro address value hvalue
    obtain ⟨ptrs, hptrs, rfl⟩ := loadAt_ok_iff.mp hvalue
    rw [h.operandPtrs] at hptrs
    unfold StringInst.loadedValue Cpu.loadAt
    rw [hptrs, hhost]
  unfold StringInst.element at helement
  unfold StringInst.comparedPair
  cases hop : inst.op with
  | cmps =>
    simp only [hop, ok_bind_iff] at helement
    obtain ⟨_, -, _, -, source, hsource, dest, hdest, helement⟩ := helement
    rw [h.sourceAddress (by rw [hop]; rfl)] at hsource
    rw [h.destAddress (by rw [hop]; rfl)] at hdest
    cases helement
    refine ⟨hhost, ?_⟩
    rw [hload hsource, hload hdest]
    rfl
  | scas =>
    simp only [hop, ok_bind_iff] at helement
    obtain ⟨value, hdest, helement⟩ := helement
    rw [h.destAddress (by rw [hop]; rfl)] at hdest
    cases helement
    refine ⟨hhost, ?_⟩
    rw [hload hdest, ← h.accumulator (by rw [hop]; decide)]
    rfl
  | movs => unfold conditionalScan at hscan; rw [hop] at hscan; cases hscan
  | stos => unfold conditionalScan at hscan; rw [hop] at hscan; cases hscan
  | lods => unfold conditionalScan at hscan; rw [hop] at hscan; cases hscan

/-- **The CPU behind some turns** of a comparison. -/
theorem compared_turns {rep : RepPrefix} (hscan : inst.conditionalScan = true)
    (h : (inst.repetition rep).Turns k s c) :
    c.memory.host = s.memory.host ∧
      (∀ i, k = i + 1 → c.context.rflags = compareFlags s.context.rflags
        (inst.comparedPair s i).1 (inst.comparedPair s i).2) ∧
      (k = 0 → c.context.rflags = s.context.rflags) ∧
      ∀ i, i + 1 < k → ¬ inst.PairEnds rep s i := by
  induction h with
  | zero s => exact ⟨rfl, fun i hi => by omega, fun _ => rfl, fun i hi => by omega⟩
  | @succ k s t u turns goes turn ih =>
    obtain ⟨hhost, hflags, hfirst, hgone⟩ := ih
    obtain ⟨next, helement, hnext⟩ := ok_bind_iff.mp turn
    obtain ⟨hhost', hflags'⟩ := (behind_turns turns).element_compares hscan hhost helement
    cases hnext
    refine ⟨hhost', fun i hi => ?_, fun hzero => by omega, fun i hi hends => ?_⟩
    · obtain rfl : i = k := by omega
      refine hflags'.trans ?_
      rcases i with _ | i
      · rw [hfirst rfl]
      · rw [hflags i rfl, compareFlags_compareFlags]
    · by_cases hik : i + 1 < k
      · exact hgone i hik hends
      · -- the last pair before this one did not end the comparison
        have hk : k = i + 1 := by omega
        have hstop : inst.stops rep t.context = false := goes.resolve_left (by omega)
        unfold StringInst.stops at hstop
        rw [hscan, Bool.true_and, hflags i hk, compareFlags_zf] at hstop
        unfold PairEnds at hends
        cases rep with
        | repe => simp only [Bool.not_eq_false', decide_eq_true_eq] at hstop; exact hends hstop
        | repne => simp only [decide_eq_false_iff_not] at hstop; exact hstop hends

end StringInst

/-! ## Steps over blocks -/

namespace StringInst

/-- The elements of the turns that were made could be accessed. -/
theorem reached_turns {rep : RepPrefix} (h : (inst.repetition rep).Turns k s c) :
    ∀ i < k, inst.Reaches s i := by
  induction h with
  | zero => exact fun i hi => absurd hi (Nat.not_lt_zero i)
  | @succ k s t u turns goes turn ih =>
    intro i hi
    by_cases hik : i = k
    · subst hik
      obtain ⟨next, helement, -⟩ := ok_bind_iff.mp turn
      exact (behind_turns turns).element_iff.mp ⟨next, helement⟩
    · exact ih i (by omega)

/-- A comparison stops behind a pair that ends it, and nothing else stops. -/
theorem stops_iff {rep : RepPrefix} (h : (inst.repetition rep).Turns k s c) (hk : 0 < k) :
    inst.stops rep c.context = true ↔ inst.conditionalScan = true ∧ inst.PairEnds rep s (k - 1) := by
  unfold StringInst.stops
  cases hscan : inst.conditionalScan with
  | false => simp
  | true =>
    rw [(compared_turns hscan h).2.1 (k - 1) (by omega), compareFlags_zf]
    unfold PairEnds
    cases rep <;> simp

/-- The exception of a CPU is the one that the element behind `k` others raises. -/
def RaisedAt (inst : StringInst) (rep : RepPrefix) (cpu : Cpu) (k : ℕ) (cpu' : Cpu) : Prop :=
  ∃ c e, (inst.repetition rep).Turns k cpu c ∧ inst.element c = .error e ∧
    e.context.hasException = true ∧ cpu'.context.exception = e.context.exception ∧
    cpu'.context.controlRegs = e.context.controlRegs

/-- How a step over a repeated instruction makes `k` of its elements.  The step completes
when the count is used up or a pair ends the comparison, and it faults at the first element
that may not be accessed, with the exception of that element; in both cases the registers are
behind `k` elements. -/
structure RepRun (inst : StringInst) (rep : RepPrefix) (pre : StringPrefix) (cpu : Cpu) (k : ℕ)
    (out : StepResult × Cpu) : Prop where
  reached : ∀ i < k, inst.Reaches cpu i
  goes : inst.conditionalScan = true → ∀ i, i + 1 < k → ¬ inst.PairEnds rep cpu i
  count : k + inst.count out.2 = inst.count cpu
  ends : (out.1 = .ok ∧ out.2.context.rip = cpu.context.rip + BitVec.ofInt 64 pre.size ∧
      out.2.context.exception = cpu.context.exception ∧
      (k = inst.count cpu ∨
        inst.conditionalScan = true ∧ 0 < k ∧ inst.PairEnds rep cpu (k - 1))) ∨
    (out.1 = .exception ∧ out.2.context.rip = cpu.context.rip ∧ k < inst.count cpu ∧
      ¬ inst.Reaches cpu k ∧ inst.RaisedAt rep cpu k out.2 ∧
      (inst.conditionalScan = true → 0 < k → ¬ inst.PairEnds rep cpu (k - 1)))
  source : out.2.context.regs regRsi = if inst.op.usesSource
    then displaced inst.addressSize (cpu.context.regs regRsi) (inst.delta cpu.context) k
    else cpu.context.regs regRsi
  dest : out.2.context.regs regRdi = if inst.op.usesDest
    then displaced inst.addressSize (cpu.context.regs regRdi) (inst.delta cpu.context) k
    else cpu.context.regs regRdi
  others : ∀ reg, reg ≠ regRsi → reg ≠ regRdi → reg ≠ regRcx →
    (reg = regRax → inst.op ≠ .lods) → out.2.context.regs reg = cpu.context.regs reg

/-- The accumulator has the low bytes of its register. -/
theorem accumulator_byte (inst : StringInst) (ctx : CpuContext) {b : ℕ} (hb : b < inst.bytes) :
    (readAccumulator inst.operandSize ctx >>> (8 * b)).setWidth 8 =
      (ctx.regs regRax >>> (8 * b)).setWidth 8 := by
  have hsize := inst.operandSize_ok
  unfold StringInst.bytes at hb
  unfold readAccumulator
  apply BitVec.eq_of_getLsbD_eq
  intro i hi
  split_ifs with hbyte
  · have hzero : b = 0 := by omega
    subst hzero
    have hlow : ∀ j < 8, (0xFF : U64).getLsbD j = true := by decide
    rw [Nat.mul_zero, BitVec.ushiftRight_zero, BitVec.ushiftRight_zero, BitVec.getLsbD_setWidth,
      BitVec.getLsbD_setWidth, BitVec.getLsbD_and, hlow i hi, Bool.and_true]
  · unfold getReg
    rw [truncateTo_eq (by omega), BitVec.getLsbD_setWidth, BitVec.getLsbD_setWidth,
      BitVec.getLsbD_ushiftRight, BitVec.getLsbD_ushiftRight, BitVec.getLsbD_setWidth,
      BitVec.getLsbD_setWidth, decide_eq_true (show 8 * b + i < inst.operandSize by omega),
      decide_eq_true (show 8 * b + i < 64 by omega)]
    simp only [Bool.true_and]

/-- **Every step** over a repeated instruction makes some elements, and ends with the flags
and the memory behind them. -/
theorem rep_run {cpu : Cpu} (hm : MemoryOk cpu.memory) (hexc : cpu.context.hasException = false)
    (inst : StringInst) (rep : RepPrefix) (dec : DecodedInst) (pre : StringPrefix) :
    ∃ k c, (inst.repetition rep).Turns k cpu c ∧
      inst.RepRun rep pre cpu k
        (cpu.dispatchDecoded (inst.decodedRep dec rep pre) cpu.context.rip) ∧
      (cpu.dispatchDecoded (inst.decodedRep dec rep pre) cpu.context.rip).2.memory.host =
        c.memory.host ∧
      (cpu.dispatchDecoded (inst.decodedRep dec rep pre) cpu.context.rip).2.context.rflags =
        c.context.rflags := by
  have hends := rep_ends hm hexc inst rep dec pre
  generalize cpu.dispatchDecoded (inst.decodedRep dec rep pre) cpu.context.rip = out at hends
  -- the run ends at its count or a scan condition, or at an element that is refused
  cases hends with
  | @done k c turns behind count last ends =>
    obtain ⟨hresult, hstate⟩ := ends
    have hcontext := hstate.context_eq
    have hregs : out.2.context.regs = c.context.regs :=
      (congrArg CpuContext.regs hcontext).trans rfl
    have hcount : inst.count out.2 = inst.count c := by
      unfold StringInst.count getRepCount getReg
      rw [hregs]
    refine ⟨k, c, turns, ⟨reached_turns turns, fun hscan => (compared_turns hscan turns).2.2.2, ?_,
      .inl ⟨hresult, congrArg CpuContext.rip hcontext, ?_, ?_⟩, ?_, ?_, ?_⟩, hstate.host_eq,
      (congrArg CpuContext.rflags hcontext).trans rfl⟩
    · rw [hcount, count]
    · obtain ⟨regs, rflags, host, rfl⟩ := behind.same
      exact (congrArg CpuContext.exception hcontext).trans rfl
    · rcases last with hzero | ⟨hk, hstop⟩
      · left
        omega
      · obtain ⟨hscan, hpair⟩ := (stops_iff turns hk).mp hstop
        exact .inr ⟨hscan, hk, hpair⟩
    · rw [hregs, behind.source]
    · rw [hregs, behind.dest]
    · rw [hregs]
      exact behind.others
  | @faults k c e turns behind count more goes element failed ends rip =>
    obtain ⟨hresult, hstate⟩ := ends
    obtain ⟨exception, cr2, asked, rfl⟩ := failed.same
    have hcontext := hstate.context_eq
    have hregs : out.2.context.regs = c.context.regs :=
      (congrArg CpuContext.regs hcontext).trans rfl
    have hcount : inst.count out.2 = inst.count c := by
      unfold StringInst.count getRepCount getReg
      rw [hregs]
    refine ⟨k, c, turns, ⟨reached_turns turns, fun hscan => (compared_turns hscan turns).2.2.2, ?_,
      .inr ⟨hresult, rip, by omega, ?_, ?_, ?_⟩, ?_, ?_, ?_⟩, hstate.host_eq,
      (congrArg CpuContext.rflags hcontext).trans rfl⟩
    · rw [hcount, count]
    -- the element has been refused, so that some place of it may not be accessed
    · intro hreaches
      obtain ⟨next, hnext⟩ := behind.element_iff.mpr hreaches
      rw [element] at hnext
      cases hnext
    · exact ⟨c, _, turns, element, failed.pending,
        (congrArg CpuContext.exception hcontext).trans rfl,
        (congrArg CpuContext.controlRegs hcontext).trans rfl⟩
    · intro hscan hk hpair
      have hstop := (stops_iff turns hk).mpr ⟨hscan, hpair⟩
      rw [goes.resolve_left (by omega)] at hstop
      cases hstop
    · rw [hregs, behind.source]
    · rw [hregs, behind.dest]
    · rw [hregs]
      exact behind.others

end StringInst

section Blocks

variable {cpu : Cpu} (hm : MemoryOk cpu.memory) (hexc : cpu.context.hasException = false)
  (inst : StringInst) (rep : RepPrefix) (dec : DecodedInst) (pre : StringPrefix)

include hm hexc

/-- **`REP MOVS` copies a block.**  Of the elements that are made, each byte of the
destination has the byte that its source had before the instruction, if the elements have places
of their own; blocks that overlap in the direction of the copy are among these.  No byte outside
the destination is changed. -/
theorem repMovs_copies (hop : inst.op = .movs) {out : StepResult × Cpu}
    (hout : cpu.dispatchDecoded (inst.decodedRep dec rep pre) cpu.context.rip = out) :
    ∃ k, inst.RepRun rep pre cpu k out ∧ (inst.Apart k cpu →
      ∀ i < k, ∀ b < inst.bytes, ∀ p q, inst.sourcePlace cpu i b = some p →
        inst.destPlace cpu i b = some q → out.2.memory.host.read q =
          (cpu.memory.host.read q).map fun _ => (cpu.memory.host.read p).getD 0) ∧
      ∀ q, (∀ i < k, ∀ b < inst.bytes, inst.destPlace cpu i b ≠ some q) →
        out.2.memory.host.read q = cpu.memory.host.read q := by
  subst hout
  obtain ⟨k, c, turns, hrun, hhost, -⟩ := StringInst.rep_run hm hexc inst rep dec pre
  have hstores : inst.op.stores = true := by rw [hop]; rfl
  refine ⟨k, hrun, fun hapart i hi b hb p q hp hq => ?_, fun q hq => ?_⟩
  · have hstored := (StringInst.holds_turns hstores hapart turns le_rfl).stored i hi b hb q hq
    unfold StringInst.storedByte at hstored
    rw [if_pos (by rw [hop]; rfl), hp, Option.bind_some] at hstored
    rw [hhost, hstored]
  · rw [hhost, StringInst.kept_turns hstores turns hq]

/-- **`REP STOS` fills a block** with the bytes of the accumulator, if the elements have places of
their own.  No byte outside the block is changed. -/
theorem repStos_fills (hop : inst.op = .stos) {out : StepResult × Cpu}
    (hout : cpu.dispatchDecoded (inst.decodedRep dec rep pre) cpu.context.rip = out) :
    ∃ k, inst.RepRun rep pre cpu k out ∧ (inst.Apart k cpu →
      ∀ i < k, ∀ b < inst.bytes, ∀ q, inst.destPlace cpu i b = some q →
        out.2.memory.host.read q = (cpu.memory.host.read q).map fun _ =>
          (cpu.context.regs regRax >>> (8 * b)).setWidth 8) ∧
      ∀ q, (∀ i < k, ∀ b < inst.bytes, inst.destPlace cpu i b ≠ some q) →
        out.2.memory.host.read q = cpu.memory.host.read q := by
  subst hout
  obtain ⟨k, c, turns, hrun, hhost, -⟩ := StringInst.rep_run hm hexc inst rep dec pre
  have hstores : inst.op.stores = true := by rw [hop]; rfl
  refine ⟨k, hrun, fun hapart i hi b hb q hq => ?_, fun q hq => ?_⟩
  · have hstored := (StringInst.holds_turns hstores hapart turns le_rfl).stored i hi b hb q hq
    unfold StringInst.storedByte at hstored
    rw [if_neg (by rw [hop]; decide)] at hstored
    rw [hhost, hstored, inst.accumulator_byte cpu.context hb]
  · rw [hhost, StringInst.kept_turns hstores turns hq]

/-- **`REPE` and `REPNE` find the first pair** that differs or is equal: the pairs before the
last one do not end the comparison, the flags are those of the last pair, and the memory is
as it was. -/
theorem repScan_finds (hscan : inst.conditionalScan = true) {out : StepResult × Cpu}
    (hout : cpu.dispatchDecoded (inst.decodedRep dec rep pre) cpu.context.rip = out) :
    ∃ k, inst.RepRun rep pre cpu k out ∧ out.2.memory.host = cpu.memory.host ∧
      out.2.context.rflags = if k = 0 then cpu.context.rflags
        else compareFlags cpu.context.rflags (inst.comparedPair cpu (k - 1)).1
          (inst.comparedPair cpu (k - 1)).2 := by
  subst hout
  obtain ⟨k, c, turns, hrun, hhost, hflags⟩ := StringInst.rep_run hm hexc inst rep dec pre
  obtain ⟨hsame, hlast, hnone, -⟩ := StringInst.compared_turns hscan turns
  refine ⟨k, hrun, hhost.trans hsame, hflags.trans ?_⟩
  split_ifs with hk
  · exact hnone hk
  · exact hlast (k - 1) (by omega)

end Blocks

/-! ## A copy, a fill and a search -/

/-- `MOVSB` and `SCASB` in 64-bit code. -/
def movsbInst : StringInst := { stosbInst with op := .movs }

def scasbInst : StringInst := { stosbInst with op := .scas }

/-- A page at `0x1000`, in front of host memory that may be read and in which every byte has
its address. -/
def addressMemory : MemoryManager :=
  memoryCall (memoryCall (mmInit (.initial (fun a => a.setWidth 8) fun _ => true))
    (.layout (.map 0x1000 0x1000 (mmProtRead ||| mmProtWrite)))) (.setHostPassthrough mmProtRead true)

/-- Two bytes are to be copied from `0x41` to the page. -/
def copyCpu : Cpu where
  context :=
    { initCpuContext false with
      regs := fun reg => if reg = regRcx then 2 else if reg = regRdi then 0x1000 else 0x41 }
  memory := addressMemory
  hooks := .none
  asked := 0

theorem memoryOk_addressMemory : MemoryOk addressMemory :=
  (memoryCall_ok (memoryCall_ok (memoryOk_mmInit _)
    (.layout (.map 0x1000 0x1000 (mmProtRead ||| mmProtWrite)))).1
      (.setHostPassthrough mmProtRead true)).1

/-- A repetition whose first two elements may be accessed, and whose count is 2. -/
theorem StringInst.RepRun.both {inst : StringInst} {rep : RepPrefix} {pre : StringPrefix}
    {cpu : Cpu} {out : StepResult × Cpu} (h : inst.RepRun rep pre cpu k out)
    (hscan : inst.conditionalScan = false) (hcount : inst.count cpu = 2)
    (hreaches : ∀ i < 2, inst.Reaches cpu i) : k = 2 := by
  rcases h.ends with ⟨-, -, -, hk | ⟨htrue, -⟩⟩ | ⟨-, -, hlt, hrefused, -⟩
  · omega
  · rw [hscan] at htrue
    cases htrue
  · exact absurd (hreaches k (by omega)) hrefused

/-- The two bytes are copied. -/
theorem repMovs_copies_two :
    let out := copyCpu.dispatchDecoded (movsbInst.decodedRep .clear .repe repPrefix) 0
    ∃ q, movsbInst.destPlace copyCpu 1 0 = some q ∧ out.2.memory.host.read q = some 0x42 := by
  obtain ⟨k, hrun, hcopies, -⟩ := @repMovs_copies copyCpu memoryOk_addressMemory rfl movsbInst
    .repe .clear repPrefix rfl _ rfl
  obtain rfl := hrun.both rfl (by decide) (by decide +kernel)
  have hdest : ∀ i < 2, movsbInst.destPlace copyCpu i 0 = some (.heap 0 (BitVec.ofNat 64 i)) := by
    decide +kernel
  have hsource : ∀ i < 2, movsbInst.sourcePlace copyCpu i 0 =
      some (.user (0x41 + BitVec.ofNat 64 i)) := by
    decide +kernel
  have hapart : movsbInst.Apart 2 copyCpu := by
    refine ⟨fun i hi b hb j hj d hd q hq hq' => ?_, fun _ j hj i hi b hb d hd q hq hq' => ?_⟩
    · obtain rfl : b = 0 := Nat.lt_one_iff.mp hb
      obtain rfl : d = 0 := Nat.lt_one_iff.mp hd
      rw [hdest i hi] at hq
      rw [hdest j hj, ← hq, Option.some.injEq, HostPtr.heap.injEq] at hq'
      have hindex := congrArg BitVec.toNat hq'.2
      rw [BitVec.toNat_ofNat, BitVec.toNat_ofNat] at hindex
      exact ⟨by omega, rfl⟩
    · obtain rfl : b = 0 := Nat.lt_one_iff.mp hb
      obtain rfl : d = 0 := Nat.lt_one_iff.mp hd
      rw [hdest i (by omega)] at hq
      rw [hsource j hj, ← hq] at hq'
      cases hq'
  refine ⟨_, hdest 1 (by decide), ?_⟩
  refine (hcopies hapart 1 (by decide) 0 (by decide) _ _ (hsource 1 (by decide))
    (hdest 1 (by decide))).trans ?_
  decide +kernel

/-- The first byte of `0x41` is stored, and the second one is refused. -/
theorem repStos_fills_one :
    let out := pageEndCpu.dispatchDecoded (stosbInst.decodedRep .clear .repe repPrefix) 0
    ∃ q, stosbInst.destPlace pageEndCpu 0 0 = some q ∧ out.2.memory.host.read q = some 0x41 := by
  obtain ⟨k, hrun, hfills, -⟩ := @repStos_fills pageEndCpu memoryOk_pageMemory rfl stosbInst
    .repe .clear repPrefix rfl _ rfl
  have hrefused : ¬ stosbInst.Reaches pageEndCpu 1 := by decide +kernel
  have hreached : stosbInst.Reaches pageEndCpu 0 := by decide +kernel
  have hcount : stosbInst.count pageEndCpu = 2 := by decide
  have hle : k ≤ 1 := by
    by_contra hlt
    exact hrefused (hrun.reached 1 (by omega))
  obtain rfl : k = 1 := by
    rcases hrun.ends with ⟨-, -, -, hk | ⟨hscan, -⟩⟩ | ⟨-, -, -, hstop, -⟩
    · omega
    · cases hscan
    · by_contra hne
      obtain rfl : k = 0 := by omega
      exact hstop hreached
  have hdest : stosbInst.destPlace pageEndCpu 0 0 = some (.heap 0 0xFFF) := by decide +kernel
  have hapart : stosbInst.Apart 1 pageEndCpu := by
    refine ⟨fun i hi b hb j hj d hd q _ _ => ?_, fun huses => ?_⟩
    · have hb' : b < 1 := hb
      have hd' : d < 1 := hd
      omega
    · cases huses
  refine ⟨_, hdest, ?_⟩
  refine (hfills hapart 0 (by decide) 0 (by decide) _ hdest).trans ?_
  decide +kernel

/-- `REPNE SCASB` finds no byte `0x41` in two bytes, and leaves the flags of the second one. -/
theorem repScan_finds_none :
    let out := copyCpu.dispatchDecoded (scasbInst.decodedRep .clear .repne repPrefix) 0
    out.2.memory.host = copyCpu.memory.host ∧
      (∀ i < 2, ¬ scasbInst.PairEnds .repne copyCpu i) ∧
      out.2.context.rflags = compareFlags copyCpu.context.rflags
        (scasbInst.comparedPair copyCpu 1).1 (scasbInst.comparedPair copyCpu 1).2 := by
  obtain ⟨k, hrun, hhost, hflags⟩ := @repScan_finds copyCpu memoryOk_addressMemory rfl scasbInst
    .repne .clear repPrefix rfl _ rfl
  have hcount : scasbInst.count copyCpu = 2 := by decide
  have hreaches : ∀ i < 2, scasbInst.Reaches copyCpu i := by decide +kernel
  have hnone : ∀ i < 2, ¬ scasbInst.PairEnds .repne copyCpu i := by decide +kernel
  obtain rfl : k = 2 := by
    have hsum := hrun.count
    rcases hrun.ends with ⟨-, -, -, hk | ⟨-, hpos, hpair⟩⟩ | ⟨-, -, hlt, hrefused, -⟩
    · omega
    · exact absurd hpair (hnone (k - 1) (by omega))
    · exact absurd (hreaches k (by omega)) hrefused
  exact ⟨hhost, hnone, hflags⟩

end Cpueaxh
