/-
# Wide accesses byte by byte

A word, a doubleword or a quadword, as in `cpu/memory.hpp`: a read is the little-endian value
of the byte reads at successive addresses, a write that does not fault stores what the byte
writes store, and one that faults at a byte stores nothing and faults as the first such byte
does alone.  A fault reports its address in CR2 when it is a page fault; a byte that is not
at a canonical address raises `#GP` instead.
-/
import Cpueaxh.LinearBytes
import Cpueaxh.StringElement

namespace Cpueaxh

open ByteOrder HostMemory

/-! ## Successive byte accesses -/

/-- The byte reads at the successive addresses of an operand. -/
def readMemoryBytes (address : U64) : ℕ → U64 → CpuProgram (List U8)
  | 0, _ => return []
  | left + 1, offset => do
    let byte ← readMemoryByte (address + offset)
    let rest ← readMemoryBytes address left (offset + 1)
    return byte :: rest

/-- The byte writes of a value at the successive addresses of an operand, the lowest byte
first. -/
def writeMemoryBytes (address : U64) : ℕ → U64 → U64 → CpuProgram Unit
  | 0, _, _ => return ()
  | left + 1, offset, value => do
    writeMemoryByte (address + offset) (value.setWidth 8)
    writeMemoryBytes address left (offset + 1) (value >>> 8)

namespace Cpu

variable (cpu : Cpu)

/-- The write of a byte at an address faults. -/
def WriteFaults (address : U64) : Prop :=
  ((writeMemoryByte address 0).run cpuOp cpu).2.context.hasException = true

instance (address : U64) : Decidable (cpu.WriteFaults address) :=
  inferInstanceAs (Decidable (_ = true))

/-- The bytes of an operand have storage of their own: no two of them share a byte of the
host, and each of them is there. -/
structure SeparateBytes (size : ℕ) (address : U64) : Prop where
  distinct : ∀ i < size, ∀ j < size, ∀ p,
    cpu.dataPtr true (address + BitVec.ofNat 64 i) = some p →
    cpu.dataPtr true (address + BitVec.ofNat 64 j) = some p → i = j
  present : ∀ i < size, ∀ p, cpu.dataPtr true (address + BitVec.ofNat 64 i) = some p →
    (cpu.memory.host.read p).isSome = true

end Cpu

/-- What a wide access does, in terms of the byte accesses at its successive addresses. -/
structure WideAccess (cpu : Cpu) (size : ℕ) (address value : U64) : Prop where
  /-- A read faults as the byte reads do, and otherwise has their little-endian value. -/
  read :
    let wide := (readMemory size address).run cpuOp cpu
    let bytes := (readMemoryBytes address size 0).run cpuOp cpu
    wide.2.context = bytes.2.context ∧ wide.2.memory.host = bytes.2.memory.host ∧
      (wide.2.context.hasException = false → wide.1 = littleEndian 64 bytes.1)
  /-- A write that faults at a byte changes no byte, and its fault is that of the first such
  byte: a page fault at its address, or `#GP` where the address is not canonical. -/
  fault : ∀ j < size, cpu.WriteFaults (address + BitVec.ofNat 64 j) →
    (∀ i < j, ¬ cpu.WriteFaults (address + BitVec.ofNat 64 i)) →
    let out := ((writeMemory size address value).run cpuOp cpu).2
    let byte := ((writeMemoryByte (address + BitVec.ofNat 64 j) 0).run cpuOp cpu).2
    out.memory.host = cpu.memory.host ∧ out.context = byte.context ∧
      if cpu.context.is64BitCode && !cpuIsCanonicalAddress (address + BitVec.ofNat 64 j) then
        out.context.exception.code = cpuExceptionGp ∧
          out.context.controlRegs = cpu.context.controlRegs
      else
        out.context.exception.code = cpuExceptionPf ∧
          out.context.controlRegs regCr2 = address + BitVec.ofNat 64 j
  /-- Any other write stores what the byte writes store. -/
  stored : (∀ j < size, ¬ cpu.WriteFaults (address + BitVec.ofNat 64 j)) →
    let out := ((writeMemory size address value).run cpuOp cpu).2
    let bytes := ((writeMemoryBytes address size 0 value).run cpuOp cpu).2
    out.context = cpu.context ∧ bytes.context = cpu.context ∧
      out.memory.host = bytes.memory.host
  /-- Behind it, the byte reads have the bytes of the value, where these have storage of
  their own and may be read. -/
  reread : (∀ j < size, ¬ cpu.WriteFaults (address + BitVec.ofNat 64 j)) →
    cpu.SeparateBytes size address →
    let out := ((writeMemory size address value).run cpuOp cpu).2
    let bytes := (readMemoryBytes address size 0).run cpuOp out
    bytes.2.context.hasException = false → bytes.1 = littleEndianBytes size value

variable {cpu : Cpu} {store : Bool} {size : ℕ} {address : U64}

/-! ## The pointers of an operand -/

/-- Two permissions that the table both grants at an address have one pointer. -/
theorem accessView_ptr_alike {mgr : MemoryManager} {perm perm' : U32}
    (h : (accessView mgr address perm).status = .ok)
    (h' : (accessView mgr address perm').status = .ok) :
    (accessView mgr address perm).ptr = (accessView mgr address perm').ptr := by
  unfold accessView at h h' ⊢
  cases hentry : (pageEntry mgr address).map fun entry => entry.info address with
  | none =>
    rw [hentry] at h
    cases h
  | some info =>
    rw [hentry] at h h'
    unfold checkInfo at h h' ⊢
    -- the permission decides whether there is a pointer, not which
    by_cases hperm : info.perms &&& perm = 0
    · simp only [hperm, if_true] at h
      cases h
    by_cases hperm' : info.perms &&& perm' = 0
    · simp only [hperm', if_true] at h'
      cases h'
    simp only [if_neg hperm, if_neg hperm']

/-- What an access is granted is the pointer of the table. -/
theorem dataPtr_some {p : HostPtr} (h : cpu.dataPtr store address = some p) :
    (accessView cpu.memory address (dataAccess store).perm).status = .ok ∧
      p = (accessView cpu.memory address (dataAccess store).perm).ptr := by
  unfold Cpu.dataPtr grantedPtr at h
  split_ifs at h
  cases hjudge : judgeAccess cpu.context.isUser
      (accessView cpu.memory address (dataAccess store).perm) with
  | error violation =>
    rw [hjudge] at h
    cases h
  | ok q =>
    rw [hjudge] at h
    obtain rfl : q = p := Option.some.inj h
    refine ⟨?_, judgeAccess_ptr hjudge⟩
    unfold judgeAccess at hjudge
    rcases hstatus : (accessView cpu.memory address (dataAccess store).perm).status with _ | _ | _
    · rfl
    · rw [hstatus] at hjudge
      cases hjudge
    · rw [hstatus] at hjudge
      cases hjudge

/-- A byte that may be read and written has one pointer for both. -/
theorem dataPtr_alike {p q : HostPtr} (hread : cpu.dataPtr false address = some p)
    (hwrite : cpu.dataPtr true address = some q) : p = q := by
  obtain ⟨hok, rfl⟩ := dataPtr_some hread
  obtain ⟨hok', rfl⟩ := dataPtr_some hwrite
  exact accessView_ptr_alike hok hok'

/-- An operand that may be read and written has one list of pointers for both. -/
theorem operandPtrs_alike (left : ℕ) : ∀ {offset : U64} {ptrs ptrs' : List HostPtr},
    cpu.operandPtrs false address left offset = .ok ptrs →
    cpu.operandPtrs true address left offset = .ok ptrs' → ptrs = ptrs' := by
  intro offset ptrs ptrs' hread hwrite
  apply List.ext_getElem?
  intro i
  by_cases hi : i < left
  · have hfirst := operandPtrs_getElem left hread i hi
    have hsecond := operandPtrs_getElem left hwrite i hi
    cases hp : ptrs[i]? with
    | none =>
      rw [List.getElem?_eq_none_iff, operandPtrs_length left hread] at hp
      omega
    | some p =>
      cases hq : ptrs'[i]? with
      | none =>
        rw [List.getElem?_eq_none_iff, operandPtrs_length left hwrite] at hq
        omega
      | some q =>
        rw [hp] at hfirst
        rw [hq] at hsecond
        rw [dataPtr_alike hfirst hsecond]
  · rw [List.getElem?_eq_none, List.getElem?_eq_none]
    · rw [operandPtrs_length left hwrite]
      omega
    · rw [operandPtrs_length left hread]
      omega

/-- Bytes with storage of their own have different pointers, and each is to a byte. -/
theorem separateBytes_ptrs (h : cpu.SeparateBytes size address) {ptrs : List HostPtr}
    (hptrs : cpu.operandPtrs true address size 0 = .ok ptrs) :
    ptrs.Nodup ∧ ∀ p ∈ ptrs, (cpu.memory.host.read p).isSome = true := by
  have hlength := operandPtrs_length size hptrs
  have hget : ∀ i (hi : i < ptrs.length),
      cpu.dataPtr true (address + BitVec.ofNat 64 i) = some ptrs[i] := by
    intro i hi
    have hptr := operandPtrs_getElem size hptrs i (by omega)
    rwa [show (0 : U64) + BitVec.ofNat 64 i = BitVec.ofNat 64 i from BitVec.zero_add _,
      List.getElem?_eq_getElem hi] at hptr
  constructor
  · rw [List.nodup_iff_injective_get]
    rintro ⟨i, hi⟩ ⟨j, hj⟩ heq
    have hj' := hget j hj
    rw [show ptrs[j] = ptrs[i] from heq.symm] at hj'
    exact Fin.ext (h.distinct i (by omega) j (by omega) _ (hget i hi) hj')
  · intro p hp
    obtain ⟨i, hi, rfl⟩ := List.getElem_of_mem hp
    exact h.present i (by omega) _ (hget i hi)

/-! ## Runs of byte accesses -/

/-- A byte read under a pending exception. -/
theorem run_readMemoryBytes_pending (hexc : cpu.context.hasException = true) (left : ℕ) :
    ∀ offset, ((readMemoryBytes address left offset).run viewOp cpu).2 = cpu := by
  induction left with
  | zero => exact fun _ => rfl
  | succ left ih =>
    intro offset
    have hbyte : (readMemoryByte (address + offset)).run viewOp cpu = (0, cpu) := by
      unfold readMemoryByte
      rw [Program.run_bind, run_cpuResolve_pending hexc]
      rfl
    unfold readMemoryBytes
    rw [Program.run_bind, hbyte, Program.run_bind]
    exact ih (offset + 1)

/-- **The byte reads** fault at the first byte that is refused, or have the bytes. -/
theorem run_readMemoryBytes (hexc : cpu.context.hasException = false) (left : ℕ) : ∀ offset,
    match cpu.operandPtrs false address left offset with
    | .error a => ((readMemoryBytes address left offset).run viewOp cpu).2 = cpu.refused false a
    | .ok ptrs => (readMemoryBytes address left offset).run viewOp cpu =
      (hostBytes cpu.memory.host ptrs, cpu) := by
  induction left with
  | zero => exact fun _ => rfl
  | succ left ih =>
    intro offset
    unfold readMemoryBytes Cpu.operandPtrs
    rw [Program.run_bind]
    cases hptr : cpu.dataPtr false (address + offset) with
    | none =>
      -- the first byte is refused, and the later reads change nothing
      have hpending := refused_hasException hexc hptr
      have hbyte : (readMemoryByte (address + offset)).run viewOp cpu =
          (0, cpu.refused false (address + offset)) := by
        unfold readMemoryByte
        rw [Program.run_bind, run_cpuResolve hexc, hptr]
        rfl
      rw [hbyte, Program.run_bind]
      exact run_readMemoryBytes_pending hpending left (offset + 1)
    | some p =>
      have hrest := ih (offset + 1)
      have hbyte : (readMemoryByte (address + offset)).run viewOp cpu =
          ((cpu.memory.host.read p).getD 0, cpu) := by
        unfold readMemoryByte
        rw [Program.run_bind, run_cpuResolve hexc, hptr]
        rfl
      rw [hbyte, Program.run_bind]
      cases hptrs : cpu.operandPtrs false address left (offset + 1) with
      | error a =>
        rw [hptrs] at hrest
        exact hrest
      | ok ptrs =>
        rw [hptrs] at hrest
        simp only [Except.map] at hrest ⊢
        rw [hrest]
        rfl

/-- **The byte writes** of a value whose bytes all have a pointer. -/
theorem run_writeMemoryBytes (left : ℕ) : ∀ {cpu : Cpu} {offset value : U64}
    {ptrs : List HostPtr}, cpu.context.hasException = false →
    cpu.operandPtrs true address left offset = .ok ptrs →
    (writeMemoryBytes address left offset value).run viewOp cpu =
      ((), cpu.setHost (storeBytes cpu.memory.host ptrs value)) := by
  induction left with
  | zero =>
    intro cpu offset value ptrs _ hptrs
    cases hptrs
    rfl
  | succ left ih =>
    intro cpu offset value ptrs hexc hptrs
    unfold Cpu.operandPtrs at hptrs
    cases hfirst : cpu.dataPtr true (address + offset) with
    | none =>
      rw [hfirst] at hptrs
      cases hptrs
    | some p =>
      rw [hfirst] at hptrs
      cases hrest : cpu.operandPtrs true address left (offset + 1) with
      | error a =>
        rw [hrest] at hptrs
        cases hptrs
      | ok rest =>
        rw [hrest] at hptrs
        obtain rfl := Except.ok.inj hptrs
        have hbyte : (writeMemoryByte (address + offset) (value.setWidth 8)).run viewOp cpu =
            ((), cpu.setHost (cpu.memory.host.write p (value.setWidth 8))) := by
          unfold writeMemoryByte
          rw [Program.run_bind, run_cpuResolve hexc, hfirst]
          rfl
        unfold writeMemoryBytes
        rw [Program.run_bind, hbyte]
        -- the table grants the later bytes what it granted before
        have hptrs' := @operandPtrs_congr cpu true address
          (cpu.setHost (cpu.memory.host.write p (value.setWidth 8))) (fun _ => rfl) left
          (offset + 1)
        exact (@ih (cpu.setHost (cpu.memory.host.write p (value.setWidth 8))) _ _ _ hexc
          (hptrs'.trans hrest)).trans rfl

/-- The bytes of a value are stored one by one. -/
theorem storeBytes_commitHost (ptrs : List HostPtr) : ∀ (host : HostMemory) (value : U64),
    storeBytes host ptrs value = commitHost host ptrs (littleEndianBytes ptrs.length value) := by
  induction ptrs with
  | nil => exact fun _ _ => rfl
  | cons p rest ih => exact fun host value => ih _ _

/-! ## Faults -/

/-- The write of a byte faults where it has no pointer. -/
theorem writeFaults_iff (hm : MemoryOk cpu.memory) (hexc : cpu.context.hasException = false)
    (address : U64) : cpu.WriteFaults address ↔ cpu.dataPtr true address = none := by
  unfold Cpu.WriteFaults
  rw [(run_viewOp (writeMemoryByte address 0) hm).2.context_eq]
  unfold writeMemoryByte
  rw [Program.run_bind, run_cpuResolve hexc]
  cases hptr : cpu.dataPtr true address with
  | none =>
    refine ⟨fun _ => rfl, fun _ => ?_⟩
    exact refused_hasException hexc hptr
  | some p =>
    constructor
    · intro hfault
      rw [show ((do
        perform (.notify .memWrite address 1 ((0 : U8).setWidth 64))
        perform (.store p 0) : CpuProgram Unit).run viewOp cpu).2.context = cpu.context from rfl,
        hexc] at hfault
      cases hfault
    · rintro ⟨⟩

/-- **The fault of a byte**: a page fault at its address, or `#GP` where it is not canonical. -/
theorem refused_fault (hexc : cpu.context.hasException = false)
    (h : cpu.dataPtr store address = none) :
    if cpu.context.is64BitCode && !cpuIsCanonicalAddress address then
      (cpu.refused store address).context.exception.code = cpuExceptionGp ∧
        (cpu.refused store address).context.controlRegs = cpu.context.controlRegs
    else
      (cpu.refused store address).context.exception.code = cpuExceptionPf ∧
        (cpu.refused store address).context.controlRegs regCr2 = address := by
  have hraise : ∀ (ctx : CpuContext) code errorCode, ctx.exception = cpu.context.exception →
      ctx.raiseException code errorCode =
        { ctx with exception := { code := code, errorCode := errorCode } } := by
    intro ctx code errorCode hctx
    unfold CpuContext.raiseException
    rw [if_neg]
    unfold CpuContext.hasException at hexc ⊢
    rw [hctx, hexc]
    decide
  unfold Cpu.dataPtr grantedPtr at h
  unfold Cpu.refused accessOutcome
  rw [hexc]
  simp only [Bool.false_eq_true, if_false]
  split_ifs at h ⊢ with hcanonical
  · unfold cpuRaiseNoncanonicalAddress
    rw [if_neg (by decide), hraise _ _ _ rfl]
    exact ⟨rfl, rfl⟩
  · cases hjudge : judgeAccess cpu.context.isUser
        (accessView cpu.memory address (dataAccess store).perm) with
    | ok p =>
      rw [hjudge] at h
      cases h
    | error violation =>
      simp only
      unfold cpuRaisePageFault
      rw [hraise { cpu.context with
        controlRegs := Function.update cpu.context.controlRegs regCr2 address } _ _ rfl]
      refine ⟨rfl, ?_⟩
      exact Function.update_self regCr2 address cpu.context.controlRegs

/-! ## The law -/

/-- **Wide accesses** are the byte accesses at successive addresses. -/
theorem wide_access_law (hm : MemoryOk cpu.memory) (hexc : cpu.context.hasException = false)
    (hsize : 0 < size) (address value : U64) : WideAccess cpu size address value := by
  have hzero : ∀ i, (0 : U64) + BitVec.ofNat 64 i = BitVec.ofNat 64 i := fun i =>
    BitVec.zero_add _
  -- a write none of whose bytes faults has a pointer for each of them
  have hgranted : (∀ j < size, ¬ cpu.WriteFaults (address + BitVec.ofNat 64 j)) →
      ∃ ptrs, cpu.operandPtrs true address size 0 = .ok ptrs := by
    intro hnone
    apply operandPtrs_all
    intro i hi
    rw [hzero]
    exact fun hptr => hnone i hi ((writeFaults_iff hm hexc _).mpr hptr)
  have hwrite := run_writeMemory hm.manager hexc hsize address value
  have hwritten := (run_viewOp (writeMemory size address value) hm).2
  constructor
  · have hwide := run_viewOp (readMemory size address) hm
    have hbytes := run_viewOp (readMemoryBytes address size 0) hm
    have hread := run_readMemory hm.manager hexc hsize address
    have hreads := @run_readMemoryBytes cpu address hexc size 0
    simp only
    rw [hwide.1, hbytes.1, hwide.2.context_eq, hbytes.2.context_eq, hwide.2.host_eq,
      hbytes.2.host_eq, hread]
    cases hptrs : cpu.operandPtrs false address size 0 with
    | error a =>
      rw [hptrs] at hreads
      simp only at hreads ⊢
      rw [hreads]
      refine ⟨rfl, rfl, fun hnone => ?_⟩
      have hpending := refused_hasException hexc (operandPtrs_error size hptrs)
      rw [hpending] at hnone
      cases hnone
    | ok ptrs =>
      rw [hptrs] at hreads
      simp only at hreads ⊢
      rw [hreads]
      exact ⟨rfl, rfl, fun _ => loadValue_littleEndian _ _⟩
  -- the write faults at the first byte that may not be written, as a write of that byte does
  · intro j hj hfault hbefore
    rw [writeFaults_iff hm hexc] at hfault
    have hptrs := @operandPtrs_first_none cpu true address size 0 j hj (by rwa [hzero]) fun i hi => by
      rw [hzero]
      exact fun hptr => hbefore i hi ((writeFaults_iff hm hexc _).mpr hptr)
    rw [hzero] at hptrs
    rw [hptrs] at hwrite
    have hbyte : (writeMemoryByte (address + BitVec.ofNat 64 j) 0).run viewOp cpu =
        ((), cpu.refused true (address + BitVec.ofNat 64 j)) := by
      unfold writeMemoryByte
      rw [Program.run_bind, run_cpuResolve hexc, hfault]
      rfl
    simp only
    rw [hwritten.context_eq, hwritten.host_eq, hwrite,
      (run_viewOp (writeMemoryByte (address + BitVec.ofNat 64 j) 0) hm).2.context_eq, hbyte]
    exact ⟨rfl, rfl, refused_fault hexc hfault⟩
  · intro hnone
    obtain ⟨ptrs, hptrs⟩ := hgranted hnone
    have hbytes := (run_viewOp (writeMemoryBytes address size 0 value) hm).2
    rw [hptrs] at hwrite
    simp only
    rw [hwritten.context_eq, hwritten.host_eq, hbytes.context_eq, hbytes.host_eq, hwrite,
      run_writeMemoryBytes size hexc hptrs]
    exact ⟨rfl, rfl, rfl⟩
  · intro hnone hseparate
    obtain ⟨ptrs, hptrs⟩ := hgranted hnone
    -- bytes with places of their own are read back as they were written
    obtain ⟨hnodup, hpresent⟩ := separateBytes_ptrs hseparate hptrs
    have hlength := operandPtrs_length size hptrs
    rw [hptrs] at hwrite
    rw [hwrite] at hwritten
    have hbytes := run_viewOp_from (readMemoryBytes address size 0) hwritten
    -- behind the write the table grants what it granted before
    have hreads := @run_readMemoryBytes
      (cpu.setHost (storeBytes cpu.memory.host ptrs value)) address hexc size 0
    rw [@operandPtrs_congr cpu false address
      (cpu.setHost (storeBytes cpu.memory.host ptrs value)) (fun _ => rfl) size 0] at hreads
    simp only
    rw [hbytes.1, hbytes.2.context_eq]
    intro hdone
    cases hread : cpu.operandPtrs false address size 0 with
    | error a =>
      rw [hread] at hreads
      simp only at hreads
      have hpending := @refused_hasException
        (cpu.setHost (storeBytes cpu.memory.host ptrs value)) false a hexc
        (@operandPtrs_error cpu false address a size 0 hread)
      rw [hreads, hpending] at hdone
      cases hdone
    | ok ptrs' =>
      obtain rfl := operandPtrs_alike size hread hptrs
      rw [hread] at hreads
      simp only at hreads
      rw [hreads]
      change hostBytes (storeBytes cpu.memory.host ptrs' value) ptrs' = _
      rw [storeBytes_commitHost, hlength]
      exact hostBytes_commitHost ptrs' _ _ hnodup hpresent
        (by rw [hlength, littleEndianBytes_length])

/-- A doubleword across a page boundary of a CPU in host mode. -/
theorem wide_access_law_example :
    WideAccess (hostCpu (initCpuContext true) fun _ => 0) 4 0xFFE 0x44332211 :=
  wide_access_law (memoryOk_hostCpu _ _) rfl (by decide) _ _

/-- Two pages of guest memory in host memory, of which the second begins two bytes before the end
of the first. -/
def sharedMemory : MemoryManager :=
  memoryCall
    (memoryCall (mmInit (.initial (fun _ => 0) fun _ => true))
      (.layout (.mapPtr 0x1000 0x1000 (mmProtRead ||| mmProtWrite) 0x10000)))
    (.layout (.mapPtr 0x2000 0x1000 (mmProtRead ||| mmProtWrite) 0x10FFE))

theorem memoryOk_sharedMemory : MemoryOk sharedMemory :=
  (memoryCall_ok (memoryCall_ok (memoryOk_mmInit _) _).1 _).1

/-- A CPU over this memory. -/
def sharedCpu : Cpu where
  context := initCpuContext false
  memory := sharedMemory
  hooks := .none
  asked := 0

/-- A doubleword across the boundary of pages that share bytes of the host is not read back, and
a write to an address that is not canonical reports none in CR2. -/
theorem wide_access_exceptions :
    (¬ ∀ cpu : Cpu, MemoryOk cpu.memory → cpu.context.hasException = false →
      ∀ address value : U64, (∀ j < 4, ¬ cpu.WriteFaults (address + BitVec.ofNat 64 j)) →
        ((readMemoryBytes address 4 0).run cpuOp
          ((writeMemory 4 address value).run cpuOp cpu).2).1 = littleEndianBytes 4 value) ∧
    ¬ ∀ cpu : Cpu, MemoryOk cpu.memory → cpu.context.hasException = false →
      ∀ address value : U64, cpu.WriteFaults address →
        ((writeMemory 4 address value).run cpuOp cpu).2.context.controlRegs regCr2 =
          address := by
  constructor
  · intro h
    have hread := h sharedCpu memoryOk_sharedMemory rfl 0x1FFE 0x44332211 (by decide)
    exact absurd hread (by decide)
  · intro h
    have hcr2 := h sharedCpu memoryOk_sharedMemory rfl 0x800000000000 0 (by decide)
    exact absurd hcr2 (by decide)

end Cpueaxh
