/-
# Which masked accesses keep to the selected lanes

The stores under a mask and the gathers touch the selected lanes only.  The loads under a mask
read the vector in blocks of sixteen bytes whatever the mask says, so they keep to the selected
lanes if all lanes are selected, and otherwise only if they are refused in a selected lane
before a block with another lane has been read.
-/
import Cpueaxh.FloatRestore
import Cpueaxh.MaskedAccess

namespace Cpueaxh

open ByteOrder HostMemory Program

variable {cpu : Cpu} {store : Bool} {size : ℕ} {address : U64}

/-! ## Lanes behind one another -/

/-- The lanes of a vector at an address. -/
def vectorLanes (size : ℕ) (address : U64) (selected : ℕ → Bool) (count : ℕ) : List (Bool × U64) :=
  lanesFrom selected (fun i => address + BitVec.ofNat 64 (i * size)) count 0

theorem mem_lanesFrom {selected : ℕ → Bool} {laneAddress : ℕ → U64} {lane : Bool × U64}
    (left : ℕ) : ∀ {i : ℕ}, lane ∈ lanesFrom selected laneAddress left i ↔
      ∃ j < left, lane = (selected (i + j), laneAddress (i + j)) := by
  induction left with
  | zero =>
    intro i
    refine iff_of_false List.not_mem_nil ?_
    rintro ⟨j, hj, -⟩
    exact Nat.not_lt_zero j hj
  | succ left ih =>
    intro i
    rw [lanesFrom, List.mem_cons, ih]
    constructor
    · rintro (rfl | ⟨j, hj, rfl⟩)
      · exact ⟨0, left.succ_pos, rfl⟩
      · exact ⟨j + 1, by omega, by rw [Nat.add_right_comm, Nat.add_assoc]⟩
    · rintro ⟨_ | j, hj, rfl⟩
      · exact .inl rfl
      · exact .inr ⟨j, by omega, by rw [Nat.add_right_comm, Nat.add_assoc]⟩

/-- Offsets below `2^64` are different. -/
theorem add_ofNat_inj {m n : ℕ} (hm : m < 2 ^ 64) (hn : n < 2 ^ 64)
    (h : address + BitVec.ofNat 64 m = address + BitVec.ofNat 64 n) : m = n := by
  have hnat := congrArg BitVec.toNat (BitVec.add_right_inj address |>.mp h)
  rwa [BitVec.toNat_ofNat, BitVec.toNat_ofNat, Nat.mod_eq_of_lt hm, Nat.mod_eq_of_lt hn] at hnat

/-- A byte of a vector is selected with its lane. -/
theorem mem_selectedBytes_vector {selected : ℕ → Bool} {count i j : ℕ}
    (hbound : count * size < 2 ^ 64) (hi : i < count) (hj : j < size) :
    address + BitVec.ofNat 64 (i * size + j) ∈
      selectedBytes size (vectorLanes size address selected count) ↔ selected i = true := by
  have hle : ∀ {k l : ℕ}, k < count → l < size → k * size + l < 2 ^ 64 := by
    intro k l hk hl
    have := Nat.mul_le_mul_right size (Nat.succ_le_of_lt hk)
    rw [Nat.succ_mul] at this
    omega
  rw [mem_selectedBytes]
  constructor
  · rintro ⟨lane, hlane, hsel, hmem⟩
    obtain ⟨k, hk, rfl⟩ := (mem_lanesFrom count).mp hlane
    obtain ⟨l, hl, heq⟩ := mem_byteRange.mp hmem
    simp only [Nat.zero_add] at hsel heq
    rw [BitVec.add_assoc, ← BitVec.ofNat_add] at heq
    have hoffset := add_ofNat_inj (hle hi hj) (hle hk hl) heq
    -- the quotient of the offset by the size is the lane
    have hlane : i = k := by
      have hpos : 0 < size := by omega
      have h₁ := congrArg (· / size) hoffset
      simp only [Nat.add_comm (i * size), Nat.add_comm (k * size), Nat.add_mul_div_right _ _ hpos,
        Nat.div_eq_of_lt hj, Nat.div_eq_of_lt hl, Nat.zero_add] at h₁
      exact h₁
    rwa [hlane]
  · intro hsel
    refine ⟨_, (mem_lanesFrom count).mpr ⟨i, hi, rfl⟩, by rwa [Nat.zero_add], ?_⟩
    refine mem_byteRange.mpr ⟨j, hj, ?_⟩
    rw [Nat.zero_add, BitVec.add_assoc, ← BitVec.ofNat_add]

/-- The selected bytes are bytes of the vector. -/
theorem selectedBytes_subset {selected : ℕ → Bool} {count : ℕ} {a : U64}
    (h : a ∈ selectedBytes size (vectorLanes size address selected count)) :
    a ∈ byteRange address (count * size) := by
  obtain ⟨lane, hlane, -, hmem⟩ := mem_selectedBytes.mp h
  obtain ⟨i, hi, rfl⟩ := (mem_lanesFrom count).mp hlane
  obtain ⟨j, hj, rfl⟩ := mem_byteRange.mp hmem
  have hle := Nat.mul_le_mul_right size (Nat.succ_le_of_lt hi)
  rw [Nat.succ_mul] at hle
  refine mem_byteRange.mpr ⟨i * size + j, by omega, ?_⟩
  rw [Nat.zero_add, BitVec.add_assoc, ← BitVec.ofNat_add]

/-- If all lanes are selected, the bytes are those of the vector. -/
theorem selectedBytes_all (size : ℕ) (address : U64) {selected : ℕ → Bool} (left : ℕ) : ∀ {i : ℕ},
    (∀ j < left, selected (i + j) = true) →
    selectedBytes size (lanesFrom selected (fun i => address + BitVec.ofNat 64 (i * size)) left i) =
      byteRange (address + BitVec.ofNat 64 (i * size)) (left * size) := by
  induction left with
  | zero =>
    intro i _
    simp [lanesFrom, selectedBytes, byteRange]
  | succ left ih =>
    intro i hall
    have hnext : i * size + size = (i + 1) * size := (Nat.succ_mul i size).symm
    have htotal : (left + 1) * size = size + left * size := by rw [Nat.succ_mul, Nat.add_comm]
    rw [lanesFrom, selectedBytes_cons, if_pos (show selected i = true from hall 0 left.succ_pos),
      ih fun j hj => by
        rw [Nat.add_right_comm, Nat.add_assoc]
        exact hall (j + 1) (by omega),
      htotal, byteRange_append, BitVec.add_assoc,
      ← BitVec.ofNat_add, hnext]

/-- If all lanes are selected, the pointers are those of the vector. -/
theorem lanePtrs_all (cpu : Cpu) (store : Bool) (size : ℕ) (address : U64)
    {selected : ℕ → Bool} (left : ℕ) : ∀ {i : ℕ},
    (∀ j < left, selected (i + j) = true) →
    cpu.lanePtrs store size
        (lanesFrom selected (fun i => address + BitVec.ofNat 64 (i * size)) left i) =
      cpu.operandPtrs store (address + BitVec.ofNat 64 (i * size)) (left * size) 0 := by
  induction left with
  | zero =>
    intro i _
    rw [Nat.zero_mul]
    rfl
  | succ left ih =>
    intro i hall
    have hnext : i * size + size = (i + 1) * size := (Nat.succ_mul i size).symm
    have htotal : (left + 1) * size = size + left * size := by rw [Nat.succ_mul, Nat.add_comm]
    rw [lanesFrom, Cpu.lanePtrs, if_pos (show selected i = true from hall 0 left.succ_pos),
      ih fun j hj => by
        rw [Nat.add_right_comm, Nat.add_assoc]
        exact hall (j + 1) (by omega),
      htotal, operandPtrs_add, BitVec.add_assoc,
      ← BitVec.ofNat_add, hnext]

/-! ## Reading vectors -/

/-- The blocks of sixteen bytes that are read of a vector of `n` blocks. -/
def Cpu.blocksRead (cpu : Cpu) (address : U64) (n : ℕ) : ℕ :=
  match cpu.operandPtrs false address (16 * n) 0 with
  | .ok _ => n
  | .error b => (b - address).toNat / 16

/-- A program that reads a vector of `n` blocks, block by block. -/
structure VectorRead {α : Type} (cpu : Cpu) (address : U64) (n : ℕ) (p : CpuProgram α) : Prop where
  traffic : ∃ loaded reads, Traffic (p.calls viewOp cpu) loaded [] reads [] ∧
    (reads.flatMap fun r => byteRange r.1 r.2) = byteRange address (16 * cpu.blocksRead address n) ∧
    cpu.operandPtrs false address (16 * cpu.blocksRead address n) 0 = .ok loaded
  after : (p.run viewOp cpu).2 =
    match cpu.operandPtrs false address (16 * n) 0 with
    | .ok _ => cpu
    | .error b => cpu.refused false b
  refusals : p.Along viewOp
    (RefusedAt fun a => cpu.operandPtrs false address (16 * n) 0 = .error a) cpu
  unraised : p.Within CpuOp.Unraised

/-- The bytes of a block as a register. -/
def xmmOfBytes (bytes : List U8) : XMMRegister :=
  { low := field 64 bytes 0, high := field 64 bytes 8 }

theorem run_readXmmMemory (hm : ManagerOk cpu.memory) (hexc : cpu.context.hasException = false)
    (address : U64) : (readXmmMemory address).run viewOp cpu =
      match cpu.operandPtrs false address 16 0 with
      | .error a => (.zero, cpu.refused false a)
      | .ok ptrs => (xmmOfBytes (hostBytes cpu.memory.host ptrs), cpu) := by
  unfold readXmmMemory
  rw [Program.run_bind, run_readLinearBytes hm hexc (by decide)]
  cases cpu.operandPtrs false address 16 0 with
  | error a => rfl
  | ok ptrs =>
    simp only [Program.run_bind, run_notifyFields]
    rfl

/-- A block under a pending exception. -/
theorem run_readXmmMemory_pending (hexc : cpu.context.hasException = true) (address : U64) :
    (readXmmMemory address).run viewOp cpu = (.zero, cpu) ∧
      QuietTrace ((readXmmMemory address).calls viewOp cpu) := by
  have hpending : (cpuHasException).run viewOp cpu = (cpu.context.hasException, cpu) := rfl
  have hread : (readLinearBytes address 16).run viewOp cpu = (none, cpu) ∧
      QuietTrace ((readLinearBytes address 16).calls viewOp cpu) := by
    unfold readLinearBytes
    rw [Program.run_bind, calls_bind, hpending]
    simp only [hexc, if_true]
    exact ⟨rfl, rfl, rfl, rfl, rfl⟩
  unfold readXmmMemory
  rw [Program.run_bind, calls_bind, hread.1]
  exact ⟨rfl, hread.2.append QuietTrace.nil⟩

theorem traffic_notifyFields (address : U64) (bytes : List U8) :
    ∀ fields, Traffic ((notifyFields .memRead address bytes fields).calls viewOp cpu) [] []
      (fields.map fun f => (address + BitVec.ofNat 64 f.1, f.2)) []
  | [] => QuietTrace.nil
  | (offset, size) :: fields => by
    have hfirst : Traffic ((perform (.notify .memRead (address + BitVec.ofNat 64 offset) size
        (littleEndian 64 ((bytes.drop offset).take size)))).calls viewOp cpu) [] []
        [(address + BitVec.ofNat 64 offset, size)] [] := ⟨rfl, rfl, rfl, rfl⟩
    unfold notifyFields
    rw [calls_bind]
    exact hfirst.append (traffic_notifyFields address bytes fields)

theorem direct_notifyFields (address : U64) (bytes : List U8) :
    ∀ fields, (notifyFields .memRead address bytes fields).Within CpuOp.Direct
  | [] => within_pure _
  | (offset, size) :: fields => by
    unfold notifyFields
    exact (within_perform trivial).bind fun _ => direct_notifyFields address bytes fields

theorem unraised_notifyFields (address : U64) (bytes : List U8) :
    ∀ fields, (notifyFields .memRead address bytes fields).Within CpuOp.Unraised
  | [] => within_pure _
  | (offset, size) :: fields => by
    unfold notifyFields
    exact (within_perform trivial).bind fun _ => unraised_notifyFields address bytes fields

theorem unraised_loadList : ∀ ptrs : List HostPtr, (loadList ptrs).Within CpuOp.Unraised
  | [] => within_pure _
  | p :: ptrs => by
    have hload : (perform (.load p)).Within CpuOp.Unraised := within_perform trivial
    unfold loadList
    exact hload.bind fun byte => (unraised_loadList ptrs).bind fun bytes => within_pure _

theorem CpuOp.Probe.unraised {o : CpuOp} (h : o.Probe) : o.Unraised := by
  cases o <;> trivial

theorem unraised_readLinearBytes (address : U64) (size : ℕ) :
    (readLinearBytes address size).Within CpuOp.Unraised := by
  have hlook : cpuHasException.Within CpuOp.Unraised := probe_cpuHasException.mono fun _ h => CpuOp.Probe.unraised h
  unfold readLinearBytes
  refine hlook.bind fun pending => ?_
  cases pending with
  | true => exact within_pure _
  | false =>
    refine ((probe_tryGetContiguousPtr _ _ _).mono fun _ h => CpuOp.Probe.unraised h).bind fun p => ?_
    cases p with
    | some p => exact (unraised_loadList _).bind fun bytes => within_pure _
    | none =>
      refine hlook.bind fun pending => ?_
      cases pending with
      | true => exact within_pure _
      | false =>
        refine ((probe_resolveBytes _ _ _ _).mono fun _ h => CpuOp.Probe.unraised h).bind fun ptrs => ?_
        cases ptrs with
        | none => exact within_pure _
        | some ptrs => exact (unraised_loadList _).bind fun bytes => within_pure _

theorem unraised_readXmmMemory (address : U64) :
    (readXmmMemory address).Within CpuOp.Unraised := by
  unfold readXmmMemory
  refine (unraised_readLinearBytes _ _).bind fun bytes => ?_
  cases bytes with
  | none => exact within_pure _
  | some bytes => exact (unraised_notifyFields _ _ _).bind fun _ => within_pure _

/-- What a block loads and reports. -/
theorem traffic_readXmmMemory (hm : ManagerOk cpu.memory) (hexc : cpu.context.hasException = false)
    (address : U64) :
    match cpu.operandPtrs false address 16 0 with
    | .error _ => QuietTrace ((readXmmMemory address).calls viewOp cpu)
    | .ok ptrs => Traffic ((readXmmMemory address).calls viewOp cpu) ptrs []
        [(address, 8), (address + 8, 8)] [] := by
  have hread := traffic_readLinearBytes hm hexc address (show 0 < 16 by decide)
  unfold readXmmMemory
  rw [calls_bind, run_readLinearBytes hm hexc (by decide)]
  cases hptrs : cpu.operandPtrs false address 16 0 with
  | error a =>
    rw [hptrs] at hread
    exact hread.append QuietTrace.nil
  | ok ptrs =>
    rw [hptrs] at hread
    have hfields := @traffic_notifyFields cpu address
      (hostBytes cpu.memory.host ptrs) [(0, 8), (8, 8)]
    have hzero : address + BitVec.ofNat 64 0 = address := BitVec.add_zero address
    simp only [List.map_cons, List.map_nil, hzero] at hfields
    simp only [calls_bind]
    simpa using hread.append hfields

theorem refused_readXmmMemory (hm : ManagerOk cpu.memory) (hexc : cpu.context.hasException = false)
    (address : U64) : (readXmmMemory address).Along viewOp
      (RefusedAt fun a => cpu.operandPtrs false address 16 0 = .error a) cpu := by
  unfold readXmmMemory
  refine along_bind.mpr ⟨refused_readLinearBytes hm hexc (by decide) address, ?_⟩
  rw [run_readLinearBytes hm hexc (by decide)]
  cases cpu.operandPtrs false address 16 0 with
  | error a => exact along_pure _ _
  | ok ptrs => exact along_of_direct ((direct_notifyFields _ _ _).bind fun _ => within_pure _)

theorem byteRange_block (address : U64) :
    byteRange address 8 ++ byteRange (address + 8) 8 = byteRange address 16 :=
  (byteRange_append address 8 8).symm

/-- The block of a byte in it. -/
theorem block_index (address : U64) {k j : ℕ} (hk : k < 2 ^ 32) (hj : j < 16) :
    (address + BitVec.ofNat 64 (16 * k + j) - address).toNat / 16 = k := by
  have hoffset : address + BitVec.ofNat 64 (16 * k + j) - address = BitVec.ofNat 64 (16 * k + j) := by
    rw [BitVec.add_comm, BitVec.add_sub_cancel]
  rw [hoffset, BitVec.toNat_ofNat, Nat.mod_eq_of_lt (by omega)]
  omega

/-- **One block.** -/
theorem vectorRead_xmm (hm : ManagerOk cpu.memory) (hexc : cpu.context.hasException = false)
    (address : U64) : VectorRead cpu address 1 (readXmmMemory address) := by
  have hrun := run_readXmmMemory hm hexc address
  have htraffic := traffic_readXmmMemory hm hexc address
  refine ⟨?_, ?_, refused_readXmmMemory hm hexc address, unraised_readXmmMemory address⟩
  · unfold Cpu.blocksRead
    simp only [Nat.mul_one]
    cases hptrs : cpu.operandPtrs false address 16 0 with
    | error b =>
      rw [hptrs] at htraffic
      obtain ⟨hmem, -⟩ := operandPtrs_error_range hptrs
      obtain ⟨j, hj, rfl⟩ := mem_byteRange.mp hmem
      have hblock : (address + BitVec.ofNat 64 j - address).toNat / 16 = 0 := by
        simpa using block_index address (show 0 < 2 ^ 32 by decide) hj
      simp only [hblock, Nat.mul_zero]
      exact ⟨[], [], htraffic, rfl, rfl⟩
    | ok ptrs =>
      rw [hptrs] at htraffic
      refine ⟨ptrs, _, htraffic, ?_, hptrs⟩
      simpa using byteRange_block address
  · rw [hrun]
    simp only [Nat.mul_one]
    cases cpu.operandPtrs false address 16 0 <;> rfl

/-- **Two blocks.** -/
theorem vectorRead_ymm (hm : ManagerOk cpu.memory) (hexc : cpu.context.hasException = false)
    (address : U64) : VectorRead cpu address 2 (readYmmMemory address) := by
  -- the vector is read in two blocks of 16 bytes
  have htotal : cpu.operandPtrs false address (16 * 2) 0 = _ := operandPtrs_add 16 16 address
  have hfirst := traffic_readXmmMemory hm hexc address
  have hsecond := traffic_readXmmMemory hm hexc (address + BitVec.ofNat 64 16)
  have hrefused := refused_readXmmMemory hm hexc address
  have hrefused' := refused_readXmmMemory hm hexc (address + BitVec.ofNat 64 16)
  have hread : readYmmMemory address = (readXmmMemory address >>= fun low =>
    readXmmMemory (address + BitVec.ofNat 64 16) >>= fun high =>
      pure { low := low, high := high }) := rfl
  have hunraised : (readYmmMemory address).Within CpuOp.Unraised :=
    (unraised_readXmmMemory _).bind fun _ => (unraised_readXmmMemory _).bind fun _ => within_pure _
  have hblock : ∀ {k j : ℕ}, k < 2 → j < 16 →
      (address + BitVec.ofNat 64 (16 * k + j) - address).toNat / 16 = k := fun hk hj =>
    block_index address (by omega) hj
  rw [hread] at hunraised ⊢
  cases hlow : cpu.operandPtrs false address 16 0 with
  | error b =>
    -- the second block is not tried
    rw [hlow] at htotal hfirst
    simp only at htotal
    obtain ⟨hmem, hnone⟩ := operandPtrs_error_range hlow
    have hpend := refused_hasException hexc hnone
    obtain ⟨hrun, hquiet⟩ := run_readXmmMemory_pending hpend (address + BitVec.ofNat 64 16)
    have hstart := run_readXmmMemory hm hexc address
    rw [hlow] at hstart
    refine ⟨?_, ?_, ?_, hunraised⟩
    · obtain ⟨j, hj, rfl⟩ := mem_byteRange.mp hmem
      have hzero := hblock (k := 0) (by decide) hj
      rw [Nat.mul_zero, Nat.zero_add] at hzero
      unfold Cpu.blocksRead
      simp only [htotal, hzero, Nat.mul_zero]
      refine ⟨[], [], ?_, rfl, rfl⟩
      rw [calls_bind, calls_bind, hstart]
      exact hfirst.append (hquiet.append QuietTrace.nil)
    · rw [Program.run_bind, Program.run_bind, hstart, htotal, hrun]
      rfl
    · refine along_bind.mpr ⟨hrefused.mono fun o s h => h.mono fun a ha => ?_, ?_⟩
      · rw [htotal]
        exact hlow.symm.trans ha
      · rw [hstart]
        exact along_pending _ hpend
  | ok ptrs =>
    rw [hlow] at htotal hfirst
    simp only at htotal
    have hstart := run_readXmmMemory hm hexc address
    have hnext := run_readXmmMemory hm hexc (address + BitVec.ofNat 64 16)
    rw [hlow] at hstart
    refine ⟨?_, ?_, ?_, hunraised⟩
    · rw [calls_bind, calls_bind, hstart]
      cases hhigh : cpu.operandPtrs false (address + BitVec.ofNat 64 16) 16 0 with
      | error b =>
        rw [hhigh] at htotal hsecond
        obtain ⟨hmem, -⟩ := operandPtrs_error_range hhigh
        obtain ⟨j, hj, rfl⟩ := mem_byteRange.mp hmem
        have hone := hblock (k := 1) (by decide) hj
        rw [Nat.mul_one, BitVec.ofNat_add, ← BitVec.add_assoc] at hone
        have hread : cpu.blocksRead address 2 = 1 := by
          rw [Cpu.blocksRead, htotal]
          exact hone
        rw [hread]
        refine ⟨ptrs, [(address, 8), (address + 8, 8)], ?_, ?_, hlow⟩
        · simpa using hfirst.append hsecond
        · simpa using byteRange_block address
      | ok ptrs' =>
        rw [hhigh] at htotal hsecond
        have hread : cpu.blocksRead address 2 = 2 := by
          rw [Cpu.blocksRead, htotal]
          rfl
        rw [hread]
        refine ⟨ptrs ++ ptrs', _, by simpa using hfirst.append hsecond, ?_, htotal⟩
        have hbytes := byteRange_append address 16 16
        rw [← byteRange_block address, ← byteRange_block (address + BitVec.ofNat 64 16)] at hbytes
        simpa using hbytes.symm
    · rw [Program.run_bind, Program.run_bind, hstart, htotal, hnext]
      cases cpu.operandPtrs false (address + BitVec.ofNat 64 16) 16 0 <;> rfl
    · refine along_bind.mpr ⟨hrefused.mono fun o s h => h.mono fun a ha => ?_, ?_⟩
      · cases hlow.symm.trans ha
      · rw [hstart]
        refine along_bind.mpr ⟨hrefused'.mono fun o s h => h.mono fun a ha => ?_, along_pure _ _⟩
        rw [htotal, ha]
        rfl

/-! ## Loads under a mask -/

/-- All lanes are selected, or the first byte of the vector that is refused is one of a selected
lane and the blocks in front of its block have selected lanes only. -/
def LoadCovered (cpu : Cpu) (address : U64) (n size : ℕ) (lanes : List (Bool × U64)) : Prop :=
  (∀ lane ∈ lanes, lane.1 = true) ∨
    ∃ b, cpu.operandPtrs false address (16 * n) 0 = .error b ∧ b ∈ selectedBytes size lanes ∧
      ∀ a ∈ byteRange address (16 * ((b - address).toNat / 16)), a ∈ selectedBytes size lanes

section Load

variable {n count : ℕ} {selected : ℕ → Bool}

/-- The lanes of a vector are selected if its bytes are. -/
theorem selected_of_bytes (hsize : 0 < size) (hbound : count * size < 2 ^ 64)
    (h : ∀ a ∈ byteRange address (count * size),
      a ∈ selectedBytes size (vectorLanes size address selected count)) :
    ∀ i < count, selected i = true := by
  intro i hi
  have hle := Nat.mul_le_mul_right size (Nat.succ_le_of_lt hi)
  rw [Nat.succ_mul] at hle
  have hbyte := h _ (mem_byteRange.mpr ⟨i * size + 0, by omega, rfl⟩)
  exact (mem_selectedBytes_vector hbound hi hsize).mp hbyte

/-- A refused byte lies in one of the blocks. -/
theorem block_lt {b : U64} (hn : n < 2 ^ 32)
    (h : cpu.operandPtrs false address (16 * n) 0 = .error b) : (b - address).toNat / 16 < n := by
  obtain ⟨j, hj, rfl⟩ := mem_byteRange.mp (operandPtrs_error_range h).1
  have hblock := block_index address (show j / 16 < 2 ^ 32 by omega) (show j % 16 < 16 by omega)
  rw [Nat.div_add_mod] at hblock
  omega

theorem byteRange_subset {m m' : ℕ} (h : m ≤ m') {a : U64} (ha : a ∈ byteRange address m) :
    a ∈ byteRange address m' := by
  obtain ⟨j, hj, rfl⟩ := mem_byteRange.mp ha
  exact mem_byteRange.mpr ⟨j, by omega, rfl⟩

/-- The condition, in terms of the bytes that the load touches. -/
theorem loadCovered_iff (hsize : 0 < size) (hcount : count * size = 16 * n) (hn : n < 2 ^ 32) :
    LoadCovered cpu address n size (vectorLanes size address selected count) ↔
      (∀ b, cpu.operandPtrs false address (16 * n) 0 = .error b →
        b ∈ selectedBytes size (vectorLanes size address selected count)) ∧
      ∀ a ∈ byteRange address (16 * cpu.blocksRead address n),
        a ∈ selectedBytes size (vectorLanes size address selected count) := by
  have hbound : count * size < 2 ^ 64 := by omega
  constructor
  · rintro (hall | ⟨b, hb, hmem, hblocks⟩)
    · have hbytes : selectedBytes size (vectorLanes size address selected count) =
          byteRange address (16 * n) := by
        have hlanes : ∀ j < count, selected (0 + j) = true := fun j hj =>
          hall _ ((mem_lanesFrom count).mpr ⟨j, hj, rfl⟩)
        have := selectedBytes_all size address count hlanes
        rwa [Nat.zero_mul, show address + BitVec.ofNat 64 0 = address from BitVec.add_zero address,
          hcount] at this
      rw [hbytes]
      refine ⟨fun b hb => (operandPtrs_error_range hb).1, fun a ha => byteRange_subset ?_ ha⟩
      unfold Cpu.blocksRead
      cases hptrs : cpu.operandPtrs false address (16 * n) 0 with
      | ok ptrs => exact le_refl _
      | error b => exact Nat.mul_le_mul_left 16 (le_of_lt (block_lt hn hptrs))
    · refine ⟨fun b' hb' => ?_, ?_⟩
      · obtain rfl := Except.error.inj (hb.symm.trans hb')
        exact hmem
      · unfold Cpu.blocksRead
        rw [hb]
        exact hblocks
  · rintro ⟨hrefused, hblocks⟩
    unfold Cpu.blocksRead at hblocks
    cases hptrs : cpu.operandPtrs false address (16 * n) 0 with
    | error b =>
      rw [hptrs] at hblocks
      exact .inr ⟨b, hptrs, hrefused b hptrs, hblocks⟩
    | ok ptrs =>
      rw [hptrs] at hblocks
      have hlanes := selected_of_bytes hsize hbound (by rwa [hcount])
      refine .inl fun lane hlane => ?_
      obtain ⟨j, hj, rfl⟩ := (mem_lanesFrom count).mp hlane
      rw [Nat.zero_add]
      exact hlanes j hj

theorem run_modifyVector (f : VectorRegisters → VectorRegisters) :
    (modifyVector f).run viewOp cpu =
      ((), { cpu with context := { cpu.context with vector := f cpu.context.vector } }) := rfl

theorem quiet_modifyVector (f : VectorRegisters → VectorRegisters) (cpu : Cpu) :
    QuietTrace ((modifyVector f).calls viewOp cpu) := ⟨rfl, rfl, rfl, rfl⟩

theorem direct_modifyVector (f : VectorRegisters → VectorRegisters) :
    (modifyVector f).Within CpuOp.Direct :=
  (within_perform trivial).bind fun _ => within_perform trivial

theorem unraised_modifyVector (f : VectorRegisters → VectorRegisters) :
    (modifyVector f).Within CpuOp.Unraised :=
  (within_perform trivial).bind fun _ => within_perform trivial

/-- **A load under a mask** accesses the selected lanes only exactly if it is covered. -/
theorem laneAccess_load_iff {α : Type} {p : CpuProgram α} (hexc : cpu.context.hasException = false)
    (hread : VectorRead cpu address n p) (f : α → VectorRegisters → VectorRegisters)
    (hsize : 0 < size) (hcount : count * size = 16 * n) (hn : n < 2 ^ 32) :
    LaneAccess viewOp cpu false size (vectorLanes size address selected count)
        (p >>= fun value => modifyVector (f value)) ↔
      LoadCovered cpu address n size (vectorLanes size address selected count) := by
  rw [loadCovered_iff hsize hcount hn]
  have hbound : count * size < 2 ^ 64 := by omega
  obtain ⟨loaded, reads, htraffic, hbytes, hloaded⟩ := hread.traffic
  have hcalls : Traffic ((p >>= fun value => modifyVector (f value)).calls viewOp cpu) loaded []
      reads [] := by
    rw [calls_bind]
    simpa using htraffic.append (quiet_modifyVector _ _)
  have hreported : reportedBytes .memRead ((p >>= fun value => modifyVector (f value)).calls viewOp
      cpu) = byteRange address (16 * cpu.blocksRead address n) := by
    rw [reportedBytes, hcalls.reads_eq, hbytes]
  have hafter : ∀ c, (p.run viewOp cpu).2 = c →
      ((p >>= fun value => modifyVector (f value)).run viewOp cpu).2.context.hasException =
        c.context.hasException ∧
      ((p >>= fun value => modifyVector (f value)).run viewOp cpu).2.memory = c.memory := by
    rintro c rfl
    rw [Program.run_bind, run_modifyVector]
    exact ⟨rfl, rfl⟩
  -- the load accesses whole blocks, so that only the selected bytes may decide
  have hrefusals : (p >>= fun value => modifyVector (f value)).Along viewOp
      (RefusedAt fun a => cpu.operandPtrs false address (16 * n) 0 = .error a) cpu :=
    along_bind.mpr ⟨hread.refusals, along_of_direct (direct_modifyVector _)⟩
  have hend := hread.after
  constructor
  · intro h
    refine ⟨fun b hb => ?_, fun a ha => ?_⟩
    · -- the load is refused at `b`, and an access that is refused is one to a selected byte
      by_contra hnot
      have hboth : (p >>= fun value => modifyVector (f value)).Along viewOp
          (RefusedAt fun _ => False) cpu := by
        refine (hrefusals.and h.refusals).mono fun o s hrefused => ?_
        obtain ⟨h₁, h₂⟩ := hrefused
        cases o with
        | resolve a store =>
          intro hpend hnone
          obtain rfl := Except.error.inj (hb.symm.trans (h₁ hpend hnone))
          exact hnot (h₂ hpend hnone)
        | _ => trivial
      have hclean := no_exception_of_along hexc
        (hread.unraised.bind fun _ => unraised_modifyVector _) hboth
      rw [hb] at hend
      rw [(hafter _ hend).1, refused_hasException hexc (operandPtrs_error_range hb).2] at hclean
      cases hclean
    · exact h.reported a (List.mem_append_left _ (by rwa [hreported]))
  · rintro ⟨hrefused, hblocks⟩
    refine ⟨?_, ?_, ?_, fun ptrs hptrs => ?_, fun a ha => ?_⟩
    · exact hrefusals.mono fun o s h => h.mono hrefused
    · rw [hcalls.loads_eq, hcalls.stores_eq, List.append_nil]
      intro q hq
      obtain ⟨a, ha, hptr⟩ := operandPtrs_ok_range hloaded hq
      exact ⟨a, hblocks a ha, hptr⟩
    · rw [hreported, reportedBytes, hcalls.writes_eq]
      intro a ha
      exact hblocks a (by simpa using ha)
    · -- none of the selected bytes is refused, so the vector is read as a whole
      cases htotal : cpu.operandPtrs false address (16 * n) 0 with
      | error b =>
        exact absurd (operandPtrs_error_range htotal).2
          (lanePtrs_ok_granted hptrs (hrefused b htotal))
      | ok whole =>
        have hread' : cpu.blocksRead address n = n := by
          rw [Cpu.blocksRead, htotal]
        rw [htotal] at hend
        rw [hread'] at hblocks hloaded hreported
        have hlanes := selected_of_bytes hsize hbound (by rwa [hcount])
        have hzero : address + BitVec.ofNat 64 (0 * size) = address := by
          rw [Nat.zero_mul]
          exact BitVec.add_zero address
        have hall : ∀ j < count, selected (0 + j) = true := fun j hj => by
          rw [Nat.zero_add]
          exact hlanes j hj
        have hbytes' := selectedBytes_all size address count hall
        have hptrs' := lanePtrs_all cpu false size address count hall
        rw [hzero, hcount] at hbytes' hptrs'
        obtain rfl := Except.ok.inj (hloaded.symm.trans (hptrs'.symm.trans hptrs))
        refine ⟨?_, hcalls.loads_eq, hcalls.stores_eq, ?_⟩
        · rw [(hafter _ hend).1]
          exact hexc
        · exact hreported.trans hbytes'.symm
    · obtain ⟨hmem, hnone⟩ := lanePtrs_error ha
      cases htotal : cpu.operandPtrs false address (16 * n) 0 with
      | ok whole =>
        have hrange := selectedBytes_subset hmem
        rw [hcount] at hrange
        exact absurd hnone (operandPtrs_granted_range htotal hrange)
      | error b =>
        rw [htotal] at hend
        obtain ⟨hcontext, hmemory⟩ := hafter _ hend
        refine ⟨?_, hcalls.stores_eq, congrArg MemoryManager.host hmemory⟩
        rw [hcontext]
        exact refused_hasException hexc (operandPtrs_error_range htotal).2

end Load

/-! ## Parts in front -/

/-- A part in front that touches nothing. -/
theorem laneAccess_behind {α : Type} {q : CpuProgram α} {k : α → CpuProgram Unit} {a : α}
    {lanes : List (Bool × U64)} (hrun : q.run viewOp cpu = (a, cpu))
    (hquiet : QuietTrace (q.calls viewOp cpu)) (hdirect : q.Within CpuOp.Direct) :
    LaneAccess viewOp cpu store size lanes (q >>= k) ↔
      LaneAccess viewOp cpu store size lanes (k a) := by
  have hbind : (q >>= k).run viewOp cpu = (k a).run viewOp cpu := by rw [Program.run_bind, hrun]
  have hcalls : (q >>= k).calls viewOp cpu = q.calls viewOp cpu ++ (k a).calls viewOp cpu := by
    rw [calls_bind, hrun]
  have hreports : ∀ type, reports type (q.calls viewOp cpu) = [] →
      reportedBytes type ((q >>= k).calls viewOp cpu) =
        reportedBytes type ((k a).calls viewOp cpu) := by
    intro type h
    rw [hcalls, reportedBytes_append, reportedBytes, h]
    rfl
  have halong : (q >>= k).Along viewOp (RefusedAt (· ∈ selectedBytes size lanes)) cpu ↔
      (k a).Along viewOp (RefusedAt (· ∈ selectedBytes size lanes)) cpu := by
    rw [along_bind, hrun]
    exact and_iff_right (along_of_direct hdirect)
  have hreads := hreports .memRead hquiet.reads_eq
  have hwrites := hreports .memWrite hquiet.writes_eq
  have heither : reportedBytes (if store then .memWrite else .memRead) ((q >>= k).calls viewOp cpu) =
      reportedBytes (if store then .memWrite else .memRead) ((k a).calls viewOp cpu) := by
    cases store
    · exact hreads
    · exact hwrites
  have hloads : loads ((q >>= k).calls viewOp cpu) = loads ((k a).calls viewOp cpu) := by
    rw [hcalls, loads_append, hquiet.loads_eq, List.nil_append]
  have hstores : stores ((q >>= k).calls viewOp cpu) = stores ((k a).calls viewOp cpu) := by
    rw [hcalls, stores_append, hquiet.stores_eq, List.nil_append]
  constructor
  · rintro ⟨h₁, h₂, h₃, h₄, h₅⟩
    rw [hloads, hstores] at h₂
    rw [hreads, hwrites] at h₃
    rw [hbind, hloads, hstores, heither] at h₄
    rw [hbind, hstores] at h₅
    exact ⟨halong.mp h₁, h₂, h₃, h₄, h₅⟩
  · rintro ⟨h₁, h₂, h₃, h₄, h₅⟩
    rw [← hloads, ← hstores] at h₂
    rw [← hreads, ← hwrites] at h₃
    rw [← hbind, ← hloads, ← hstores, ← heither] at h₄
    rw [← hbind, ← hstores] at h₅
    exact ⟨halong.mpr h₁, h₂, h₃, h₄, h₅⟩

/-! ## Gathers -/

/-- **A gather** accesses the selected lanes only. -/
theorem laneAccess_gather {V : Type} {w : ℕ} (hm : ManagerOk cpu.memory)
    (hexc : cpu.context.hasException = false) (hsize : 0 < size) (lanes : Lanes V w)
    (selected : ℕ → Bool) (laneAddress : ℕ → U64) (count : ℕ) (v : V)
    (f : V → VectorRegisters → VectorRegisters) :
    LaneAccess viewOp cpu false size (lanesFrom selected laneAddress count 0)
      (gatherLoop lanes size selected laneAddress count 0 v >>= fun result =>
        modifyVector (f result)) := by
  obtain ⟨loaded, reads, htraffic, hok, hloaded, hreads⟩ :=
    traffic_gatherLoop lanes size selected laneAddress hm hexc hsize count 0 v
  have hrun := run_gatherLoop lanes size selected laneAddress hm hexc hsize count 0 v
  have hcalls : Traffic ((gatherLoop lanes size selected laneAddress count 0 v >>= fun result =>
      modifyVector (f result)).calls viewOp cpu) loaded [] reads [] := by
    rw [calls_bind]
    simpa using htraffic.append (quiet_modifyVector _ _)
  refine ⟨?_, ?_, ?_, fun ptrs hptrs => ?_, fun a ha => ?_⟩
  · exact along_bind.mpr ⟨refused_gatherLoop lanes size selected laneAddress hm hexc hsize count 0 v,
      along_of_direct (direct_modifyVector _)⟩
  · rw [hcalls.loads_eq, hcalls.stores_eq, List.append_nil]
    exact hloaded
  · unfold reportedBytes
    rw [hcalls.reads_eq, hcalls.writes_eq, List.flatMap_nil, List.append_nil]
    intro a ha
    rw [← selectedOperands_bytes]
    obtain ⟨r, hr, har⟩ := List.mem_flatMap.mp ha
    exact List.mem_flatMap.mpr ⟨r, hreads r hr, har⟩
  · rw [hptrs] at hrun
    obtain ⟨rfl, rfl⟩ := hok ptrs hptrs
    refine ⟨?_, hcalls.loads_eq, hcalls.stores_eq, ?_⟩
    · rw [Program.run_bind, hrun, run_modifyVector]
      exact hexc
    · show reportedBytes .memRead _ = _
      rw [reportedBytes, hcalls.reads_eq, selectedOperands_bytes]
  · rw [ha] at hrun
    obtain ⟨v', hrun⟩ := hrun
    refine ⟨?_, hcalls.stores_eq, ?_⟩
    · rw [Program.run_bind, hrun, run_modifyVector]
      exact refused_hasException hexc (lanePtrs_error ha).2
    · rw [Program.run_bind, hrun, run_modifyVector]
      rfl

theorem run_raiseUdIf (illegal : Bool) :
    (raiseUdIf illegal).run viewOp cpu = ((), if illegal then cpu.raised .ud 0 else cpu) ∧
      QuietTrace ((raiseUdIf illegal).calls viewOp cpu) := by
  cases illegal <;> exact ⟨rfl, rfl, rfl, rfl, rfl⟩

theorem direct_raiseUdIf (illegal : Bool) : (raiseUdIf illegal).Within CpuOp.Direct := by
  cases illegal
  · exact within_pure _
  · exact within_perform trivial

/-- The checks of a gather raise an exception exactly if it is not legal, and touch nothing. -/
theorem run_validate (hexc : cpu.context.hasException = false) (maskReg : Fin 16)
    (inst : MemOperand) :
    QuietTrace ((validateAvxGatherOperands maskReg inst).calls viewOp cpu) ∧
      (gatherLegal cpu.context maskReg inst = true →
        (validateAvxGatherOperands maskReg inst).run viewOp cpu = ((), cpu)) ∧
      (gatherLegal cpu.context maskReg inst = false →
        ((validateAvxGatherOperands maskReg inst).run viewOp cpu).2.context.hasException = true) := by
  have hget : ∀ c : Cpu, getContext.run viewOp c = (c.context, c) := fun _ => rfl
  have hlook : ∀ c : Cpu, QuietTrace (getContext.calls viewOp c) := fun _ => ⟨rfl, rfl, rfl, rfl⟩
  have hraised : (cpu.raised .ud 0).context.hasException = true := raised_pending hexc .ud 0
  unfold validateAvxGatherOperands
  refine ⟨?_, fun h => ?_, fun h => ?_⟩
  · rw [calls_bind, calls_bind]
    exact (run_raiseUdIf _).2.append ((hlook _).append (run_raiseUdIf _).2)
  · simp only [gatherLegal, Bool.and_eq_true, Bool.not_eq_true'] at h
    obtain ⟨⟨hmod, hsib⟩, hdistinct⟩ := h
    have hfirst : (modField inst.modrm == 3 || !inst.hasSib) = false := by
      rw [hmod, hsib]
      rfl
    rw [Program.run_bind, (run_raiseUdIf _).1, hfirst, Program.run_bind, hget,
      (run_raiseUdIf _).1]
    simp only [Bool.false_eq_true, if_false, hdistinct]
  · rw [Program.run_bind, (run_raiseUdIf _).1, Program.run_bind, hget, (run_raiseUdIf _).1]
    cases hfirst : (modField inst.modrm == 3 || !inst.hasSib) with
    | true =>
      simp only [if_true]
      split_ifs
      · exact (raiseException_pending _ .ud 0)
      · exact hraised
    | false =>
      have hdistinct : (avxVexDestIndex cpu.context inst.modrm == maskReg ||
          avxVexDestIndex cpu.context inst.modrm == vsibIndex cpu.context inst ||
          maskReg == vsibIndex cpu.context inst) = true := by
        rw [Bool.or_eq_false_iff, Bool.not_eq_false'] at hfirst
        rw [gatherLegal, hfirst.1, hfirst.2] at h
        simpa only [Bool.not_false, Bool.true_and, Bool.not_eq_false'] using h
      simp only [Bool.false_eq_true, if_false, hdistinct, if_true]
      exact hraised

theorem direct_validate (maskReg : Fin 16) (inst : MemOperand) :
    (validateAvxGatherOperands maskReg inst).Within CpuOp.Direct := by
  have hget : getContext.Within CpuOp.Direct := within_perform trivial
  exact (direct_raiseUdIf _).bind fun _ => hget.bind fun ctx => direct_raiseUdIf _

end Cpueaxh
