/-
# Operands in memory

A load or a store of several bytes first tries to get one host pointer for all of them,
and falls back to a pointer for each byte.  Both ways it has the effect of the bytes, one
after the other: the operand is refused at its first byte that is refused, and otherwise
its bytes are those behind the pointers of the table, whatever they have to do with each
other.
-/
import Cpueaxh.CacheFree

namespace Cpueaxh

open HostMemory

/-! ## Writing memory -/

/-- The pointers to `n` bytes behind one another. -/
def consecutive (p : HostPtr) : ℕ → U64 → List HostPtr
  | 0, _ => []
  | n + 1, offset => p.add offset :: consecutive p n (offset + 1)

/-- `write_memory_word`, `write_memory_dword` and `write_memory_qword` for their sizes. -/
def writeMemory (size : ℕ) (address value : U64) : CpuProgram Unit := do
  if ← cpuHasException then return ()
  match ← cpuTryGetContiguousPtr address size true with
  | some p =>
    perform (.notify .memWrite address size value)
    storeValue (consecutive p size 0) value
  | none =>
    match ← cpuResolveStackSlotWrite address size 0 with
    | none => return ()
    | some ptrs =>
      perform (.notify .memWrite address size value)
      storeValue ptrs value

/-! ## The bytes of an operand -/

namespace Cpu

variable (cpu : Cpu)

/-- The pointer that a load or a store at an address gets. -/
def dataPtr (store : Bool) (address : U64) : Option HostPtr :=
  grantedPtr cpu.context.is64BitCode cpu.context.isUser cpu.memory (dataAccess store).perm address

/-- The CPU behind an access that is refused. -/
def refused (store : Bool) (address : U64) : Cpu :=
  let out := accessOutcome cpu.context (accessView cpu.memory address (dataAccess store).perm)
    cpu.hooks cpu.asked address (dataAccess store)
  { cpu with context := out.2.1, asked := out.2.2 }

/-- The pointers to the bytes of an operand, or the address of the first byte that is
refused. -/
def operandPtrs (store : Bool) (address : U64) : ℕ → U64 → Except U64 (List HostPtr)
  | 0, _ => .ok []
  | left + 1, offset =>
    match cpu.dataPtr store (address + offset) with
    | none => .error (address + offset)
    | some p => (operandPtrs store address left (offset + 1)).map (p :: ·)

end Cpu

/-- The value of the bytes behind some pointers, the lowest first. -/
def loadValue (host : HostMemory) : List HostPtr → U64
  | [] => 0
  | p :: rest => ((host.read p).getD 0).setWidth 64 ||| loadValue host rest <<< 8

/-- The bytes of a value stored behind some pointers, the lowest first. -/
def storeBytes (host : HostMemory) : List HostPtr → U64 → HostMemory
  | [], _ => host
  | p :: rest, value => storeBytes (host.write p (value.setWidth 8)) rest (value >>> 8)

variable {cpu : Cpu} {store : Bool} {address : U64}

/-- The next offset. -/
theorem offset_succ (offset : U64) (j : ℕ) :
    offset + 1 + BitVec.ofNat 64 j = offset + BitVec.ofNat 64 (j + 1) := by
  rw [BitVec.add_assoc, Nat.add_comm j 1, BitVec.ofNat_add]
  rfl

theorem consecutive_append (p : HostPtr) (k n : ℕ) (offset : U64) :
    consecutive p (k + n) offset =
      consecutive p k offset ++ consecutive p n (offset + BitVec.ofNat 64 k) := by
  induction k generalizing offset with
  | zero => simp [consecutive]
  | succ k ih =>
    rw [Nat.add_right_comm, consecutive, consecutive, ih, List.cons_append, offset_succ]

/-- A part of an operand whose bytes lie behind one another. -/
theorem operandPtrs_block (p : HostPtr) (k n : ℕ) : ∀ {offset : U64},
    (∀ j < k, cpu.dataPtr store (address + (offset + BitVec.ofNat 64 j)) =
      some (p.add (offset + BitVec.ofNat 64 j))) →
    cpu.operandPtrs store address (k + n) offset =
      (cpu.operandPtrs store address n (offset + BitVec.ofNat 64 k)).map
        (consecutive p k offset ++ ·) := by
  induction k with
  | zero =>
    intro offset _
    rw [Nat.zero_add, show offset + BitVec.ofNat 64 0 = offset from BitVec.add_zero offset]
    cases cpu.operandPtrs store address n offset <;> rfl
  | succ k ih =>
    intro offset h
    have hfirst : cpu.dataPtr store (address + offset) = some (p.add offset) := by
      have h0 := h 0 k.succ_pos
      rwa [show offset + BitVec.ofNat 64 0 = offset from BitVec.add_zero offset] at h0
    have hrest := @ih (offset + 1) (fun j hj => by
      rw [offset_succ]
      exact h (j + 1) (by omega))
    rw [Nat.add_right_comm, Cpu.operandPtrs, hfirst]
    simp only
    rw [hrest, offset_succ]
    cases cpu.operandPtrs store address n (offset + BitVec.ofNat 64 (k + 1)) <;> rfl

/-- The pointers of an operand depend on those that accesses get. -/
theorem operandPtrs_congr {cpu' : Cpu}
    (h : ∀ a, cpu'.dataPtr store a = cpu.dataPtr store a) (left : ℕ) : ∀ offset,
    cpu'.operandPtrs store address left offset = cpu.operandPtrs store address left offset := by
  induction left with
  | zero => exact fun _ => rfl
  | succ left ih =>
    intro offset
    rw [Cpu.operandPtrs, Cpu.operandPtrs, h, ih]

theorem mem_consecutive {p q : HostPtr} (n : ℕ) : ∀ {offset : U64},
    q ∈ consecutive p n offset → ∃ j < n, q = p.add (offset + BitVec.ofNat 64 j) := by
  induction n with
  | zero =>
    intro offset hq
    cases hq
  | succ n ih =>
    intro offset hq
    rcases List.mem_cons.mp hq with rfl | hq
    · refine ⟨0, n.succ_pos, ?_⟩
      rw [show offset + BitVec.ofNat 64 0 = offset from BitVec.add_zero offset]
    · obtain ⟨j, hj, rfl⟩ := ih hq
      exact ⟨j + 1, by omega, by rw [offset_succ]⟩

/-- Pointers behind one another are different, as long as they do not wrap around. -/
theorem consecutive_nodup (p : HostPtr) (n : ℕ) : ∀ {offset : U64}, n ≤ 2 ^ 64 →
    (consecutive p n offset).Nodup := by
  induction n with
  | zero => exact fun _ => List.nodup_nil
  | succ n ih =>
    intro offset hn
    refine List.nodup_cons.mpr ⟨fun hmem => ?_, ih (by omega)⟩
    obtain ⟨j, hj, heq⟩ := mem_consecutive n hmem
    rw [offset_succ] at heq
    -- the offset of a later pointer is larger by less than `2^64`
    have hoffset : offset = offset + BitVec.ofNat 64 (j + 1) := by
      cases p with
      | user a => simpa [HostPtr.add] using heq
      | heap block o => simpa [HostPtr.add] using heq
    have hzero : BitVec.ofNat 64 (j + 1) = 0 := BitVec.self_eq_add_right.mp hoffset
    have hnat := congrArg BitVec.toNat hzero
    rw [BitVec.toNat_ofNat, Nat.mod_eq_of_lt (by omega)] at hnat
    cases hnat

/-- The byte at which an operand is refused has no pointer. -/
theorem operandPtrs_error {store : Bool} {address a : U64} (left : ℕ) : ∀ {offset : U64},
    cpu.operandPtrs store address left offset = .error a → cpu.dataPtr store a = none := by
  induction left with
  | zero =>
    intro offset h
    cases h
  | succ left ih =>
    intro offset h
    unfold Cpu.operandPtrs at h
    cases hfirst : cpu.dataPtr store (address + offset) with
    | none =>
      rw [hfirst] at h
      obtain rfl := Except.error.inj h
      exact hfirst
    | some p =>
      rw [hfirst] at h
      cases hrest : cpu.operandPtrs store address left (offset + 1) with
      | error b =>
        rw [hrest] at h
        obtain rfl := Except.error.inj h
        exact ih hrest
      | ok rest =>
        rw [hrest] at h
        cases h

/-- The bytes of a page without patches lie behind one another. -/
theorem dataPtr_page (hm : ManagerOk cpu.memory) (hpatches : cpu.memory.patches.length = 0)
    {p : HostPtr} (h : cpu.dataPtr store address = some p) {j : ℕ}
    (hj : j < cpuPageBytesRemaining address) :
    cpu.dataPtr store (address + BitVec.ofNat 64 j) = some (p.add (BitVec.ofNat 64 j)) :=
  grantedPtr_page hm hpatches h hj

/-! ## Single operations -/

theorem run_getContext : (getContext).run viewOp cpu = (cpu.context, cpu) := rfl

theorem run_cpuHasException :
    (cpuHasException).run viewOp cpu = (cpu.context.hasException, cpu) := rfl

theorem run_modifyContext (f : CpuContext → CpuContext) :
    (modifyContext f).run viewOp cpu =
      ((), { cpu with context := cpu.context.keepMode (f cpu.context) }) := rfl

/-! ## Single accesses -/

section Pending

/-- An access under a pending exception. -/
theorem run_cpuResolve_pending (hexc : cpu.context.hasException = true) (address : U64)
    (store : Bool) : (cpuResolve address store).run viewOp cpu = (none, cpu) := by
  show (viewOp (.resolve address store) cpu) = _
  unfold viewOp accessOutcome
  simp only [hexc, if_true]

/-- Reading bytes under a pending exception. -/
theorem run_readBytes_pending (hexc : cpu.context.hasException = true) (address : U64)
    (left : ℕ) (offset : U64) :
    ((readBytes address (left + 1) offset).run viewOp cpu) = (none, cpu) := by
  unfold readBytes
  rw [Program.run_bind, run_cpuResolve_pending hexc]
  rfl

/-- Resolving bytes under a pending exception. -/
theorem run_resolveSlot_pending (hexc : cpu.context.hasException = true) (address : U64)
    (left : ℕ) (offset : U64) :
    ((cpuResolveStackSlotWrite address (left + 1) offset).run viewOp cpu) = (none, cpu) := by
  unfold cpuResolveStackSlotWrite
  rw [Program.run_bind, run_cpuResolve_pending hexc]
  rfl

end Pending

/-- An access that is refused leaves an exception behind. -/
theorem refused_hasException (hexc : cpu.context.hasException = false)
    (h : cpu.dataPtr store address = none) :
    (cpu.refused store address).context.hasException = true :=
  (accessOutcome_granted hexc address (dataAccess store)).2.2 h

/-- **An access** gets the pointer, or is refused. -/
theorem run_cpuResolve (hexc : cpu.context.hasException = false) (address : U64) (store : Bool) :
    (cpuResolve address store).run viewOp cpu =
      match cpu.dataPtr store address with
      | none => (none, cpu.refused store address)
      | some p => (some p, cpu) := by
  have hout := @accessOutcome_granted cpu.memory cpu.context cpu.hooks cpu.asked hexc address
    (dataAccess store)
  show (viewOp (.resolve address store) cpu) = _
  unfold viewOp
  simp only
  cases h : cpu.dataPtr store address with
  | none =>
    rw [hout.1]
    exact Prod.ext h rfl
  | some p =>
    rw [hout.1, hout.2.1 p h]
    exact Prod.ext h rfl

/-! ## Operands byte by byte -/

/-- The bytes of an operand, each resolved on its own. -/
theorem run_readBytes (hexc : cpu.context.hasException = false) (address : U64) (left : ℕ) :
    ∀ offset, (readBytes address left offset).run viewOp cpu =
      match cpu.operandPtrs false address left offset with
      | .error a => (none, cpu.refused false a)
      | .ok ptrs => (some (loadValue cpu.memory.host ptrs), cpu) := by
  induction left with
  | zero => intro offset; rfl
  | succ left ih =>
    intro offset
    unfold readBytes Cpu.operandPtrs
    rw [Program.run_bind, run_cpuResolve hexc]
    cases cpu.dataPtr false (address + offset) with
    | none => rfl
    | some p =>
      have hload : (perform (.load p)).run viewOp cpu = ((cpu.memory.host.read p).getD 0, cpu) := rfl
      simp only
      rw [Program.run_bind, hload, Program.run_bind]
      simp only
      rw [ih (offset + 1)]
      cases cpu.operandPtrs false address left (offset + 1) <;> rfl

/-- The pointers of a slot of the stack. -/
theorem run_resolveSlot (hexc : cpu.context.hasException = false) (address : U64) (left : ℕ) :
    ∀ offset, (cpuResolveStackSlotWrite address left offset).run viewOp cpu =
      match cpu.operandPtrs true address left offset with
      | .error a => (none, cpu.refused true a)
      | .ok ptrs => (some ptrs, cpu) := by
  induction left with
  | zero => intro offset; rfl
  | succ left ih =>
    intro offset
    unfold cpuResolveStackSlotWrite Cpu.operandPtrs
    rw [Program.run_bind, run_cpuResolve hexc]
    cases cpu.dataPtr true (address + offset) with
    | none => rfl
    | some p =>
      simp only
      rw [Program.run_bind, ih (offset + 1)]
      cases cpu.operandPtrs true address left (offset + 1) <;> rfl

/-- The bytes behind a pointer. -/
theorem run_loadBytes (p : HostPtr) (left : ℕ) : ∀ offset,
    (loadBytes p left offset).run viewOp cpu =
      (loadValue cpu.memory.host (consecutive p left offset), cpu) := by
  induction left with
  | zero => intro offset; rfl
  | succ left ih =>
    intro offset
    have hload : (perform (.load (p.add offset))).run viewOp cpu =
      ((cpu.memory.host.read (p.add offset)).getD 0, cpu) := rfl
    unfold loadBytes
    rw [Program.run_bind, hload, Program.run_bind, ih (offset + 1)]
    rfl

/-- The CPU with other bytes in the host memory. -/
def Cpu.setHost (cpu : Cpu) (host : HostMemory) : Cpu :=
  { cpu with memory := cpu.memory.setHost host }

/-- The stores through some pointers. -/
theorem run_storeValue (ptrs : List HostPtr) : ∀ (value : U64) (cpu : Cpu),
    (storeValue ptrs value).run viewOp cpu =
      ((), cpu.setHost (storeBytes cpu.memory.host ptrs value)) := by
  induction ptrs with
  | nil => intro value cpu; rfl
  | cons p rest ih =>
    intro value cpu
    unfold storeValue
    rw [Program.run_bind, ih]
    rfl

/-! ## One pointer for all bytes -/

/-- The outcome of asking for one pointer to the bytes from `offset` on: it is found, the
bytes lie apart, or one of them is refused. -/
inductive Contiguous (cpu : Cpu) (store : Bool) (address : U64) (size : ℕ) (offset : U64)
    (base : Option HostPtr) : Option HostPtr × Cpu → Prop where
  | whole (p : HostPtr) (hbase : ∀ b ∈ base, b = p)
    (h : cpu.operandPtrs store address size offset = .ok (consecutive p size offset)) :
    Contiguous cpu store address size offset base (some p, cpu)
  | split : Contiguous cpu store address size offset base (none, cpu)
  | refused (a : U64) (h : cpu.operandPtrs store address size offset = .error a)
    (hexc : (cpu.refused store a).context.hasException = true) :
    Contiguous cpu store address size offset base (none, cpu.refused store a)

/-- Some bytes more in front. -/
theorem Contiguous.block {p : HostPtr} {k n : ℕ} {offset : U64} {base : Option HostPtr}
    (hbase : ∀ b ∈ base, b = p)
    (hptrs : ∀ j < k, cpu.dataPtr store (address + (offset + BitVec.ofNat 64 j)) =
      some (p.add (offset + BitVec.ofNat 64 j)))
    {r : Option HostPtr × Cpu}
    (h : Contiguous cpu store address n (offset + BitVec.ofNat 64 k) (some p) r) :
    Contiguous cpu store address (k + n) offset base r := by
  have hblock := operandPtrs_block p k n hptrs
  cases h with
  | whole q hq h =>
    obtain rfl := hq p rfl
    refine .whole p hbase ?_
    rw [hblock, h, consecutive_append]
    rfl
  | split => exact .split
  | refused a h hexc =>
    refine .refused a ?_ hexc
    rw [hblock, h]
    rfl

/-- The loop over the bytes. -/
theorem contiguousBytes_contiguous (hexc : cpu.context.hasException = false) (base : HostPtr)
    (left : ℕ) : ∀ offset, Contiguous cpu store address left offset (some base)
      ((contiguousBytes address store base left offset).run viewOp cpu) := by
  induction left with
  | zero =>
    intro offset
    exact .whole base (fun b hb => (Option.some.inj hb).symm) rfl
  | succ left ih =>
    intro offset
    unfold contiguousBytes
    rw [Program.run_bind, run_cpuResolve hexc]
    cases h : cpu.dataPtr store (address + offset) with
    | none =>
      refine .refused _ ?_ (refused_hasException hexc h)
      rw [Cpu.operandPtrs, h]
    | some next =>
      simp only
      split_ifs with heq
      · rw [Nat.add_comm]
        refine .block (fun b hb => (Option.some.inj hb).symm) ?_ (ih (offset + 1))
        intro j hj
        obtain rfl : j = 0 := by omega
        rw [show offset + BitVec.ofNat 64 0 = offset from BitVec.add_zero offset, h, heq]
      · exact .split

/-- The loop over the pages. -/
theorem contiguousPages_contiguous (hm : ManagerOk cpu.memory)
    (hexc : cpu.context.hasException = false) (hpatches : cpu.memory.patches.length = 0)
    (size : ℕ) (fuel : ℕ) : ∀ (offset : ℕ) (base : Option HostPtr), size - offset ≤ fuel →
      (base = none → offset = 0) →
      Contiguous cpu store address (size - offset) (BitVec.ofNat 64 offset) base
        ((contiguousPages address size store fuel offset base).run viewOp cpu) := by
  have hdone : ∀ (offset : ℕ) (base : Option HostPtr), size - offset = 0 →
      Contiguous cpu store address (size - offset) (BitVec.ofNat 64 offset) base (base, cpu) := by
    intro offset base hzero
    rw [hzero]
    cases base with
    | none => exact .split
    | some b => exact .whole b (fun c hc => (Option.some.inj hc).symm) rfl
  induction fuel with
  | zero =>
    intro offset base hfuel _
    exact hdone offset base (by omega)
  | succ fuel ih =>
    intro offset base hfuel hfirst
    unfold contiguousPages
    by_cases hlt : offset < size
    · rw [if_pos hlt, Program.run_bind, run_cpuResolve hexc]
      obtain ⟨left, hleft⟩ : ∃ left, size - offset = left + 1 := ⟨size - offset - 1, by omega⟩
      cases h : cpu.dataPtr store (address + BitVec.ofNat 64 offset) with
      | none =>
        refine .refused _ ?_ (refused_hasException hexc h)
        rw [hleft, Cpu.operandPtrs, h]
      | some page =>
        -- the bytes of the page that the operand takes
        have hpage : ∀ j < cpuPageBytesRemaining (address + BitVec.ofNat 64 offset),
            cpu.dataPtr store (address + (BitVec.ofNat 64 offset + BitVec.ofNat 64 j)) =
              some (page.add (BitVec.ofNat 64 j)) := by
          intro j hj
          rw [← BitVec.add_assoc]
          exact dataPtr_page hm hpatches h hj
        have hpos : 0 < cpuPageBytesRemaining (address + BitVec.ofNat 64 offset) := by
          unfold cpuPageBytesRemaining
          omega
        simp only
        generalize hchunk : (if cpuPageBytesRemaining (address + BitVec.ofNat 64 offset) <
          size - offset then cpuPageBytesRemaining (address + BitVec.ofNat 64 offset)
          else size - offset) = chunk
        have hle : chunk ≤ size - offset ∧ 0 < chunk ∧
            chunk ≤ cpuPageBytesRemaining (address + BitVec.ofNat 64 offset) := by
          subst hchunk
          split_ifs <;> omega
        have hrest : size - offset = chunk + (size - (offset + chunk)) := by omega
        rw [hrest]
        cases base with
        | none =>
          obtain rfl := hfirst rfl
          refine .block (p := page) (fun b hb => by cases hb) ?_ ?_
          · intro j hj
            rw [hpage j (by omega)]
            simp
          · have hnext := ih (0 + chunk) (some page) (by omega) (fun h => by cases h)
            rw [BitVec.ofNat_add] at hnext
            exact hnext
        | some b =>
          simp only
          split_ifs with heq
          · refine .block (p := b) (fun c hc => (Option.some.inj hc).symm) ?_ ?_
            · intro j hj
              rw [hpage j (by omega), heq, HostPtr.add_add]
            · have hnext := ih (offset + chunk) (some b) (by omega) (fun h => by cases h)
              rw [BitVec.ofNat_add] at hnext
              exact hnext
          · exact .split
    · rw [if_neg hlt]
      exact hdone offset base (by omega)

/-- **Asking for one pointer** to the bytes of an operand. -/
theorem tryGetContiguousPtr_contiguous (hm : ManagerOk cpu.memory)
    (hexc : cpu.context.hasException = false) {size : ℕ} (hsize : 0 < size) (address : U64)
    (store : Bool) :
    Contiguous cpu store address size 0 none
      ((cpuTryGetContiguousPtr address size store).run viewOp cpu) := by
  have hzero : address + 0 = address := BitVec.add_zero address
  have hguard : (size = 0 || cpu.context.hasException) = false := by
    rw [hexc, Bool.or_false]
    exact decide_eq_false hsize.ne'
  have hpending : (cpuHasException).run viewOp cpu = (cpu.context.hasException, cpu) := rfl
  have hfast : (perform .canUsePageFastPath).run viewOp cpu =
    (cpu.memory.patches.length == 0, cpu) := rfl
  unfold cpuTryGetContiguousPtr
  rw [Program.run_bind, hpending]
  simp only [hguard, Bool.false_eq_true, if_false]
  rw [Program.run_bind, hfast]
  by_cases hpatches : cpu.memory.patches.length = 0
  · simp only [hpatches, beq_self_eq_true, if_true]
    by_cases hpage : size ≤ cpuPageBytesRemaining address
    · rw [if_pos hpage, run_cpuResolve hexc]
      cases h : cpu.dataPtr store address with
      | none =>
        obtain ⟨left, rfl⟩ : ∃ left, size = left + 1 := ⟨size - 1, by omega⟩
        refine .refused address ?_ (refused_hasException hexc h)
        rw [Cpu.operandPtrs, hzero, h]
      | some p =>
        refine .whole p (fun b hb => by cases hb) ?_
        have hbytes : ∀ j < size, cpu.dataPtr store (address + (0 + BitVec.ofNat 64 j)) =
            some (p.add (0 + BitVec.ofNat 64 j)) := by
          intro j hj
          rw [show (0 : U64) + BitVec.ofNat 64 j = BitVec.ofNat 64 j from BitVec.zero_add _]
          exact dataPtr_page hm hpatches h (by omega)
        have hblock := operandPtrs_block p size 0 hbytes
        rw [Nat.add_zero] at hblock
        rw [hblock]
        exact congrArg Except.ok (List.append_nil _)
    · rw [if_neg hpage]
      exact contiguousPages_contiguous hm hexc hpatches size size 0 none (by omega) fun _ => rfl
  · rw [show (cpu.memory.patches.length == 0) = false from beq_eq_false_iff_ne.mpr hpatches]
    simp only [Bool.false_eq_true, if_false]
    rw [Program.run_bind, run_cpuResolve hexc]
    obtain ⟨left, rfl⟩ : ∃ left, size = left + 1 := ⟨size - 1, by omega⟩
    cases h : cpu.dataPtr store address with
    | none =>
      refine .refused address ?_ (refused_hasException hexc h)
      rw [Cpu.operandPtrs, hzero, h]
    | some base =>
      have hrest : Contiguous cpu store address left (0 + BitVec.ofNat 64 1) (some base)
          ((contiguousBytes address store base left 1).run viewOp cpu) :=
        contiguousBytes_contiguous hexc base left 1
      have hwhole : Contiguous cpu store address (1 + left) 0 none
          ((contiguousBytes address store base left 1).run viewOp cpu) := by
        refine hrest.block (fun b hb => by cases hb) ?_
        intro j hj
        obtain rfl : j = 0 := by omega
        rw [show (0 : U64) + BitVec.ofNat 64 0 = 0 from rfl, hzero, HostPtr.add_zero]
        exact h
      rw [Nat.add_comm] at hwhole
      exact hwhole

/-! ## Loads and stores -/

/-- **A load** has the value of its bytes, or is refused at the first of them that is. -/
theorem run_readMemory (hm : ManagerOk cpu.memory) (hexc : cpu.context.hasException = false)
    {size : ℕ} (hsize : 0 < size) (address : U64) :
    (readMemory size address).run viewOp cpu =
      match cpu.operandPtrs false address size 0 with
      | .error a => (0, cpu.refused false a)
      | .ok ptrs => (loadValue cpu.memory.host ptrs, cpu) := by
  have hpending : (cpuHasException).run viewOp cpu = (cpu.context.hasException, cpu) := rfl
  have htry := tryGetContiguousPtr_contiguous hm hexc hsize address false
  have hnotify : ∀ value (c : Cpu),
      (perform (.notify .memRead address size value)).run viewOp c = ((), c) := fun _ _ => rfl
  unfold readMemory
  rw [Program.run_bind, hpending]
  simp only [hexc, Bool.false_eq_true, if_false]
  rw [Program.run_bind]
  generalize (cpuTryGetContiguousPtr address size false).run viewOp cpu = r at htry
  cases htry with
  | whole p _ h =>
    simp only [Program.run_bind, run_loadBytes, hnotify, h]
    rfl
  | split =>
    simp only
    rw [Program.run_bind, run_readBytes hexc]
    cases cpu.operandPtrs false address size 0 <;> rfl
  | refused a h hpend =>
    obtain ⟨left, rfl⟩ : ∃ left, size = left + 1 := ⟨size - 1, by omega⟩
    simp only
    rw [Program.run_bind, run_readBytes_pending hpend, h]
    rfl

/-- **A store** stores its bytes, or is refused at the first of them that is. -/
theorem run_writeMemory (hm : ManagerOk cpu.memory) (hexc : cpu.context.hasException = false)
    {size : ℕ} (hsize : 0 < size) (address value : U64) :
    (writeMemory size address value).run viewOp cpu =
      match cpu.operandPtrs true address size 0 with
      | .error a => ((), cpu.refused true a)
      | .ok ptrs => ((), cpu.setHost (storeBytes cpu.memory.host ptrs value)) := by
  have hpending : (cpuHasException).run viewOp cpu = (cpu.context.hasException, cpu) := rfl
  have htry := tryGetContiguousPtr_contiguous hm hexc hsize address true
  have hnotify : ∀ (c : Cpu),
      (perform (.notify .memWrite address size value)).run viewOp c = ((), c) := fun _ => rfl
  unfold writeMemory
  rw [Program.run_bind, hpending]
  simp only [hexc, Bool.false_eq_true, if_false]
  rw [Program.run_bind]
  generalize (cpuTryGetContiguousPtr address size true).run viewOp cpu = r at htry
  cases htry with
  | whole p _ h =>
    simp only [Program.run_bind, run_storeValue, hnotify, h]
  | split =>
    simp only
    rw [Program.run_bind, run_resolveSlot hexc]
    cases cpu.operandPtrs true address size 0 with
    | error a => rfl
    | ok ptrs => simp only [Program.run_bind, run_storeValue, hnotify]
  | refused a h hpend =>
    obtain ⟨left, rfl⟩ : ∃ left, size = left + 1 := ⟨size - 1, by omega⟩
    simp only
    rw [Program.run_bind, run_resolveSlot_pending hpend, h]
    rfl

/-! ## Stores and loads through pointers -/

/-- Stores through some pointers leave the bytes behind the others. -/
theorem read_storeBytes (ptrs : List HostPtr) : ∀ (host : HostMemory) (value : U64)
    {ptr : HostPtr}, ptr ∉ ptrs → (storeBytes host ptrs value).read ptr = host.read ptr := by
  induction ptrs with
  | nil =>
    intro host value ptr _
    rfl
  | cons p rest ih =>
    intro host value ptr hptr
    rw [List.mem_cons, not_or] at hptr
    obtain ⟨hne, hrest⟩ := hptr
    rw [storeBytes, ih _ _ hrest, read_write, if_neg hne]

/-- An operand has a pointer for each of its bytes. -/
theorem operandPtrs_length {store : Bool} {address : U64} (left : ℕ) : ∀ {offset : U64}
    {ptrs : List HostPtr}, cpu.operandPtrs store address left offset = .ok ptrs →
    ptrs.length = left := by
  induction left with
  | zero =>
    intro offset ptrs h
    cases h
    rfl
  | succ left ih =>
    intro offset ptrs h
    unfold Cpu.operandPtrs at h
    cases hptr : cpu.dataPtr store (address + offset) with
    | none => simp [hptr] at h
    | some p =>
      rw [hptr] at h
      cases hrest : cpu.operandPtrs store address left (offset + 1) with
      | error a =>
        simp only [hrest] at h
        cases h
      | ok rest =>
        simp only [hrest] at h
        cases h
        rw [List.length_cons, ih hrest]

/-! ## The bytes of an operand one by one -/

/-- The pointer to a byte of an operand is that of an access to the byte. -/
theorem operandPtrs_getElem (left : ℕ) : ∀ {offset : U64} {ptrs : List HostPtr},
    cpu.operandPtrs store address left offset = .ok ptrs → ∀ i < left,
      cpu.dataPtr store (address + (offset + BitVec.ofNat 64 i)) = ptrs[i]? := by
  induction left with
  | zero =>
    intro offset ptrs _ i hi
    omega
  | succ left ih =>
    intro offset ptrs h i hi
    unfold Cpu.operandPtrs at h
    cases hfirst : cpu.dataPtr store (address + offset) with
    | none =>
      rw [hfirst] at h
      cases h
    | some p =>
      rw [hfirst] at h
      cases hrest : cpu.operandPtrs store address left (offset + 1) with
      | error a =>
        rw [hrest] at h
        cases h
      | ok rest =>
        rw [hrest] at h
        obtain rfl := Except.ok.inj h
        rcases i with _ | i
        · rw [show offset + BitVec.ofNat 64 0 = offset from BitVec.add_zero offset]
          exact hfirst
        · rw [← offset_succ]
          exact ih hrest i (by omega)

/-- An operand is refused at the first of its bytes without a pointer. -/
theorem operandPtrs_first_none (left : ℕ) : ∀ {offset : U64} {j : ℕ}, j < left →
    cpu.dataPtr store (address + (offset + BitVec.ofNat 64 j)) = none →
    (∀ i < j, cpu.dataPtr store (address + (offset + BitVec.ofNat 64 i)) ≠ none) →
    cpu.operandPtrs store address left offset =
      .error (address + (offset + BitVec.ofNat 64 j)) := by
  induction left with
  | zero =>
    intro offset j hj
    omega
  | succ left ih =>
    intro offset j hj hnone hsome
    unfold Cpu.operandPtrs
    rcases j with _ | j
    · rw [show offset + BitVec.ofNat 64 0 = offset from BitVec.add_zero offset] at hnone ⊢
      rw [hnone]
    · obtain ⟨p, hp⟩ := Option.ne_none_iff_exists'.mp (hsome 0 j.succ_pos)
      rw [show offset + BitVec.ofNat 64 0 = offset from BitVec.add_zero offset] at hp
      rw [← offset_succ] at hnone ⊢
      have hrest := @ih (offset + 1) j (by omega) hnone fun i hi => by
        rw [offset_succ]
        exact hsome (i + 1) (by omega)
      rw [hp, hrest]
      rfl

/-- An operand has its pointers when each of its bytes has one. -/
theorem operandPtrs_all (left : ℕ) : ∀ {offset : U64},
    (∀ i < left, cpu.dataPtr store (address + (offset + BitVec.ofNat 64 i)) ≠ none) →
    ∃ ptrs, cpu.operandPtrs store address left offset = .ok ptrs := by
  induction left with
  | zero => exact fun _ => ⟨[], rfl⟩
  | succ left ih =>
    intro offset hsome
    obtain ⟨p, hp⟩ := Option.ne_none_iff_exists'.mp (hsome 0 left.succ_pos)
    rw [show offset + BitVec.ofNat 64 0 = offset from BitVec.add_zero offset] at hp
    obtain ⟨rest, hrest⟩ := @ih (offset + 1) fun i hi => by
      rw [offset_succ]
      exact hsome (i + 1) (by omega)
    refine ⟨p :: rest, ?_⟩
    unfold Cpu.operandPtrs
    rw [hp, hrest]
    rfl

/-! ## Values -/

/-- A value depends on the bytes behind its pointers only. -/
theorem loadValue_congr {host host' : HostMemory} {ptrs : List HostPtr}
    (h : ∀ p ∈ ptrs, host'.read p = host.read p) : loadValue host' ptrs = loadValue host ptrs := by
  induction ptrs with
  | nil => rfl
  | cons p rest ih =>
    rw [List.forall_mem_cons] at h
    rw [loadValue, loadValue, h.1, ih h.2]

/-- A value of some bytes has the bits of these bytes only. -/
theorem loadValue_lt (host : HostMemory) (ptrs : List HostPtr) :
    (loadValue host ptrs).toNat < 2 ^ (8 * ptrs.length) := by
  induction ptrs with
  | nil => simp [loadValue]
  | cons p rest ih =>
    rw [loadValue, BitVec.toNat_or, List.length_cons]
    refine Nat.or_lt_two_pow ?_ ?_
    · have hbyte := ((host.read p).getD 0).isLt
      rw [BitVec.toNat_setWidth]
      refine lt_of_le_of_lt (Nat.mod_le _ _) (lt_of_lt_of_le hbyte ?_)
      exact Nat.pow_le_pow_right (by decide) (by omega)
    · rw [BitVec.toNat_shiftLeft, Nat.shiftLeft_eq]
      refine lt_of_le_of_lt (Nat.mod_le _ _) ?_
      rw [Nat.mul_add, Nat.pow_add]
      exact Nat.mul_lt_mul_of_pos_right ih (by decide)

/-- The value of a byte and the bytes behind it. -/
theorem loadValue_cons {host : HostMemory} {p : HostPtr} {rest : List HostPtr} {byte : U8}
    (hbyte : host.read p = some byte) (hlen : rest.length < 8) :
    (loadValue host (p :: rest)).toNat = byte.toNat + 2 ^ 8 * (loadValue host rest).toNat := by
  have hlow : byte.toNat < 2 ^ 8 := byte.isLt
  have hhigh : (loadValue host rest).toNat * 2 ^ 8 < 2 ^ 64 := by
    have hle : 2 ^ (8 * rest.length) ≤ 2 ^ 56 := Nat.pow_le_pow_right (by decide) (by omega)
    have := loadValue_lt host rest
    omega
  have hword : byte.toNat < 2 ^ 64 := lt_trans hlow (by decide)
  rw [loadValue, hbyte, Option.getD_some, BitVec.toNat_or, BitVec.toNat_setWidth,
    BitVec.toNat_shiftLeft, Nat.shiftLeft_eq, Nat.mod_eq_of_lt hhigh, Nat.mod_eq_of_lt hword,
    Nat.or_comm, Nat.mul_comm, ← Nat.two_pow_add_eq_or_of_lt hlow, Nat.add_comm]

/-- **A load behind a store** of at most 8 bytes through pointers to different bytes. -/
theorem loadValue_storeBytes (ptrs : List HostPtr) : ∀ (host : HostMemory) (value : U64),
    ptrs.Nodup → (∀ p ∈ ptrs, (host.read p).isSome = true) → ptrs.length ≤ 8 →
    (loadValue (storeBytes host ptrs value) ptrs).toNat = value.toNat % 2 ^ (8 * ptrs.length) := by
  induction ptrs with
  | nil =>
    intro host value _ _ _
    simp [loadValue, Nat.mod_one]
  | cons p rest ih =>
    intro host value hnodup hbacked hlen
    rw [List.nodup_cons] at hnodup
    rw [List.forall_mem_cons] at hbacked
    obtain ⟨hnotin, hnodup⟩ := hnodup
    obtain ⟨hp, hrest⟩ := hbacked
    have hread : (storeBytes (host.write p (value.setWidth 8)) rest (value >>> 8)).read p =
        some (value.setWidth 8) := by
      obtain ⟨old, hold⟩ := Option.isSome_iff_exists.mp hp
      rw [read_storeBytes rest _ _ hnotin, read_write, if_pos rfl, hold, Option.map_some]
    have hbacked' : ∀ q ∈ rest, ((host.write p (value.setWidth 8)).read q).isSome = true := by
      intro q hq
      have hne : q ≠ p := by
        rintro rfl
        exact hnotin hq
      rw [read_write, if_neg hne]
      exact hrest q hq
    rw [List.length_cons] at hlen
    rw [storeBytes, loadValue_cons hread (by omega), ih _ _ hnodup hbacked' (by omega),
      BitVec.toNat_setWidth, BitVec.toNat_ushiftRight, Nat.shiftRight_eq_div_pow,
      List.length_cons, Nat.mul_add, Nat.add_comm (8 * rest.length), Nat.pow_add, Nat.mod_mul]

end Cpueaxh
