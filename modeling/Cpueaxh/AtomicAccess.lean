/-
# One pointer for a locked access

A locked instruction works on memory through one host pointer for all bytes of its operand.
Where the bytes lie apart, `cpu_get_contiguous_ptr` asks the callback for invalid accesses and
starts again when it is answered; otherwise it raises a page fault, although each byte may be
written on its own.
-/
import Cpueaxh.WideAccess
import Cpueaxh.RegisterOperands

namespace Cpueaxh

open HostMemory

/-! ## The code -/

/-- What `cpu_get_contiguous_ptr_impl` finds: a pointer, a byte that is refused, or a byte that
lies apart from the first one. -/
inductive PtrSearch where
  | found (p : HostPtr)
  | refused
  | split (address : U64)
  deriving DecidableEq, Repr

/-- What the loops end with. -/
def PtrSearch.ofBase : Option HostPtr → PtrSearch
  | some p => .found p
  | none => .refused

/-- The page loop of `cpu_get_contiguous_ptr_impl`, with the bytes that are left as fuel. -/
def searchPages (address : U64) (size : ℕ) (store : Bool) :
    ℕ → ℕ → Option HostPtr → CpuProgram PtrSearch
  | 0, _, base => return .ofBase base
  | fuel + 1, offset, base => do
    if offset < size then
      let current := address + BitVec.ofNat 64 offset
      match ← cpuResolve current store with
      | none => return .refused
      | some page =>
        let chunk := cpuPageBytesRemaining current
        let next := offset + if chunk < size - offset then chunk else size - offset
        match base with
        | none => searchPages address size store fuel next (some page)
        | some base =>
          if page = base.add (BitVec.ofNat 64 offset) then
            searchPages address size store fuel next (some base)
          else return .split current
    else return .ofBase base

/-- The byte loop of `cpu_get_contiguous_ptr_impl`. -/
def searchBytes (address : U64) (store : Bool) (base : HostPtr) : ℕ → ℕ → CpuProgram PtrSearch
  | 0, _ => return .found base
  | left + 1, offset => do
    match ← cpuResolve (address + BitVec.ofNat 64 offset) store with
    | none => return .refused
    | some next =>
      if next = base.add (BitVec.ofNat 64 offset) then
        searchBytes address store base left (offset + 1)
      else return .split (address + BitVec.ofNat 64 offset)

/-- One pass of `cpu_get_contiguous_ptr_impl`. -/
def searchPtr (address : U64) (size : ℕ) (store : Bool) : CpuProgram PtrSearch := do
  if ← perform .canUsePageFastPath then
    if size ≤ cpuPageBytesRemaining address then
      return .ofBase (← cpuResolve address store)
    else searchPages address size store size 0 none
  else
    match ← cpuResolve address store with
    | none => return .refused
    | some base => searchBytes address store base (size - 1) 1

/-- `cpu_get_contiguous_ptr`; `none` outside stands for passes that are still to come when the
fuel is used up, `none` inside for `NULL`. -/
def cpuGetContiguousPtr (address : U64) (size : ℕ) (store : Bool) :
    ℕ → CpuProgram (Option (Option HostPtr))
  | 0 => return none
  | fuel + 1 => do
    if size = 0 || (← cpuHasException) then return some none
    match ← searchPtr address size store with
    | .found p => return some (some p)
    | .refused => return some none
    | .split current =>
      if ← perform (.tryHandleInvalid store) then cpuGetContiguousPtr address size store fuel
      else
        perform (.raisePageFault current store)
        return some none

/-- `get_memory_write_ptr`. -/
def getMemoryWritePtr (address : U64) (size : ℕ) : ℕ → CpuProgram (Option (Option HostPtr)) :=
  cpuGetContiguousPtr address size true

/-- `cpu_atomic_compare_exchange_memory`: whether it has exchanged, and the previous value. -/
def cpuAtomicCompareExchangeMemory (fuel : ℕ) (address : U64) (size : OperandWidth)
    (expectedValue desiredValue : U64) : CpuProgram (Option (Bool × U64)) := do
  match ← getMemoryWritePtr address (size.bits / 8) fuel with
  | none => return none
  | some none => return some (false, 0)
  | some (some p) =>
    let oldValue ← loadBytes p (size.bits / 8) 0
    let exchanged := decide (oldValue = expectedValue &&& operandMask size)
    if exchanged then storeValue (consecutive p (size.bits / 8) 0) desiredValue
    return some (exchanged, oldValue)

/-! ## Bytes in one run -/

namespace Cpu

variable (cpu : Cpu)

/-- The first bytes of an operand lie behind one another. -/
def InRun (store : Bool) (address : U64) (p : HostPtr) (n : ℕ) : Prop :=
  ∀ i < n, cpu.dataPtr store (address + BitVec.ofNat 64 i) = some (p.add (BitVec.ofNat 64 i))

/-- The bytes of an operand up to the first that is refused lie behind one another. -/
def OneRun (store : Bool) (address : U64) (size : ℕ) : Prop :=
  ∃ p : HostPtr, ∀ j < size, (∀ i ≤ j, cpu.dataPtr store (address + BitVec.ofNat 64 i) ≠ none) →
    cpu.dataPtr store (address + BitVec.ofNat 64 j) = some (p.add (BitVec.ofNat 64 j))

end Cpu

variable {cpu : Cpu} {store : Bool} {address : U64} {size : ℕ}

/-- The outcome of a pass. -/
inductive SearchOutcome (cpu : Cpu) (store : Bool) (address : U64) (size : ℕ) :
    PtrSearch × Cpu → Prop where
  | found {p : HostPtr} (h : cpu.InRun store address p size) :
    SearchOutcome cpu store address size (.found p, cpu)
  | refused {p : HostPtr} {j : ℕ} (hj : j < size) (h : cpu.InRun store address p j)
    (hnone : cpu.dataPtr store (address + BitVec.ofNat 64 j) = none) :
    SearchOutcome cpu store address size
      (.refused, cpu.refused store (address + BitVec.ofNat 64 j))
  | split {p q : HostPtr} {j : ℕ} (hpos : 0 < j) (hj : j < size) (h : cpu.InRun store address p j)
    (hq : cpu.dataPtr store (address + BitVec.ofNat 64 j) = some q)
    (hapart : q ≠ p.add (BitVec.ofNat 64 j)) :
    SearchOutcome cpu store address size (.split (address + BitVec.ofNat 64 j), cpu)

theorem inRun_zero (p : HostPtr) : cpu.InRun store address p 0 := by
  intro i hi
  omega

theorem inRun_one {p : HostPtr} (h : cpu.dataPtr store address = some p) :
    cpu.InRun store address p 1 := by
  intro i hi
  obtain rfl : i = 0 := by omega
  have hzero : address + BitVec.ofNat 64 0 = address := BitVec.add_zero address
  have hsame : p.add (BitVec.ofNat 64 0) = p := p.add_zero
  rw [hzero, hsame]
  exact h

/-- The bytes of a page lie behind its first one. -/
theorem Cpu.InRun.page (hm : ManagerOk cpu.memory) (hpatches : cpu.memory.patches.length = 0)
    {p : HostPtr} {offset : ℕ} (h : cpu.InRun store address p offset)
    (hpage : cpu.dataPtr store (address + BitVec.ofNat 64 offset) =
      some (p.add (BitVec.ofNat 64 offset))) {chunk : ℕ}
    (hchunk : chunk ≤ cpuPageBytesRemaining (address + BitVec.ofNat 64 offset)) :
    cpu.InRun store address p (offset + chunk) := by
  intro i hi
  by_cases hlow : i < offset
  · exact h i hlow
  obtain ⟨j, rfl⟩ : ∃ j, i = offset + j := ⟨i - offset, by omega⟩
  have hbyte := dataPtr_page hm hpatches hpage (j := j) (by omega)
  rw [BitVec.ofNat_add, ← BitVec.add_assoc, ← HostPtr.add_add]
  exact hbyte

/-- The byte loop. -/
theorem searchBytes_outcome (hexc : cpu.context.hasException = false) (p : HostPtr) (left : ℕ) :
    ∀ {offset : ℕ}, 0 < offset → offset + left = size → cpu.InRun store address p offset →
      SearchOutcome cpu store address size
        ((searchBytes address store p left offset).run viewOp cpu) := by
  induction left with
  | zero =>
    intro offset _ hsize hrun
    obtain rfl : offset = size := hsize
    exact .found hrun
  | succ left ih =>
    intro offset hpos hsize hrun
    unfold searchBytes
    rw [Program.run_bind, run_cpuResolve hexc]
    cases hq : cpu.dataPtr store (address + BitVec.ofNat 64 offset) with
    | none => exact .refused (by omega) hrun hq
    | some q =>
      dsimp only
      by_cases hnext : q = p.add (BitVec.ofNat 64 offset)
      · rw [if_pos hnext]
        apply ih (by omega) (by omega)
        intro i hi
        by_cases hlow : i < offset
        · exact hrun i hlow
        · obtain rfl : i = offset := by omega
          rw [hq, hnext]
      · rw [if_neg hnext]
        exact .split hpos (by omega) hrun hq hnext

/-- The page loop. -/
theorem searchPages_outcome (hm : ManagerOk cpu.memory)
    (hexc : cpu.context.hasException = false) (hpatches : cpu.memory.patches.length = 0)
    (fuel : ℕ) : ∀ {offset : ℕ} {p : HostPtr}, 0 < offset → offset ≤ size → size - offset ≤ fuel →
      cpu.InRun store address p offset →
      SearchOutcome cpu store address size
        ((searchPages address size store fuel offset (some p)).run viewOp cpu) := by
  have hdone : ∀ {offset : ℕ} {p : HostPtr}, offset ≤ size → size ≤ offset →
      cpu.InRun store address p offset →
      SearchOutcome cpu store address size (PtrSearch.found p, cpu) := by
    intro offset p hle hge hrun
    obtain rfl : offset = size := by omega
    exact .found hrun
  induction fuel with
  | zero =>
    intro offset p _ hle hfuel hrun
    exact hdone hle (by omega) hrun
  | succ fuel ih =>
    intro offset p hpos hle hfuel hrun
    unfold searchPages
    by_cases hlt : offset < size
    · rw [if_pos hlt, Program.run_bind, run_cpuResolve hexc]
      cases hq : cpu.dataPtr store (address + BitVec.ofNat 64 offset) with
      | none => exact .refused hlt hrun hq
      | some q =>
        dsimp only
        by_cases hnext : q = p.add (BitVec.ofNat 64 offset)
        · rw [if_pos hnext]
          have hremaining : 0 < cpuPageBytesRemaining (address + BitVec.ofNat 64 offset) := by
            unfold cpuPageBytesRemaining
            omega
          -- the rest of the page, or of the operand
          generalize hchunk : (if cpuPageBytesRemaining (address + BitVec.ofNat 64 offset) <
            size - offset then cpuPageBytesRemaining (address + BitVec.ofNat 64 offset)
            else size - offset) = chunk
          have hbound : chunk ≤ size - offset ∧ 0 < chunk ∧
              chunk ≤ cpuPageBytesRemaining (address + BitVec.ofNat 64 offset) := by
            subst hchunk
            split_ifs <;> omega
          apply ih (by omega) (by omega) (by omega)
          exact hrun.page hm hpatches (by rw [hq, hnext]) hbound.2.2
        · rw [if_neg hnext]
          exact .split hpos hlt hrun hq hnext
    · rw [if_neg hlt]
      exact hdone hle (by omega) hrun

/-- The first byte is refused. -/
theorem SearchOutcome.refused_first (hsize : 0 < size) (hnone : cpu.dataPtr store address = none) :
    SearchOutcome cpu store address size (.refused, cpu.refused store address) := by
  have hzero : address + BitVec.ofNat 64 0 = address := BitVec.add_zero address
  rw [← hzero] at hnone
  have hrefused := SearchOutcome.refused hsize (inRun_zero HostPtr.null) hnone
  rwa [hzero] at hrefused

/-- **One pass** finds a pointer, is refused, or comes to a byte that lies apart. -/
theorem searchPtr_outcome (hm : ManagerOk cpu.memory) (hexc : cpu.context.hasException = false)
    (hsize : 0 < size) (address : U64) (store : Bool) :
    SearchOutcome cpu store address size ((searchPtr address size store).run viewOp cpu) := by
  have hfast : (perform .canUsePageFastPath).run viewOp cpu =
    (cpu.memory.patches.length == 0, cpu) := rfl
  have hzero : address + BitVec.ofNat 64 0 = address := BitVec.add_zero address
  unfold searchPtr
  rw [Program.run_bind, hfast]
  dsimp only
  -- without patches whole pages are looked up, else every byte
  by_cases hpatches : cpu.memory.patches.length = 0
  · rw [if_pos (beq_iff_eq.mpr hpatches)]
    by_cases hpage : size ≤ cpuPageBytesRemaining address
    · rw [if_pos hpage, Program.run_bind, run_cpuResolve hexc]
      cases hp : cpu.dataPtr store address with
      | none => exact .refused_first hsize hp
      | some p =>
        have hrun : cpu.InRun store address p (0 + size) := by
          apply (inRun_zero p).page hm hpatches
          · rw [hzero, show p.add (BitVec.ofNat 64 0) = p from p.add_zero]
            exact hp
          · rw [hzero]
            exact hpage
        rw [Nat.zero_add] at hrun
        exact .found hrun
    · rw [if_neg hpage]
      obtain ⟨fuel, hfuel⟩ : ∃ fuel, size = fuel + 1 := ⟨size - 1, by omega⟩
      rw [show searchPages address size store size 0 none =
        searchPages address size store (fuel + 1) 0 none by rw [← hfuel]]
      unfold searchPages
      rw [if_pos hsize, hzero, Program.run_bind, run_cpuResolve hexc]
      cases hp : cpu.dataPtr store address with
      | none => exact .refused_first hsize hp
      | some p =>
        dsimp only
        have hremaining : 0 < cpuPageBytesRemaining address := by
          unfold cpuPageBytesRemaining
          omega
        generalize hchunk : (if cpuPageBytesRemaining address < size - 0 then
          cpuPageBytesRemaining address else size - 0) = chunk
        have hbound : chunk ≤ size ∧ 0 < chunk ∧ chunk ≤ cpuPageBytesRemaining address := by
          subst hchunk
          split_ifs <;> omega
        apply searchPages_outcome hm hexc hpatches fuel (by omega) (by omega) (by omega)
        apply (inRun_zero p).page hm hpatches
        · rw [hzero, show p.add (BitVec.ofNat 64 0) = p from p.add_zero]
          exact hp
        · rw [hzero]
          exact hbound.2.2
  · rw [if_neg (mt beq_iff_eq.mp hpatches), Program.run_bind, run_cpuResolve hexc]
    cases hp : cpu.dataPtr store address with
    | none => exact .refused_first hsize hp
    | some p => exact searchBytes_outcome hexc p (size - 1) (by omega) (by omega) (inRun_one hp)

/-! ## The pointer of a locked access -/

theorem oneRun_of_inRun {p : HostPtr} (h : cpu.InRun store address p size) :
    cpu.OneRun store address size := ⟨p, fun j hj _ => h j hj⟩

/-- Bytes that lie behind one another, up to one that is refused. -/
theorem oneRun_of_refused {p : HostPtr} {j : ℕ} (h : cpu.InRun store address p j)
    (hnone : cpu.dataPtr store (address + BitVec.ofNat 64 j) = none) :
    cpu.OneRun store address size := by
  refine ⟨p, fun k hk hgranted => h k ?_⟩
  by_contra hle
  exact hgranted j (by omega) hnone

/-- Bytes of which one lies apart. -/
theorem not_oneRun {p q : HostPtr} {j : ℕ} (hpos : 0 < j) (hj : j < size)
    (h : cpu.InRun store address p j)
    (hq : cpu.dataPtr store (address + BitVec.ofNat 64 j) = some q)
    (hapart : q ≠ p.add (BitVec.ofNat 64 j)) : ¬ cpu.OneRun store address size := by
  rintro ⟨p', hrun⟩
  have hgranted : ∀ i ≤ j, cpu.dataPtr store (address + BitVec.ofNat 64 i) ≠ none := by
    intro i hi
    rcases Nat.lt_or_eq_of_le hi with hlt | rfl
    · rw [h i hlt]
      exact Option.some_ne_none _
    · rw [hq]
      exact Option.some_ne_none _
  have hfirst := hrun 0 (by omega) fun i hi => hgranted i (by omega)
  rw [h 0 hpos, Option.some.injEq] at hfirst
  have hsame : p = p' := by
    have hzero : ∀ r : HostPtr, r.add (BitVec.ofNat 64 0) = r := HostPtr.add_zero
    rw [← hzero p, hfirst, hzero]
  have hlast := hrun j hj hgranted
  rw [hq, Option.some.injEq, ← hsame] at hlast
  exact hapart hlast

theorem inRun_ptrs {p : HostPtr} (h : cpu.InRun store address p size) :
    cpu.operandPtrs store address size 0 = .ok (consecutive p size 0) := by
  have hbytes : ∀ j < size, cpu.dataPtr store (address + (0 + BitVec.ofNat 64 j)) =
      some (p.add (0 + BitVec.ofNat 64 j)) := by
    intro j hj
    rw [show (0 : U64) + BitVec.ofNat 64 j = BitVec.ofNat 64 j from BitVec.zero_add _]
    exact h j hj
  have hblock := operandPtrs_block p size 0 hbytes
  rw [Nat.add_zero] at hblock
  rw [hblock]
  exact congrArg Except.ok (List.append_nil _)

theorem inRun_refused {p : HostPtr} {j : ℕ} (hj : j < size) (h : cpu.InRun store address p j)
    (hnone : cpu.dataPtr store (address + BitVec.ofNat 64 j) = none) :
    cpu.operandPtrs store address size 0 = .error (address + BitVec.ofNat 64 j) := by
  have hzero : ∀ i, (0 : U64) + BitVec.ofNat 64 i = BitVec.ofNat 64 i := fun i =>
    BitVec.zero_add _
  have hfirst := @operandPtrs_first_none cpu store address size 0 j hj (by rwa [hzero])
    fun i hi => by
      rw [hzero, h i hi]
      exact Option.some_ne_none _
  rw [hzero] at hfirst
  exact hfirst

/-- **In one run** the first pass decides. -/
theorem run_getContiguousPtr (hm : ManagerOk cpu.memory)
    (hexc : cpu.context.hasException = false) (hsize : 0 < size)
    (hrun : cpu.OneRun store address size) (fuel : ℕ) :
    (∃ p, cpu.operandPtrs store address size 0 = .ok (consecutive p size 0) ∧
      (cpuGetContiguousPtr address size store (fuel + 1)).run viewOp cpu = (some (some p), cpu)) ∨
    ∃ a, cpu.operandPtrs store address size 0 = .error a ∧
      (cpuGetContiguousPtr address size store (fuel + 1)).run viewOp cpu =
        (some none, cpu.refused store a) := by
  have hguard : (size = 0 || cpu.context.hasException) = false := by
    rw [hexc, Bool.or_false]
    exact decide_eq_false hsize.ne'
  have hsearch := searchPtr_outcome hm hexc hsize address store
  unfold cpuGetContiguousPtr
  rw [Program.run_bind, run_cpuHasException]
  simp only [hguard, Bool.false_eq_true, if_false]
  rw [Program.run_bind]
  generalize (searchPtr address size store).run viewOp cpu = r at hsearch
  cases hsearch with
  | found h => exact Or.inl ⟨_, inRun_ptrs h, rfl⟩
  | refused hj h hnone => exact Or.inr ⟨_, inRun_refused hj h hnone, rfl⟩
  | split hpos hj h hq hapart => exact absurd hrun (not_oneRun hpos hj h hq hapart)

/-- A pass comes to the byte that lies apart. -/
theorem SearchOutcome.eq_split {p q : HostPtr} {j : ℕ} (hpos : 0 < j) (hj : j < size)
    (h : cpu.InRun store address p j)
    (hq : cpu.dataPtr store (address + BitVec.ofNat 64 j) = some q)
    (hapart : q ≠ p.add (BitVec.ofNat 64 j)) {r : PtrSearch × Cpu}
    (hr : SearchOutcome cpu store address size r) :
    r = (.split (address + BitVec.ofNat 64 j), cpu) := by
  have hzero : ∀ r : HostPtr, r.add (BitVec.ofNat 64 0) = r := HostPtr.add_zero
  -- two runs with a first byte have one pointer
  have hsame : ∀ {p' : HostPtr} {n : ℕ}, 0 < n → cpu.InRun store address p' n → p' = p := by
    intro p' n hn hrun
    have hfirst := hrun 0 hn
    rw [h 0 hpos, Option.some.injEq, hzero, hzero] at hfirst
    exact hfirst.symm
  have hnotRun : ∀ {p' : HostPtr} {n : ℕ}, j < n → ¬ cpu.InRun store address p' n := by
    intro p' n hn hrun
    have hbyte := hrun j hn
    rw [hq, Option.some.injEq, hsame (by omega) hrun] at hbyte
    exact hapart hbyte
  cases hr with
  | found hrun => exact absurd hrun (hnotRun hj)
  | @refused p' k hk hrun hnone =>
    exfalso
    rcases Nat.lt_trichotomy k j with hlt | rfl | hgt
    · rw [h k hlt] at hnone
      cases hnone
    · rw [hq] at hnone
      cases hnone
    · exact hnotRun hgt hrun
  | @split p' q' k hkpos hk hrun hq' hapart' =>
    rcases Nat.lt_trichotomy k j with hlt | rfl | hgt
    · rw [h k hlt, Option.some.injEq] at hq'
      rw [hsame hkpos hrun] at hapart'
      exact absurd hq'.symm hapart'
    · rfl
    · exact absurd hrun (hnotRun hgt)

/-- The outcomes of asking for one pointer to bytes that lie apart: passes without end, or a
fault. -/
inductive ApartOutcome (cpu : Cpu) (fault : CpuContext) : Option (Option HostPtr) × Cpu → Prop where
  | endless (asked : ℕ) : ApartOutcome cpu fault (none, { cpu with asked := asked })
  | faulted (asked : ℕ) :
    ApartOutcome cpu fault (some none, { cpu with context := fault, asked := asked })

/-- The CPU with another number of callbacks so far. -/
def Cpu.afterAsking (cpu : Cpu) (asked : ℕ) : Cpu := { cpu with asked := asked }

/-- The fault at a byte that lies apart. -/
def Cpu.faultedAt (cpu : Cpu) (store : Bool) (address : U64) (asked : ℕ) : Cpu :=
  { cpu with
    context := cpuRaisePageFault cpu.context address (dataAccess store) true
    asked := asked }

/-- The callbacks claim to have handled every access that is not allowed. -/
structure Cpu.Claims (cpu : Cpu) (store : Bool) : Prop where
  hook : cpu.hasHookType (cpuGetInvalidMemoryHookType (dataAccess store) true) = true
  answers : ∀ asked, cpu.hooks.answers asked = true

section Apart

variable {p q : HostPtr} {j : ℕ}

/-- **A pass apart** comes to the byte that lies apart, and starts again when the callback answers
so. -/
theorem run_getContiguousPtr_pass (hm : ManagerOk cpu.memory)
    (hexc : cpu.context.hasException = false) (hpos : 0 < j) (hj : j < size)
    (h : cpu.InRun store address p j)
    (hq : cpu.dataPtr store (address + BitVec.ofNat 64 j) = some q)
    (hapart : q ≠ p.add (BitVec.ofNat 64 j)) (fuel asked : ℕ) :
    (cpuGetContiguousPtr address size store (fuel + 1)).run viewOp (cpu.afterAsking asked) =
      if cpu.hasHookType (cpuGetInvalidMemoryHookType (dataAccess store) true) = true then
        if cpu.hooks.answers asked = true then
          (cpuGetContiguousPtr address size store fuel).run viewOp (cpu.afterAsking (asked + 1))
        else (some none, cpu.faultedAt store (address + BitVec.ofNat 64 j) (asked + 1))
      else (some none, cpu.faultedAt store (address + BitVec.ofNat 64 j) asked) := by
  have hguard : (size = 0 || cpu.context.hasException) = false := by
    rw [hexc, Bool.or_false]
    exact decide_eq_false (by omega)
  -- the callback answers by its number only, so each pass finds what the first one finds
  have hagain : SearchOutcome (cpu.afterAsking asked) store address size
      ((searchPtr address size store).run viewOp (cpu.afterAsking asked)) :=
    @searchPtr_outcome (cpu.afterAsking asked) size hm hexc (by omega) address store
  have hpass := @SearchOutcome.eq_split (cpu.afterAsking asked) store address size p q j
    hpos hj h hq hapart _ hagain
  have hask : (perform (.tryHandleInvalid store)).run viewOp (cpu.afterAsking asked) =
      (cpu.afterAsking asked).tryHandleInvalidMemoryAccess (dataAccess store) true := by
    show (if cpu.context.hasException = true then _ else _) = _
    rw [if_neg (by rw [hexc]; decide)]
  have hraise : ∀ asked, (perform (.raisePageFault (address + BitVec.ofNat 64 j) store)).run
      viewOp (cpu.afterAsking asked) =
        ((), cpu.faultedAt store (address + BitVec.ofNat 64 j) asked) := by
    intro asked
    show ((), if cpu.context.hasException = true then _ else _) = _
    rw [if_neg (by rw [hexc]; decide)]
    rfl
  have hhook : (cpu.afterAsking asked).hasHookType
      (cpuGetInvalidMemoryHookType (dataAccess store) true) =
        cpu.hasHookType (cpuGetInvalidMemoryHookType (dataAccess store) true) := rfl
  conv_lhs => unfold cpuGetContiguousPtr
  rw [Program.run_bind, run_cpuHasException,
    show (cpu.afterAsking asked).context = cpu.context from rfl]
  simp only [hguard, Bool.false_eq_true, if_false]
  rw [Program.run_bind, hpass]
  dsimp only
  rw [Program.run_bind, hask]
  unfold Cpu.tryHandleInvalidMemoryAccess
  rw [hhook]
  by_cases hinstalled : cpu.hasHookType (cpuGetInvalidMemoryHookType (dataAccess store) true) = true
  · rw [if_pos hinstalled, if_pos hinstalled]
    by_cases hanswer : cpu.hooks.answers asked = true
    · have hasked : (cpu.afterAsking asked).hooks.answers (cpu.afterAsking asked).asked = true :=
        hanswer
      rw [if_pos hanswer]
      dsimp only
      rw [if_pos hasked]
      rfl
    · have hasked : ¬ (cpu.afterAsking asked).hooks.answers (cpu.afterAsking asked).asked = true :=
        hanswer
      rw [if_neg hanswer]
      dsimp only
      rw [if_neg hasked, Program.run_bind]
      exact congrArg (Prod.mk (some none) ∘ Prod.snd) (hraise (asked + 1))
  · rw [if_neg hinstalled, if_neg hinstalled]
    dsimp only
    rw [if_neg Bool.false_ne_true, Program.run_bind, hraise]
    rfl

end Apart

/-- The byte of an operand that lies apart. -/
theorem exists_byteApart (hm : ManagerOk cpu.memory) (hexc : cpu.context.hasException = false)
    (hsize : 0 < size) (hapart : ¬ cpu.OneRun store address size) :
    ∃ p q j, 0 < j ∧ j < size ∧ cpu.InRun store address p j ∧
      cpu.dataPtr store (address + BitVec.ofNat 64 j) = some q ∧
      q ≠ p.add (BitVec.ofNat 64 j) := by
  have hsearch := searchPtr_outcome hm hexc hsize address store
  generalize (searchPtr address size store).run viewOp cpu = r at hsearch
  cases hsearch with
  | found h => exact absurd (oneRun_of_inRun h) hapart
  | refused hj h hnone => exact absurd (oneRun_of_refused h hnone) hapart
  | @split p q j hpos hj h hq hne => exact ⟨p, q, j, hpos, hj, h, hq, hne⟩

/-- **Apart** there is no pointer: the passes go on, or end in a page fault at the byte that lies
apart. -/
theorem run_getContiguousPtr_apart (hm : ManagerOk cpu.memory)
    (hexc : cpu.context.hasException = false) (hsize : 0 < size)
    (hapart : ¬ cpu.OneRun store address size) :
    ∃ j < size, (∀ i ≤ j, cpu.dataPtr store (address + BitVec.ofNat 64 i) ≠ none) ∧
      ∀ fuel, ApartOutcome cpu
        (cpuRaisePageFault cpu.context (address + BitVec.ofNat 64 j) (dataAccess store) true)
        ((cpuGetContiguousPtr address size store fuel).run viewOp cpu) := by
  obtain ⟨p, q, j, hpos, hj, h, hq, hne⟩ := exists_byteApart hm hexc hsize hapart
  refine ⟨j, hj, ?_, fun fuel => ?_⟩
  · intro i hi
    rcases Nat.lt_or_eq_of_le hi with hlt | rfl
    · rw [h i hlt]
      exact Option.some_ne_none _
    · rw [hq]
      exact Option.some_ne_none _
  · have hall : ∀ fuel asked, ApartOutcome cpu
        (cpuRaisePageFault cpu.context (address + BitVec.ofNat 64 j) (dataAccess store) true)
        ((cpuGetContiguousPtr address size store fuel).run viewOp (cpu.afterAsking asked)) := by
      intro fuel
      induction fuel with
      | zero => exact fun asked => .endless asked
      | succ fuel ih =>
        intro asked
        rw [run_getContiguousPtr_pass hm hexc hpos hj h hq hne]
        split_ifs
        · exact ih (asked + 1)
        · exact .faulted (asked + 1)
        · exact .faulted asked
    exact hall fuel cpu.asked

/-- **Apart** the passes have no end under callbacks that claim to have handled the access. -/
theorem run_getContiguousPtr_endless (hm : ManagerOk cpu.memory)
    (hexc : cpu.context.hasException = false) (hsize : 0 < size)
    (hapart : ¬ cpu.OneRun store address size) (hclaims : cpu.Claims store) (fuel : ℕ) :
    ∃ asked, (cpuGetContiguousPtr address size store fuel).run viewOp cpu =
      (none, cpu.afterAsking asked) := by
  obtain ⟨p, q, j, hpos, hj, h, hq, hne⟩ := exists_byteApart hm hexc hsize hapart
  have hall : ∀ fuel asked, ∃ asked', (cpuGetContiguousPtr address size store fuel).run viewOp
      (cpu.afterAsking asked) = (none, cpu.afterAsking asked') := by
    intro fuel
    induction fuel with
    | zero => exact fun asked => ⟨asked, rfl⟩
    | succ fuel ih =>
      intro asked
      rw [run_getContiguousPtr_pass hm hexc hpos hj h hq hne, if_pos hclaims.hook,
        if_pos (hclaims.answers asked)]
      exact ih (asked + 1)
  exact hall fuel cpu.asked

/-! ## Compare and exchange -/

/-- **In one run** the exchange takes place when the value is the expected one. -/
theorem run_atomicCompareExchange (hm : ManagerOk cpu.memory)
    (hexc : cpu.context.hasException = false) {size : OperandWidth}
    (hrun : cpu.OneRun true address (size.bits / 8)) (fuel : ℕ) (expected desired : U64) :
    (cpuAtomicCompareExchangeMemory (fuel + 1) address size expected desired).run viewOp cpu =
      match cpu.operandPtrs true address (size.bits / 8) 0 with
      | .error a => (some (false, 0), cpu.refused true a)
      | .ok ptrs =>
        let oldValue := loadValue cpu.memory.host ptrs
        if oldValue = expected &&& operandMask size then
          (some (true, oldValue), cpu.setHost (storeBytes cpu.memory.host ptrs desired))
        else (some (false, oldValue), cpu) := by
  have hsize : 0 < size.bits / 8 := by
    have height := size.eight_le
    omega
  unfold cpuAtomicCompareExchangeMemory getMemoryWritePtr
  rw [Program.run_bind]
  rcases run_getContiguousPtr hm hexc hsize hrun fuel with ⟨p, hptrs, hrun⟩ | ⟨a, hptrs, hrun⟩
  · rw [hrun, hptrs]
    dsimp only
    rw [Program.run_bind, run_loadBytes]
    dsimp only
    by_cases hsame : loadValue cpu.memory.host (consecutive p (size.bits / 8) 0) =
        expected &&& operandMask size
    · rw [if_pos hsame, decide_eq_true hsame]
      simp only [if_true]
      rw [Program.run_bind, run_storeValue]
      rfl
    · rw [if_neg hsame, decide_eq_false hsame]
      rfl
  · rw [hrun, hptrs]
    rfl

end Cpueaxh
