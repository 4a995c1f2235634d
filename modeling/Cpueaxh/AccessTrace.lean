/-
# Traces of memory accesses

What a program of the CPU does to memory, as it can be seen from outside: the bytes that it
loads and stores, what it reports to the observers, and the accesses in it that are refused.

Asking for pointers loads and stores nothing.  An operand is refused at one byte at most, the
first one that is not granted, whichever way its pointers are looked for.
-/
import Cpueaxh.CompatRip
import Cpueaxh.LinearBytes
import Cpueaxh.Trace

namespace Cpueaxh

open HostMemory Program

/-! ## Traces -/

/-- The pointers that a trace loads from. -/
def loads (ops : List CpuOp) : List HostPtr :=
  ops.filterMap fun
    | .load p => some p
    | _ => none

/-- The pointers that a trace stores through. -/
def stores (ops : List CpuOp) : List HostPtr :=
  ops.filterMap fun
    | .store p _ => some p
    | _ => none

/-- What a trace reports to the hooks of a type: addresses and sizes. -/
def reports (type : HookType) (ops : List CpuOp) : List (U64 × ℕ) :=
  ops.filterMap fun
    | .notify t address size _ => if t = type then some (address, size) else none
    | _ => none

/-- The bytes of an operand. -/
def byteRange (address : U64) (size : ℕ) : List U64 :=
  (List.range size).map fun j => address + BitVec.ofNat 64 j

/-- The bytes that a trace reports. -/
def reportedBytes (type : HookType) (ops : List CpuOp) : List U64 :=
  (reports type ops).flatMap fun r => byteRange r.1 r.2

@[simp] theorem loads_append (ops ops' : List CpuOp) : loads (ops ++ ops') = loads ops ++ loads ops' :=
  List.filterMap_append

@[simp] theorem stores_append (ops ops' : List CpuOp) :
    stores (ops ++ ops') = stores ops ++ stores ops' :=
  List.filterMap_append

@[simp] theorem reports_append (type : HookType) (ops ops' : List CpuOp) :
    reports type (ops ++ ops') = reports type ops ++ reports type ops' :=
  List.filterMap_append

@[simp] theorem reportedBytes_append (type : HookType) (ops ops' : List CpuOp) :
    reportedBytes type (ops ++ ops') = reportedBytes type ops ++ reportedBytes type ops' := by
  rw [reportedBytes, reports_append, List.flatMap_append]
  rfl

theorem mem_byteRange {address a : U64} {size : ℕ} :
    a ∈ byteRange address size ↔ ∃ j < size, a = address + BitVec.ofNat 64 j := by
  simp only [byteRange, List.mem_map, List.mem_range, eq_comm]

/-- Two operands behind one another. -/
theorem byteRange_append (address : U64) (m n : ℕ) : byteRange address (m + n) =
    byteRange address m ++ byteRange (address + BitVec.ofNat 64 m) n := by
  simp only [byteRange, List.range_add, List.map_append, List.map_map]
  congr 1
  refine List.map_congr_left fun j _ => ?_
  rw [Function.comp_apply, BitVec.ofNat_add, BitVec.add_assoc]

/-! ## Quiet operations -/

/-- An operation that neither touches a byte nor reports anything. -/
def CpuOp.Quiet : CpuOp → Prop
  | .load _ => False
  | .store _ _ => False
  | .notify _ _ _ _ => False
  | _ => True

/-- What a trace loads, stores, and reports as reads and as writes. -/
structure Traffic (ops : List CpuOp) (loaded stored : List HostPtr) (reads writes : List (U64 × ℕ)) :
    Prop where
  loads_eq : loads ops = loaded
  stores_eq : stores ops = stored
  reads_eq : reports .memRead ops = reads
  writes_eq : reports .memWrite ops = writes

theorem Traffic.append {ops ops' : List CpuOp} {loaded stored loaded' stored' : List HostPtr}
    {reads writes reads' writes' : List (U64 × ℕ)} (h : Traffic ops loaded stored reads writes)
    (h' : Traffic ops' loaded' stored' reads' writes') :
    Traffic (ops ++ ops') (loaded ++ loaded') (stored ++ stored') (reads ++ reads')
      (writes ++ writes') where
  loads_eq := by rw [loads_append, h.loads_eq, h'.loads_eq]
  stores_eq := by rw [stores_append, h.stores_eq, h'.stores_eq]
  reads_eq := by rw [reports_append, h.reads_eq, h'.reads_eq]
  writes_eq := by rw [reports_append, h.writes_eq, h'.writes_eq]

/-- A trace without loads, stores and reports. -/
abbrev QuietTrace (ops : List CpuOp) : Prop := Traffic ops [] [] [] []

theorem QuietTrace.nil : QuietTrace [] := ⟨rfl, rfl, rfl, rfl⟩

theorem QuietTrace.of_forall {ops : List CpuOp} (h : ∀ o ∈ ops, o.Quiet) : QuietTrace ops := by
  refine ⟨?_, ?_, ?_, ?_⟩ <;>
  · refine List.filterMap_eq_nil_iff.mpr fun o ho => ?_
    have := h o ho
    cases o <;> first | rfl | exact this.elim

/-- Quiet operations in front. -/
theorem Traffic.behind {ops ops' : List CpuOp} {loaded stored : List HostPtr}
    {reads writes : List (U64 × ℕ)} (h : QuietTrace ops)
    (h' : Traffic ops' loaded stored reads writes) :
    Traffic (ops ++ ops') loaded stored reads writes := by
  simpa using h.append h'

/-! ## Refused accesses -/

/-- An access that is refused is one to a byte with the property `bytes`. -/
def RefusedAt (bytes : U64 → Prop) : CpuOp → Cpu → Prop
  | .resolve address store, cpu =>
    cpu.context.hasException = false → cpu.dataPtr store address = none → bytes address
  | _, _ => True

variable {cpu : Cpu} {store : Bool} {address : U64} {bytes bytes' : U64 → Prop}

theorem RefusedAt.mono {o : CpuOp} (h : RefusedAt bytes o cpu) (himp : ∀ a, bytes a → bytes' a) :
    RefusedAt bytes' o cpu := by
  cases o with
  | resolve address store => exact fun hexc hnone => himp _ (h hexc hnone)
  | _ => trivial

/-- Programs past the page cache have the same traces and refused accesses. -/
theorem calls_viewOp {α : Type} (bytes : U64 → Prop) (p : CpuProgram α) (hm : MemoryOk cpu.memory) :
    p.calls cpuOp cpu = p.calls viewOp cpu ∧
      (p.Along cpuOp (RefusedAt bytes) cpu ↔ p.Along viewOp (RefusedAt bytes) cpu) := by
  refine calls_simulation UpToCache (fun o s t h => cpuOp_viewOp o h) ?_ p cpu cpu (.refl hm)
  intro o s t h
  cases o with
  | resolve address store =>
    obtain ⟨heq, -, -⟩ := h
    rw [heq]
    exact Iff.rfl
  | _ => exact Iff.rfl

/-- An operation that does not ask for a pointer. -/
def CpuOp.Direct : CpuOp → Prop
  | .resolve _ _ => False
  | _ => True

/-- Without asking for a pointer nothing is refused. -/
theorem along_of_direct {α : Type} {interp : Interpreter Cpu CpuOp CpuOp.Reply} {p : CpuProgram α}
    (hp : p.Within CpuOp.Direct) : p.Along interp (RefusedAt bytes) cpu := by
  refine (along_iff_calls.mpr hp.calls).mono fun o s h => ?_
  cases o with
  | resolve address store => exact h.elim
  | _ => trivial

/-- Under a pending exception no access is tried. -/
theorem along_pending {α : Type} (p : CpuProgram α) (hexc : cpu.context.hasException = true) :
    p.Along viewOp (RefusedAt bytes) cpu := by
  induction p generalizing cpu with
  | ret a => trivial
  | call o next ih =>
    refine ⟨?_, ih _ ((CodeFrame.viewOp o cpu).pending hexc)⟩
    cases o with
    | resolve address store => exact fun h => absurd (hexc.symm.trans h) (by decide)
    | _ => trivial

/-- An operation that raises no exception of its own. -/
def CpuOp.Unraised : CpuOp → Prop
  | .raise _ _ => False
  | .raisePageFault _ _ => False
  | _ => True

/-- **Exceptions come from refused accesses**: where none is refused and none raised, none is
pending. -/
theorem no_exception_of_along {α : Type} {p : CpuProgram α} (hexc : cpu.context.hasException = false)
    (hp : p.Within CpuOp.Unraised) (h : p.Along viewOp (RefusedAt fun _ => False) cpu) :
    (p.run viewOp cpu).2.context.hasException = false := by
  induction p generalizing cpu with
  | ret a => exact hexc
  | call o next ih =>
    refine ih _ ?_ (hp.2 _) h.2
    cases o with
    | resolve address store =>
      have hrun := run_cpuResolve hexc address store
      change viewOp (.resolve address store) cpu = _ at hrun
      cases hptr : cpu.dataPtr store address with
      | none => exact (h.1 hexc hptr).elim
      | some ptr =>
        rw [hrun, hptr]
        exact hexc
    | raise fault errorCode => exact hp.1.elim
    | raisePageFault address store => exact hp.1.elim
    | tryHandleInvalid store =>
      show (if cpu.context.hasException then (false, cpu)
        else cpu.tryHandleInvalidMemoryAccess (dataAccess store) true).2.context.hasException = false
      unfold Cpu.tryHandleInvalidMemoryAccess
      split_ifs <;> exact hexc
    | _ => exact hexc

theorem zero_add_offset (j : ℕ) : (0 : U64) + BitVec.ofNat 64 j = BitVec.ofNat 64 j :=
  BitVec.zero_add _

/-- An operand is refused at a byte of its own. -/
theorem operandPtrs_error_mem {a : U64} (left : ℕ) : ∀ {offset : U64},
    cpu.operandPtrs store address left offset = .error a →
      ∃ j < left, a = address + (offset + BitVec.ofNat 64 j) := by
  induction left with
  | zero =>
    intro offset h
    cases h
  | succ left ih =>
    intro offset h
    unfold Cpu.operandPtrs at h
    cases hfirst : cpu.dataPtr store (address + offset) with
    | none =>
      rw [hfirst] at h
      obtain rfl := Except.error.inj h
      exact ⟨0, left.succ_pos, by rw [show offset + BitVec.ofNat 64 0 = offset from
        BitVec.add_zero offset]⟩
    | some p =>
      rw [hfirst] at h
      cases hrest : cpu.operandPtrs store address left (offset + 1) with
      | error b =>
        rw [hrest] at h
        obtain rfl := Except.error.inj h
        obtain ⟨j, hj, rfl⟩ := ih hrest
        exact ⟨j + 1, by omega, by rw [offset_succ]⟩
      | ok rest =>
        rw [hrest] at h
        cases h

/-- Each pointer of an operand is the one of a byte of it. -/
theorem operandPtrs_ok_mem {p : HostPtr} (left : ℕ) : ∀ {offset : U64} {ptrs : List HostPtr},
    cpu.operandPtrs store address left offset = .ok ptrs → p ∈ ptrs →
      ∃ j < left, cpu.dataPtr store (address + (offset + BitVec.ofNat 64 j)) = some p := by
  intro offset ptrs h hp
  obtain ⟨j, hj, rfl⟩ := List.getElem_of_mem hp
  have hleft : j < left := by rwa [← operandPtrs_length left h]
  refine ⟨j, hleft, ?_⟩
  rw [operandPtrs_getElem left h j hleft, List.getElem?_eq_getElem hj]

/-- Granted bytes in front of the byte at which an operand is refused. -/
theorem operandPtrs_error_behind {a : U64} (k n : ℕ) : ∀ {offset : U64},
    (∀ j < k, (cpu.dataPtr store (address + (offset + BitVec.ofNat 64 j))).isSome = true) →
    cpu.operandPtrs store address n (offset + BitVec.ofNat 64 k) = .error a →
    cpu.operandPtrs store address (k + n) offset = .error a := by
  induction k with
  | zero =>
    intro offset _ h
    rwa [show offset + BitVec.ofNat 64 0 = offset from BitVec.add_zero offset,
      ← Nat.zero_add n] at h
  | succ k ih =>
    intro offset hgranted h
    have hfirst := hgranted 0 k.succ_pos
    rw [show offset + BitVec.ofNat 64 0 = offset from BitVec.add_zero offset] at hfirst
    obtain ⟨p, hp⟩ := Option.isSome_iff_exists.mp hfirst
    rw [Nat.add_right_comm, Cpu.operandPtrs, hp]
    simp only
    rw [ih (fun j hj => by rw [offset_succ]; exact hgranted (j + 1) (by omega))
      (by rwa [offset_succ])]
    rfl

/-! ## Asking for pointers -/

/-- An operation that looks at the CPU or asks for a pointer. -/
def CpuOp.Probe : CpuOp → Prop
  | .context => True
  | .resolve _ _ => True
  | .canUsePageFastPath => True
  | _ => False

theorem CpuOp.Probe.quiet {o : CpuOp} (h : o.Probe) : o.Quiet := by
  cases o <;> trivial

/-- A program that asks for pointers only leaves no trace. -/
theorem quietTrace_of_probe {α : Type} {p : CpuProgram α} (hp : p.Within CpuOp.Probe) (cpu : Cpu) :
    QuietTrace (p.calls viewOp cpu) :=
  .of_forall fun o ho => (hp.calls o ho).quiet

theorem probe_cpuResolve (address : U64) (store : Bool) :
    (cpuResolve address store).Within CpuOp.Probe := within_perform trivial

theorem probe_cpuHasException : cpuHasException.Within CpuOp.Probe :=
  (within_perform trivial).bind fun _ => within_pure _

theorem probe_contiguousPages (address : U64) (size : ℕ) (store : Bool) (fuel : ℕ) :
    ∀ offset base, (contiguousPages address size store fuel offset base).Within CpuOp.Probe := by
  induction fuel with
  | zero => exact fun _ _ => within_pure _
  | succ fuel ih =>
    intro offset base
    unfold contiguousPages
    split_ifs with hlt
    · refine (probe_cpuResolve _ _).bind fun page => ?_
      cases page with
      | none => exact within_pure _
      | some page =>
        cases base with
        | none => exact ih _ _
        | some base =>
          by_cases heq : page = base.add (BitVec.ofNat 64 offset)
          · simp only [if_pos heq]
            exact ih _ _
          · simp only [if_neg heq]
            exact within_pure _
    · exact within_pure _

theorem probe_contiguousBytes (address : U64) (store : Bool) (base : HostPtr) (left : ℕ) :
    ∀ offset, (contiguousBytes address store base left offset).Within CpuOp.Probe := by
  induction left with
  | zero => exact fun _ => within_pure _
  | succ left ih =>
    intro offset
    unfold contiguousBytes
    refine (probe_cpuResolve _ _).bind fun next => ?_
    cases next with
    | none => exact within_pure _
    | some next =>
      dsimp only
      split_ifs
      · exact ih _
      · exact within_pure _

/-- Asking for one pointer asks for pointers only. -/
theorem probe_tryGetContiguousPtr (address : U64) (size : ℕ) (store : Bool) :
    (cpuTryGetContiguousPtr address size store).Within CpuOp.Probe := by
  unfold cpuTryGetContiguousPtr
  refine probe_cpuHasException.bind fun pending => ?_
  by_cases hguard : (decide (size = 0) || pending) = true
  · rw [if_pos hguard]
    exact within_pure _
  rw [if_neg hguard]
  have hask : (perform .canUsePageFastPath).Within CpuOp.Probe := within_perform trivial
  refine hask.bind fun fast => ?_
  cases fast with
  | true =>
    simp only [if_true]
    split_ifs
    · exact probe_cpuResolve _ _
    · exact probe_contiguousPages _ _ _ _ _ _
  | false =>
    simp only [Bool.false_eq_true, if_false]
    refine (probe_cpuResolve _ _).bind fun base => ?_
    cases base with
    | none => exact within_pure _
    | some base => exact probe_contiguousBytes _ _ _ _ _

theorem probe_resolveBytes (store : Bool) (address : U64) (left : ℕ) :
    ∀ offset, (resolveBytes store address left offset).Within CpuOp.Probe := by
  induction left with
  | zero => exact fun _ => within_pure _
  | succ left ih =>
    intro offset
    unfold resolveBytes
    refine (probe_cpuResolve _ _).bind fun p => ?_
    cases p with
    | none => exact within_pure _
    | some p =>
      refine (ih _).bind fun rest => ?_
      cases rest <;> exact within_pure _

/-! ## Where an operand is refused -/

/-- The first byte of an operand, if it is refused. -/
theorem operandPtrs_first {left : ℕ} {offset : U64}
    (h : cpu.dataPtr store (address + offset) = none) :
    cpu.operandPtrs store address (left + 1) offset = .error (address + offset) := by
  rw [Cpu.operandPtrs, h]

/-- One byte more in front. -/
theorem operandPtrs_error_succ {left : ℕ} {offset a : U64} {p : HostPtr}
    (hfirst : cpu.dataPtr store (address + offset) = some p)
    (h : cpu.operandPtrs store address left (offset + 1) = .error a) :
    cpu.operandPtrs store address (left + 1) offset = .error a := by
  rw [Cpu.operandPtrs, hfirst]
  simp only [h]
  rfl

/-- One access is refused if its byte is. -/
theorem refused_cpuResolve (h : cpu.dataPtr store address = none → bytes address) :
    (cpuResolve address store).Along viewOp (RefusedAt bytes) cpu :=
  along_perform.mpr fun _ => h

theorem refused_contiguousBytes (hexc : cpu.context.hasException = false) (base : HostPtr)
    (left : ℕ) : ∀ offset, (contiguousBytes address store base left offset).Along viewOp
      (RefusedAt fun a => cpu.operandPtrs store address left offset = .error a) cpu := by
  induction left with
  | zero => exact fun _ => along_pure _ _
  | succ left ih =>
    intro offset
    unfold contiguousBytes
    refine along_bind.mpr ⟨refused_cpuResolve operandPtrs_first, ?_⟩
    rw [run_cpuResolve hexc]
    cases hfirst : cpu.dataPtr store (address + offset) with
    | none => exact along_pure _ _
    | some next =>
      dsimp only
      split_ifs
      · exact (ih (offset + 1)).mono fun o s h => h.mono fun a => operandPtrs_error_succ hfirst
      · exact along_pure _ _

theorem refused_contiguousPages (hm : ManagerOk cpu.memory)
    (hexc : cpu.context.hasException = false) (hpatches : cpu.memory.patches.length = 0)
    (size : ℕ) (fuel : ℕ) : ∀ (offset : ℕ) (base : Option HostPtr),
      (contiguousPages address size store fuel offset base).Along viewOp
        (RefusedAt fun a =>
          cpu.operandPtrs store address (size - offset) (BitVec.ofNat 64 offset) = .error a) cpu := by
  induction fuel with
  | zero => exact fun _ _ => along_pure _ _
  | succ fuel ih =>
    intro offset base
    unfold contiguousPages
    split_ifs with hlt
    · obtain ⟨left, hleft⟩ : ∃ left, size - offset = left + 1 := ⟨size - offset - 1, by omega⟩
      refine along_bind.mpr ⟨?_, ?_⟩
      · rw [hleft]
        exact refused_cpuResolve operandPtrs_first
      rw [run_cpuResolve hexc]
      cases hfirst : cpu.dataPtr store (address + BitVec.ofNat 64 offset) with
      | none => exact along_pure _ _
      | some page =>
        dsimp only
        generalize hchunk : (if cpuPageBytesRemaining (address + BitVec.ofNat 64 offset) <
          size - offset then cpuPageBytesRemaining (address + BitVec.ofNat 64 offset)
          else size - offset) = chunk
        have hle : chunk ≤ size - offset ∧
            chunk ≤ cpuPageBytesRemaining (address + BitVec.ofNat 64 offset) := by
          subst hchunk
          split_ifs <;> omega
        -- the bytes of the page are granted, so the operand is refused behind them
        have hbehind : ∀ base, (contiguousPages address size store fuel (offset + chunk) base).Along
            viewOp (RefusedAt fun a => cpu.operandPtrs store address (size - offset)
              (BitVec.ofNat 64 offset) = .error a) cpu := by
          intro base
          refine (ih (offset + chunk) base).mono fun o s h => h.mono fun a ha => ?_
          rw [BitVec.ofNat_add] at ha
          rw [show size - offset = chunk + (size - (offset + chunk)) by omega]
          refine operandPtrs_error_behind chunk _ (fun j hj => ?_) ha
          rw [← BitVec.add_assoc, dataPtr_page hm hpatches hfirst (by omega)]
          rfl
        cases base with
        | none => exact hbehind _
        | some base =>
          dsimp only
          split_ifs
          · exact hbehind _
          · exact along_pure _ _
    · exact along_pure _ _

/-- **Asking for one pointer** is refused where the operand is. -/
theorem refused_tryGetContiguousPtr (hm : ManagerOk cpu.memory)
    (hexc : cpu.context.hasException = false) (size : ℕ) (address : U64) (store : Bool) :
    (cpuTryGetContiguousPtr address size store).Along viewOp
      (RefusedAt fun a => cpu.operandPtrs store address size 0 = .error a) cpu := by
  have hzero : address + 0 = address := BitVec.add_zero address
  have hpending : (cpuHasException).run viewOp cpu = (cpu.context.hasException, cpu) := rfl
  have hfast : (perform .canUsePageFastPath).run viewOp cpu =
    (cpu.memory.patches.length == 0, cpu) := rfl
  have hfirst : ∀ {left : ℕ} {p : HostPtr}, cpu.dataPtr store address = some p →
      ∀ a, cpu.operandPtrs store address left 1 = .error a →
        cpu.operandPtrs store address (left + 1) 0 = .error a := by
    intro left p hp a ha
    exact operandPtrs_error_succ (by rwa [hzero]) ha
  have hnone : ∀ left, cpu.dataPtr store address = none →
      cpu.operandPtrs store address (left + 1) 0 = .error address := by
    intro left h
    rw [operandPtrs_first (by rwa [hzero]), hzero]
  unfold cpuTryGetContiguousPtr
  refine along_bind.mpr ⟨along_bind.mpr ⟨along_perform.mpr trivial, along_pure _ _⟩, ?_⟩
  rw [hpending]
  cases size with
  | zero => exact along_pure _ _
  | succ left =>
    simp only [hexc, Bool.or_false, decide_eq_true_eq, Nat.succ_ne_zero, if_false]
    refine along_bind.mpr ⟨along_perform.mpr trivial, ?_⟩
    rw [hfast]
    by_cases hpatches : cpu.memory.patches.length = 0
    · simp only [hpatches, beq_self_eq_true, if_true]
      split_ifs
      · exact refused_cpuResolve (hnone left)
      · exact refused_contiguousPages hm hexc hpatches (left + 1) (left + 1) 0 none
    · rw [show (cpu.memory.patches.length == 0) = false from beq_eq_false_iff_ne.mpr hpatches]
      simp only [Bool.false_eq_true, if_false]
      refine along_bind.mpr ⟨refused_cpuResolve (hnone left), ?_⟩
      rw [run_cpuResolve hexc]
      cases hptr : cpu.dataPtr store address with
      | none => exact along_pure _ _
      | some base =>
        exact (refused_contiguousBytes hexc base left 1).mono fun o s h => h.mono (hfirst hptr)

theorem refused_resolveBytes (hexc : cpu.context.hasException = false) (left : ℕ) : ∀ offset,
    (resolveBytes store address left offset).Along viewOp
      (RefusedAt fun a => cpu.operandPtrs store address left offset = .error a) cpu := by
  induction left with
  | zero => exact fun _ => along_pure _ _
  | succ left ih =>
    intro offset
    unfold resolveBytes
    refine along_bind.mpr ⟨refused_cpuResolve operandPtrs_first, ?_⟩
    rw [run_cpuResolve hexc]
    cases hfirst : cpu.dataPtr store (address + offset) with
    | none => exact along_pure _ _
    | some p =>
      refine along_bind.mpr ⟨(ih (offset + 1)).mono fun o s h =>
        h.mono fun a => operandPtrs_error_succ hfirst, ?_⟩
      cases ((resolveBytes store address left (offset + 1)).run viewOp cpu).1 <;>
        exact along_pure _ _

/-! ## Loads -/

theorem traffic_map_load (ptrs : List HostPtr) : Traffic (ptrs.map .load) ptrs [] [] [] := by
  refine ⟨?_, ?_, ?_, ?_⟩ <;> induction ptrs with
  | nil => rfl
  | cons p ptrs ih =>
    first
    | exact congrArg (p :: ·) ih
    | exact ih

theorem calls_loadList : ∀ ptrs : List HostPtr,
    (loadList ptrs).calls viewOp cpu = ptrs.map .load
  | [] => rfl
  | p :: ptrs => by
    unfold loadList
    rw [calls_bind, calls_bind]
    have hload : (perform (.load p)).run viewOp cpu = ((cpu.memory.host.read p).getD 0, cpu) := rfl
    rw [hload, calls_loadList ptrs]
    simp [perform]

theorem calls_loadBytes (p : HostPtr) (left : ℕ) : ∀ offset,
    (loadBytes p left offset).calls viewOp cpu = (consecutive p left offset).map .load := by
  induction left with
  | zero => exact fun _ => rfl
  | succ left ih =>
    intro offset
    have hload : (perform (.load (p.add offset))).run viewOp cpu =
      ((cpu.memory.host.read (p.add offset)).getD 0, cpu) := rfl
    unfold loadBytes
    rw [calls_bind, calls_bind, hload, ih]
    simp [perform, consecutive]

theorem direct_loadList : ∀ ptrs : List HostPtr, (loadList ptrs).Within CpuOp.Direct
  | [] => within_pure _
  | p :: ptrs => by
    have hload : (perform (.load p)).Within CpuOp.Direct := within_perform trivial
    unfold loadList
    exact hload.bind fun byte => (direct_loadList ptrs).bind fun bytes => within_pure _

theorem direct_loadBytes (p : HostPtr) (left : ℕ) :
    ∀ offset, (loadBytes p left offset).Within CpuOp.Direct := by
  induction left with
  | zero => exact fun _ => within_pure _
  | succ left ih =>
    intro offset
    have hload : (perform (.load (p.add offset))).Within CpuOp.Direct := within_perform trivial
    unfold loadBytes
    exact hload.bind fun low => (ih _).bind fun high => within_pure _

/-- The bytes of an operand, each resolved and loaded on its own. -/
theorem traffic_readBytes (hexc : cpu.context.hasException = false) (address : U64) (left : ℕ) :
    ∀ offset,
    ∃ loaded, Traffic ((readBytes address left offset).calls viewOp cpu) loaded [] [] [] ∧
      (∀ ptrs, cpu.operandPtrs false address left offset = .ok ptrs → loaded = ptrs) ∧
      ∀ p ∈ loaded, ∃ j < left,
        cpu.dataPtr false (address + (offset + BitVec.ofNat 64 j)) = some p := by
  induction left with
  | zero =>
    intro offset
    exact ⟨[], QuietTrace.nil, fun ptrs h => Except.ok.inj h, fun p hp => absurd hp List.not_mem_nil⟩
  | succ left ih =>
    intro offset
    have hask : QuietTrace ((cpuResolve (address + offset) false).calls viewOp cpu) :=
      quietTrace_of_probe (probe_cpuResolve _ _) cpu
    unfold readBytes Cpu.operandPtrs
    rw [calls_bind, run_cpuResolve hexc]
    cases hfirst : cpu.dataPtr false (address + offset) with
    | none =>
      refine ⟨[], hask.append QuietTrace.nil, fun ptrs h => ?_, fun p hp => absurd hp List.not_mem_nil⟩
      cases h
    | some p =>
      obtain ⟨loaded, htraffic, hok, hmem⟩ := ih (offset + 1)
      have hload : (perform (.load p)).run viewOp cpu = ((cpu.memory.host.read p).getD 0, cpu) := rfl
      have hcells : Traffic ((perform (.load p)).calls viewOp cpu ++
          (readBytes address left (offset + 1)).calls viewOp cpu) (p :: loaded) [] [] [] :=
        (traffic_map_load [p]).append htraffic
      have hmem' : ∀ q ∈ p :: loaded, ∃ j < left + 1,
          cpu.dataPtr false (address + (offset + BitVec.ofNat 64 j)) = some q := by
        rintro q (_ | ⟨_, hq⟩)
        · refine ⟨0, left.succ_pos, ?_⟩
          rw [show offset + BitVec.ofNat 64 0 = offset from BitVec.add_zero offset]
          exact hfirst
        · obtain ⟨j, hj, hptr⟩ := hmem q hq
          exact ⟨j + 1, by omega, by rwa [← offset_succ]⟩
      refine ⟨p :: loaded, .behind hask ?_, fun ptrs h => ?_, hmem'⟩
      · simp only
        rw [calls_bind, hload, calls_bind, run_readBytes hexc]
        cases cpu.operandPtrs false address left (offset + 1) <;> simpa using hcells
      · cases hrest : cpu.operandPtrs false address left (offset + 1) with
        | error a => simp only [hrest] at h; cases h
        | ok rest =>
          simp only [hrest] at h
          rw [hok rest hrest]
          exact Except.ok.inj h

theorem refused_readBytes (hexc : cpu.context.hasException = false) (left : ℕ) : ∀ offset,
    (readBytes address left offset).Along viewOp
      (RefusedAt fun a => cpu.operandPtrs false address left offset = .error a) cpu := by
  induction left with
  | zero => exact fun _ => along_pure _ _
  | succ left ih =>
    intro offset
    unfold readBytes
    refine along_bind.mpr ⟨refused_cpuResolve operandPtrs_first, ?_⟩
    rw [run_cpuResolve hexc]
    cases hfirst : cpu.dataPtr false (address + offset) with
    | none => exact along_pure _ _
    | some p =>
      have hload : (perform (.load p)).run viewOp cpu = ((cpu.memory.host.read p).getD 0, cpu) := rfl
      refine along_bind.mpr ⟨along_perform.mpr trivial, along_bind.mpr ⟨?_, ?_⟩⟩
      · exact (ih (offset + 1)).mono fun o s h => h.mono fun a => operandPtrs_error_succ hfirst
      · simp only
        rw [hload, run_readBytes hexc]
        cases cpu.operandPtrs false address left (offset + 1) <;> exact along_pure _ _

/-- **A load** loads each of its bytes once and reports the operand, or is refused and reports
nothing. -/
theorem traffic_readMemory (hm : ManagerOk cpu.memory) (hexc : cpu.context.hasException = false)
    {size : ℕ} (hsize : 0 < size) (address : U64) :
    match cpu.operandPtrs false address size 0 with
    | .ok ptrs => Traffic ((readMemory size address).calls viewOp cpu) ptrs [] [(address, size)] []
    | .error _ => ∃ loaded, Traffic ((readMemory size address).calls viewOp cpu) loaded [] [] [] ∧
        ∀ p ∈ loaded, ∃ a ∈ byteRange address size, cpu.dataPtr false a = some p := by
  have hpending : (cpuHasException).run viewOp cpu = (cpu.context.hasException, cpu) := rfl
  have hprobe : QuietTrace ((cpuTryGetContiguousPtr address size false).calls viewOp cpu) :=
    quietTrace_of_probe (probe_tryGetContiguousPtr _ _ _) cpu
  have hlook : QuietTrace (cpuHasException.calls viewOp cpu) := ⟨rfl, rfl, rfl, rfl⟩
  have htry := tryGetContiguousPtr_contiguous hm hexc hsize address false
  unfold readMemory
  rw [calls_bind, hpending]
  simp only [hexc, Bool.false_eq_true, if_false]
  rw [calls_bind]
  generalize (cpuTryGetContiguousPtr address size false).run viewOp cpu = r at htry
  have hreport : ∀ value (c : Cpu), Traffic
      ((perform (.notify .memRead address size value)).calls viewOp c ++ []) [] []
      [(address, size)] [] := fun _ _ => ⟨rfl, rfl, rfl, rfl⟩
  cases htry with
  | whole p _ h =>
    rw [h]
    refine .behind hlook (.behind hprobe ?_)
    simp only [calls_bind, calls_loadBytes]
    simpa using (traffic_map_load _).append (hreport _ _)
  | split =>
    obtain ⟨loaded, htraffic, hok, hmem⟩ := traffic_readBytes hexc address size 0
    simp only [calls_bind, run_readBytes hexc]
    cases hptrs : cpu.operandPtrs false address size 0 with
    | error a =>
      refine ⟨loaded, .behind hlook (.behind hprobe ?_), fun p hp => ?_⟩
      · simpa using htraffic
      · obtain ⟨j, hj, hptr⟩ := hmem p hp
        rw [zero_add_offset] at hptr
        exact ⟨_, mem_byteRange.mpr ⟨j, hj, rfl⟩, hptr⟩
    | ok ptrs =>
      refine .behind hlook (.behind hprobe ?_)
      rw [← hok ptrs hptrs]
      simpa using htraffic.append (hreport _ _)
  | refused a h hpend =>
    rw [h]
    obtain ⟨left, rfl⟩ : ∃ left, size = left + 1 := ⟨size - 1, by omega⟩
    refine ⟨[], .behind hlook (.behind hprobe ?_), fun p hp => absurd hp List.not_mem_nil⟩
    simp only [calls_bind, run_readBytes_pending hpend]
    -- under the exception the byte loop asks for its first byte and gives up
    unfold readBytes
    rw [calls_bind, run_cpuResolve_pending hpend]
    exact ⟨rfl, rfl, rfl, rfl⟩

/-- **A load** is refused where its operand is. -/
theorem refused_readMemory (hm : ManagerOk cpu.memory) (hexc : cpu.context.hasException = false)
    {size : ℕ} (hsize : 0 < size) (address : U64) :
    (readMemory size address).Along viewOp
      (RefusedAt fun a => cpu.operandPtrs false address size 0 = .error a) cpu := by
  have hpending : (cpuHasException).run viewOp cpu = (cpu.context.hasException, cpu) := rfl
  have htry := tryGetContiguousPtr_contiguous hm hexc hsize address false
  unfold readMemory
  refine along_bind.mpr ⟨along_bind.mpr ⟨along_perform.mpr trivial, along_pure _ _⟩, ?_⟩
  rw [hpending]
  simp only [hexc, Bool.false_eq_true, if_false]
  refine along_bind.mpr ⟨refused_tryGetContiguousPtr hm hexc size address false, ?_⟩
  generalize (cpuTryGetContiguousPtr address size false).run viewOp cpu = r at htry
  cases htry with
  | whole p _ h =>
    exact along_bind.mpr ⟨along_of_direct (direct_loadBytes p size 0), along_bind.mpr
      ⟨along_perform.mpr trivial, along_pure _ _⟩⟩
  | split =>
    refine along_bind.mpr ⟨refused_readBytes hexc size 0, ?_⟩
    simp only [run_readBytes hexc]
    cases cpu.operandPtrs false address size 0 with
    | error a => exact along_pure _ _
    | ok ptrs => exact along_bind.mpr ⟨along_perform.mpr trivial, along_pure _ _⟩
  | refused a h hpend => exact along_pending _ hpend

/-- **A long load** loads each of its bytes once, or is refused and loads nothing. -/
theorem traffic_readLinearBytes (hm : ManagerOk cpu.memory)
    (hexc : cpu.context.hasException = false) (address : U64) {size : ℕ} (hsize : 0 < size) :
    Traffic ((readLinearBytes address size).calls viewOp cpu)
      (match cpu.operandPtrs false address size 0 with
        | .ok ptrs => ptrs
        | .error _ => []) [] [] [] := by
  have hpending : ∀ c : Cpu, (cpuHasException).run viewOp c = (c.context.hasException, c) :=
    fun _ => rfl
  have hprobe : QuietTrace ((cpuTryGetContiguousPtr address size false).calls viewOp cpu) :=
    quietTrace_of_probe (probe_tryGetContiguousPtr _ _ _) cpu
  have hlook : ∀ c : Cpu, QuietTrace (cpuHasException.calls viewOp c) :=
    fun _ => ⟨rfl, rfl, rfl, rfl⟩
  have htry := tryGetContiguousPtr_contiguous hm hexc hsize address false
  unfold readLinearBytes
  rw [calls_bind, hpending]
  simp only [hexc, Bool.false_eq_true, if_false]
  rw [calls_bind]
  generalize (cpuTryGetContiguousPtr address size false).run viewOp cpu = r at htry
  cases htry with
  | whole p _ h =>
    rw [h]
    refine .behind (hlook _) (.behind hprobe ?_)
    simpa [calls_loadList] using traffic_map_load (consecutive p size 0)
  | split =>
    refine .behind (hlook _) (.behind hprobe ?_)
    simp only [calls_bind, hpending, hexc, Bool.false_eq_true, if_false, run_resolveBytes hexc]
    refine .behind (hlook _) (.behind (quietTrace_of_probe (probe_resolveBytes _ _ _ _) cpu) ?_)
    cases cpu.operandPtrs false address size 0 with
    | error a => exact QuietTrace.nil
    | ok ptrs => simpa [calls_loadList] using traffic_map_load ptrs
  | refused a h hpend =>
    rw [h]
    refine .behind (hlook _) (.behind hprobe ?_)
    simp only [calls_bind, hpending, hpend, if_true]
    exact .behind (hlook _) QuietTrace.nil

/-- **A long load** is refused where its operand is. -/
theorem refused_readLinearBytes (hm : ManagerOk cpu.memory)
    (hexc : cpu.context.hasException = false) {size : ℕ} (hsize : 0 < size) (address : U64) :
    (readLinearBytes address size).Along viewOp
      (RefusedAt fun a => cpu.operandPtrs false address size 0 = .error a) cpu := by
  have hpending : ∀ c : Cpu, (cpuHasException).run viewOp c = (c.context.hasException, c) :=
    fun _ => rfl
  have hlook : ∀ c : Cpu, cpuHasException.Along viewOp
      (RefusedAt fun a => cpu.operandPtrs false address size 0 = .error a) c :=
    fun _ => along_bind.mpr ⟨along_perform.mpr trivial, along_pure _ _⟩
  have htry := tryGetContiguousPtr_contiguous hm hexc hsize address false
  unfold readLinearBytes
  refine along_bind.mpr ⟨hlook _, ?_⟩
  rw [hpending]
  simp only [hexc, Bool.false_eq_true, if_false]
  refine along_bind.mpr ⟨refused_tryGetContiguousPtr hm hexc size address false, ?_⟩
  generalize (cpuTryGetContiguousPtr address size false).run viewOp cpu = r at htry
  cases htry with
  | whole p _ h => exact along_bind.mpr ⟨along_of_direct (direct_loadList _), along_pure _ _⟩
  | split =>
    refine along_bind.mpr ⟨hlook _, ?_⟩
    simp only [hpending, hexc, Bool.false_eq_true, if_false]
    refine along_bind.mpr ⟨refused_resolveBytes hexc size 0, ?_⟩
    rw [run_resolveBytes hexc]
    cases cpu.operandPtrs false address size 0 with
    | error a => exact along_pure _ _
    | ok ptrs => exact along_bind.mpr ⟨along_of_direct (direct_loadList _), along_pure _ _⟩
  | refused a h hpend => exact along_pending _ hpend

end Cpueaxh
