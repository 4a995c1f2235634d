/-
# Longer operands

Operands of up to 512 bytes, as in `cpu/helper.hpp`: a load copies the bytes behind one
pointer for all of them, or behind a pointer for each byte, and a store first has a pointer
for each byte and then writes them all.  So an operand is refused at its first byte that is
refused, before a byte is written.
-/
import Cpueaxh.ByteOrder
import Cpueaxh.FarOutcome

namespace Cpueaxh

open ByteOrder HostMemory

/-! ## Operations -/

/-- The loop of `cpu_resolve_memory_access` over the bytes of an operand. -/
def resolveBytes (store : Bool) (address : U64) : ℕ → U64 → CpuProgram (Option (List HostPtr))
  | 0, _ => return some []
  | left + 1, offset => do
    match ← cpuResolve (address + offset) store with
    | none => return none
    | some p =>
      match ← resolveBytes store address left (offset + 1) with
      | none => return none
      | some rest => return some (p :: rest)

/-- The bytes behind some pointers. -/
def loadList : List HostPtr → CpuProgram (List U8)
  | [] => return []
  | p :: rest => do
    let byte : U8 ← perform (.load p)
    let bytes ← loadList rest
    return byte :: bytes

/-- `cpu_commit_linear_write_bytes`. -/
def commitBytes : List HostPtr → List U8 → CpuProgram Unit
  | p :: ptrs, byte :: bytes => do
    perform (.store p byte)
    commitBytes ptrs bytes
  | _, _ => return ()

/-- `cpu_read_linear_bytes` and `cpu_read_linear_bytes_large`. -/
def readLinearBytes (address : U64) (size : ℕ) : CpuProgram (Option (List U8)) := do
  if ← cpuHasException then return none
  match ← cpuTryGetContiguousPtr address size false with
  | some p =>
    let bytes ← loadList (consecutive p size 0)
    return some bytes
  | none =>
    if ← cpuHasException then return none
    match ← resolveBytes false address size 0 with
    | none => return none
    | some ptrs =>
      let bytes ← loadList ptrs
      return some bytes

/-- `cpu_resolve_linear_write_byte_ptrs`. -/
def resolveLinearWrite (address : U64) (size : ℕ) : CpuProgram (Option (List HostPtr)) := do
  if ← cpuHasException then return none
  resolveBytes true address size 0

/-! ## Bytes behind pointers -/

/-- The bytes in the host memory. -/
def hostBytes (host : HostMemory) (ptrs : List HostPtr) : List U8 :=
  ptrs.map fun p => (host.read p).getD 0

/-- The host memory with some bytes written. -/
def commitHost (host : HostMemory) : List HostPtr → List U8 → HostMemory
  | p :: ptrs, byte :: bytes => commitHost (host.write p byte) ptrs bytes
  | _, _ => host

theorem read_commitHost {ptr : HostPtr} : ∀ (ptrs : List HostPtr) (bytes : List U8)
    (host : HostMemory), ptr ∉ ptrs → (commitHost host ptrs bytes).read ptr = host.read ptr
  | [], _, _, _ => rfl
  | _ :: _, [], _, _ => rfl
  | p :: ptrs, byte :: bytes, host, hptr => by
    rw [List.mem_cons, not_or] at hptr
    rw [commitHost, read_commitHost ptrs bytes _ hptr.2, read_write, if_neg hptr.1]

/-- **Written bytes** are read back through different pointers. -/
theorem hostBytes_commitHost : ∀ (ptrs : List HostPtr) (bytes : List U8) (host : HostMemory),
    ptrs.Nodup → (∀ p ∈ ptrs, (host.read p).isSome = true) → ptrs.length = bytes.length →
    hostBytes (commitHost host ptrs bytes) ptrs = bytes
  | [], [], _, _, _, _ => rfl
  | p :: ptrs, byte :: bytes, host, hnodup, hsome, hlength => by
    obtain ⟨hfresh, hnodup⟩ := List.nodup_cons.mp hnodup
    rw [List.forall_mem_cons] at hsome
    have hrest := hostBytes_commitHost ptrs bytes (host.write p byte) hnodup
      (fun q hq => by
        have hne : q ≠ p := fun heq => hfresh (heq ▸ hq)
        rw [read_write, if_neg hne]
        exact hsome.2 q hq) (by simpa using hlength)
    obtain ⟨old, hold⟩ := Option.isSome_iff_exists.mp hsome.1
    unfold hostBytes at hrest ⊢
    rw [commitHost, List.map_cons, hrest, read_commitHost ptrs bytes _ hfresh, read_write,
      if_pos rfl, hold]
    rfl

theorem hostBytes_length (host : HostMemory) (ptrs : List HostPtr) :
    (hostBytes host ptrs).length = ptrs.length :=
  List.length_map _

theorem hostBytes_congr {host host' : HostMemory} {ptrs : List HostPtr}
    (h : ∀ p ∈ ptrs, host'.read p = host.read p) : hostBytes host' ptrs = hostBytes host ptrs :=
  List.map_congr_left fun p hp => by rw [h p hp]

/-- The value behind some pointers is the value of their bytes. -/
theorem loadValue_littleEndian (host : HostMemory) (ptrs : List HostPtr) :
    loadValue host ptrs = littleEndian 64 (hostBytes host ptrs) := by
  induction ptrs with
  | nil => rfl
  | cons p ptrs ih =>
    rw [loadValue, ih]
    rfl

/-! ## Runs -/

variable {cpu : Cpu}

theorem run_loadList : ∀ ptrs : List HostPtr,
    (loadList ptrs).run viewOp cpu = (hostBytes cpu.memory.host ptrs, cpu)
  | [] => rfl
  | p :: ptrs => by
    have hload : (perform (.load p)).run viewOp cpu = ((cpu.memory.host.read p).getD 0, cpu) := rfl
    unfold loadList
    rw [Program.run_bind, hload, Program.run_bind, run_loadList ptrs]
    rfl

theorem run_commitBytes : ∀ (ptrs : List HostPtr) (bytes : List U8) (cpu : Cpu),
    (commitBytes ptrs bytes).run viewOp cpu =
      ((), cpu.setHost (commitHost cpu.memory.host ptrs bytes))
  | [], _, _ => by unfold commitBytes commitHost; rfl
  | _ :: _, [], _ => rfl
  | p :: ptrs, byte :: bytes, cpu => by
    unfold commitBytes
    rw [Program.run_bind, run_commitBytes ptrs bytes]
    rfl

/-- The pointers to the bytes of an operand. -/
theorem run_resolveBytes (hexc : cpu.context.hasException = false) (store : Bool) (address : U64)
    (left : ℕ) : ∀ offset, (resolveBytes store address left offset).run viewOp cpu =
      match cpu.operandPtrs store address left offset with
      | .error a => (none, cpu.refused store a)
      | .ok ptrs => (some ptrs, cpu) := by
  induction left with
  | zero => intro offset; rfl
  | succ left ih =>
    intro offset
    unfold resolveBytes Cpu.operandPtrs
    rw [Program.run_bind, run_cpuResolve hexc]
    cases cpu.dataPtr store (address + offset) with
    | none => rfl
    | some p =>
      simp only
      rw [Program.run_bind, ih (offset + 1)]
      cases cpu.operandPtrs store address left (offset + 1) <;> rfl

/-- **A long store** has a pointer for each byte, or is refused at the first byte without. -/
theorem run_resolveLinearWrite (hexc : cpu.context.hasException = false) (address : U64)
    (size : ℕ) : (resolveLinearWrite address size).run viewOp cpu =
      match cpu.operandPtrs true address size 0 with
      | .error a => (none, cpu.refused true a)
      | .ok ptrs => (some ptrs, cpu) := by
  have hpending : (cpuHasException).run viewOp cpu = (cpu.context.hasException, cpu) := rfl
  unfold resolveLinearWrite
  rw [Program.run_bind, hpending]
  simp only [hexc, Bool.false_eq_true, if_false]
  exact run_resolveBytes hexc true address size 0

/-- **A long load** has the bytes behind the pointers, or is refused at the first byte
without. -/
theorem run_readLinearBytes (hm : ManagerOk cpu.memory)
    (hexc : cpu.context.hasException = false) {size : ℕ} (hsize : 0 < size) (address : U64) :
    (readLinearBytes address size).run viewOp cpu =
      match cpu.operandPtrs false address size 0 with
      | .error a => (none, cpu.refused false a)
      | .ok ptrs => (some (hostBytes cpu.memory.host ptrs), cpu) := by
  have hpending : ∀ c : Cpu, (cpuHasException).run viewOp c = (c.context.hasException, c) :=
    fun _ => rfl
  have htry := tryGetContiguousPtr_contiguous hm hexc hsize address false
  unfold readLinearBytes
  rw [Program.run_bind, hpending]
  simp only [hexc, Bool.false_eq_true, if_false]
  rw [Program.run_bind]
  generalize (cpuTryGetContiguousPtr address size false).run viewOp cpu = r at htry
  cases htry with
  | whole p _ h =>
    simp only [Program.run_bind, run_loadList, h]
    rfl
  | split =>
    simp only [Program.run_bind, hpending, hexc, Bool.false_eq_true, if_false,
      run_resolveBytes hexc]
    cases cpu.operandPtrs false address size 0 with
    | error a => rfl
    | ok ptrs =>
      simp only [Program.run_bind, run_loadList]
      rfl
  | refused a h hpend =>
    simp only [Program.run_bind, hpending, hpend, if_true, h]
    rfl

end Cpueaxh
