/-
# Engines that share host memory

Several engines work on the memory of one host program, each on a thread of its own: they have
contexts, tables and hooks of their own, and the bytes behind host pointers in common.  The
bytes of one access, and of one interlocked exchange, are accessed at once; between any two
accesses another engine may have its turn.

Locked instructions take effect one after another, whatever the turns are.
-/
import Cpueaxh.TaskRules
import Cpueaxh.InPlaceLaw

namespace Cpueaxh

open HostMemory
open Program (Every Machine TaskMachine)

/-! ## The machine -/

/-- Loads and stores hold the turn of an engine. -/
def CpuOp.isAccess : CpuOp → Bool
  | .load _ => true
  | .store _ _ => true
  | _ => false

/-- Engines with the host memory in common. -/
def engines (interp : Program.Interpreter Cpu CpuOp CpuOp.Reply) :
    Machine CpuOp CpuOp.Reply Cpu HostMemory where
  interp := interp
  holds := CpuOp.isAccess
  get cpu := cpu.memory.host
  set := Cpu.setHost
  get_set _ _ := rfl
  set_get _ := rfl
  set_set _ _ _ := rfl

/-- Their instructions past the page cache, as tasks. -/
def instructionTasks (ok : HostMemory → Prop) :
    TaskMachine CpuOp CpuOp.Reply (Option Unit) Cpu HostMemory where
  toMachine := engines viewOp
  ok := ok
  answer := some ()
  gaveUp := none

/-- What is no load and no store does not see the bytes of the host. -/
theorem viewOp_setHost {o : CpuOp} (h : o.isAccess = false) (cpu : Cpu) (host : HostMemory) :
    viewOp o (cpu.setHost host) = ((viewOp o cpu).1, (viewOp o cpu).2.setHost host) := by
  cases o with
  | load p => cases h
  | store p value => cases h
  | resolve address store =>
    unfold viewOp Cpu.setHost
    simp only [accessView_setHost]
  | tryHandleInvalid store =>
    unfold viewOp cpuOp Cpu.tryHandleInvalidMemoryAccess Cpu.hasHookType Cpu.setHost
    dsimp only
    split_ifs <;> rfl
  | raisePageFault address store =>
    unfold viewOp cpuOp Cpu.setHost
    dsimp only
    split_ifs <;> rfl
  | context => rfl
  | setContext ctx => rfl
  | raise fault errorCode => rfl
  | notify type address size value => rfl
  | canUsePageFastPath => rfl
  | isHostWritePassthrough => rfl

theorem own_of_isAccess {o : CpuOp} (h : o.isAccess = false) : (engines viewOp).Own o :=
  ⟨h, viewOp_setHost h⟩

/-- A program that neither loads nor stores. -/
abbrev NoAccess {α : Type} (p : CpuProgram α) : Prop := Every (fun o => CpuOp.isAccess o = false) p

theorem own_of_noAccess {α : Type} {p : CpuProgram α} (h : NoAccess p) :
    Every (engines viewOp).Own p := by
  induction p with
  | ret a => trivial
  | call o next ih => exact ⟨own_of_isAccess h.1, fun r => ih r (h.2 r)⟩

/-! ## Programs without accesses -/

theorem noAccess_perform {o : CpuOp} (h : o.isAccess = false) : NoAccess (perform o) :=
  Program.every_perform h

theorem noAccess_cpuHasException : NoAccess cpuHasException := ⟨rfl, fun _ => trivial⟩

theorem noAccess_modifyContext (f : CpuContext → CpuContext) : NoAccess (modifyContext f) :=
  ⟨rfl, fun _ => ⟨rfl, fun _ => trivial⟩⟩

theorem noAccess_cpuResolve (address : U64) (store : Bool) : NoAccess (cpuResolve address store) :=
  ⟨rfl, fun _ => trivial⟩

theorem noAccess_searchPages (address : U64) (size : ℕ) (store : Bool) (fuel : ℕ) :
    ∀ offset base, NoAccess (searchPages address size store fuel offset base) := by
  induction fuel with
  | zero => exact fun _ _ => trivial
  | succ fuel ih =>
    intro offset base
    unfold searchPages
    refine Program.every_ite ((noAccess_cpuResolve _ _).bind fun r => ?_) trivial
    cases r with
    | none => trivial
    | some page =>
      cases base with
      | none => exact ih _ _
      | some base => exact Program.every_ite (ih _ _) trivial

theorem noAccess_searchBytes (address : U64) (store : Bool) (base : HostPtr) (left : ℕ) :
    ∀ offset, NoAccess (searchBytes address store base left offset) := by
  induction left with
  | zero => exact fun _ => trivial
  | succ left ih =>
    intro offset
    unfold searchBytes
    refine (noAccess_cpuResolve _ _).bind fun r => ?_
    cases r with
    | none => trivial
    | some next => exact Program.every_ite (ih _) trivial

theorem noAccess_searchPtr (address : U64) (size : ℕ) (store : Bool) :
    NoAccess (searchPtr address size store) := by
  unfold searchPtr
  refine (noAccess_perform rfl).bind fun fast => Program.every_ite (Program.every_ite ?_ ?_) ?_
  · exact (noAccess_cpuResolve _ _).bind fun _ => trivial
  · exact noAccess_searchPages _ _ _ _ _ _
  · refine (noAccess_cpuResolve _ _).bind fun r => ?_
    cases r with
    | none => trivial
    | some base => exact noAccess_searchBytes _ _ _ _ _

theorem noAccess_getMemoryWritePtr (address : U64) (size fuel : ℕ) :
    NoAccess (getMemoryWritePtr address size fuel) := by
  unfold getMemoryWritePtr
  induction fuel with
  | zero => trivial
  | succ fuel ih =>
    unfold cpuGetContiguousPtr
    refine noAccess_cpuHasException.bind fun exc => Program.every_ite trivial ?_
    refine (noAccess_searchPtr _ _ _).bind fun r => ?_
    cases r with
    | found p => trivial
    | refused => trivial
    | split current =>
      refine (noAccess_perform rfl).bind fun handled => Program.every_ite ih ?_
      exact (noAccess_perform rfl).bind fun _ => trivial

theorem noAccess_contiguousPages (address : U64) (size : ℕ) (store : Bool) (fuel : ℕ) :
    ∀ offset base, NoAccess (contiguousPages address size store fuel offset base) := by
  induction fuel with
  | zero => exact fun _ _ => trivial
  | succ fuel ih =>
    intro offset base
    unfold contiguousPages
    refine Program.every_ite ((noAccess_cpuResolve _ _).bind fun r => ?_) trivial
    cases r with
    | none => trivial
    | some page =>
      cases base with
      | none => exact ih _ _
      | some base => exact Program.every_ite (ih _ _) trivial

theorem noAccess_contiguousBytes (address : U64) (store : Bool) (base : HostPtr) (left : ℕ) :
    ∀ offset, NoAccess (contiguousBytes address store base left offset) := by
  induction left with
  | zero => exact fun _ => trivial
  | succ left ih =>
    intro offset
    unfold contiguousBytes
    refine (noAccess_cpuResolve _ _).bind fun r => ?_
    cases r with
    | none => trivial
    | some next => exact Program.every_ite (ih _) trivial

theorem noAccess_tryGetContiguousPtr (address : U64) (size : ℕ) (store : Bool) :
    NoAccess (cpuTryGetContiguousPtr address size store) := by
  unfold cpuTryGetContiguousPtr
  refine noAccess_cpuHasException.bind fun exc => Program.every_ite trivial ?_
  refine (noAccess_perform rfl).bind fun fast => Program.every_ite (Program.every_ite ?_ ?_) ?_
  · exact noAccess_cpuResolve _ _
  · exact noAccess_contiguousPages _ _ _ _ _ _
  · refine (noAccess_cpuResolve _ _).bind fun r => ?_
    cases r with
    | none => trivial
    | some base => exact noAccess_contiguousBytes _ _ _ _ _

/-! ## Reading -/

section Reading

variable {cpu : Cpu} {α : Type} {post : α → Cpu → Prop}

theorem looks_load (p : HostPtr) : (engines viewOp).Looks (.load p) := ⟨rfl, fun _ => rfl⟩

/-- Loads in front of a part that begins with an operation of its own. -/
theorem reads_loadBytes {f : U64 → CpuProgram α}
    (hf : ∀ value looked, (engines viewOp).Reads post looked (f value) cpu) (p : HostPtr)
    (left : ℕ) : ∀ (offset : U64) (g : U64 → U64) (looked : Bool),
      (engines viewOp).Reads post looked (loadBytes p left offset >>= fun value => f (g value))
        cpu := by
  induction left with
  | zero => exact fun _ _ looked => hf _ looked
  | succ left ih =>
    intro offset g looked
    refine Or.inr ⟨looks_load _, fun low => ?_⟩
    have hassoc : (loadBytes p left (offset + 1) >>= fun high =>
        pure (low.setWidth 64 ||| high <<< 8)) >>= (fun value => f (g value)) =
        loadBytes p left (offset + 1) >>= fun high => f (g (low.setWidth 64 ||| high <<< 8)) :=
      Program.bind_assoc _ _ _
    have hrest := ih (offset + 1) (fun high => g (low.setWidth 64 ||| high <<< 8)) true
    rw [← hassoc] at hrest
    exact hrest

/-- Bytes that are resolved and loaded on their own. -/
theorem reads_readBytes_map {f : Option U64 → CpuProgram α}
    (hf : ∀ value looked, (engines viewOp).Reads post looked (f (some value)) cpu)
    (hexc : cpu.context.hasException = false) (address : U64) (left : ℕ) :
    ∀ (offset : U64) (g : U64 → U64) (looked : Bool) {ptrs : List HostPtr},
      cpu.operandPtrs false address left offset = .ok ptrs →
      (engines viewOp).Reads post looked
        (readBytes address left offset >>= fun value => f (value.map g)) cpu := by
  induction left with
  | zero => exact fun _ g looked ptrs _ => hf (g 0) looked
  | succ left ih =>
    intro offset g looked ptrs hptrs
    unfold Cpu.operandPtrs at hptrs
    cases hp : cpu.dataPtr false (address + offset) with
    | none =>
      rw [hp] at hptrs
      cases hptrs
    | some p =>
      rw [hp] at hptrs
      cases hrest : cpu.operandPtrs false address left (offset + 1) with
      | error a =>
        rw [hrest] at hptrs
        cases hptrs
      | ok rest =>
        have hresolve : viewOp (.resolve (address + offset) false) cpu = (some p, cpu) := by
          have hrun := run_cpuResolve hexc (address + offset) false
          rw [hp] at hrun
          exact hrun
        refine Or.inl ⟨own_of_isAccess rfl, ?_⟩
        dsimp only [engines]
        rw [hresolve]
        refine Or.inr ⟨looks_load p, fun low => ?_⟩
        have hnext := ih (offset + 1) (fun high => g (low.setWidth 64 ||| high <<< 8)) true hrest
        refine (congrArg (fun q => (engines viewOp).Reads post true q cpu) ?_).mpr hnext
        refine (Program.bind_assoc (readBytes address left (offset + 1)) _ _).trans ?_
        refine congrArg _ (funext fun r => ?_)
        cases r <;> rfl

theorem reads_readBytes {f : Option U64 → CpuProgram α} (hexc : cpu.context.hasException = false)
    {address : U64} {left : ℕ} {offset : U64} {looked : Bool} {ptrs : List HostPtr}
    (hptrs : cpu.operandPtrs false address left offset = .ok ptrs)
    (hf : ∀ value looked, (engines viewOp).Reads post looked (f (some value)) cpu) :
    (engines viewOp).Reads post looked (readBytes address left offset >>= f) cpu := by
  have hbytes := reads_readBytes_map hf hexc address left offset id looked hptrs
  simp only [Option.map_id] at hbytes
  exact hbytes

/-- Reading memory, whatever the bytes are by then. -/
theorem reads_readMemory (hm : ManagerOk cpu.memory) (hexc : cpu.context.hasException = false)
    {address : U64} {size : ℕ} (hsize : 0 < size) {ptrs : List HostPtr}
    (hptrs : cpu.operandPtrs false address size 0 = .ok ptrs) :
    (engines viewOp).Reads (fun _ c => c = cpu) false (readMemory size address) cpu := by
  have hnotify : ∀ (value : U64) looked, (engines viewOp).Reads (fun _ c => c = cpu) looked
      (do
        perform (.notify .memRead address size value)
        return value : CpuProgram U64) cpu := fun value looked =>
    Or.inl ⟨own_of_isAccess rfl, rfl, rfl⟩
  unfold readMemory
  refine (Machine.reads_own (own_of_noAccess noAccess_cpuHasException) cpu).bind ?_
  intro exc c hrun
  obtain ⟨rfl, rfl⟩ := Prod.mk.inj (run_cpuHasException.symm.trans hrun)
  rw [hexc]
  simp only [Bool.false_eq_true, if_false]
  have hown := own_of_noAccess (noAccess_tryGetContiguousPtr address size false)
  refine (Machine.reads_own hown cpu).bind ?_
  intro r c hrun
  have hcontiguous := tryGetContiguousPtr_contiguous hm hexc hsize address false
  change (cpuTryGetContiguousPtr address size false).run viewOp cpu = (r, c) at hrun
  rw [hrun] at hcontiguous
  cases hcontiguous with
  | whole p hbase h => exact reads_loadBytes hnotify p size 0 id false
  | split =>
    exact reads_readBytes hexc hptrs hnotify
  | refused a h =>
    rw [hptrs] at h
    cases h

/-- Reading an operand. -/
theorem reads_readMemoryOperand (hm : ManagerOk cpu.memory)
    (hexc : cpu.context.hasException = false) {address : U64} {size : OperandWidth}
    {ptrs : List HostPtr} (hptrs : cpu.operandPtrs false address (size.bits / 8) 0 = .ok ptrs) :
    (engines viewOp).Reads (fun _ c => c = cpu) false (readMemoryOperand address size) cpu := by
  have height := size.eight_le
  unfold readMemoryOperand readStringValue
  by_cases hbyte : size.bits = 8
  · rw [if_pos hbyte]
    rw [hbyte] at hptrs
    change cpu.operandPtrs false address 1 0 = .ok ptrs at hptrs
    rw [Cpu.operandPtrs, show address + 0 = address from BitVec.add_zero address] at hptrs
    cases hp : cpu.dataPtr false address with
    | none =>
      rw [hp] at hptrs
      cases hptrs
    | some p =>
      have hresolve : viewOp (.resolve address false) cpu = (some p, cpu) := by
        have hrun := run_cpuResolve hexc address false
        rw [hp] at hrun
        exact hrun
      refine Or.inl ⟨own_of_isAccess rfl, ?_⟩
      dsimp only [engines]
      rw [hresolve]
      exact Or.inr ⟨looks_load p, fun low => Or.inl ⟨own_of_isAccess rfl, rfl, rfl⟩⟩
  · rw [if_neg hbyte]
    exact reads_readMemory hm hexc (by omega) hptrs

theorem reads_readMemoryOperandChecked (hm : ManagerOk cpu.memory)
    (hexc : cpu.context.hasException = false) {address : U64} {size : OperandWidth}
    {ptrs : List HostPtr} (hptrs : cpu.operandPtrs false address (size.bits / 8) 0 = .ok ptrs) :
    (engines viewOp).Reads (fun r c => r.isSome = true ∧ c = cpu) false
      (readMemoryOperandChecked address size) cpu := by
  have hcheck := Machine.reads_own (own_of_noAccess noAccess_cpuHasException) cpu
  unfold readMemoryOperandChecked
  refine hcheck.bind ?_
  intro exc c hrun
  obtain ⟨rfl, rfl⟩ := Prod.mk.inj (run_cpuHasException.symm.trans hrun)
  rw [hexc]
  simp only [Bool.false_eq_true, if_false]
  refine (reads_readMemoryOperand hm hexc hptrs).bind ?_
  rintro value c rfl
  refine hcheck.bind ?_
  intro exc c' hrun
  obtain ⟨rfl, rfl⟩ := Prod.mk.inj (run_cpuHasException.symm.trans hrun)
  rw [hexc]
  exact ⟨rfl, rfl, rfl⟩

end Reading

/-! ## The exchange -/

/-- The bytes of an exchange, behind the pointer to them. -/
def exchangeBytes (p : HostPtr) (size : OperandWidth) (expected desired : U64) :
    CpuProgram (Option (Bool × U64)) := do
  let oldValue ← loadBytes p (size.bits / 8) 0
  let exchanged := decide (oldValue = expected &&& operandMask size)
  if exchanged then storeValue (consecutive p (size.bits / 8) 0) desired
  return some (exchanged, oldValue)

theorem held_loadBytes (p : HostPtr) (left : ℕ) : ∀ offset,
    Every (fun o => CpuOp.isAccess o = true) (loadBytes p left offset) := by
  induction left with
  | zero => exact fun _ => trivial
  | succ left ih => exact fun offset => ⟨rfl, fun low => (ih (offset + 1)).bind fun _ => trivial⟩

theorem held_storeValue (ptrs : List HostPtr) : ∀ value,
    Every (fun o => CpuOp.isAccess o = true) (storeValue ptrs value) := by
  induction ptrs with
  | nil => exact fun _ => trivial
  | cons p rest ih => exact fun value => ⟨rfl, fun _ => ih (value >>> 8)⟩

theorem held_exchangeBytes (p : HostPtr) (size : OperandWidth) (expected desired : U64) :
    Every (fun o => CpuOp.isAccess o = true) (exchangeBytes p size expected desired) := by
  refine (held_loadBytes _ _ _).bind fun old => Program.every_ite ?_ (Program.every_pure _)
  exact (held_storeValue _ _).bind fun _ => Program.every_pure _

/-- Some bytes are loaded first. -/
theorem loadBytes_live {α : Type} (p : HostPtr) {n : ℕ} (hn : 0 < n) (f : U64 → CpuProgram α) :
    ¬ (loadBytes p n 0 >>= f).Ended := by
  cases n with
  | zero => omega
  | succ n =>
    rintro ⟨a, ha⟩
    cases ha

variable {cpu : Cpu} {address : U64} {size : OperandWidth} {ptrs : List HostPtr}

theorem run_exchangeBytes (cpu : Cpu) (p : HostPtr) (size : OperandWidth) (expected desired : U64) :
    (exchangeBytes p size expected desired).run viewOp cpu =
      if loadValue cpu.memory.host (consecutive p (size.bits / 8) 0) =
          expected &&& operandMask size then
        (some (true, loadValue cpu.memory.host (consecutive p (size.bits / 8) 0)),
          cpu.setHost (storeBytes cpu.memory.host (consecutive p (size.bits / 8) 0) desired))
      else (some (false, loadValue cpu.memory.host (consecutive p (size.bits / 8) 0)), cpu) := by
  unfold exchangeBytes
  rw [Program.run_bind, run_loadBytes]
  dsimp only
  by_cases hsame : loadValue cpu.memory.host (consecutive p (size.bits / 8) 0) =
      expected &&& operandMask size
  · rw [if_pos hsame, decide_eq_true hsame]
    simp only [if_true]
    rw [Program.run_bind, run_storeValue]
    rfl
  · rw [if_neg hsame, decide_eq_false hsame]
    rfl

/-- What follows the pointer of an exchange. -/
def exchangeBehind (size : OperandWidth) (expected desired : U64) :
    Option (Option HostPtr) → CpuProgram (Option (Bool × U64))
  | none => return none
  | some none => return some (false, 0)
  | some (some p) => exchangeBytes p size expected desired

theorem compareExchange_bind {α : Type} (fuel : ℕ) (address : U64) (size : OperandWidth)
    (expected desired : U64) (k : Option (Bool × U64) → CpuProgram α) :
    cpuAtomicCompareExchangeMemory fuel address size expected desired >>= k =
      getMemoryWritePtr address (size.bits / 8) fuel >>= fun r =>
        exchangeBehind size expected desired r >>= k := by
  refine (Program.bind_assoc _ _ _).trans (congrArg _ (funext fun r => ?_))
  cases r with
  | none => rfl
  | some r => cases r <;> rfl

section Tasks

variable {ok : HostMemory → Prop} (hm : ManagerOk cpu.memory)
  (hexc : cpu.context.hasException = false) (hptrs : cpu.InPlace address size ptrs)
  (hrun : cpu.OneRun true address (size.bits / 8))

include hm hexc hptrs hrun

/-- The pointer to an operand in one run. -/
theorem getMemoryWritePtr_inPlace (fuel : ℕ) : ∃ p, ptrs = consecutive p (size.bits / 8) 0 ∧
    (getMemoryWritePtr address (size.bits / 8) (fuel + 1)).run viewOp cpu = (some (some p), cpu) := by
  have hsize : 0 < size.bits / 8 := by
    have height := size.eight_le
    omega
  rcases run_getContiguousPtr hm hexc hsize hrun fuel with ⟨p, hp, hrun⟩ | ⟨a, ha, -⟩
  · rw [hptrs.2] at hp
    exact ⟨p, Except.ok.inj hp, hrun⟩
  · rw [hptrs.2] at ha
    cases ha

/-- **An exchange** commits when the operand has the value that it expects. -/
theorem awaits_exchange {change : InPlaceChange}
    (hok : ∀ s, ok s → ok ((cpu.setHost s).changed change ptrs).memory.host) {fuel n : ℕ}
    {seen : Option HostMemory} {expected desired : U64} (hlt : expected.toNat < 2 ^ size.bits)
    (hseen : ∀ s ∈ seen, loadValue s ptrs = expected)
    {k : Option (Bool × U64) → CpuProgram (Option Unit)}
    (hstored : change.stored expected = some desired)
    (hcommit : ∃ q, NoAccess q ∧ k (some (true, expected)) = q ∧
      q.run viewOp cpu = (some (), cpu.edit (change.finish expected)))
    (hfail : ∀ s, ok s → loadValue s ptrs ≠ expected → ∃ o next,
      k (some (false, loadValue s ptrs)) = .call o next ∧ o.isAccess = false ∧
        (instructionTasks ok).Awaits (fun s => (cpu.setHost s).changed change ptrs) n (some s)
          (next (viewOp o cpu).1) (viewOp o cpu).2) :
    (instructionTasks ok).Awaits (fun s => (cpu.setHost s).changed change ptrs) (n + 1) seen
      (cpuAtomicCompareExchangeMemory (fuel + 1) address size expected desired >>= k) cpu := by
  have hsize : 0 < size.bits / 8 := by
    have height := size.eight_le
    omega
  obtain ⟨p, rfl, hptr⟩ := getMemoryWritePtr_inPlace hm hexc hptrs hrun fuel
  have hblock := fun s => run_exchangeBytes (cpu.setHost s) p size expected desired
  rw [and_operandMask hlt] at hblock
  -- the pointer is found by the engine itself; the exchange behind it is one access
  rw [compareExchange_bind]
  refine TaskMachine.awaits_own (getMemoryWritePtr address (size.bits / 8) (fuel + 1))
    (own_of_noAccess (noAccess_getMemoryWritePtr _ _ _)) ?_
  show (instructionTasks ok).Awaits _ _ _
    (exchangeBehind size expected desired ((getMemoryWritePtr address (size.bits / 8)
      (fuel + 1)).run viewOp cpu).1 >>= k) ((getMemoryWritePtr address (size.bits / 8)
      (fuel + 1)).run viewOp cpu).2
  rw [hptr]
  refine TaskMachine.awaits_access (held_exchangeBytes p size expected desired)
    (loadBytes_live p hsize _) (fun s => loadValue s (consecutive p (size.bits / 8) 0) = expected)
    hok hseen ?_ ?_
  · intro s _ hs
    -- the operand still has the value that was loaded
    obtain ⟨q, hq, hk, hrunq⟩ := hcommit
    have hchanged : (cpu.setHost s).changed change (consecutive p (size.bits / 8) 0) =
        (cpu.setHost (storeBytes s (consecutive p (size.bits / 8) 0) desired)).edit
          (change.finish expected) := by
      have hs' : loadValue (cpu.setHost s).memory.host (consecutive p (size.bits / 8) 0) =
        expected := hs
      unfold Cpu.changed
      dsimp only
      rw [hs', hstored]
      rfl
    refine ⟨some (true, expected), ?_, ?_⟩
    · refine (hblock s).trans ((if_pos hs).trans ?_)
      rw [hchanged]
      exact congrArg (fun v => (some (true, v), cpu.setHost _)) hs
    · rw [hk, hchanged]
      refine TaskMachine.rests_of_run q (own_of_noAccess hq) ?_ ?_
      · exact congrArg Prod.fst hrunq
      · intro s'
        have hend : (q.run viewOp cpu).2 = cpu.edit (change.finish expected) :=
          congrArg Prod.snd hrunq
        show Cpu.setHost (q.run viewOp cpu).2 s' = _
        rw [hend]
        rfl
  · intro s hs hne
    -- another engine has changed it, and the loop goes on with the value that is there now
    obtain ⟨o, next, hk, hown, hawaits⟩ := hfail s hs hne
    exact ⟨_, o, next, (hblock s).trans (if_neg hne), hk, own_of_isAccess hown, hawaits⟩

/-- The loop of exchanges has as many tries as turns. -/
theorem awaits_rmwLoop {callback : U64 → U64} {finish : U64 → CpuContext → CpuContext}
    (hok : ∀ s, ok s →
      ok ((cpu.setHost s).changed (rmwChange size callback finish) ptrs).memory.host)
    {tail : U64 → U64 → CpuProgram (Option Unit)} (hown : ∀ old new, NoAccess (tail old new))
    (htail : ∀ old, (tail old (callback old &&& operandMask size)).run viewOp cpu =
      (some (), cpu.edit (finish old)))
    {k : Option (Option (U64 × U64)) → CpuProgram (Option Unit)} (hnone : k none = pure none)
    (hsome : ∀ old new, k (some (some (old, new))) = tail old new) (fuel : ℕ) :
    ∀ (turns : ℕ) {seen : Option HostMemory} {currentValue : U64},
      currentValue.toNat < 2 ^ size.bits → (∀ s ∈ seen, loadValue s ptrs = currentValue) →
      (instructionTasks ok).Awaits
        (fun s => (cpu.setHost s).changed (rmwChange size callback finish) ptrs) turns seen
        (atomicRmwLoop (fuel + 1) address size callback turns currentValue >>= k) cpu := by
  have hlength := inPlace_length hptrs
  intro turns
  induction turns with
  | zero =>
    intro seen currentValue _ _
    show (instructionTasks ok).Awaits _ 0 seen (k none) cpu
    rw [hnone]
    exact .gaveUp
  | succ turns ih =>
    intro seen currentValue hlt hseen
    unfold atomicRmwLoop
    dsimp only
    rw [Program.bind_assoc]
    refine awaits_exchange hm hexc hptrs hrun hok hlt hseen rfl
      ⟨_, hown currentValue _, hsome currentValue _, htail currentValue⟩ ?_
    -- another engine has been faster: the next turn relies on what this one has found
    intro s _ _
    refine ⟨.context, _, rfl, rfl, ?_⟩
    have hfound := loadValue_lt_bits hlength s
    show (instructionTasks ok).Awaits _ turns (some s)
      ((if cpu.context.hasException = true then pure (some none) else
        atomicRmwLoop (fuel + 1) address size callback turns
          (loadValue s ptrs &&& operandMask size)) >>= k) cpu
    rw [if_neg (by rw [hexc]; decide), and_operandMask hfound]
    exact ih hfound fun s' hs' => by rw [Option.mem_some_iff.mp hs']

/-- **A locked instruction** is a task: what it reads first may be out of date, or torn, only if
another engine has committed since it began. -/
theorem awaits_lockedRmw {callback : U64 → U64} {finish : U64 → CpuContext → CpuContext}
    (hok : ∀ s, ok s →
      ok ((cpu.setHost s).changed (rmwChange size callback finish) ptrs).memory.host)
    {tail : U64 → U64 → CpuProgram (Option Unit)} (hown : ∀ old new, NoAccess (tail old new))
    (htail : ∀ old, (tail old (callback old &&& operandMask size)).run viewOp cpu =
      (some (), cpu.edit (finish old))) (fuel : ℕ) :
    (instructionTasks ok).Awaits
      (fun s => (cpu.setHost s).changed (rmwChange size callback finish) ptrs) (fuel + 1)
      (some cpu.memory.host)
      (lockedRmw (fuel + 1) address size callback tail) cpu := by
  unfold lockedRmw cpuAtomicRmwMemory
  rw [Program.bind_assoc]
  refine TaskMachine.awaits_reads (readMemoryOperandChecked address size) ?_
    (reads_readMemoryOperandChecked hm hexc hptrs.1) fun s hs => ?_
  · rintro r c ⟨hr, rfl⟩
    cases r with
    | none => cases hr
    | some value =>
      refine awaits_rmwLoop hm hexc hptrs hrun hok hown htail rfl (fun old new => rfl) fuel
        (fuel + 1) (and_operandMask_lt size value) fun s hs => ?_
      cases hs
  · obtain rfl := Option.mem_some_iff.mp hs
    have hread : (readMemoryOperandChecked address size).run (instructionTasks ok).interp
        ((instructionTasks ok).set cpu cpu.memory.host) =
          (some (loadValue cpu.memory.host ptrs), cpu) := by
      refine (run_readMemoryOperandChecked hm hexc address size).trans ?_
      rw [hptrs.1]
    have hfound := loadValue_lt_bits (inPlace_length hptrs) cpu.memory.host
    rw [hread]
    refine awaits_rmwLoop hm hexc hptrs hrun hok hown htail rfl (fun old new => rfl) fuel
      (fuel + 1) (and_operandMask_lt size _) fun s hs => ?_
    rw [← Option.mem_some_iff.mp hs, and_operandMask hfound]

/-- An access behind one pointer that commits at the first try. -/
theorem awaits_once (β : Type) {change : InPlaceChange}
    (hok : ∀ s, ok s → ok ((cpu.setHost s).changed change ptrs).memory.host) (fuel n : ℕ)
    {behind : Option (Option HostPtr) → CpuProgram (Option Unit)}
    (hbehind : ∀ p, ptrs = consecutive p (size.bits / 8) 0 → ∃ (c : CpuProgram β) (k : _),
      behind (some (some p)) = c >>= k ∧ Every (fun o => CpuOp.isAccess o = true) c ∧ ¬ c.Ended ∧
        (∀ b, NoAccess (k b)) ∧ ∀ s, ok s →
          (c.run viewOp (cpu.setHost s)).2 =
            cpu.setHost ((cpu.setHost s).changed change ptrs).memory.host ∧
          (k (c.run viewOp (cpu.setHost s)).1).run viewOp cpu =
            (some (), cpu.edit (change.finish (loadValue s ptrs)))) :
    (instructionTasks ok).Awaits (fun s => (cpu.setHost s).changed change ptrs) (n + 1)
      (some cpu.memory.host)
      (getMemoryWritePtr address (size.bits / 8) (fuel + 1) >>= behind) cpu := by
  obtain ⟨p, hp, hptr⟩ := getMemoryWritePtr_inPlace hm hexc hptrs hrun fuel
  obtain ⟨c, k, hsplit, hheld, hlive, hown, hend⟩ := hbehind p hp
  refine TaskMachine.awaits_own (getMemoryWritePtr address (size.bits / 8) (fuel + 1))
    (own_of_noAccess (noAccess_getMemoryWritePtr _ _ _)) ?_
  show (instructionTasks ok).Awaits _ _ _ (behind ((getMemoryWritePtr address (size.bits / 8)
    (fuel + 1)).run viewOp cpu).1) ((getMemoryWritePtr address (size.bits / 8)
    (fuel + 1)).run viewOp cpu).2
  rw [hptr]
  dsimp only
  rw [hsplit]
  refine TaskMachine.awaits_access hheld hlive (fun _ => True) hok (fun _ _ => trivial) ?_
    fun s _ hno => absurd trivial hno
  intro s hs _
  obtain ⟨hhost, hrunk⟩ := hend s hs
  refine ⟨(c.run viewOp (cpu.setHost s)).1, Prod.ext rfl hhost, ?_⟩
  refine TaskMachine.rests_of_run _ (own_of_noAccess (hown _)) ?_ ?_
  · exact congrArg Prod.fst hrunk
  · intro s'
    show Cpu.setHost ((k (c.run viewOp (cpu.setHost s)).1).run viewOp cpu).2 s' = _
    rw [hrunk]
    rfl

/-- `NOT` of host memory. -/
theorem awaits_notPassthrough
    (hok : ∀ s, ok s → ok ((cpu.setHost s).changed
      (unaryChange (fun old => ~~~old) size fun ctx _ _ => ctx) ptrs).memory.host) (fuel n : ℕ) :
    (instructionTasks ok).Awaits (fun s => (cpu.setHost s).changed
        (unaryChange (fun old => ~~~old) size fun ctx _ _ => ctx) ptrs) (n + 1)
          (some cpu.memory.host)
      (notPassthrough (fuel + 1) address size) cpu := by
  have hlength := inPlace_length hptrs
  have hsize : 0 < size.bits / 8 := by
    have height := size.eight_le
    omega
  refine awaits_once hm hexc hptrs hrun Unit hok fuel n fun p hp => ?_
  refine ⟨(do
    let oldValue ← loadBytes p (size.bits / 8) 0
    storeValue (consecutive p (size.bits / 8) 0) (oldValue ^^^ operandMask size) : CpuProgram Unit),
    fun _ => pure (some ()), (Program.bind_assoc _ _ _).symm, ?_, loadBytes_live p hsize _,
    fun _ => trivial, fun s _ => ⟨?_, rfl⟩⟩
  · exact (held_loadBytes _ _ _).bind fun _ => held_storeValue _ _
  · have hlt := loadValue_lt_bits hlength s
    rw [hp] at hlt ⊢
    rw [Program.run_bind, run_loadBytes]
    dsimp only
    rw [run_storeValue]
    unfold Cpu.setHost MemoryManager.setHost
    dsimp only
    rw [xor_operandMask hlt]
    rfl

/-- `CMPXCHG` behind a `LOCK` prefix. -/
theorem awaits_cmpxchg {k : Option (Bool × U64) → CpuProgram (Option Unit)} {accumulator src : U64}
    (hlt : accumulator.toNat < 2 ^ size.bits)
    (hok : ∀ s, ok s → ok ((cpu.setHost s).changed
      (cmpxchgChange size accumulator src) ptrs).memory.host)
    (hown : ∀ r, NoAccess (k r))
    (hk : ∀ exchanged old, (k (some (exchanged, old))).run viewOp cpu =
      (some (), cpu.edit ((cmpxchgChange size accumulator src).finish old))) (fuel n : ℕ) :
    (instructionTasks ok).Awaits
      (fun s => (cpu.setHost s).changed (cmpxchgChange size accumulator src) ptrs) (n + 1)
      (some cpu.memory.host)
      (cpuAtomicCompareExchangeMemory (fuel + 1) address size accumulator src >>= k) cpu := by
  have hsize : 0 < size.bits / 8 := by
    have height := size.eight_le
    omega
  rw [compareExchange_bind]
  refine awaits_once hm hexc hptrs hrun (Option (Bool × U64)) hok fuel n fun p hp => ?_
  -- the exchange stores exactly when the operand equals the accumulator
  have hblock : ∀ s, (exchangeBytes p size accumulator src).run viewOp (cpu.setHost s) =
      (some (decide (loadValue s ptrs = accumulator), loadValue s ptrs),
        cpu.setHost ((cpu.setHost s).changed (cmpxchgChange size accumulator src) ptrs).memory.host) := by
    intro s
    have hrunb := run_exchangeBytes (cpu.setHost s) p size accumulator src
    rw [and_operandMask hlt, ← hp] at hrunb
    change _ = if loadValue s ptrs = accumulator then _ else _ at hrunb
    rw [hrunb]
    unfold Cpu.changed cmpxchgChange
    by_cases hsame : loadValue s ptrs = accumulator
    · have hsame' : accumulator = loadValue (cpu.setHost s).memory.host ptrs := hsame.symm
      rw [if_pos hsame, decide_eq_true hsame]
      dsimp only
      rw [if_pos hsame']
      rfl
    · have hsame' : ¬ accumulator = loadValue (cpu.setHost s).memory.host ptrs :=
        fun h => hsame h.symm
      rw [if_neg hsame, decide_eq_false hsame]
      dsimp only
      rw [if_neg hsame']
      rfl
  refine ⟨exchangeBytes p size accumulator src, k, rfl, held_exchangeBytes _ _ _ _,
    loadBytes_live p hsize _, hown, fun s _ => ?_⟩
  rw [hblock]
  exact ⟨rfl, hk _ _⟩

end Tasks

/-! ## The instructions -/

section Instructions

variable {ok : HostMemory → Prop} (hm : ManagerOk cpu.memory)
  (hexc : cpu.context.hasException = false) {operand : RmOperand}
  (hmem : operand.isRegister = false) (hptrs : cpu.InPlace operand.memAddress size ptrs)
  (hrun : cpu.OneRun true operand.memAddress (size.bits / 8))

theorem awaits_getContext {effect : HostMemory → Cpu} {n : ℕ}
    {k : CpuContext → CpuProgram (Option Unit)}
    (h : (instructionTasks ok).Awaits effect n (some cpu.memory.host) (k cpu.context) cpu) :
    (instructionTasks ok).Awaits effect n (some cpu.memory.host) (getContext >>= k) cpu :=
  TaskMachine.awaits_own getContext ⟨own_of_isAccess rfl, fun _ => trivial⟩ h

theorem noAccess_modify (f : CpuContext → CpuContext) : NoAccess (do
    modifyContext f
    return some () : CpuProgram (Option Unit)) :=
  (noAccess_modifyContext f).bind fun _ => trivial

theorem run_modify (f : CpuContext → CpuContext) : (do
    modifyContext f
    return some () : CpuProgram (Option Unit)).run viewOp cpu =
      (some (), cpu.edit fun ctx => ctx.keepMode (f ctx)) := rfl

include hm hexc hmem hptrs hrun

/-- `OR` and `XOR`. -/
theorem awaits_logicToRm (operation : U64 → U64 → U64) (source : CpuContext → U64)
    (hok : ∀ s, ok s → ok ((cpu.setHost s).changed
      (logicChange operation size (source cpu.context)) ptrs).memory.host) (fuel : ℕ) :
    (instructionTasks ok).Awaits
      (fun s => (cpu.setHost s).changed (logicChange operation size (source cpu.context)) ptrs)
      (fuel + 1) (some cpu.memory.host)
      (logicToRm (fuel + 1) operation size operand source true) cpu := by
  have hchange : logicChange operation size (source cpu.context) =
      rmwChange size (operation (source cpu.context))
        (logicChange operation size (source cpu.context)).finish := rfl
  rw [hchange] at hok
  rw [hchange, logicToRm_locked hmem]
  refine awaits_getContext ?_
  refine awaits_lockedRmw hm hexc hptrs hrun hok (fun _ _ => noAccess_modify _) ?_ fuel
  exact fun old => run_modify fun ctx =>
    updateLogicFlags size ctx (operation (source cpu.context) old &&& operandMask size)

/-- The instructions with one operand. -/
theorem awaits_unaryRm (callback : U64 → U64)
    (flags : CpuContext → BitVec size.bits → BitVec size.bits → CpuContext)
    (hok : ∀ s, ok s → ok ((cpu.setHost s).changed
      (unaryChange callback size flags) ptrs).memory.host) (fuel : ℕ) :
    (instructionTasks ok).Awaits
      (fun s => (cpu.setHost s).changed (unaryChange callback size flags) ptrs)
      (fuel + 1) (some cpu.memory.host)
      (unaryRm (fuel + 1) callback size flags operand true) cpu := by
  have hchange : unaryChange callback size flags =
      rmwChange size callback (unaryChange callback size flags).finish := rfl
  rw [hchange] at hok
  rw [hchange, unaryRm_locked hmem]
  refine awaits_lockedRmw hm hexc hptrs hrun hok (fun _ _ => noAccess_modify _) ?_ fuel
  exact fun old => run_modify fun ctx => flags ctx (old.setWidth size.bits)
    ((callback old &&& operandMask size).setWidth size.bits)

/-- `NOT`. -/
theorem awaits_notRm
    (hok : ∀ s, ok s → ok ((cpu.setHost s).changed
      (unaryChange (fun old => ~~~old) size fun ctx _ _ => ctx) ptrs).memory.host) (fuel : ℕ) :
    (instructionTasks ok).Awaits (fun s => (cpu.setHost s).changed
        (unaryChange (fun old => ~~~old) size fun ctx _ _ => ctx) ptrs) (fuel + 1)
          (some cpu.memory.host)
      (notRm (fuel + 1) size operand true) cpu := by
  rw [notRm_locked hmem]
  refine TaskMachine.awaits_own (perform .isHostWritePassthrough)
    ⟨own_of_isAccess rfl, fun _ => trivial⟩ ?_
  show (instructionTasks ok).Awaits _ _ _
    (if cpu.memory.hostWritePassthrough = true then _ else _) cpu
  -- host memory has an exchange of its own, which asks for no access for reading
  split_ifs
  · exact awaits_notPassthrough hm hexc hptrs hrun hok fuel fuel
  · have hunary := awaits_unaryRm hm hexc hmem hptrs hrun (fun old => ~~~old)
      (fun ctx _ _ => ctx) hok fuel
    rwa [unaryRm_locked hmem] at hunary

/-- `XADD`. -/
theorem awaits_xaddRmReg (hok : ∀ s, ok s → ok ((cpu.setHost s).changed
      (InPlaceOp.xadd.change size operand.modrm cpu.context) ptrs).memory.host) (fuel : ℕ) :
    (instructionTasks ok).Awaits (fun s => (cpu.setHost s).changed
        (InPlaceOp.xadd.change size operand.modrm cpu.context) ptrs) (fuel + 1)
          (some cpu.memory.host)
      (xaddRmReg (fuel + 1) size operand true) cpu := by
  have hchange : InPlaceOp.xadd.change size operand.modrm cpu.context =
      rmwChange size
        (cpuAtomicAddCallback (getRegister size cpu.context (decodeRegIndex cpu.context operand.modrm)))
        (InPlaceOp.xadd.change size operand.modrm cpu.context).finish := rfl
  rw [hchange] at hok
  rw [hchange, xaddRmReg_locked hmem]
  refine awaits_getContext ?_
  refine awaits_lockedRmw hm hexc hptrs hrun hok
    (fun _ _ => (noAccess_modifyContext _).bind fun _ => noAccess_modify _) ?_ fuel
  intro old
  rw [Program.run_bind, run_modifyContext]
  exact run_modify fun ctx => setRegister size ctx (decodeRegIndex cpu.context operand.modrm) old

/-- `XCHG`. -/
theorem awaits_xchgRmReg (hok : ∀ s, ok s → ok ((cpu.setHost s).changed
      (InPlaceOp.xchg.change size operand.modrm cpu.context) ptrs).memory.host) (fuel : ℕ) :
    (instructionTasks ok).Awaits (fun s => (cpu.setHost s).changed
        (InPlaceOp.xchg.change size operand.modrm cpu.context) ptrs) (fuel + 1)
          (some cpu.memory.host)
      (xchgRmReg (fuel + 1) size operand) cpu := by
  have hchange : InPlaceOp.xchg.change size operand.modrm cpu.context =
      rmwChange size
        (cpuAtomicExchangeCallback
          (getRegister size cpu.context (decodeRegIndex cpu.context operand.modrm)))
        (InPlaceOp.xchg.change size operand.modrm cpu.context).finish := rfl
  rw [hchange] at hok
  rw [hchange, xchgRmReg_locked hmem]
  refine awaits_getContext ?_
  refine awaits_lockedRmw hm hexc hptrs hrun hok (fun _ _ => noAccess_modify _) ?_ fuel
  exact fun old => run_modify fun ctx =>
    setRegister size ctx (decodeRegIndex cpu.context operand.modrm) old

/-- `CMPXCHG`. -/
theorem awaits_cmpxchgRmReg (hok : ∀ s, ok s → ok ((cpu.setHost s).changed
      (InPlaceOp.cmpxchg.change size operand.modrm cpu.context) ptrs).memory.host) (fuel : ℕ) :
    (instructionTasks ok).Awaits (fun s => (cpu.setHost s).changed
        (InPlaceOp.cmpxchg.change size operand.modrm cpu.context) ptrs) (fuel + 1)
          (some cpu.memory.host)
      (cmpxchgRmReg (fuel + 1) size operand true) cpu := by
  unfold cmpxchgRmReg
  simp only [hmem, Bool.not_false, Bool.and_true, if_true]
  refine awaits_getContext ?_
  refine awaits_cmpxchg hm hexc hptrs hrun (getRegister_lt size cpu.context regRax) hok ?_ ?_ fuel
    fuel
  · intro r
    cases r with
    | none => trivial
    | some r =>
      refine noAccess_cpuHasException.bind fun exc => Program.every_ite trivial ?_
      refine (noAccess_modifyContext _).bind fun _ => Program.every_ite ?_ trivial
      exact noAccess_modify _
  · intro exchanged old
    dsimp only
    rw [Program.run_bind, run_cpuHasException, hexc]
    simp only [Bool.false_eq_true, if_false]
    rw [Program.run_bind, run_modifyContext]
    unfold cmpxchgChange
    by_cases heq : getRegister size cpu.context regRax = old
    · simp only [heq, ne_eq, not_true_eq_false, if_false]
      rfl
    · simp only [heq, ne_eq, not_false_eq_true, if_true]
      rw [Program.run_bind, run_modifyContext]
      dsimp only [Program.run_pure, Cpu.edit]

/-- **Each locked instruction** is a task, with as many tries as it has turns. -/
theorem awaits_execute (op : InPlaceOp) (hok : ∀ s, ok s → ok ((cpu.setHost s).changed
      (op.change size operand.modrm cpu.context) ptrs).memory.host) (fuel : ℕ) :
    (instructionTasks ok).Awaits (fun s => (cpu.setHost s).changed
        (op.change size operand.modrm cpu.context) ptrs) (fuel + 1) (some cpu.memory.host)
      (op.execute (fuel + 1) size operand true) cpu := by
  cases op with
  | or imm => cases imm <;> exact awaits_logicToRm hm hexc hmem hptrs hrun _ _ hok fuel
  | xor imm => cases imm <;> exact awaits_logicToRm hm hexc hmem hptrs hrun _ _ hok fuel
  | inc => exact awaits_unaryRm hm hexc hmem hptrs hrun _ _ hok fuel
  | dec => exact awaits_unaryRm hm hexc hmem hptrs hrun _ _ hok fuel
  | neg => exact awaits_unaryRm hm hexc hmem hptrs hrun _ _ hok fuel
  | not => exact awaits_notRm hm hexc hmem hptrs hrun hok fuel
  | xadd => exact awaits_xaddRmReg hm hexc hmem hptrs hrun hok fuel
  | xchg => exact awaits_xchgRmReg hm hexc hmem hptrs hrun hok fuel
  | cmpxchg => exact awaits_cmpxchgRmReg hm hexc hmem hptrs hrun hok fuel

end Instructions

/-! ## Engines past the page cache -/

/-- The host memory changes by stores only. -/
theorem viewOp_host (o : CpuOp) (cpu : Cpu) : (viewOp o cpu).2.memory.host = cpu.memory.host ∨
    ∃ p value, (viewOp o cpu).2.memory.host = cpu.memory.host.write p value := by
  cases o with
  | store p value => exact Or.inr ⟨p, value, rfl⟩
  | tryHandleInvalid store =>
    refine Or.inl ?_
    unfold viewOp cpuOp Cpu.tryHandleInvalidMemoryAccess
    dsimp only
    split_ifs <;> rfl
  | raisePageFault address store =>
    refine Or.inl ?_
    unfold viewOp cpuOp
    dsimp only
    split_ifs <;> rfl
  | _ => exact Or.inl rfl

/-- Other bytes behind the pages of two engines that differ in their page caches. -/
theorem UpToCache.write {cpu cpu' : Cpu} (h : UpToCache cpu cpu') (p : HostPtr) (value : U8) :
    UpToCache (cpu.setHost (cpu.memory.host.write p value))
      (cpu'.setHost (cpu'.memory.host.write p value)) where
  eq := by
    conv_lhs => rw [h.eq]
    rfl
  ok := h.ok.write p value
  ok' := h.ok'.write p value

/-- **The page caches** of the engines do not matter. -/
theorem engines_simulates :
    Program.Simulates (engines viewOp) (engines cpuOp) fun cpu cpu' => UpToCache cpu' cpu where
  holds_eq := rfl
  get_eq h := h.host_eq
  op o _ _ h := cpuOp_viewOp o h
  others := by
    intro o cpu cpu' _ other other' hother
    show UpToCache (other'.setHost (viewOp o cpu).2.memory.host)
      (other.setHost (viewOp o cpu).2.memory.host)
    rcases viewOp_host o cpu with hsame | ⟨p, value, hwrite⟩
    · rw [hsame]
      exact hother
    · rw [hwrite]
      exact hother.write p value

/-! ## Locked instructions on several engines -/

/-- A locked instruction that an engine is about to execute, on an operand that may be read and
written, in one run of host memory. -/
structure LockedInst (host : HostMemory) where
  engine : Cpu
  op : InPlaceOp
  size : OperandWidth
  operand : RmOperand
  ptrs : List HostPtr
  memory : MemoryOk (engine.memory.setHost host)
  clear : engine.context.hasException = false
  isMemory : operand.isRegister = false
  inPlace : engine.InPlace operand.memAddress size ptrs
  oneRun : engine.OneRun true operand.memAddress (size.bits / 8)

/-- The instruction on its engine, with nobody else at work: the engine behind it. -/
def LockedInst.alone {host : HostMemory} (inst : LockedInst host) (s : HostMemory) : Cpu :=
  ((inst.op.execute 1 inst.size inst.operand true).run cpuOp (inst.engine.setHost s)).2

/-- The change of the instruction. -/
def LockedInst.change {host : HostMemory} (inst : LockedInst host) : InPlaceChange :=
  inst.op.change inst.size inst.operand.modrm inst.engine.context

/-- What the instruction does with its operand. -/
def LockedInst.effect {host : HostMemory} (inst : LockedInst host) (s : HostMemory) : Cpu :=
  (inst.engine.setHost s).changed inst.change inst.ptrs

variable {ι : Type} {host : HostMemory}

/-- All engines in front of their instructions, whose exchanges may be tried `fuel` times. -/
def lockedSystem (insts : ι → LockedInst host) (fuel : ℕ) :
    Program.System CpuOp CpuOp.Reply (Option Unit) Cpu HostMemory ι where
  thread i := ((insts i).op.execute fuel (insts i).size (insts i).operand true,
    (insts i).engine.setHost host)
  shared := host

/-- The host memory behind the instructions of some engines, one after another. -/
def aloneInOrder (insts : ι → LockedInst host) (s : HostMemory) (order : List ι) : HostMemory :=
  order.foldl (fun s i => ((insts i).alone s).memory.host) s

/-- The memory of all engines is sound with these bytes. -/
def BytesOk (insts : ι → LockedInst host) (s : HostMemory) : Prop :=
  ∀ i, MemoryOk ((insts i).engine.memory.setHost s)

theorem bytesOk_storeBytes {insts : ι → LockedInst host} (ptrs : List HostPtr) :
    ∀ {s : HostMemory} {value : U64}, BytesOk insts s → BytesOk insts (storeBytes s ptrs value) := by
  induction ptrs with
  | nil => exact fun h => h
  | cons p rest ih => exact fun h => ih fun i => (h i).write p _

/-- The host memory behind an instruction. -/
theorem LockedInst.effect_host (inst : LockedInst host) (s : HostMemory) :
    (inst.effect s).memory.host =
      ((inst.change.stored (loadValue s inst.ptrs)).map (storeBytes s inst.ptrs)).getD s :=
  changed_host (inst.engine.setHost s) inst.change inst.ptrs

theorem bytesOk_effect {insts : ι → LockedInst host} {s : HostMemory} (h : BytesOk insts s)
    (i : ι) : BytesOk insts ((insts i).effect s).memory.host := by
  rw [(insts i).effect_host]
  cases (insts i).change.stored (loadValue s (insts i).ptrs) with
  | some value => exact bytesOk_storeBytes _ h
  | none => exact h

/-- Which bytes are behind the pages does not matter for the access to them. -/
theorem dataPtr_setHost (cpu : Cpu) (s : HostMemory) (store : Bool) (a : U64) :
    (cpu.setHost s).dataPtr store a = cpu.dataPtr store a := by
  unfold Cpu.dataPtr grantedPtr Cpu.setHost
  simp only [accessView_setHost]

theorem inPlace_setHost {cpu : Cpu} (h : cpu.InPlace address size ptrs) (s : HostMemory) :
    (cpu.setHost s).InPlace address size ptrs :=
  ⟨(operandPtrs_congr (dataPtr_setHost cpu s _) _ _).trans h.1,
    (operandPtrs_congr (dataPtr_setHost cpu s _) _ _).trans h.2⟩

theorem oneRun_setHost {cpu : Cpu} {store : Bool} {n : ℕ} (h : cpu.OneRun store address n)
    (s : HostMemory) : (cpu.setHost s).OneRun store address n := by
  unfold Cpu.OneRun
  simp only [dataPtr_setHost]
  exact h

namespace LockedInst

/-- Alone an instruction has its effect. -/
theorem alone_effect (inst : LockedInst host) {s : HostMemory}
    (hs : MemoryOk (inst.engine.memory.setHost s)) : UpToCache (inst.alone s) (inst.effect s) := by
  have hm : MemoryOk (inst.engine.setHost s).memory := hs
  have hview : (inst.op.execute 1 inst.size inst.operand true).run viewOp
      (inst.engine.setHost s) = (some (), inst.effect s) := by
    refine (run_locked hm.manager inst.clear inst.isMemory inst.op
      (oneRun_setHost inst.oneRun s) 0).trans ?_
    rw [locked_inPlace (inPlace_setHost inst.inPlace s)]
    rfl
  have hrun := (run_viewOp (inst.op.execute 1 inst.size inst.operand true) hm).2
  rwa [hview] at hrun

/-- Among others an instruction is a task with its effect. -/
theorem awaits_effect (insts : ι → LockedInst host) (i : ι) (fuel : ℕ) :
    (instructionTasks (BytesOk insts)).Awaits (insts i).effect (fuel + 1) (some host)
      ((insts i).op.execute (fuel + 1) (insts i).size (insts i).operand true)
      ((insts i).engine.setHost host) := by
  have hm : ManagerOk ((insts i).engine.setHost host).memory := (insts i).memory.manager
  have hok : ∀ s, BytesOk insts s → BytesOk insts ((((insts i).engine.setHost host).setHost s).changed
      ((insts i).op.change (insts i).size (insts i).operand.modrm
        ((insts i).engine.setHost host).context) (insts i).ptrs).memory.host :=
    fun s hs => bytesOk_effect hs i
  exact awaits_execute hm (insts i).clear (insts i).isMemory
    (inPlace_setHost (insts i).inPlace host) (oneRun_setHost (insts i).oneRun host) (insts i).op
    hok fuel

end LockedInst

/-- What the instructions leave behind is what they do alone. -/
theorem inOrder_alone {insts : ι → LockedInst host} (order : List ι) :
    ∀ {s : HostMemory}, BytesOk insts s →
      (instructionTasks (BytesOk insts)).inOrder (fun i => (insts i).effect) s order =
        aloneInOrder insts s order ∧ BytesOk insts (aloneInOrder insts s order) := by
  induction order with
  | nil => exact fun hs => ⟨rfl, hs⟩
  | cons i order ih =>
    intro s hs
    have hhost : ((insts i).alone s).memory.host = ((insts i).effect s).memory.host :=
      ((insts i).alone_effect (hs i)).host_eq
    have hnext := ih (bytesOk_effect hs i)
    rw [← hhost] at hnext
    refine ⟨?_, hnext.2⟩
    refine Eq.trans ?_ hnext.1
    rw [hhost]
    rfl

/-- Locked instructions that have ended took effect one after another. -/
theorem locked_order [Fintype ι] [DecidableEq ι] (insts : ι → LockedInst host) {fuel : ℕ}
    (hfuel : Fintype.card ι ≤ fuel) {schedule : List ι}
    (hended : ((engines cpuOp).steps (lockedSystem insts fuel) schedule).Ended) :
    ∃ order : List ι, order.Nodup ∧ (∀ i, i ∈ order) ∧
      ((engines cpuOp).steps (lockedSystem insts fuel) schedule).shared =
        aloneInOrder insts host order ∧
      ∀ k i, order[k]? = some i →
        (((engines cpuOp).steps (lockedSystem insts fuel) schedule).thread i).1 =
          .ret (some ()) ∧
        (((engines cpuOp).steps (lockedSystem insts fuel) schedule).thread i).2.context =
          ((insts i).alone (aloneInOrder insts host (order.take k))).context := by
  have hbytes : BytesOk insts host := fun i => (insts i).memory
  -- the same turns past the page caches
  have hstart : Program.SystemsAlike (engines viewOp) (engines cpuOp)
      (fun cpu cpu' => UpToCache cpu' cpu) (lockedSystem insts fuel)
      (lockedSystem insts fuel) :=
    ⟨rfl, fun _ => rfl, fun i => .refl (hbytes i)⟩
  have halike := engines_simulates.steps schedule hstart
  have hview : ((instructionTasks (BytesOk insts)).steps (lockedSystem insts fuel)
      schedule).Ended := by
    intro i
    have hi := hended i
    rw [halike.program_eq i] at hi
    exact hi
  have heffect : ∀ i s, (instructionTasks (BytesOk insts)).ok s →
      (instructionTasks (BytesOk insts)).ok ((insts i).effect s).memory.host :=
    fun i s hs => bytesOk_effect hs i
  have htasks : ∀ i, ∃ n, Fintype.card ι ≤ n ∧ (instructionTasks (BytesOk insts)).Awaits
      (insts i).effect n (some host) ((lockedSystem insts fuel).thread i).1
      ((lockedSystem insts fuel).thread i).2 := by
    intro i
    have hcard : 0 < Fintype.card ι := Fintype.card_pos_iff.mpr ⟨i⟩
    obtain ⟨turns, rfl⟩ : ∃ turns, fuel = turns + 1 := ⟨fuel - 1, by omega⟩
    exact ⟨turns + 1, hfuel, LockedInst.awaits_effect insts i turns⟩
  -- the order is the one in which the engines commit
  obtain ⟨order, hserial⟩ := TaskMachine.serial_of_awaits heffect hbytes htasks schedule hview
  have hmemory := fun order => inOrder_alone order hbytes
  refine ⟨order, hserial.nodup, hserial.all, ?_, fun k i hk => ?_⟩
  · rw [halike.shared_eq, ← (hmemory order).1]
    exact hserial.shared_eq
  · obtain ⟨hanswer, hstate⟩ := hserial.thread_eq k i hk
    have hbefore := hmemory (order.take k)
    have hshared : (lockedSystem insts fuel).shared = host := rfl
    rw [hshared, hbefore.1] at hstate
    refine ⟨(halike.program_eq i).trans hanswer, ?_⟩
    have hreal := (halike.rel i).context_eq
    have hend := congrArg Cpu.context (hstate host)
    have halone := ((insts i).alone_effect (hbefore.2 i)).context_eq
    exact hreal.trans (hend.trans halone.symm)

/-- **Locked instructions** on several engines take effect one after another: whatever the turns
are, each engine ends its instruction in the context in which the instruction leaves it alone,
and the memory is what the instructions leave behind in this order.  As many turns of the loop of
exchanges as there are engines are enough, and no engine waits for another one: every schedule can
be continued until all have ended. -/
theorem locked_serial [Fintype ι] [DecidableEq ι] (insts : ι → LockedInst host) {fuel : ℕ}
    (hfuel : Fintype.card ι ≤ fuel) (schedule : List ι) :
    (∃ rest, ((engines cpuOp).steps (lockedSystem insts fuel) (schedule ++ rest)).Ended) ∧
    (((engines cpuOp).steps (lockedSystem insts fuel) schedule).Ended →
      ∃ order : List ι, order.Nodup ∧ (∀ i, i ∈ order) ∧
        ((engines cpuOp).steps (lockedSystem insts fuel) schedule).shared =
          aloneInOrder insts host order ∧
        ∀ k i, order[k]? = some i →
          (((engines cpuOp).steps (lockedSystem insts fuel) schedule).thread i).1 =
            .ret (some ()) ∧
          (((engines cpuOp).steps (lockedSystem insts fuel) schedule).thread i).2.context =
            ((insts i).alone (aloneInOrder insts host (order.take k))).context) := by
  refine ⟨?_, locked_order insts hfuel⟩
  obtain ⟨rest, hrest⟩ := Machine.exists_schedule
    ((engines cpuOp).steps (lockedSystem insts fuel) schedule)
  refine ⟨rest, ?_⟩
  rwa [Machine.steps_append]

/-- The host program of an engine with ones in its registers. -/
def oneCpu : Cpu := hostCpu { initCpuContext false with regs := fun _ => 1 } fun _ => 0

/-- `LOCK XADD [1000h], EAX` on such an engine. -/
def ticketInst : LockedInst oneCpu.memory.host where
  engine := oneCpu
  op := .xadd
  size := .dword
  operand := ⟨0, 0x1000⟩
  ptrs := [.user 0x1000, .user 0x1001, .user 0x1002, .user 0x1003]
  memory := memoryOk_hostCpu { initCpuContext false with regs := fun _ => 1 } fun _ => 0
  clear := rfl
  isMemory := rfl
  inPlace := ⟨rfl, rfl⟩
  oneRun := oneRun_hostCpu

/-- Two engines with one such instruction each, in two turns of the loop. -/
theorem locked_serial_example : ∃ schedule : List Bool,
    ((engines cpuOp).steps (lockedSystem (fun _ => ticketInst) 2) schedule).Ended ∧
    ∃ order : List Bool, order.Nodup ∧ (∀ i, i ∈ order) ∧
      ((engines cpuOp).steps (lockedSystem (fun _ => ticketInst) 2) schedule).shared =
        aloneInOrder (fun _ => ticketInst) oneCpu.memory.host order := by
  have hserial := locked_serial (fun _ : Bool => ticketInst) (by decide : Fintype.card Bool ≤ 2)
  obtain ⟨schedule, hended⟩ := (hserial []).1
  obtain ⟨order, hnodup, hall, hshared, -⟩ := (hserial schedule).2 hended
  exact ⟨schedule, hended, order, hnodup, hall, hshared⟩

end Cpueaxh
