/-
# ENTER level by level

`ENTER` completes exactly when its definition level by level does, with the same registers, and
it fails with the stack as it was.  The memory is the same too, as long as no push of the
definition changes an outer frame pointer that is still to be read.

`LEAVE` then moves the stack pointer back exactly if `RBP` can hold the whole address of the
frame, and restores `RBP` if the slot of `RBP` is a plain one.
-/
import Cpueaxh.Copies
import Cpueaxh.EnterLeave
import Cpueaxh.StackTransfers

namespace Cpueaxh

open HostMemory Copies

variable {cpu : Cpu} {inst : FrameInst}

/-! ## The frame -/

namespace FrameInst

variable (inst)

/-- The sizes are sizes that the decoders yield. -/
structure Sized : Prop where
  operand : inst.operandSize = 16 ∨ inst.operandSize = 32 ∨ inst.operandSize = 64
  address : inst.addressSize = 16 ∨ inst.addressSize = 32 ∨ inst.addressSize = 64

/-- A stack of 16 bits does not take values of 64 bits. -/
def Narrow : Prop := inst.addressSize = 16 ∧ inst.valueSize = 8

instance : Decidable inst.Narrow := inferInstanceAs (Decidable (_ ∧ _))

/-- The slot below an address. -/
def slotBelow (sp : U64) : U64 :=
  enterSubStackPointerValue inst.addressSize sp (BitVec.ofNat 64 inst.valueSize)

/-- The place of the next outer frame pointer. -/
def outer (rbp : U64) : U64 := enterSubFramePointerValue rbp inst.operandSize

/-- The slots of some pushes below an address. -/
def slots : ℕ → U64 → List U64
  | 0, _ => []
  | n + 1, sp => inst.slotBelow sp :: slots n (inst.slotBelow sp)

/-- The addresses of some outer frame pointers. -/
def frames : ℕ → U64 → List U64
  | 0, _ => []
  | n + 1, rbp => truncateTo inst.addressSize (inst.outer rbp) :: frames n (inst.outer rbp)

/-- The number of pushes. -/
def pushCount : ℕ := if inst.nestingLevel = 0 then 1 else inst.nestingLevel + 1

end FrameInst

/-- The pointers of a frame: those to the slot of `RBP`, those of the outer frame pointers,
from the place of each to its slot, and those to the slot of the frame pointer, if there is
one. -/
structure FramePtrs where
  saved : List HostPtr
  copies : List (List HostPtr × List HostPtr)
  last : Option (List HostPtr)

namespace FramePtrs

variable (ptrs : FramePtrs)

/-- The push of the frame pointer. -/
def lastWrite (frame : U64) : List (List HostPtr × U64) := ptrs.last.toList.map fun p => (p, frame)

/-- The bytes behind the pushes, all of which push what was in the memory before. -/
def atOnce (host : HostMemory) (rbp frame : U64) : HostMemory :=
  writeAll storeBytes host
    ((ptrs.saved, rbp) :: (values loadValue host ptrs.copies ++ ptrs.lastWrite frame))

/-- The bytes behind the pushes in turn. -/
def inTurn (host : HostMemory) (rbp frame : U64) : HostMemory :=
  writeAll storeBytes (Copies.inTurn loadValue storeBytes (storeBytes host ptrs.saved rbp) ptrs.copies)
    (ptrs.lastWrite frame)

/-- No push changes an outer frame pointer that is still to be read. -/
def Keeps (host : HostMemory) (rbp : U64) : Prop :=
  Kept loadValue storeBytes host (storeBytes host ptrs.saved rbp) ptrs.copies

theorem inTurn_eq_atOnce {host : HostMemory} {rbp : U64} (h : ptrs.Keeps host rbp) (frame : U64) :
    ptrs.inTurn host rbp frame = ptrs.atOnce host rbp frame := by
  unfold inTurn atOnce
  rw [inTurn_eq_writeAll loadValue storeBytes h]
  unfold writeAll
  rw [List.foldl_cons, List.foldl_append]

end FramePtrs

namespace Cpu

variable (cpu inst)

/-- The pointers of an operand of the operand size, if it may be accessed. -/
def granted (store : Bool) (address : U64) : Option (List HostPtr) :=
  (cpu.operandPtrs store address inst.valueSize 0).toOption

/-- The pointers of some copies of outer frame pointers. -/
def copyPtrs (n : ℕ) (rbp sp : U64) : Option (List (List HostPtr × List HostPtr)) := do
  let reads ← (inst.frames n rbp).mapM (cpu.granted inst false)
  let writes ← (inst.slots n sp).mapM (cpu.granted inst true)
  return reads.zip writes

/-- The address of the frame that `ENTER` makes. -/
def newFrame : U64 := inst.slotBelow (truncateTo inst.addressSize (cpu.context.regs regRsp))

/-- The pointers behind the slot of `RBP`. -/
def displayPtrs (saved : List HostPtr) : Option FramePtrs :=
  if inst.nestingLevel = 0 then return ⟨saved, [], none⟩
  else do
    let copies ← cpu.copyPtrs inst (inst.nestingLevel - 1) (cpu.context.regs regRbp)
      (cpu.newFrame inst)
    let last ← cpu.granted inst true
      (inst.slotBelow (inst.slotBelow^[inst.nestingLevel - 1] (cpu.newFrame inst)))
    return ⟨saved, copies, some last⟩

/-- The pointers of the frame that `ENTER` makes, if all of them are granted. -/
def framePtrs : Option FramePtrs :=
  if inst.Narrow then none
  else do
    let saved ← cpu.granted inst true (cpu.newFrame inst)
    cpu.displayPtrs inst saved

/-- The CPU with other bytes, another `RBP` and a stack pointer that has moved. -/
def atFrame (host : HostMemory) (rbp sp : U64) : Cpu :=
  { cpu.setHost host with context := { cpu.context with
      regs := Function.update (Function.update cpu.context.regs regRbp rbp) regRsp
        (stackWrite inst.addressSize (cpu.context.regs regRsp) sp) } }

/-- The CPU behind `ENTER`, with the bytes that its pushes leave. -/
def entered (host : HostMemory) : Cpu :=
  cpu.atFrame inst host
    (regMerge inst.operandSize (cpu.context.regs regRbp) (cpu.newFrame inst))
    (enterSubStackPointerValue inst.addressSize
      (inst.slotBelow^[inst.pushCount] (truncateTo inst.addressSize (cpu.context.regs regRsp)))
      (inst.allocSize.setWidth 64))

end Cpu

/-! ## Words -/

/-- The later of two writes of the stack pointer counts. -/
theorem stackWrite_stackWrite (size : ℕ) (old between value : U64) :
    stackWrite size (stackWrite size old between) value = stackWrite size old value := by
  have hmask : ∀ mask : U64,
      ((((old &&& ~~~mask) ||| (between &&& mask)) &&& ~~~mask) ||| (value &&& mask)) =
        (old &&& ~~~mask) ||| (value &&& mask) := by
    intro mask
    ext i hi
    simp only [BitVec.getElem_and, BitVec.getElem_or, BitVec.getElem_not]
    cases mask[i] <;> simp
  unfold stackWrite
  split_ifs
  · rfl
  · exact hmask _
  · exact hmask _

/-! ## Granted operands -/

theorem granted_eq_some {store : Bool} {address : U64} {ptrs : List HostPtr} :
    cpu.granted inst store address = some ptrs ↔
      cpu.operandPtrs store address inst.valueSize 0 = .ok ptrs := by
  unfold Cpu.granted
  cases cpu.operandPtrs store address inst.valueSize 0 with
  | error a => simp only [Except.toOption, reduceCtorEq]
  | ok slot => simp only [Except.toOption, Option.some.injEq, Except.ok.injEq]

theorem granted_eq_none {store : Bool} {address : U64} :
    cpu.granted inst store address = none ↔
      ∃ a, cpu.operandPtrs store address inst.valueSize 0 = .error a := by
  unfold Cpu.granted
  cases cpu.operandPtrs store address inst.valueSize 0 with
  | error a => simp only [Except.toOption, Except.error.injEq, exists_eq']
  | ok slot => simp only [Except.toOption, reduceCtorEq, exists_false]

theorem valueSize_pos : 0 < inst.valueSize := by
  unfold FrameInst.valueSize
  split_ifs <;> omega

/-- The pointers do not depend on the bytes and the registers. -/
theorem granted_atFrame (host : HostMemory) (rbp sp : U64) (store : Bool) (address : U64) :
    (cpu.atFrame inst host rbp sp).granted inst store address = cpu.granted inst store address := by
  unfold Cpu.granted
  rw [operandPtrs_congr]
  intro a
  rfl

section Loads

variable (hm : ManagerOk cpu.memory) (hexc : cpu.context.hasException = false)
  (hwide : ¬ inst.Narrow)

include hm hexc hwide

/-- A read of a frame pointer is a load of the operand size. -/
theorem run_enterReadFrameValue (rbp : U64) :
    (enterReadFrameValue inst rbp).run viewOp cpu =
      match cpu.loadAt inst.valueSize (truncateTo inst.addressSize rbp) with
      | .error c => (0, c)
      | .ok value => (value, cpu) := by
  refine Eq.trans ?_ (run_readMemory_loadAt hm hexc (@valueSize_pos inst) _)
  unfold FrameInst.Narrow FrameInst.valueSize at hwide
  unfold enterReadFrameValue FrameInst.valueSize
  split_ifs at hwide ⊢ with hword hdword hsmall
  · rfl
  · rfl
  · exact absurd ⟨hsmall, rfl⟩ hwide
  · rfl

theorem run_read_granted {rbp : U64} {ptrs : List HostPtr}
    (h : cpu.granted inst false (truncateTo inst.addressSize rbp) = some ptrs) :
    (enterReadFrameValue inst rbp).run viewOp cpu = (loadValue cpu.memory.host ptrs, cpu) := by
  rw [run_enterReadFrameValue hm hexc hwide,
    loadAt_ok_iff.mpr ⟨ptrs, granted_eq_some.mp h, rfl⟩]

theorem run_read_refused {rbp : U64}
    (h : cpu.granted inst false (truncateTo inst.addressSize rbp) = none) :
    ∃ c, (enterReadFrameValue inst rbp).run viewOp cpu = (0, c) ∧ cpu.Failed c := by
  obtain ⟨a, ha⟩ := granted_eq_none.mp h
  have hload : cpu.loadAt inst.valueSize (truncateTo inst.addressSize rbp) =
      .error (cpu.refused false a) := by
    unfold Cpu.loadAt
    rw [ha]
  refine ⟨cpu.refused false a, ?_, failed_refused hexc (operandPtrs_error _ ha)⟩
  rw [run_enterReadFrameValue hm hexc hwide, hload]

end Loads

/-! ## ENTER -/

/-- A part yields its value and leaves the CPU as it is, or there is a fault. -/
def Yields {α : Type} (p : CpuProgram (Option α)) (cpu : Cpu) : Option α → Prop
  | some a => p.run viewOp cpu = (some a, cpu)
  | none => ∃ c, p.run viewOp cpu = (none, c) ∧ cpu.Failed c

theorem Yields.congr {α : Type} {p q : CpuProgram (Option α)} {e : Option α} (h : Yields q cpu e)
    (hrun : p.run viewOp cpu = q.run viewOp cpu) : Yields p cpu e := by
  cases e with
  | none =>
    obtain ⟨c, hq, hfailed⟩ := h
    exact ⟨c, hrun.trans hq, hfailed⟩
  | some a => exact hrun.trans h

/-- One part after the other. -/
theorem Yields.bind {α β : Type} {p : CpuProgram (Option α)} {k : Option α → CpuProgram (Option β)}
    {e : Option α} {f : α → Option β} (hp : Yields p cpu e) (hnone : k none = pure none)
    (hsome : ∀ a, e = some a → Yields (k (some a)) cpu (f a)) : Yields (p >>= k) cpu (e >>= f) := by
  cases e with
  | none =>
    obtain ⟨c, hrun, hfailed⟩ := hp
    refine ⟨c, ?_, hfailed⟩
    rw [Program.run_bind, hrun, hnone]
    rfl
  | some a =>
    have hrun : (p >>= k).run viewOp cpu = (k (some a)).run viewOp cpu := by
      rw [Program.run_bind, hp]
    exact (hsome a rfl).congr hrun

/-- A part that turns a yielded value into another one. -/
theorem Yields.map {α β γ : Type} {p : CpuProgram (Option α)}
    {k : Option α → CpuProgram (Option β)} {e : Option γ} {g : γ → α} {g' : γ → β}
    (h : Yields p cpu (e >>= fun c => some (g c))) (hnone : k none = pure none)
    (hsome : ∀ c, k (some (g c)) = pure (some (g' c))) :
    Yields (p >>= k) cpu (e >>= fun c => some (g' c)) := by
  cases e with
  | none =>
    obtain ⟨c, hrun, hfailed⟩ := h
    refine ⟨c, ?_, hfailed⟩
    rw [Program.run_bind, hrun, hnone]
    rfl
  | some c =>
    have hrun : p.run viewOp cpu = (some (g c), cpu) := h
    show (p >>= k).run viewOp cpu = (some (g' c), cpu)
    rw [Program.run_bind, hrun, hsome]
    rfl

/-- A read of a frame pointer, and what is done if it is granted. -/
theorem Yields.read {β : Type} (hm : ManagerOk cpu.memory)
    (hexc : cpu.context.hasException = false) (hwide : ¬ inst.Narrow) {rbp : U64}
    {k : U64 → CpuProgram (Option β)} {f : List HostPtr → Option β}
    (hk : ∀ ptrs, cpu.granted inst false (truncateTo inst.addressSize rbp) = some ptrs →
      Yields (k (loadValue cpu.memory.host ptrs)) cpu (f ptrs)) :
    Yields (do
      let value ← enterReadFrameValue inst rbp
      if ← cpuHasException then return none
      k value) cpu (cpu.granted inst false (truncateTo inst.addressSize rbp) >>= f) := by
  cases hptrs : cpu.granted inst false (truncateTo inst.addressSize rbp) with
  | none =>
    obtain ⟨c, hread, hfailed⟩ := run_read_refused hm hexc hwide hptrs
    refine ⟨c, ?_, hfailed⟩
    rw [Program.run_bind, hread]
    dsimp only
    rw [Program.run_bind, run_cpuHasException, hfailed.pending]
    rfl
  | some ptrs =>
    have hrun : (enterReadFrameValue inst rbp >>= fun value => do
        if ← cpuHasException then return none
        k value).run viewOp cpu = (k (loadValue cpu.memory.host ptrs)).run viewOp cpu := by
      rw [Program.run_bind, run_read_granted hm hexc hwide hptrs]
      dsimp only
      rw [Program.run_bind, run_cpuHasException, hexc]
      rfl
    exact (hk ptrs hptrs).congr hrun

/-- The loop over the outer frames reads all of them, if it may. -/
theorem yields_outerFrames (hm : ManagerOk cpu.memory) (hexc : cpu.context.hasException = false)
    (hwide : ¬ inst.Narrow) (n : ℕ) : ∀ rbp sp, Yields (enterOuterFrames inst n rbp sp) cpu
      ((inst.frames n rbp).mapM (cpu.granted inst false) >>= fun reads =>
        some ((inst.slots n sp).zip (reads.map (loadValue cpu.memory.host)),
          inst.slotBelow^[n] sp)) := by
  induction n with
  | zero => exact fun _ _ => rfl
  | succ n ih =>
    intro rbp sp
    have hframes : (inst.frames (n + 1) rbp).mapM (cpu.granted inst false) =
        (cpu.granted inst false (truncateTo inst.addressSize (inst.outer rbp)) >>= fun ptrs =>
          (inst.frames n (inst.outer rbp)).mapM (cpu.granted inst false) >>= fun rest =>
            pure (ptrs :: rest)) := List.mapM_cons
    rw [hframes, bind_assoc]
    refine Yields.read hm hexc hwide fun ptrs _ => ?_
    -- the value of this frame stands before those of the outer ones
    rw [bind_assoc]
    exact (ih (inst.outer rbp) (inst.slotBelow sp)).map rfl fun rest => rfl

/-- The pushes behind that of `RBP`. -/
theorem yields_display (hm : ManagerOk cpu.memory) (hexc : cpu.context.hasException = false)
    (hwide : ¬ inst.Narrow) (hlevel : inst.nestingLevel ≠ 0) (rbp frame : U64) :
    Yields (enterDisplay inst rbp frame) cpu
      ((inst.frames (inst.nestingLevel - 1) rbp).mapM (cpu.granted inst false) >>= fun reads =>
        some ((inst.slots (inst.nestingLevel - 1) frame).zip
            (reads.map (loadValue cpu.memory.host)) ++
          [(inst.slotBelow (inst.slotBelow^[inst.nestingLevel - 1] frame), frame)],
          inst.slotBelow (inst.slotBelow^[inst.nestingLevel - 1] frame))) := by
  unfold enterDisplay
  rw [if_neg hlevel]
  exact (yields_outerFrames hm hexc hwide (inst.nestingLevel - 1) rbp frame).map rfl fun _ => rfl

/-- The slots of the pushes. -/
theorem yields_enterResolve (hexc : cpu.context.hasException = false) (pushes : List (U64 × U64)) :
    Yields (enterResolve inst.valueSize pushes) cpu
      ((pushes.map Prod.fst).mapM (cpu.granted inst true)) := by
  induction pushes with
  | nil => rfl
  | cons push pushes ih =>
    have hslot : Yields (cpuResolveStackSlotWrite push.1 inst.valueSize 0) cpu
        (cpu.granted inst true push.1) := by
      cases hptrs : cpu.granted inst true push.1 with
      | none =>
        obtain ⟨a, ha⟩ := granted_eq_none.mp hptrs
        refine ⟨cpu.refused true a, ?_, failed_refused hexc (operandPtrs_error _ ha)⟩
        rw [run_resolveSlot hexc, ha]
      | some ptrs =>
        show (cpuResolveStackSlotWrite push.1 inst.valueSize 0).run viewOp cpu = (some ptrs, cpu)
        rw [run_resolveSlot hexc, granted_eq_some.mp hptrs]
    rw [List.map_cons, List.mapM_cons]
    exact hslot.bind rfl fun ptrs _ => ih.bind rfl fun rest _ => rfl

/-- The pushes store their values, each through its pointers. -/
theorem run_enterCommit (size : ℕ) (pushes : List (U64 × U64)) :
    ∀ (ptrs : List (List HostPtr)) (cpu : Cpu),
      (enterCommit size pushes ptrs).run viewOp cpu =
        ((), cpu.setHost (writeAll storeBytes cpu.memory.host (ptrs.zip (pushes.map Prod.snd)))) := by
  have hnotify : ∀ address value (c : Cpu),
      (perform (.notify .memWrite address size value)).run viewOp c = ((), c) := fun _ _ _ => rfl
  induction pushes with
  | nil =>
    intro ptrs cpu
    cases ptrs <;> rfl
  | cons push pushes ih =>
    intro ptrs cpu
    cases ptrs with
    | nil => rfl
    | cons slot ptrs =>
      unfold enterCommit cpuCommitStackSlotWrite
      rw [Program.run_bind, Program.run_bind, hnotify]
      dsimp only
      rw [run_storeValue]
      dsimp only
      rw [ih]
      rfl

/-! ## States of a frame -/

theorem atFrame_self (host : HostMemory) :
    cpu.atFrame inst host (cpu.context.regs regRbp) (cpu.context.regs regRsp) =
      cpu.setHost host := by
  unfold Cpu.atFrame
  rw [stackWrite_self, Function.update_eq_self, Function.update_eq_self]
  rfl

theorem atFrame_rsp (host : HostMemory) (rbp sp : U64) :
    (cpu.atFrame inst host rbp sp).context.regs regRsp =
      stackWrite inst.addressSize (cpu.context.regs regRsp) sp := by
  unfold Cpu.atFrame
  dsimp only
  rw [Function.update_self]

theorem atFrame_rbp (host : HostMemory) (rbp sp : U64) :
    (cpu.atFrame inst host rbp sp).context.regs regRbp = rbp := by
  have hne : regRbp ≠ regRsp := by decide
  unfold Cpu.atFrame
  dsimp only
  rw [Function.update_of_ne hne, Function.update_self]

/-- A step of the stack pointer. -/
theorem run_setStack_atFrame (host : HostMemory) (rbp sp value : U64) :
    (modifyContext fun ctx => cpuSetStackPointerValue ctx inst.addressSize value).run viewOp
      (cpu.atFrame inst host rbp sp) = ((), cpu.atFrame inst host rbp value) := by
  rw [run_modifyContext]
  have hregs : (cpuSetStackPointerValue (cpu.atFrame inst host rbp sp).context inst.addressSize
      value).regs = (cpu.atFrame inst host rbp value).context.regs := by
    rw [cpuSetStackPointerValue_eq]
    unfold Cpu.atFrame
    dsimp only
    rw [Function.update_self, stackWrite_stackWrite, Function.update_idem]
  have hctx : cpuSetStackPointerValue (cpu.atFrame inst host rbp sp).context inst.addressSize value =
      (cpu.atFrame inst host rbp value).context := by
    rw [cpuSetStackPointerValue_eq] at hregs ⊢
    dsimp only at hregs ⊢
    rw [hregs]
    rfl
  rw [hctx]
  rfl

/-- A write of `RBP`. -/
theorem run_setRbp_atFrame (host : HostMemory) (rbp sp : U64) (f : U64 → U64) :
    (modifyContext fun ctx =>
      { ctx with regs := Function.update ctx.regs regRbp (f (ctx.regs regRbp)) }).run viewOp
      (cpu.atFrame inst host rbp sp) = ((), cpu.atFrame inst host (f rbp) sp) := by
  have hne : regRbp ≠ regRsp := by decide
  rw [run_modifyContext]
  have hregs : Function.update (cpu.atFrame inst host rbp sp).context.regs regRbp
      (f ((cpu.atFrame inst host rbp sp).context.regs regRbp)) =
        (cpu.atFrame inst host (f rbp) sp).context.regs := by
    unfold Cpu.atFrame
    dsimp only
    rw [Function.update_of_ne hne, Function.update_self, Function.update_comm hne.symm,
      Function.update_idem]
  rw [hregs]
  rfl

/-- The registers behind `ENTER`. -/
theorem run_enterFinish (host : HostMemory) (rbp sp frame currentSp : U64) :
    (enterFinish inst frame currentSp).run viewOp (cpu.atFrame inst host rbp sp) =
      ((), cpu.atFrame inst host (regMerge inst.operandSize rbp frame)
        (enterSubStackPointerValue inst.addressSize currentSp (inst.allocSize.setWidth 64))) := by
  have hrbp := @run_setRbp_atFrame cpu inst host rbp sp
    fun old => regMerge inst.operandSize old frame
  unfold enterFinish
  rw [Program.run_bind]
  unfold setReg
  dsimp only at hrbp ⊢
  rw [hrbp]
  exact run_setStack_atFrame host _ sp _

/-! ## ENTER at once -/

/-- A part ends in a CPU, or in a fault that leaves the stack as it was. -/
def FinishesIn (p : CpuProgram Unit) (cpu : Cpu) : Option Cpu → Prop
  | some c => (p.run viewOp cpu).2 = c
  | none => cpu.Failed (p.run viewOp cpu).2

theorem FinishesIn.getContext {k : CpuContext → CpuProgram Unit} {e : Option Cpu}
    (h : FinishesIn (k cpu.context) cpu e) : FinishesIn (Cpueaxh.getContext >>= k) cpu e := h

theorem Yields.finish {α : Type} {p : CpuProgram (Option α)} {k : Option α → CpuProgram Unit}
    {e : Option α} {f : α → Option Cpu} (hp : Yields p cpu e) (hnone : k none = pure ())
    (hsome : ∀ a, e = some a → FinishesIn (k (some a)) cpu (f a)) :
    FinishesIn (p >>= k) cpu (e >>= f) := by
  cases e with
  | none =>
    obtain ⟨c, hrun, hfailed⟩ := hp
    show cpu.Failed ((p >>= k).run viewOp cpu).2
    rw [Program.run_bind, hrun, hnone]
    exact hfailed
  | some a =>
    have hrun : (p >>= k).run viewOp cpu = (k (some a)).run viewOp cpu := by
      rw [Program.run_bind, hp]
    have hk := hsome a rfl
    show FinishesIn (p >>= k) cpu (f a)
    unfold FinishesIn at hk ⊢
    rw [hrun]
    exact hk

/-- `ENTER` resolves its pushes when it has read all frame pointers. -/
theorem finishes_enter (hexc : cpu.context.hasException = false) (hwide : ¬ inst.Narrow)
    {display : Option (List (U64 × U64) × U64)}
    (h : Yields (enterDisplay inst (cpu.context.regs regRbp) (cpu.newFrame inst)) cpu display) :
    FinishesIn (executeEnterWithDecoded inst) cpu (display >>= fun d =>
      (cpu.newFrame inst :: d.1.map Prod.fst).mapM (cpu.granted inst true) >>= fun ptrs =>
          some (cpu.atFrame inst (writeAll storeBytes cpu.memory.host
              (ptrs.zip (getReg inst.operandSize cpu.context regRbp :: d.1.map Prod.snd)))
            (regMerge inst.operandSize (cpu.context.regs regRbp) (cpu.newFrame inst))
            (enterSubStackPointerValue inst.addressSize d.2 (inst.allocSize.setWidth 64)))) := by
  unfold FrameInst.Narrow at hwide
  unfold executeEnterWithDecoded
  rw [if_neg hwide]
  apply FinishesIn.getContext
  refine h.finish rfl fun d _ => ?_
  refine (yields_enterResolve hexc _).finish rfl fun ptrs _ => ?_
  show (Program.run viewOp _ cpu).2 = _
  dsimp only
  rw [Program.run_bind, run_enterCommit]
  dsimp only
  rw [← @atFrame_self cpu inst]
  exact congrArg Prod.snd (run_enterFinish _ _ _ _ _)

theorem some_bind {α β : Type} (a : α) (f : α → Option β) : (some a >>= f) = f a := rfl

theorem none_bind {α β : Type} (f : α → Option β) : (none >>= f) = none := rfl

theorem bind_eq_some {α β : Type} {e : Option α} {f : α → Option β} {b : β} :
    (e >>= f) = some b ↔ ∃ a, e = some a ∧ f a = some b := Option.bind_eq_some_iff

theorem bind_none {α β : Type} (e : Option α) : (e >>= fun _ => (none : Option β)) = none := by
  cases e with
  | none => rfl
  | some a => rfl

theorem length_of_mapM {α β : Type} {f : α → Option β} {l : List α} :
    ∀ {r : List β}, l.mapM f = some r → r.length = l.length := by
  induction l with
  | nil =>
    intro r h
    cases h
    rfl
  | cons a l ih =>
    intro r h
    rw [List.mapM_cons] at h
    obtain ⟨b, -, h⟩ := bind_eq_some.mp h
    obtain ⟨rest, hrest, hcons⟩ := bind_eq_some.mp h
    cases hcons
    rw [List.length_cons, List.length_cons, ih hrest]

theorem length_frames (n : ℕ) : ∀ rbp, (inst.frames n rbp).length = n := by
  induction n with
  | zero => exact fun _ => rfl
  | succ n ih =>
    intro rbp
    exact congrArg (· + 1) (ih _)

theorem length_slots (n : ℕ) : ∀ sp, (inst.slots n sp).length = n := by
  induction n with
  | zero => exact fun _ => rfl
  | succ n ih =>
    intro sp
    exact congrArg (· + 1) (ih _)

/-- The writes of copies, by their slots and by what is read for them. -/
theorem values_zip {host : HostMemory} {reads : List (List HostPtr)} :
    ∀ {writes : List (List HostPtr)}, values loadValue host (reads.zip writes) =
      writes.zip (reads.map (loadValue host)) := by
  induction reads with
  | nil =>
    intro writes
    rw [List.map_nil, List.zip_nil_right]
    rfl
  | cons read reads ih =>
    intro writes
    cases writes with
    | nil => rfl
    | cons write writes =>
      exact congrArg ((write, loadValue host read) :: ·) (@ih writes)

theorem mapM_singleton {α β : Type} (f : α → Option β) (a : α) :
    [a].mapM f = f a >>= fun b => some [b] := by
  rw [List.mapM_cons]
  rfl

/-- The last push of a nested frame. -/
theorem lastSlot_eq (hlevel : inst.nestingLevel ≠ 0) :
    inst.slotBelow (inst.slotBelow^[inst.nestingLevel - 1] (cpu.newFrame inst)) =
      inst.slotBelow^[inst.pushCount] (truncateTo inst.addressSize (cpu.context.regs regRsp)) := by
  have hcount : inst.pushCount = inst.nestingLevel - 1 + 1 + 1 := by
    unfold FrameInst.pushCount
    rw [if_neg hlevel]
    omega
  rw [hcount, Function.iterate_succ_apply']
  rfl

/-- **ENTER completes** exactly if all pointers of the frame are granted. -/
theorem finishes_framePtrs (hm : ManagerOk cpu.memory) (hexc : cpu.context.hasException = false) :
    FinishesIn (executeEnterWithDecoded inst) cpu ((cpu.framePtrs inst) >>= fun ptrs =>
      some (cpu.entered inst (ptrs.atOnce cpu.memory.host
        (getReg inst.operandSize cpu.context regRbp) (cpu.newFrame inst)))) := by
  unfold Cpu.framePtrs
  by_cases hwide : inst.Narrow
  · have hrun : (executeEnterWithDecoded inst).run viewOp cpu = ((), cpu.raised .gp 0) := by
      unfold FrameInst.Narrow at hwide
      unfold executeEnterWithDecoded
      rw [if_pos hwide]
      rfl
    rw [if_pos hwide]
    show cpu.Failed ((executeEnterWithDecoded inst).run viewOp cpu).2
    rw [hrun]
    exact failed_raised hexc _ _
  rw [if_neg hwide]
  by_cases hlevel : inst.nestingLevel = 0
  · have hdisplay : Yields (enterDisplay inst (cpu.context.regs regRbp) (cpu.newFrame inst)) cpu
        (some ([], cpu.newFrame inst)) := by
      unfold enterDisplay
      rw [if_pos hlevel]
      rfl
    have hfinish := finishes_enter hexc hwide hdisplay
    have hcount : inst.pushCount = 1 := if_pos hlevel
    unfold Cpu.entered
    rw [hcount]
    simp only [Cpu.displayPtrs, if_pos hlevel]
    rw [some_bind, List.map_nil, mapM_singleton] at hfinish
    cases hsaved : cpu.granted inst true (cpu.newFrame inst) with
    | none =>
      rw [hsaved] at hfinish
      exact hfinish
    | some saved =>
      rw [hsaved] at hfinish
      exact hfinish
  · have hfinish := finishes_enter hexc hwide
      (yields_display hm hexc hwide hlevel (cpu.context.regs regRbp) (cpu.newFrame inst))
    simp only [Cpu.displayPtrs, if_neg hlevel, Cpu.copyPtrs]
    cases hreads : (inst.frames (inst.nestingLevel - 1) (cpu.context.regs regRbp)).mapM
        (cpu.granted inst false) with
    | none =>
      rw [hreads] at hfinish
      simp only [none_bind, bind_none] at hfinish ⊢
      exact hfinish
    | some reads =>
      have hlength : (inst.slots (inst.nestingLevel - 1) (cpu.newFrame inst)).length =
          (reads.map (loadValue cpu.memory.host)).length := by
        rw [length_slots, List.length_map, length_of_mapM hreads, length_frames]
      rw [hreads] at hfinish
      simp only [some_bind, List.map_append, List.map_fst_zip hlength.le,
        List.map_snd_zip hlength.ge, List.mapM_append, List.mapM_cons, List.map_cons,
        List.map_nil, List.mapM_nil] at hfinish ⊢
      cases hsaved : cpu.granted inst true (cpu.newFrame inst) with
      | none =>
        rw [hsaved] at hfinish
        exact hfinish
      | some saved =>
        rw [hsaved] at hfinish
        cases hwrites : (inst.slots (inst.nestingLevel - 1) (cpu.newFrame inst)).mapM
            (cpu.granted inst true) with
        | none =>
          rw [hwrites] at hfinish
          exact hfinish
        | some writes =>
          rw [hwrites] at hfinish
          cases hlast : cpu.granted inst true
              (inst.slotBelow (inst.slotBelow^[inst.nestingLevel - 1] (cpu.newFrame inst))) with
          | none =>
            rw [hlast] at hfinish
            exact hfinish
          | some last =>
            rw [hlast] at hfinish
            have hzip : writes.length = (reads.map (loadValue cpu.memory.host)).length := by
              rw [← hlength, length_of_mapM hwrites]
            simp only [some_bind, Option.pure_def, List.zip_cons_cons, List.zip_append hzip,
              ← values_zip] at hfinish
            rw [lastSlot_eq hlevel] at hfinish
            exact hfinish

/-! ## ENTER level by level -/

/-- A part ends in a CPU without an exception, or with an exception. -/
def Reaches (p : CpuProgram Unit) (cpu : Cpu) : Option Cpu → Prop
  | some c => p.run viewOp cpu = ((), c) ∧ c.context.hasException = false
  | none => (p.run viewOp cpu).2.context.hasException = true

theorem Reaches.congr {p q : CpuProgram Unit} {c c' : Cpu} {e : Option Cpu} (h : Reaches q c' e)
    (hrun : p.run viewOp c = q.run viewOp c') : Reaches p c e := by
  unfold Reaches at h ⊢
  rw [hrun]
  exact h

/-- A part, and another one unless there is an exception. -/
theorem Reaches.bind {p q : CpuProgram Unit} {c : Cpu} {e : Option Cpu} {f : Cpu → Option Cpu}
    (hp : Reaches p c e) (hq : ∀ c', e = some c' → Reaches q c' (f c')) :
    Reaches (do
      p
      if ← cpuHasException then return ()
      q) c (e >>= f) := by
  cases e with
  | none =>
    have hpending : (p.run viewOp c).2.context.hasException = true := hp
    show (Program.run viewOp _ c).2.context.hasException = true
    rw [Program.run_bind, Program.run_bind, run_cpuHasException, hpending]
    exact hpending
  | some c' =>
    obtain ⟨hrun, hclear⟩ := id hp
    refine (hq c' rfl).congr ?_
    rw [Program.run_bind, hrun]
    dsimp only
    rw [Program.run_bind, run_cpuHasException, hclear]
    rfl

theorem Reaches.getContext {k : CpuContext → CpuProgram Unit} {c : Cpu} {e : Option Cpu}
    (h : Reaches (k c.context) c e) : Reaches (Cpueaxh.getContext >>= k) c e := h

/-- Stores keep the tables of the memory. -/
theorem managerOk_storeBytes (ptrs : List HostPtr) : ∀ {mgr : MemoryManager} {host : HostMemory}
    {value : U64}, ManagerOk (mgr.setHost host) →
      ManagerOk (mgr.setHost (storeBytes host ptrs value)) := by
  induction ptrs with
  | nil => exact fun hm => hm
  | cons p rest ih =>
    intro mgr host value hm
    exact ih (managerOk_write hm p _)

theorem managerOk_inTurn (copies : List (List HostPtr × List HostPtr)) :
    ∀ {mgr : MemoryManager} {host : HostMemory}, ManagerOk (mgr.setHost host) →
      ManagerOk (mgr.setHost (Copies.inTurn loadValue storeBytes host copies)) := by
  induction copies with
  | nil => exact fun hm => hm
  | cons copy copies ih =>
    intro mgr host hm
    exact ih (managerOk_storeBytes copy.2 hm)

/-- The copies of one more outer frame pointer. -/
theorem copyPtrs_succ (n : ℕ) (rbp sp : U64) : cpu.copyPtrs inst (n + 1) rbp sp =
    (cpu.granted inst false (truncateTo inst.addressSize (inst.outer rbp)) >>= fun source =>
      cpu.granted inst true (inst.slotBelow sp) >>= fun slot =>
        cpu.copyPtrs inst n (inst.outer rbp) (inst.slotBelow sp) >>= fun copies =>
          some ((source, slot) :: copies)) := by
  unfold Cpu.copyPtrs
  simp only [FrameInst.frames, FrameInst.slots, List.mapM_cons, bind_assoc]
  cases cpu.granted inst false (truncateTo inst.addressSize (inst.outer rbp)) with
  | none => rfl
  | some source =>
    cases cpu.granted inst true (inst.slotBelow sp) with
    | none =>
      -- the reads come first here, and there is nothing to push
      cases (inst.frames n (inst.outer rbp)).mapM (cpu.granted inst false) <;> rfl
    | some slot =>
      cases (inst.frames n (inst.outer rbp)).mapM (cpu.granted inst false) with
      | none => rfl
      | some reads =>
        cases (inst.slots n (inst.slotBelow sp)).mapM (cpu.granted inst true) <;> rfl

section Sequential

variable (hsized : inst.Sized) (hwide : ¬ inst.Narrow) (hexc : cpu.context.hasException = false)

include hsized hwide hexc

theorem reaches_push {host : HostMemory} (hm : ManagerOk (cpu.memory.setHost host))
    (rbp sp value : U64) :
    Reaches (enterPush inst value) (cpu.atFrame inst host rbp sp)
      (cpu.granted inst true (inst.slotBelow sp) >>= fun ptrs =>
        some (cpu.atFrame inst (storeBytes host ptrs value) rbp (inst.slotBelow sp))) := by
  have hslot : enterSubStackPointerValue inst.addressSize
      (truncateTo inst.addressSize ((cpu.atFrame inst host rbp sp).context.regs regRsp))
      (BitVec.ofNat 64 inst.valueSize) = inst.slotBelow sp := by
    unfold FrameInst.slotBelow enterSubStackPointerValue
    rw [atFrame_rsp, truncateTo_stackWrite, truncateTo_sub _ hsized.address]
  have hclear : (cpu.atFrame inst host rbp sp).context.hasException = false := hexc
  have hmemory : ManagerOk (cpu.atFrame inst host rbp sp).memory := hm
  unfold FrameInst.Narrow at hwide
  unfold enterPush
  rw [if_neg hwide, ← @granted_atFrame cpu inst host rbp sp]
  have hwrite := run_writeMemory hmemory hclear (@valueSize_pos inst) (inst.slotBelow sp) value
  cases hptrs : (cpu.atFrame inst host rbp sp).granted inst true (inst.slotBelow sp) with
  | none =>
    obtain ⟨a, ha⟩ := granted_eq_none.mp hptrs
    rw [ha] at hwrite
    have hpending := refused_hasException hclear (operandPtrs_error _ ha)
    show (Program.run viewOp _ _).2.context.hasException = true
    rw [Program.run_bind, run_getContext]
    dsimp only
    rw [hslot, Program.run_bind, hwrite]
    dsimp only
    rw [Program.run_bind, run_cpuHasException, hpending]
    exact hpending
  | some ptrs =>
    rw [granted_eq_some.mp hptrs] at hwrite
    refine ⟨?_, hexc⟩
    have hstored : (writeMemory inst.valueSize (inst.slotBelow sp) value).run viewOp
        (cpu.atFrame inst host rbp sp) =
          ((), cpu.atFrame inst (storeBytes host ptrs value) rbp sp) := hwrite
    have hstill : (cpu.atFrame inst (storeBytes host ptrs value) rbp sp).context.hasException =
        false := hexc
    rw [Program.run_bind, run_getContext]
    dsimp only
    rw [hslot, Program.run_bind, hstored]
    dsimp only
    rw [Program.run_bind, run_cpuHasException, hstill]
    exact run_setStack_atFrame _ rbp sp _

/-- A read and a push for one outer frame pointer. -/
theorem reaches_copyFrame {host : HostMemory} (hm : ManagerOk (cpu.memory.setHost host))
    (rbp sp : U64) :
    Reaches (enterCopyFrame inst) (cpu.atFrame inst host rbp sp)
      (cpu.granted inst false (truncateTo inst.addressSize (inst.outer rbp)) >>= fun source =>
        cpu.granted inst true (inst.slotBelow sp) >>= fun slot =>
          some (cpu.atFrame inst (storeBytes host slot (loadValue host source)) (inst.outer rbp)
            (inst.slotBelow sp))) := by
  have hclear : (cpu.atFrame inst host (inst.outer rbp) sp).context.hasException = false := hexc
  have hmemory : ManagerOk (cpu.atFrame inst host (inst.outer rbp) sp).memory := hm
  have hstep : (modifyContext fun ctx =>
      let rbp := enterSubFramePointerValue (ctx.regs regRbp) inst.operandSize
      { ctx with regs := Function.update ctx.regs regRbp rbp }).run viewOp
        (cpu.atFrame inst host rbp sp) = ((), cpu.atFrame inst host (inst.outer rbp) sp) :=
    run_setRbp_atFrame host rbp sp inst.outer
  have hframe : (cpu.atFrame inst host (inst.outer rbp) sp).context.regs regRbp =
      inst.outer rbp := atFrame_rbp host _ sp
  unfold enterCopyFrame
  dsimp only at hstep ⊢
  rw [← @granted_atFrame cpu inst host (inst.outer rbp) sp]
  cases hptrs : (cpu.atFrame inst host (inst.outer rbp) sp).granted inst false
      (truncateTo inst.addressSize (inst.outer rbp)) with
  | none =>
    obtain ⟨c, hread, hfailed⟩ := run_read_refused hmemory hclear hwide hptrs
    show (Program.run viewOp _ _).2.context.hasException = true
    rw [Program.run_bind, hstep]
    dsimp only
    rw [Program.run_bind, run_getContext]
    dsimp only
    rw [hframe, Program.run_bind, hread]
    dsimp only
    rw [Program.run_bind, run_cpuHasException, hfailed.pending]
    exact hfailed.pending
  | some source =>
    have hread := run_read_granted hmemory hclear hwide hptrs
    refine (reaches_push hsized hwide hexc hm (inst.outer rbp) sp (loadValue host source)).congr ?_
    rw [Program.run_bind, hstep]
    dsimp only
    rw [Program.run_bind, run_getContext]
    dsimp only
    rw [hframe, Program.run_bind, hread]
    dsimp only
    rw [Program.run_bind, run_cpuHasException, hclear]
    rfl

/-- The outer frame pointers are copied in turn. -/
theorem reaches_copyFrames (n : ℕ) : ∀ {host : HostMemory}
    (_ : ManagerOk (cpu.memory.setHost host)) (rbp sp : U64),
    Reaches (enterCopyFrames inst n) (cpu.atFrame inst host rbp sp)
      (cpu.copyPtrs inst n rbp sp >>= fun copies =>
        some (cpu.atFrame inst (Copies.inTurn loadValue storeBytes host copies)
          (inst.outer^[n] rbp) (inst.slotBelow^[n] sp))) := by
  induction n with
  | zero =>
    intro host _ rbp sp
    exact ⟨rfl, hexc⟩
  | succ n ih =>
    intro host hm rbp sp
    have hloop := (reaches_copyFrame hsized hwide hexc hm rbp sp).bind (q := enterCopyFrames inst n)
      (f := fun c => cpu.copyPtrs inst n (inst.outer rbp) (inst.slotBelow sp) >>= fun copies =>
        some (cpu.atFrame inst (Copies.inTurn loadValue storeBytes c.memory.host copies)
          (inst.outer^[n] (inst.outer rbp)) (inst.slotBelow^[n] (inst.slotBelow sp)))) ?_
    · rw [copyPtrs_succ]
      simp only [bind_assoc, some_bind] at hloop ⊢
      exact hloop
    · intro c hc
      -- the state of the turn has its bytes, which the rest begins with
      obtain ⟨source, -, hc⟩ := bind_eq_some.mp hc
      obtain ⟨slot, -, hc⟩ := bind_eq_some.mp hc
      obtain rfl := Option.some.inj hc
      exact ih (managerOk_storeBytes slot hm) _ _

/-- The pushes behind that of `RBP`. -/
theorem reaches_display {host : HostMemory} (hm : ManagerOk (cpu.memory.setHost host))
    (saved : List HostPtr) (value : U64) :
    Reaches (enterSequentialDisplay inst (cpu.newFrame inst))
      (cpu.atFrame inst (storeBytes host saved value) (cpu.context.regs regRbp)
        (cpu.newFrame inst))
      (cpu.displayPtrs inst saved >>= fun ptrs =>
        some (cpu.atFrame inst (ptrs.inTurn host value (cpu.newFrame inst))
          (inst.outer^[inst.nestingLevel - 1] (cpu.context.regs regRbp))
          (inst.slotBelow^[inst.pushCount]
            (truncateTo inst.addressSize (cpu.context.regs regRsp))))) := by
  have hsaved : ManagerOk (cpu.memory.setHost (storeBytes host saved value)) :=
    managerOk_storeBytes saved hm
  unfold enterSequentialDisplay Cpu.displayPtrs
  by_cases hlevel : inst.nestingLevel = 0
  · have hcount : inst.pushCount = 1 := if_pos hlevel
    rw [if_pos hlevel, if_pos hlevel, hcount, hlevel]
    exact ⟨rfl, hexc⟩
  · rw [if_neg hlevel, if_neg hlevel, ← lastSlot_eq hlevel]
    have hpush := (reaches_copyFrames hsized hwide hexc (inst.nestingLevel - 1) hsaved
        (cpu.context.regs regRbp) (cpu.newFrame inst)).bind
      (q := enterPush inst (cpu.newFrame inst))
      (f := fun c => cpu.granted inst true
          (inst.slotBelow (inst.slotBelow^[inst.nestingLevel - 1] (cpu.newFrame inst))) >>=
        fun last => some (cpu.atFrame inst (storeBytes c.memory.host last (cpu.newFrame inst))
          (inst.outer^[inst.nestingLevel - 1] (cpu.context.regs regRbp))
          (inst.slotBelow (inst.slotBelow^[inst.nestingLevel - 1] (cpu.newFrame inst))))) ?_
    · simp only [bind_assoc, some_bind] at hpush ⊢
      exact hpush
    · intro c hc
      obtain ⟨copies, -, hc⟩ := bind_eq_some.mp hc
      obtain rfl := Option.some.inj hc
      exact reaches_push hsized hwide hexc (managerOk_inTurn copies hsaved) _ _ _

end Sequential

/-! ## The same registers -/

theorem truncateTo_slotBelow (h : inst.Sized) (sp : U64) :
    truncateTo inst.addressSize (inst.slotBelow sp) = inst.slotBelow sp := by
  have hzero : ∀ x : U64, x + 0 = x := BitVec.add_zero
  have hagain := truncateTo_truncateTo_add h.address (sp - BitVec.ofNat 64 inst.valueSize) 0
  rw [hzero, hzero] at hagain
  exact hagain

/-- The stack pointer is cut before it steps down. -/
theorem slotBelow_truncateTo (h : inst.Sized) (sp : U64) :
    inst.slotBelow (truncateTo inst.addressSize sp) = inst.slotBelow sp :=
  truncateTo_sub _ h.address _ _

theorem truncateTo_iterate (h : inst.Sized) {n : ℕ} (hn : n ≠ 0) (sp : U64) :
    truncateTo inst.addressSize (inst.slotBelow^[n] sp) = inst.slotBelow^[n] sp := by
  obtain ⟨m, rfl⟩ := Nat.exists_eq_succ_of_ne_zero hn
  rw [Function.iterate_succ_apply', truncateTo_slotBelow h]

/-- A write of `RBP` does not see how far the working `RBP` has stepped down. -/
theorem regMerge_outer (h : inst.Sized) (n : ℕ) : ∀ rbp value : U64,
    regMerge inst.operandSize (inst.outer^[n] rbp) value = regMerge inst.operandSize rbp value := by
  have hstep : ∀ rbp value : U64, regMerge inst.operandSize (inst.outer rbp) value =
      regMerge inst.operandSize rbp value := by
    intro rbp value
    unfold FrameInst.outer enterSubFramePointerValue
    rcases h.operand with hsize | hsize | hsize
    · have hmerge := regMerge_regMerge (Or.inl (rfl : 16 = 16)) rbp (rbp - 2) value
      rw [hsize]
      exact hmerge
    · rw [hsize]
      rfl
    · rw [hsize]
      rfl
  induction n with
  | zero => exact fun _ _ => rfl
  | succ n ih =>
    intro rbp value
    rw [Function.iterate_succ_apply, ih, hstep]

/-- **ENTER level by level completes** exactly if all pointers of the frame are granted. -/
theorem reaches_framePtrs (hsized : inst.Sized) (hm : ManagerOk cpu.memory)
    (hexc : cpu.context.hasException = false) :
    Reaches (enterSequential inst) cpu (cpu.framePtrs inst >>= fun ptrs =>
      some (cpu.entered inst (ptrs.inTurn cpu.memory.host
        (getReg inst.operandSize cpu.context regRbp) (cpu.newFrame inst)))) := by
  unfold Cpu.framePtrs enterSequential
  apply Reaches.getContext
  by_cases hwide : inst.Narrow
  · rw [if_pos hwide]
    have hpending := raised_pending hexc .gp 0
    have hpush : Reaches (enterPush inst (getReg inst.operandSize cpu.context regRbp)) cpu none := by
      unfold FrameInst.Narrow at hwide
      unfold enterPush
      rw [if_pos hwide]
      exact hpending
    exact hpush.bind (f := fun _ => none) fun _ hc => nomatch hc
  rw [if_neg hwide]
  have hself : cpu.atFrame inst cpu.memory.host (cpu.context.regs regRbp)
      (cpu.context.regs regRsp) = cpu := atFrame_self _
  have hslot : inst.slotBelow (cpu.context.regs regRsp) = cpu.newFrame inst :=
    (slotBelow_truncateTo hsized _).symm
  have hpush := @reaches_push cpu inst hsized hwide hexc cpu.memory.host hm
    (cpu.context.regs regRbp) (cpu.context.regs regRsp) (getReg inst.operandSize cpu.context regRbp)
  rw [hself, hslot] at hpush
  cases hsaved : cpu.granted inst true (cpu.newFrame inst) with
  | none =>
    rw [hsaved] at hpush
    exact hpush.bind (f := fun _ => none) fun _ hc => nomatch hc
  | some saved =>
    rw [hsaved] at hpush
    refine hpush.bind (f := fun _ => cpu.displayPtrs inst saved >>= fun ptrs =>
      some (cpu.entered inst (ptrs.inTurn cpu.memory.host
        (getReg inst.operandSize cpu.context regRbp) (cpu.newFrame inst)))) ?_
    intro c hc
    obtain rfl := Option.some.inj hc
    apply Reaches.getContext
    dsimp only
    rw [atFrame_rsp, truncateTo_stackWrite]
    have hframe : truncateTo inst.addressSize (cpu.newFrame inst) = cpu.newFrame inst :=
      truncateTo_slotBelow hsized _
    rw [hframe]
    have hdone := (@reaches_display cpu inst hsized hwide hexc cpu.memory.host hm saved
        (getReg inst.operandSize cpu.context regRbp)).bind
      (f := fun c => some (cpu.entered inst c.memory.host)) (q := do
        let ctx ← getContext
        enterFinish inst (cpu.newFrame inst) (truncateTo inst.addressSize (ctx.regs regRsp))) ?_
    · rw [bind_assoc] at hdone
      exact hdone
    · intro c hc
      obtain ⟨ptrs, -, hc⟩ := bind_eq_some.mp hc
      obtain rfl := Option.some.inj hc
      apply Reaches.getContext
      have hcount : inst.pushCount ≠ 0 := by
        unfold FrameInst.pushCount
        split_ifs <;> omega
      rw [atFrame_rsp, truncateTo_stackWrite, truncateTo_iterate hsized hcount]
      refine ⟨?_, hexc⟩
      rw [run_enterFinish, regMerge_outer hsized]
      rfl

/-! ## LEAVE -/

namespace Cpu

variable (cpu inst)

/-- `RBP` behind `ENTER` is the whole address of the frame: its bits above the operand size,
which `ENTER` does not write, are those of the address. -/
def HoldsFrame : Prop :=
  truncateTo inst.addressSize
    (regMerge inst.operandSize (cpu.context.regs regRbp) (cpu.newFrame inst)) = cpu.newFrame inst

/-- The slot of `RBP` is read through the pointers that it is written through.  They lead to
different bytes, to which no other push writes. -/
structure PlainFrame (ptrs : FramePtrs) : Prop where
  readable : cpu.granted inst false (cpu.newFrame inst) = some ptrs.saved
  distinct : ptrs.saved.Nodup
  backed : ∀ p ∈ ptrs.saved, (cpu.memory.host.read p).isSome = true
  apart : ∀ slot ∈ ptrs.copies.map Prod.snd ++ ptrs.last.toList, ∀ p ∈ ptrs.saved, p ∉ slot

/-- `RBP` has no bits that a write of the operand size clears. -/
def FitsFrame : Prop := inst.operandSize = 32 → (cpu.context.regs regRbp).toNat < 2 ^ 32

end Cpu

/-- `LEAVE` pops `RBP` at the address that it finds in it. -/
theorem reaches_leave (hwide : ¬ inst.Narrow) (hexc : cpu.context.hasException = false)
    {host : HostMemory} (hm : ManagerOk (cpu.memory.setHost host)) (rbp sp : U64) :
    Reaches (executeLeaveWithDecoded inst) (cpu.atFrame inst host rbp sp)
      (cpu.granted inst false (truncateTo inst.addressSize rbp) >>= fun ptrs =>
        some (cpu.atFrame inst host (regMerge inst.operandSize rbp (loadValue host ptrs))
          (truncateTo inst.addressSize (truncateTo inst.addressSize rbp +
            BitVec.ofNat 64 inst.valueSize)))) := by
  have hclear : (cpu.atFrame inst host rbp sp).context.hasException = false := hexc
  have hmemory : ManagerOk (cpu.atFrame inst host rbp sp).memory := hm
  have hvalue : leaveReadValue inst (truncateTo inst.addressSize rbp) =
      enterReadFrameValue inst rbp := rfl
  unfold executeLeaveWithDecoded
  apply Reaches.getContext
  dsimp only
  rw [atFrame_rbp, hvalue, ← @granted_atFrame cpu inst host rbp sp]
  cases hptrs : (cpu.atFrame inst host rbp sp).granted inst false
      (truncateTo inst.addressSize rbp) with
  | none =>
    obtain ⟨c, hread, hfailed⟩ := run_read_refused hmemory hclear hwide hptrs
    show (Program.run viewOp _ _).2.context.hasException = true
    rw [Program.run_bind, hread]
    dsimp only
    rw [Program.run_bind, run_cpuHasException, hfailed.pending]
    exact hfailed.pending
  | some ptrs =>
    have hread := run_read_granted hmemory hclear hwide hptrs
    have hrbp := @run_setRbp_atFrame cpu inst host rbp (truncateTo inst.addressSize
      (truncateTo inst.addressSize rbp + BitVec.ofNat 64 inst.valueSize))
      fun old => regMerge inst.operandSize old (loadValue host ptrs)
    refine ⟨?_, hexc⟩
    rw [Program.run_bind, hread]
    dsimp only
    rw [Program.run_bind, run_cpuHasException, hclear]
    dsimp only
    rw [if_neg Bool.false_ne_true, Program.run_bind, run_setStack_atFrame]
    exact hrbp

theorem stackWrite_eq_self_iff (size : ℕ) (old value : U64) :
    stackWrite size old value = old ↔ truncateTo size value = truncateTo size old := by
  constructor
  · intro h
    rw [← truncateTo_stackWrite size old value, h]
  · intro h
    rw [← stackWrite_truncateTo, h, stackWrite_truncateTo, stackWrite_self]

/-- The stack pointer is back exactly if `LEAVE` has found the address of the frame. -/
theorem leave_stackPointer (hsized : inst.Sized) :
    stackWrite inst.addressSize (cpu.context.regs regRsp)
        (truncateTo inst.addressSize (truncateTo inst.addressSize (regMerge inst.operandSize
          (cpu.context.regs regRbp) (cpu.newFrame inst)) + BitVec.ofNat 64 inst.valueSize)) =
      cpu.context.regs regRsp ↔ cpu.HoldsFrame inst := by
  have hback : cpu.context.regs regRsp = cpu.context.regs regRsp -
      BitVec.ofNat 64 inst.valueSize + BitVec.ofNat 64 inst.valueSize :=
    (BitVec.sub_add_cancel _ _).symm
  have hframe : truncateTo inst.addressSize (cpu.context.regs regRsp -
      BitVec.ofNat 64 inst.valueSize) = cpu.newFrame inst :=
    (slotBelow_truncateTo hsized _).symm
  rw [stackWrite_truncateTo, stackWrite_eq_self_iff, truncateTo_truncateTo_add hsized.address]
  rw [hback, truncateTo_add_inj hsized.address, hframe]
  exact Iff.rfl

/-- `RBP` is back exactly if it has no bits that the write clears. -/
theorem leave_rbp (hsized : inst.Sized) (between : U64) :
    regMerge inst.operandSize (regMerge inst.operandSize (cpu.context.regs regRbp) between)
        (getReg inst.operandSize cpu.context regRbp) = cpu.context.regs regRbp ↔
      cpu.FitsFrame inst := by
  unfold Cpu.FitsFrame getReg
  rw [regMerge_regMerge hsized.operand]
  rcases hsized.operand with hsize | hsize | hsize
  · rw [hsize]
    have hself : regMerge 16 (cpu.context.regs regRbp)
        (truncateTo 16 (cpu.context.regs regRbp)) = cpu.context.regs regRbp :=
      (stackWrite_truncateTo 16 _ _).trans (stackWrite_self 16 _)
    rw [hself]
    exact iff_of_true rfl fun h => absurd h (by decide)
  · have hlow : regMerge 32 (cpu.context.regs regRbp) (truncateTo 32 (cpu.context.regs regRbp)) =
        truncateTo 32 (cpu.context.regs regRbp) := by
      show (cpu.context.regs regRbp &&& 0xFFFFFFFF) &&& 0xFFFFFFFF = _
      rw [BitVec.and_assoc, BitVec.and_self]
      rfl
    rw [hsize, hlow, ← BitVec.toNat_inj, truncateTo_toNat (.inr (.inl rfl)), Nat.mod_eq_iff_lt
      (by decide)]
    exact ⟨fun h _ => h, fun h => h rfl⟩
  · rw [hsize]
    exact iff_of_true rfl fun h => absurd h (by decide)

/-- The slot of `RBP` still holds it behind all pushes. -/
theorem loadValue_saved (hsized : inst.Sized) {ptrs : FramePtrs}
    (hsaved : cpu.granted inst true (cpu.newFrame inst) = some ptrs.saved)
    (h : cpu.PlainFrame inst ptrs) (frame : U64) :
    loadValue (ptrs.atOnce cpu.memory.host (getReg inst.operandSize cpu.context regRbp) frame)
      ptrs.saved = getReg inst.operandSize cpu.context regRbp := by
  have hapart : ∀ w ∈ values loadValue cpu.memory.host ptrs.copies ++ ptrs.lastWrite frame,
      ∀ host, loadValue (storeBytes host w.1 w.2) ptrs.saved = loadValue host ptrs.saved := by
    intro w hw host
    have hslot : w.1 ∈ ptrs.copies.map Prod.snd ++ ptrs.last.toList := by
      unfold values FramePtrs.lastWrite at hw
      rw [List.mem_append] at hw ⊢
      rcases hw with hw | hw
      · obtain ⟨copy, hcopy, rfl⟩ := List.mem_map.mp hw
        exact .inl (List.mem_map.mpr ⟨copy, hcopy, rfl⟩)
      · obtain ⟨slot, hslot, rfl⟩ := List.mem_map.mp hw
        exact .inr hslot
    exact loadValue_congr fun p hp => read_storeBytes _ _ _ (h.apart _ hslot p hp)
  have hlength : ptrs.saved.length = inst.valueSize :=
    operandPtrs_length _ (granted_eq_some.mp hsaved)
  have hbits : 8 * inst.valueSize = inst.operandSize := by
    unfold FrameInst.valueSize
    rcases hsized.operand with hsize | hsize | hsize <;> rw [hsize] <;> rfl
  have hkept : loadValue (ptrs.atOnce cpu.memory.host
      (getReg inst.operandSize cpu.context regRbp) frame) ptrs.saved =
        loadValue (storeBytes cpu.memory.host ptrs.saved
          (getReg inst.operandSize cpu.context regRbp)) ptrs.saved :=
    read_writeAll loadValue storeBytes hapart
  rw [hkept]
  apply BitVec.eq_of_toNat_eq
  rw [loadValue_storeBytes _ _ _ h.distinct h.backed (by
    rw [hlength]
    have hle : inst.operandSize ≤ 64 := by
      rcases hsized.operand with hsize | hsize | hsize <;> omega
    omega), hlength, hbits]
  unfold getReg
  rw [truncateTo_toNat hsized.operand, Nat.mod_mod]

/-! ## The law -/

/-- What `ENTER` does, beside its definition level by level. -/
structure EnterOutcome (cpu : Cpu) (inst : FrameInst) (entered stepped : Cpu) : Prop where
  /-- Both of them complete, or none does. -/
  completes : entered.context.hasException = stepped.context.hasException
  /-- A fault of `ENTER` leaves the registers and the memory. -/
  unchanged : entered.context.hasException = true →
    entered.context.regs = cpu.context.regs ∧ entered.memory.host = cpu.memory.host
  registers : entered.context.hasException = false → entered.context.regs = stepped.context.regs
  /-- The memory is the same as long as each outer frame pointer is read as it was before. -/
  memory : entered.context.hasException = false →
    (∀ ptrs, cpu.framePtrs inst = some ptrs →
      ptrs.Keeps cpu.memory.host (getReg inst.operandSize cpu.context regRbp)) →
    entered.memory.host = stepped.memory.host

/-- What a `LEAVE` behind a completed `ENTER` does. -/
structure LeaveOutcome (cpu : Cpu) (inst : FrameInst) (left : Cpu) : Prop where
  stackPointer : left.context.hasException = false →
    (left.context.regs regRsp = cpu.context.regs regRsp ↔ cpu.HoldsFrame inst)
  framePointer : cpu.HoldsFrame inst →
    (∀ ptrs, cpu.framePtrs inst = some ptrs → cpu.PlainFrame inst ptrs) →
      left.context.hasException = false ∧
        (left.context.regs regRbp = cpu.context.regs regRbp ↔ cpu.FitsFrame inst)

theorem framePtrs_saved {ptrs : FramePtrs} (h : cpu.framePtrs inst = some ptrs) :
    ¬ inst.Narrow ∧ cpu.granted inst true (cpu.newFrame inst) = some ptrs.saved := by
  unfold Cpu.framePtrs at h
  split_ifs at h with hwide
  refine ⟨hwide, ?_⟩
  obtain ⟨saved, hsaved, h⟩ := bind_eq_some.mp h
  rw [hsaved]
  unfold Cpu.displayPtrs at h
  split_ifs at h with hlevel
  · obtain rfl := Option.some.inj h
    rfl
  · obtain ⟨copies, -, h⟩ := bind_eq_some.mp h
    obtain ⟨last, -, h⟩ := bind_eq_some.mp h
    obtain rfl := Option.some.inj h
    rfl

/-- `ENTER` and its definition, past the page cache. -/
theorem enterOutcome (hsized : inst.Sized) (hm : ManagerOk cpu.memory)
    (hexc : cpu.context.hasException = false) :
    EnterOutcome cpu inst ((executeEnterWithDecoded inst).run viewOp cpu).2
      ((enterSequential inst).run viewOp cpu).2 := by
  have hbatch := @finishes_framePtrs cpu inst hm hexc
  have hturns := reaches_framePtrs hsized hm hexc
  cases hptrs : cpu.framePtrs inst with
  | none =>
    rw [hptrs] at hbatch hturns
    have hfailed : cpu.Failed ((executeEnterWithDecoded inst).run viewOp cpu).2 := hbatch
    have hpending : ((enterSequential inst).run viewOp cpu).2.context.hasException = true := hturns
    refine ⟨hfailed.pending.trans hpending.symm, fun _ => ?_, fun h => ?_, fun h => ?_⟩
    · obtain ⟨exception, cr2, asked, hsame⟩ := hfailed.same
      rw [hsame]
      exact ⟨rfl, rfl⟩
    · exact absurd (h.symm.trans hfailed.pending) Bool.false_ne_true
    · exact absurd (h.symm.trans hfailed.pending) Bool.false_ne_true
  | some ptrs =>
    rw [hptrs] at hbatch hturns
    have hentered : ((executeEnterWithDecoded inst).run viewOp cpu).2 = _ := hbatch
    have hstepped := congrArg Prod.snd hturns.1
    rw [hentered, hstepped]
    refine ⟨rfl, fun h => ?_, fun _ => rfl, fun _ hkeeps => ?_⟩
    · exact absurd (hexc.symm.trans h) Bool.false_ne_true
    · exact (ptrs.inTurn_eq_atOnce (hkeeps ptrs hptrs) _).symm

/-- `LEAVE` behind a completed `ENTER`, past the page cache. -/
theorem leaveOutcome (hsized : inst.Sized) (hm : MemoryOk cpu.memory)
    (hexc : cpu.context.hasException = false) {c : Cpu}
    (hc : ((executeEnterWithDecoded inst).run viewOp cpu).2 = c)
    (hentered : c.context.hasException = false) :
    LeaveOutcome cpu inst ((executeLeaveWithDecoded inst).run viewOp c).2 := by
  have hbatch := @finishes_framePtrs cpu inst hm.manager hexc
  have hmemory := (run_viewOp (executeEnterWithDecoded inst) hm).2.ok'.manager
  cases hptrs : cpu.framePtrs inst with
  | none =>
    rw [hptrs] at hbatch
    have hfailed : cpu.Failed ((executeEnterWithDecoded inst).run viewOp cpu).2 := hbatch
    rw [hc] at hfailed
    exact absurd (hentered.symm.trans hfailed.pending) Bool.false_ne_true
  | some ptrs =>
    rw [hptrs] at hbatch
    have hstate : ((executeEnterWithDecoded inst).run viewOp cpu).2 = _ := hbatch
    obtain ⟨hwide, hsaved⟩ := framePtrs_saved hptrs
    rw [hstate] at hmemory
    rw [hc] at hstate
    have hleave := reaches_leave hwide hexc hmemory
      (regMerge inst.operandSize (cpu.context.regs regRbp) (cpu.newFrame inst))
      (enterSubStackPointerValue inst.addressSize
        (inst.slotBelow^[inst.pushCount] (truncateTo inst.addressSize (cpu.context.regs regRsp)))
        (inst.allocSize.setWidth 64))
    subst hstate
    cases hread : cpu.granted inst false (truncateTo inst.addressSize
        (regMerge inst.operandSize (cpu.context.regs regRbp) (cpu.newFrame inst))) with
    | none =>
      rw [hread] at hleave
      have hpending : ((executeLeaveWithDecoded inst).run viewOp (cpu.entered inst
          (ptrs.atOnce cpu.memory.host (getReg inst.operandSize cpu.context regRbp)
            (cpu.newFrame inst)))).2.context.hasException = true := hleave
      refine ⟨fun h => ?_, fun hholds hplain => ?_⟩
      · exact absurd (h.symm.trans hpending) Bool.false_ne_true
      · have hreadable := (hplain ptrs hptrs).readable
        unfold Cpu.HoldsFrame at hholds
        rw [hholds, hreadable] at hread
        cases hread
    | some source =>
      rw [hread] at hleave
      have hleft := congrArg Prod.snd hleave.1
      refine ⟨fun _ => ?_, fun hholds hplain => ⟨?_, ?_⟩⟩
      · rw [← leave_stackPointer hsized]
        unfold Cpu.entered
        rw [hleft, atFrame_rsp]
      · unfold Cpu.entered
        rw [hleft]
        exact hexc
      · have hreadable := (hplain ptrs hptrs).readable
        have hvalue := loadValue_saved hsized hsaved (hplain ptrs hptrs) (cpu.newFrame inst)
        unfold Cpu.HoldsFrame at hholds
        rw [hholds, hreadable] at hread
        obtain rfl := Option.some.inj hread
        unfold Cpu.entered
        rw [hleft, atFrame_rbp, hvalue]
        exact leave_rbp hsized _

/-- The decoders yield sizes that a stack has. -/
theorem sized_decoded (ctx : CpuContext) (immediate : U64) :
    (FrameInst.mk (decodeEnterOperandSize ctx) (decodeEnterStackAddrSize ctx) immediate).Sized := by
  constructor
  · unfold decodeEnterOperandSize CpuContext.frameOperandSize
    dsimp only
    split_ifs <;> simp
  · unfold decodeEnterStackAddrSize CpuContext.frameStackAddrSize
    dsimp only
    split_ifs <;> simp

/-- **ENTER is its definition level by level**, at every size, level and state: they complete
together, with the same registers, and a fault of `ENTER` leaves the stack as it was.  The memory
is the same as long as each outer frame pointer is read as it was before `ENTER`.  A `LEAVE` of
the same sizes moves the stack pointer back exactly if `RBP` holds the whole address of the
frame; then it restores `RBP` from a plain slot exactly if the bits that it clears are zero. -/
theorem enter_leave_law (hm : MemoryOk cpu.memory) (hexc : cpu.context.hasException = false)
    (hsized : inst.Sized) (leave : FrameInst) (hoperand : leave.operandSize = inst.operandSize)
    (haddress : leave.addressSize = inst.addressSize) :
    let entered := ((executeEnterWithDecoded inst).run cpuOp cpu).2
    EnterOutcome cpu inst entered ((enterSequential inst).run cpuOp cpu).2 ∧
      (entered.context.hasException = false →
        LeaveOutcome cpu inst ((executeLeaveWithDecoded leave).run cpuOp entered).2) := by
  intro entered
  have hentered : UpToCache entered _ := (run_viewOp (executeEnterWithDecoded inst) hm).2
  have hstepped := (run_viewOp (enterSequential inst) hm).2
  have houtcome := @enterOutcome cpu inst hsized hm.manager hexc
  constructor
  · constructor
    · rw [hentered.context_eq, hstepped.context_eq]
      exact houtcome.completes
    · rw [hentered.context_eq, hentered.host_eq]
      exact houtcome.unchanged
    · rw [hentered.context_eq, hstepped.context_eq]
      exact houtcome.registers
    · rw [hentered.context_eq, hentered.host_eq, hstepped.host_eq]
      exact houtcome.memory
  · intro hclear
    rw [hentered.context_eq] at hclear
    -- `LEAVE` does not look at the immediate
    have hsame : executeLeaveWithDecoded leave = executeLeaveWithDecoded inst := by
      cases leave
      cases inst
      subst hoperand haddress
      rfl
    have hleft := (run_viewOp_from (executeLeaveWithDecoded inst) hentered).2
    have hleave := leaveOutcome hsized hm hexc rfl hclear
    rw [hsame]
    constructor
    · rw [hleft.context_eq]
      exact hleave.stackPointer
    · rw [hleft.context_eq]
      exact hleave.framePointer

/-- A 64-bit CPU with both stack registers at one address, over zeros. -/
def frameCpu (rbp : U64) : Cpu :=
  hostCpu { initCpuContext false with
    regs := fun r => if r = regRsp then 0x2000 else if r = regRbp then rbp else 0 } fun _ => 0

/-- `ENTER 16, 2` and `LEAVE`. -/
theorem enter_leave_law_example :
    EnterOutcome (frameCpu 0x3000) ⟨64, 64, 0x20010⟩
        ((executeEnterWithDecoded ⟨64, 64, 0x20010⟩).run cpuOp (frameCpu 0x3000)).2
        ((enterSequential ⟨64, 64, 0x20010⟩).run cpuOp (frameCpu 0x3000)).2 ∧
      LeaveOutcome (frameCpu 0x3000) ⟨64, 64, 0x20010⟩
        ((executeLeaveWithDecoded ⟨64, 64, 0⟩).run cpuOp
          ((executeEnterWithDecoded ⟨64, 64, 0x20010⟩).run cpuOp (frameCpu 0x3000)).2).2 := by
  have hlaw := @enter_leave_law (frameCpu 0x3000) ⟨64, 64, 0x20010⟩ (memoryOk_hostCpu _ _) rfl
    (sized_decoded (frameCpu 0x3000).context 0x20010) ⟨64, 64, 0⟩ rfl rfl
  exact ⟨hlaw.1, hlaw.2 (by decide +kernel)⟩

/-- `ENTER 0, 2` reads the outer frame pointer before it pushes `RBP` to the same place, unlike
its definition, so that the bytes differ.  A `LEAVE` with an operand size prefix does not find the
address of the frame in `RBP`, so that the stack pointer does not come back. -/
theorem enter_leave_differs :
    (let entered := ((executeEnterWithDecoded ⟨64, 64, 0x20000⟩).run cpuOp (frameCpu 0x2000)).2
      let stepped := ((enterSequential ⟨64, 64, 0x20000⟩).run cpuOp (frameCpu 0x2000)).2
      entered.context.hasException = false ∧ stepped.context.hasException = false ∧
        entered.memory.host.read (.user 0x1FF1) = some 0 ∧
        stepped.memory.host.read (.user 0x1FF1) = some 0x20) ∧
    (let entered := ((executeEnterWithDecoded ⟨16, 64, 0⟩).run cpuOp (frameCpu 0x10000)).2
      let left := ((executeLeaveWithDecoded ⟨16, 64, 0⟩).run cpuOp entered).2
      entered.context.hasException = false ∧ left.context.hasException = false ∧
        left.context.regs regRsp = 0x12000) := by
  decide +kernel

end Cpueaxh
