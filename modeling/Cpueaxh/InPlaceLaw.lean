/-
# The law of instructions that change their operand in place

The path behind a `LOCK` prefix does what the plain one does, where the bytes of the operand lie
behind one another.  It asks for all accesses before it changes anything, so that a locked
instruction that is refused leaves nothing but its page fault behind.
-/
import Cpueaxh.InPlace
import Cpueaxh.BitTestLaw
import Cpueaxh.AccessTrace

namespace Cpueaxh

open HostMemory

/-! ## Words of a size -/

/-- A masked value is a word of the size. -/
theorem and_operandMask_eq (size : OperandWidth) (value : U64) :
    value &&& operandMask size = (value.setWidth size.bits).setWidth 64 := by
  have hle := size.le_sixtyFour
  apply BitVec.eq_of_getLsbD_eq
  intro i hi
  rw [BitVec.getLsbD_and, getLsbD_operandMask, BitVec.getLsbD_setWidth, BitVec.getLsbD_setWidth,
    decide_eq_true hi, Bool.true_and, Bool.and_comm]

theorem setWidth_and_operandMask (size : OperandWidth) (value : U64) :
    (value &&& operandMask size).setWidth size.bits = value.setWidth size.bits := by
  rw [and_operandMask_eq, BitVec.setWidth_setWidth_of_le _ size.le_sixtyFour, BitVec.setWidth_eq]

theorem and_operandMask_lt (size : OperandWidth) (value : U64) :
    (value &&& operandMask size).toNat < 2 ^ size.bits := by
  rw [and_operandMask_eq, BitVec.toNat_setWidth]
  exact lt_of_le_of_lt (Nat.mod_le _ _) (value.setWidth size.bits).isLt

/-- The complement of a word of a size. -/
theorem xor_operandMask {size : OperandWidth} {value : U64} (h : value.toNat < 2 ^ size.bits) :
    value ^^^ operandMask size = ~~~value &&& operandMask size := by
  have hmask := and_operandMask h
  rw [← hmask]
  apply BitVec.eq_of_getLsbD_eq
  intro i hi
  rw [BitVec.getLsbD_xor, BitVec.getLsbD_and, BitVec.getLsbD_and, BitVec.getLsbD_not,
    BitVec.getLsbD_and, decide_eq_true hi]
  cases value.getLsbD i <;> cases (operandMask size).getLsbD i <;> rfl

/-- Stores look at the bits of their bytes only. -/
theorem storeBytes_congr (ptrs : List HostPtr) : ∀ {host : HostMemory} {value value' : U64},
    (∀ i < 8 * ptrs.length, value.getLsbD i = value'.getLsbD i) →
      storeBytes host ptrs value = storeBytes host ptrs value' := by
  induction ptrs with
  | nil => exact fun _ => rfl
  | cons p rest ih =>
    intro host value value' h
    rw [List.length_cons] at h
    have hbyte : value.setWidth 8 = value'.setWidth 8 := by
      apply BitVec.eq_of_getLsbD_eq
      intro i hi
      rw [BitVec.getLsbD_setWidth, BitVec.getLsbD_setWidth, h i (by omega)]
    unfold storeBytes
    rw [hbyte]
    apply ih
    intro i hi
    rw [BitVec.getLsbD_ushiftRight, BitVec.getLsbD_ushiftRight, h (8 + i) (by omega)]

theorem storeBytes_operandMask {size : OperandWidth} {ptrs : List HostPtr}
    (hlength : ptrs.length = size.bits / 8) (host : HostMemory) (value : U64) :
    storeBytes host ptrs (value &&& operandMask size) = storeBytes host ptrs value := by
  have hbits := size.bits_eq_eight_mul
  apply storeBytes_congr
  intro i hi
  rw [BitVec.getLsbD_and, getLsbD_operandMask, decide_eq_true (by omega), Bool.and_true]

/-! ## What an instruction does with a value -/

/-- What an instruction makes of the value of its operand: the value that it stores, and the
change of the context. -/
structure InPlaceChange where
  stored : U64 → Option U64
  finish : U64 → CpuContext → CpuContext

/-- The source operand of `OR` and `XOR`. -/
def logicSource (imm : Option U64) (size : OperandWidth) (modrm : U8) (ctx : CpuContext) : U64 :=
  imm.getD (getRegister size ctx (decodeRegIndex ctx modrm))

/-- `OR` and `XOR`. -/
def logicChange (operation : U64 → U64 → U64) (size : OperandWidth) (src : U64) : InPlaceChange where
  stored old := some (operation src old &&& operandMask size)
  finish old ctx := ctx.keepMode (updateLogicFlags size ctx (operation src old &&& operandMask size))

/-- The instructions with one operand. -/
def unaryChange (callback : U64 → U64) (size : OperandWidth)
    (flags : CpuContext → BitVec size.bits → BitVec size.bits → CpuContext) : InPlaceChange where
  stored old := some (callback old &&& operandMask size)
  finish old ctx := ctx.keepMode (flags ctx (old.setWidth size.bits)
    ((callback old &&& operandMask size).setWidth size.bits))

/-- `XADD`. -/
def xaddChange (size : OperandWidth) (reg : Fin 16) (src : U64) : InPlaceChange where
  stored old := some ((old + src) &&& operandMask size)
  finish old ctx :=
    let ctx := ctx.keepMode (xaddComputeResult size ctx old src).2
    ctx.keepMode (setRegister size ctx reg old)

/-- `XCHG`. -/
def xchgChange (size : OperandWidth) (reg : Fin 16) (src : U64) : InPlaceChange where
  stored _ := some (src &&& operandMask size)
  finish old ctx := ctx.keepMode (setRegister size ctx reg old)

/-- `CMPXCHG`. -/
def cmpxchgChange (size : OperandWidth) (accumulator src : U64) : InPlaceChange where
  stored old := if accumulator = old then some src else none
  finish old ctx :=
    let ctx := ctx.keepMode (cmpxchgUpdateFlags size ctx accumulator old)
    if accumulator ≠ old then ctx.keepMode (setRegister size ctx regRax old) else ctx

/-- The change of each instruction. -/
def InPlaceOp.change (op : InPlaceOp) (size : OperandWidth) (modrm : U8) (ctx : CpuContext) :
    InPlaceChange :=
  let reg := decodeRegIndex ctx modrm
  match op with
  | or imm => logicChange cpuAtomicOrCallback size (logicSource imm size modrm ctx)
  | xor imm => logicChange cpuAtomicXorCallback size (logicSource imm size modrm ctx)
  | inc => unaryChange (cpuAtomicAddCallback 1) size (updateFlagsInc size)
  | dec => unaryChange (cpuAtomicSubCallback 1) size (updateFlagsDec size)
  | neg => unaryChange (fun old => 0 - old) size fun ctx src result => updateFlagsSub ctx 0 src result
  | not => unaryChange (fun old => ~~~old) size fun ctx _ _ => ctx
  | xadd => xaddChange size reg (getRegister size ctx reg)
  | xchg => xchgChange size reg (getRegister size ctx reg)
  | cmpxchg => cmpxchgChange size (getRegister size ctx regRax) (getRegister size ctx reg)

namespace Cpu

variable (cpu : Cpu)

/-- The CPU with the value behind some pointers changed. -/
def changed (change : InPlaceChange) (ptrs : List HostPtr) : Cpu :=
  let old := loadValue cpu.memory.host ptrs
  let host := match change.stored old with
    | some value => storeBytes cpu.memory.host ptrs value
    | none => cpu.memory.host
  (cpu.setHost host).edit (change.finish old)

/-- The bytes of an operand may be read and written. -/
def InPlace (address : U64) (size : OperandWidth) (ptrs : List HostPtr) : Prop :=
  cpu.operandPtrs false address (size.bits / 8) 0 = .ok ptrs ∧
    cpu.operandPtrs true address (size.bits / 8) 0 = .ok ptrs

end Cpu

variable {cpu : Cpu} {address : U64} {size : OperandWidth} {ptrs : List HostPtr}

theorem inPlace_length (h : cpu.InPlace address size ptrs) : ptrs.length = size.bits / 8 :=
  operandPtrs_length _ h.1

/-- The host memory behind a change. -/
theorem changed_host (cpu : Cpu) (change : InPlaceChange) (ptrs : List HostPtr) :
    (cpu.changed change ptrs).memory.host =
      ((change.stored (loadValue cpu.memory.host ptrs)).map
        (storeBytes cpu.memory.host ptrs)).getD cpu.memory.host := by
  unfold Cpu.changed
  dsimp only
  cases change.stored (loadValue cpu.memory.host ptrs) <;> rfl

theorem inPlace_loadAt (h : cpu.InPlace address size ptrs) :
    cpu.loadAt (size.bits / 8) address = .ok (loadValue cpu.memory.host ptrs) :=
  loadAt_ok_iff.mpr ⟨ptrs, h.1, rfl⟩

theorem loadValue_lt_bits (hlength : ptrs.length = size.bits / 8) (host : HostMemory) :
    (loadValue host ptrs).toNat < 2 ^ size.bits := by
  have hlt := loadValue_lt host ptrs
  rwa [hlength, size.bits_eq_eight_mul] at hlt

/-- The sum of `XADD` is the one of the callback. -/
theorem xaddComputeResult_value (size : OperandWidth) (ctx : CpuContext) (dst src : U64) :
    (xaddComputeResult size ctx dst src).1.setWidth 64 = (dst + src) &&& operandMask size := by
  have hle := size.le_sixtyFour
  have hwide : ∀ {w : ℕ}, w ≤ 64 →
      ((dst.setWidth w).setWidth (2 * w) + (src.setWidth w).setWidth (2 * w)).setWidth w =
        (dst + src).setWidth w := by
    intro w hw
    have hback : ∀ x : BitVec w, (x.setWidth (2 * w)).setWidth w = x := fun x => by
      rw [BitVec.setWidth_setWidth_of_le _ (by omega), BitVec.setWidth_eq]
    rw [BitVec.setWidth_add _ _ (by omega), BitVec.setWidth_add _ _ hw, hback, hback]
  rw [and_operandMask_eq]
  apply congrArg
  cases size with
  | qword => exact (BitVec.setWidth_add dst src (le_refl 64)).symm
  | _ => exact hwide hle

theorem keepMode_keepMode (ctx new new' : CpuContext) :
    (ctx.keepMode new).keepMode new' = ctx.keepMode new' := rfl

/-! ## The plain path -/

section Plain

variable (hm : ManagerOk cpu.memory) (hexc : cpu.context.hasException = false)
  {operand : RmOperand} (hmem : operand.isRegister = false)
  (h : cpu.InPlace operand.memAddress size ptrs)

include hm hexc hmem h

theorem run_read_inPlace :
    (readRmOperand operand size).run viewOp cpu = (loadValue cpu.memory.host ptrs, cpu) := by
  rw [run_readRmOperand hm hexc]
  unfold Cpu.rmValue
  rw [if_neg (by rw [hmem]; decide), inPlace_loadAt h]

/-- Writing the operand when the flags and the registers have changed. -/
theorem run_write_inPlace (f : CpuContext → CpuContext) (value : U64) :
    (writeRmOperand operand size value).run viewOp (cpu.edit fun ctx => ctx.keepMode (f ctx)) =
      ((), (cpu.setHost (storeBytes cpu.memory.host ptrs value)).edit fun ctx =>
        ctx.keepMode (f ctx)) := by
  have hsame : ∀ a, (cpu.edit fun ctx => ctx.keepMode (f ctx)).dataPtr true a =
      cpu.dataPtr true a := fun a => rfl
  have hptrs := (operandPtrs_congr hsame (size.bits / 8) 0).trans h.2
  rw [@run_writeRmOperand (cpu.edit fun ctx => ctx.keepMode (f ctx)) hm hexc]
  unfold Cpu.rmStored
  rw [if_neg (by rw [hmem]; decide), storedAt_ok hptrs]
  rfl

/-- `OR` and `XOR`. -/
theorem run_logicToRm (fuel : ℕ) (operation : U64 → U64 → U64) (source : CpuContext → U64) :
    (logicToRm fuel operation size operand source false).run viewOp cpu =
      (some (), cpu.changed (logicChange operation size (source cpu.context)) ptrs) := by
  have hlength := inPlace_length h
  unfold logicToRm Cpu.changed logicChange
  rw [Program.run_bind, run_getContext]
  simp only [Bool.false_and, Bool.false_eq_true, if_false]
  rw [Program.run_bind, run_read_inPlace hm hexc hmem h]
  dsimp only
  rw [Program.run_bind, run_modifyContext]
  dsimp only
  rw [Program.run_bind]
  have hwrite := run_write_inPlace hm hexc hmem h
    (fun ctx => updateLogicFlags size ctx
      (operation (source cpu.context) (loadValue cpu.memory.host ptrs)))
    (operation (source cpu.context) (loadValue cpu.memory.host ptrs))
  unfold Cpu.edit at hwrite
  rw [hwrite, storeBytes_operandMask hlength]
  unfold updateLogicFlags
  simp only [setWidth_and_operandMask]
  rfl

/-- The instructions with one operand. -/
theorem run_unaryRm (fuel : ℕ) (callback : U64 → U64)
    (flags : CpuContext → BitVec size.bits → BitVec size.bits → CpuContext) :
    (unaryRm fuel callback size flags operand false).run viewOp cpu =
      (some (), cpu.changed (unaryChange callback size flags) ptrs) := by
  unfold unaryRm Cpu.changed unaryChange
  simp only [Bool.false_and, Bool.false_eq_true, if_false]
  rw [Program.run_bind, run_read_inPlace hm hexc hmem h]
  dsimp only
  rw [Program.run_bind, run_modifyContext]
  dsimp only
  rw [Program.run_bind]
  have hwrite := run_write_inPlace hm hexc hmem h
    (fun ctx => flags ctx ((loadValue cpu.memory.host ptrs).setWidth size.bits)
      ((callback (loadValue cpu.memory.host ptrs)).setWidth size.bits))
    (((callback (loadValue cpu.memory.host ptrs)).setWidth size.bits).setWidth 64)
  unfold Cpu.edit at hwrite
  rw [hwrite, ← and_operandMask_eq]
  simp only [setWidth_and_operandMask]
  rfl

/-- `XADD`. -/
theorem run_xaddRmReg (fuel : ℕ) :
    (xaddRmReg fuel size operand false).run viewOp cpu =
      (some (), cpu.changed (xaddChange size (decodeRegIndex cpu.context operand.modrm)
        (getRegister size cpu.context (decodeRegIndex cpu.context operand.modrm))) ptrs) := by
  have hlength := inPlace_length h
  generalize hreg : decodeRegIndex cpu.context operand.modrm = reg
  generalize hsrc : getRegister size cpu.context reg = src
  generalize hold : loadValue cpu.memory.host ptrs = old
  -- the sum is the one of the callback
  have hsum := xaddComputeResult_value size cpu.context old src
  unfold xaddRmReg Cpu.changed xaddChange
  rw [Program.run_bind, run_getContext]
  simp only [Bool.false_and, Bool.false_eq_true, if_false]
  rw [hreg, hsrc, Program.run_bind, run_read_inPlace hm hexc hmem h, hold]
  dsimp only
  rw [Program.run_bind, run_cpuHasException, hexc]
  simp only [Bool.false_eq_true, if_false]
  rw [Program.run_bind, run_getContext]
  dsimp only
  rw [Program.run_bind, run_modifyContext]
  dsimp only
  rw [Program.run_bind, run_modifyContext, keepMode_keepMode]
  dsimp only
  rw [Program.run_bind]
  have hwrite := run_write_inPlace hm hexc hmem h
    (fun ctx => setRegister size (ctx.keepMode (xaddComputeResult size ctx old src).2) reg old)
    ((xaddComputeResult size cpu.context old src).1.setWidth 64)
  unfold Cpu.edit at hwrite
  rw [hwrite, hsum]
  rfl

/-- `CMPXCHG`. -/
theorem run_cmpxchgRmReg (fuel : ℕ) :
    (cmpxchgRmReg fuel size operand false).run viewOp cpu =
      (some (), cpu.changed (cmpxchgChange size (getRegister size cpu.context regRax)
        (getRegister size cpu.context (decodeRegIndex cpu.context operand.modrm))) ptrs) := by
  generalize hsrc : getRegister size cpu.context (decodeRegIndex cpu.context operand.modrm) = src
  generalize hacc : getRegister size cpu.context regRax = accumulator
  generalize hold : loadValue cpu.memory.host ptrs = old
  unfold cmpxchgRmReg Cpu.changed cmpxchgChange
  rw [Program.run_bind, run_getContext]
  simp only [Bool.false_and, Bool.false_eq_true, if_false]
  rw [hsrc, hacc, Program.run_bind, run_read_inPlace hm hexc hmem h, hold]
  dsimp only
  rw [Program.run_bind, run_cpuHasException, hexc]
  simp only [Bool.false_eq_true, if_false]
  rw [Program.run_bind, run_modifyContext]
  dsimp only
  by_cases heq : accumulator = old
  · simp only [ne_eq, heq, not_true_eq_false, if_true, if_false]
    rw [Program.run_bind]
    have hwrite := run_write_inPlace hm hexc hmem h
      (fun ctx => cmpxchgUpdateFlags size ctx old old) src
    unfold Cpu.edit at hwrite
    rw [hwrite]
    rfl
  · simp only [ne_eq, heq, not_false_eq_true, if_true, if_false]
    rfl

end Plain

/-! ## The locked path -/

/-- The path behind a `LOCK` prefix: an exchange, and a change of the context behind it. -/
def lockedRmw (fuel : ℕ) (address : U64) (size : OperandWidth) (callback : U64 → U64)
    (tail : U64 → U64 → CpuProgram (Option Unit)) : CpuProgram (Option Unit) := do
  match ← cpuAtomicRmwMemory fuel address size callback with
  | none => return none
  | some none => return some ()
  | some (some (oldValue, newValue)) => tail oldValue newValue

/-- The change of an exchange. -/
def rmwChange (size : OperandWidth) (callback : U64 → U64) (finish : U64 → CpuContext → CpuContext) :
    InPlaceChange where
  stored old := some (callback old &&& operandMask size)
  finish := finish

/-- The pointers of a locked access, or the CPU behind the byte that is refused.  Not all of
them ask for the operand for reading first. -/
def Cpu.lockedPtrs (cpu : Cpu) (reads : Bool) (address : U64) (size : OperandWidth) :
    Except Cpu (List HostPtr) :=
  match reads, cpu.operandPtrs false address (size.bits / 8) 0 with
  | true, .error a => .error (cpu.refused false a)
  | _, _ => cpu.slotPtrs address (size.bits / 8)

/-- What a locked instruction leaves behind. -/
def Cpu.locked (cpu : Cpu) (reads : Bool) (address : U64) (size : OperandWidth)
    (change : InPlaceChange) : Cpu :=
  match cpu.lockedPtrs reads address size with
  | .error c => c
  | .ok ptrs => cpu.changed change ptrs

/-- Where the bytes may be accessed a locked instruction makes its change. -/
theorem locked_inPlace (h : cpu.InPlace address size ptrs) (reads : Bool) (change : InPlaceChange) :
    cpu.locked reads address size change = cpu.changed change ptrs := by
  unfold Cpu.locked Cpu.lockedPtrs Cpu.slotPtrs
  rw [h.1, h.2]
  cases reads <;> rfl

section Locked

variable (hm : ManagerOk cpu.memory) (hexc : cpu.context.hasException = false)

include hm hexc

theorem run_readMemoryOperandChecked (address : U64) (size : OperandWidth) :
    (readMemoryOperandChecked address size).run viewOp cpu =
      match cpu.operandPtrs false address (size.bits / 8) 0 with
      | .error a => (none, cpu.refused false a)
      | .ok ptrs => (some (loadValue cpu.memory.host ptrs), cpu) := by
  unfold readMemoryOperandChecked readMemoryOperand
  rw [Program.run_bind, run_cpuHasException, hexc]
  simp only [Bool.false_eq_true, if_false]
  rw [Program.run_bind, run_readStringValue hm hexc size.eight_le]
  unfold Cpu.loadAt
  cases hptrs : cpu.operandPtrs false address (size.bits / 8) 0 with
  | error a =>
    dsimp only
    rw [Program.run_bind, run_cpuHasException,
      refused_hasException hexc (operandPtrs_error _ hptrs)]
    rfl
  | ok ptrs =>
    dsimp only
    rw [Program.run_bind, run_cpuHasException, hexc]
    rfl

/-- **In one run** the exchange takes place in the first turn. -/
theorem run_lockedRmw {callback : U64 → U64} {tail : U64 → U64 → CpuProgram (Option Unit)}
    {finish : U64 → CpuContext → CpuContext}
    (htail : ∀ old c, (tail old (callback old &&& operandMask size)).run viewOp c =
      (some (), c.edit (finish old)))
    (hrun : cpu.OneRun true address (size.bits / 8)) (fuel : ℕ) :
    (lockedRmw (fuel + 1) address size callback tail).run viewOp cpu =
      (some (), cpu.locked true address size (rmwChange size callback finish)) := by
  unfold lockedRmw cpuAtomicRmwMemory Cpu.locked Cpu.lockedPtrs Cpu.slotPtrs
  rw [Program.run_bind, Program.run_bind, run_readMemoryOperandChecked hm hexc]
  cases hread : cpu.operandPtrs false address (size.bits / 8) 0 with
  | error a => rfl
  | ok ptrs =>
    have hlength := operandPtrs_length _ hread
    have hlt := loadValue_lt_bits hlength cpu.memory.host
    dsimp only
    unfold atomicRmwLoop
    rw [Program.run_bind, run_atomicCompareExchange hm hexc hrun, and_operandMask hlt]
    cases hwrite : cpu.operandPtrs true address (size.bits / 8) 0 with
    | error a =>
      dsimp only
      rw [Program.run_bind, run_cpuHasException,
        refused_hasException hexc (operandPtrs_error _ hwrite)]
      rfl
    | ok ptrs' =>
      obtain rfl := operandPtrs_alike _ hread hwrite
      dsimp only
      rw [if_pos (and_operandMask hlt).symm]
      dsimp only [Program.run_pure]
      rw [htail]
      rfl

/-- **Apart** an access behind one pointer does not end, or it faults at a byte that may be
written. -/
theorem run_getMemoryWritePtr_apart (hapart : ¬ cpu.OneRun true address (size.bits / 8)) :
    ∃ j < size.bits / 8, (∀ i ≤ j, cpu.dataPtr true (address + BitVec.ofNat 64 i) ≠ none) ∧
      ∀ fuel, ApartOutcome cpu
        (cpuRaisePageFault cpu.context (address + BitVec.ofNat 64 j) .write true)
        ((getMemoryWritePtr address (size.bits / 8) fuel).run viewOp cpu) := by
  have hsize : 0 < size.bits / 8 := by
    have height := size.eight_le
    omega
  exact run_getContiguousPtr_apart hm hexc hsize hapart

/-- `CMPXCHG` behind a `LOCK` prefix, in one run. -/
theorem run_lockedCmpxchg {operand : RmOperand} (hmem : operand.isRegister = false)
    (hrun : cpu.OneRun true operand.memAddress (size.bits / 8)) (fuel : ℕ) :
    (cmpxchgRmReg (fuel + 1) size operand true).run viewOp cpu =
      (some (), cpu.locked false operand.memAddress size
        (cmpxchgChange size (getRegister size cpu.context regRax)
          (getRegister size cpu.context (decodeRegIndex cpu.context operand.modrm)))) := by
  have hacc := and_operandMask (getRegister_lt size cpu.context regRax)
  unfold cmpxchgRmReg Cpu.locked Cpu.lockedPtrs Cpu.slotPtrs
  rw [Program.run_bind, run_getContext]
  simp only [hmem, Bool.not_false, Bool.and_true, if_true]
  rw [Program.run_bind, run_atomicCompareExchange hm hexc hrun, hacc]
  generalize getRegister size cpu.context (decodeRegIndex cpu.context operand.modrm) = src
  generalize getRegister size cpu.context regRax = accumulator
  cases hptrs : cpu.operandPtrs true operand.memAddress (size.bits / 8) 0 with
  | error a =>
    dsimp only
    rw [Program.run_bind, run_cpuHasException,
      refused_hasException hexc (operandPtrs_error _ hptrs)]
    rfl
  | ok ptrs =>
    dsimp only
    by_cases heq : loadValue cpu.memory.host ptrs = accumulator
    · have hclear : (cpu.setHost (storeBytes cpu.memory.host ptrs src)).context.hasException =
        false := hexc
      unfold Cpu.changed cmpxchgChange
      simp only [heq, if_true, ne_eq, not_true_eq_false, if_false]
      rw [Program.run_bind, run_cpuHasException, hclear]
      rfl
    · have heq' : ¬ accumulator = loadValue cpu.memory.host ptrs := fun h => heq h.symm
      unfold Cpu.changed cmpxchgChange
      simp only [heq, heq', if_false, ne_eq, not_false_eq_true, if_true]
      rw [Program.run_bind, run_cpuHasException, hexc]
      rfl

/-- `NOT` of host memory behind a `LOCK` prefix, in one run. -/
theorem run_notPassthrough (hrun : cpu.OneRun true address (size.bits / 8)) (fuel : ℕ) :
    (notPassthrough (fuel + 1) address size).run viewOp cpu =
      (some (), cpu.locked false address size
        (unaryChange (fun old => ~~~old) size fun ctx _ _ => ctx)) := by
  have hsize : 0 < size.bits / 8 := by
    have height := size.eight_le
    omega
  unfold notPassthrough getMemoryWritePtr Cpu.locked Cpu.lockedPtrs Cpu.slotPtrs
  rw [Program.run_bind]
  rcases run_getContiguousPtr hm hexc hsize hrun fuel with ⟨p, hptrs, hrun⟩ | ⟨a, hptrs, hrun⟩
  · have hlength := operandPtrs_length _ hptrs
    have hlt := loadValue_lt_bits hlength cpu.memory.host
    rw [hrun, hptrs]
    dsimp only
    rw [Program.run_bind, run_loadBytes]
    dsimp only
    rw [Program.run_bind, run_storeValue, xor_operandMask hlt]
    rfl
  · rw [hrun, hptrs]
    rfl

/-- A locked access apart: there are passes without end, or a fault. -/
def LockedApart (cpu : Cpu) (fault : CpuContext) (result : Option Unit × Cpu) : Prop :=
  ∃ asked, result = (none, { cpu with asked := asked }) ∨
    result = (some (), { cpu with context := fault, asked := asked })

/-- An exchange apart. -/
theorem run_lockedRmw_apart (callback : U64 → U64) (tail : U64 → U64 → CpuProgram (Option Unit))
    (hread : cpu.operandPtrs false address (size.bits / 8) 0 = .ok ptrs) {fault : CpuContext}
    (hfault : fault.hasException = true)
    (hapart : ∀ fuel, ApartOutcome cpu fault
      ((getMemoryWritePtr address (size.bits / 8) fuel).run viewOp cpu)) (fuel : ℕ) :
    LockedApart cpu fault ((lockedRmw fuel address size callback tail).run viewOp cpu) := by
  unfold lockedRmw cpuAtomicRmwMemory
  rw [Program.run_bind, Program.run_bind, run_readMemoryOperandChecked hm hexc, hread]
  dsimp only
  cases fuel with
  | zero => exact ⟨cpu.asked, Or.inl rfl⟩
  | succ fuel =>
    have hout := hapart (fuel + 1)
    unfold atomicRmwLoop cpuAtomicCompareExchangeMemory
    rw [Program.run_bind, Program.run_bind]
    generalize (getMemoryWritePtr address (size.bits / 8) (fuel + 1)).run viewOp cpu = r at hout
    cases hout with
    | endless asked => exact ⟨asked, Or.inl rfl⟩
    | faulted asked =>
      refine ⟨asked, Or.inr ?_⟩
      dsimp only [Program.run_pure]
      rw [Program.run_bind, run_cpuHasException]
      dsimp only
      rw [hfault]
      rfl

end Locked

/-! ## All instructions -/

/-- The handlers behind a `LOCK` prefix. -/
theorem logicToRm_locked {operand : RmOperand} (hmem : operand.isRegister = false) (fuel : ℕ)
    (operation : U64 → U64 → U64) (size : OperandWidth) (source : CpuContext → U64) :
    logicToRm fuel operation size operand source true = (do
      let ctx ← getContext
      lockedRmw fuel operand.memAddress size (operation (source ctx)) fun _ newValue => do
        modifyContext fun ctx => updateLogicFlags size ctx newValue
        return some () : CpuProgram (Option Unit)) := by
  unfold logicToRm
  simp only [hmem, Bool.not_false, Bool.and_true, if_true]
  rfl

theorem unaryRm_locked {operand : RmOperand} (hmem : operand.isRegister = false) (fuel : ℕ)
    (callback : U64 → U64) (size : OperandWidth)
    (flags : CpuContext → BitVec size.bits → BitVec size.bits → CpuContext) :
    unaryRm fuel callback size flags operand true =
      lockedRmw fuel operand.memAddress size callback (fun oldValue newValue => do
        modifyContext fun ctx =>
          flags ctx (oldValue.setWidth size.bits) (newValue.setWidth size.bits)
        return some ()) := by
  unfold unaryRm
  simp only [hmem, Bool.not_false, Bool.and_true, if_true]
  rfl

theorem xaddRmReg_locked {operand : RmOperand} (hmem : operand.isRegister = false) (fuel : ℕ)
    (size : OperandWidth) :
    xaddRmReg fuel size operand true = (do
      let ctx ← getContext
      let regIndex := decodeRegIndex ctx operand.modrm
      let srcValue := getRegister size ctx regIndex
      lockedRmw fuel operand.memAddress size (cpuAtomicAddCallback srcValue) fun dstValue _ => do
        modifyContext fun ctx => (xaddComputeResult size ctx dstValue srcValue).2
        modifyContext fun ctx => setRegister size ctx regIndex dstValue
        return some () : CpuProgram (Option Unit)) := by
  unfold xaddRmReg
  simp only [hmem, Bool.not_false, Bool.and_true, if_true]
  rfl

theorem xchgRmReg_locked {operand : RmOperand} (hmem : operand.isRegister = false) (fuel : ℕ)
    (size : OperandWidth) :
    xchgRmReg fuel size operand = (do
      let ctx ← getContext
      let regIndex := decodeRegIndex ctx operand.modrm
      lockedRmw fuel operand.memAddress size
        (cpuAtomicExchangeCallback (getRegister size ctx regIndex)) fun rmValue _ => do
          modifyContext fun ctx => setRegister size ctx regIndex rmValue
          return some () : CpuProgram (Option Unit)) := by
  unfold xchgRmReg
  simp only [hmem, Bool.not_false, if_true]
  rfl

theorem notRm_locked {operand : RmOperand} (hmem : operand.isRegister = false) (fuel : ℕ)
    (size : OperandWidth) :
    notRm fuel size operand true = (do
      let host ← perform .isHostWritePassthrough
      if host then notPassthrough fuel operand.memAddress size
      else lockedRmw fuel operand.memAddress size (fun currentValue => ~~~currentValue) fun _ _ => do
        modifyContext fun ctx => ctx
        return some () : CpuProgram (Option Unit)) := by
  unfold notRm
  simp only [hmem, Bool.not_false, Bool.and_true, Bool.true_and, unaryRm_locked hmem]

/-- A locked instruction asks for its operand for reading first. -/
def InPlaceOp.reads (op : InPlaceOp) (host : Bool) : Bool :=
  match op with
  | cmpxchg => false
  | not => !host
  | _ => true

section All

variable (hm : ManagerOk cpu.memory) (hexc : cpu.context.hasException = false)
  {operand : RmOperand} (hmem : operand.isRegister = false)

include hm hexc hmem

/-- **The plain path** reads the operand, and writes what the instruction makes of it. -/
theorem run_plain {op : InPlaceOp} (hop : op ≠ .xchg)
    (h : cpu.InPlace operand.memAddress size ptrs) (fuel : ℕ) :
    (op.execute fuel size operand false).run viewOp cpu =
      (some (), cpu.changed (op.change size operand.modrm cpu.context) ptrs) := by
  cases op with
  | or imm => cases imm <;> exact run_logicToRm hm hexc hmem h fuel _ _
  | xor imm => cases imm <;> exact run_logicToRm hm hexc hmem h fuel _ _
  | inc => exact run_unaryRm hm hexc hmem h fuel _ _
  | dec => exact run_unaryRm hm hexc hmem h fuel _ _
  | neg => exact run_unaryRm hm hexc hmem h fuel _ _
  | not =>
    have hplain : notRm fuel size operand false = (do
        let _ ← perform .isHostWritePassthrough
        unaryRm fuel (fun currentValue => ~~~currentValue) size (fun ctx _ _ => ctx) operand
          false : CpuProgram (Option Unit)) := rfl
    show (notRm fuel size operand false).run viewOp cpu = _
    rw [hplain, Program.run_bind]
    exact run_unaryRm hm hexc hmem h fuel _ _
  | xadd => exact run_xaddRmReg hm hexc hmem h fuel
  | xchg => exact absurd rfl hop
  | cmpxchg => exact run_cmpxchgRmReg hm hexc hmem h fuel

/-- **The locked path**, in one run. -/
theorem run_locked (op : InPlaceOp)
    (hrun : cpu.OneRun true operand.memAddress (size.bits / 8)) (fuel : ℕ) :
    (op.execute (fuel + 1) size operand true).run viewOp cpu =
      (some (), cpu.locked (op.reads cpu.memory.hostWritePassthrough) operand.memAddress size
        (op.change size operand.modrm cpu.context)) := by
  have hlogic : ∀ (operation : U64 → U64 → U64) (source : CpuContext → U64),
      (logicToRm (fuel + 1) operation size operand source true).run viewOp cpu =
        (some (), cpu.locked true operand.memAddress size
          (logicChange operation size (source cpu.context))) := by
    intro operation source
    rw [logicToRm_locked hmem, Program.run_bind, run_getContext]
    exact run_lockedRmw hm hexc (fun old c => rfl) hrun fuel
  have hunary : ∀ (callback : U64 → U64)
      (flags : CpuContext → BitVec size.bits → BitVec size.bits → CpuContext),
      (unaryRm (fuel + 1) callback size flags operand true).run viewOp cpu =
        (some (), cpu.locked true operand.memAddress size (unaryChange callback size flags)) := by
    intro callback flags
    rw [unaryRm_locked hmem]
    exact run_lockedRmw hm hexc (fun old c => rfl) hrun fuel
  -- the loop of exchanges, one exchange, or, for `NOT` of host memory, one store
  cases op with
  | or imm => cases imm <;> exact hlogic _ _
  | xor imm => cases imm <;> exact hlogic _ _
  | inc => exact hunary _ _
  | dec => exact hunary _ _
  | neg => exact hunary _ _
  | not =>
    show (notRm (fuel + 1) size operand true).run viewOp cpu = _
    rw [notRm_locked hmem, Program.run_bind]
    have hhost : (perform .isHostWritePassthrough).run viewOp cpu =
      (cpu.memory.hostWritePassthrough, cpu) := rfl
    rw [hhost]
    unfold InPlaceOp.reads
    cases cpu.memory.hostWritePassthrough with
    | true => exact run_notPassthrough hm hexc hrun fuel
    | false => exact run_lockedRmw hm hexc (fun old c => rfl) hrun fuel
  | xadd =>
    show (xaddRmReg (fuel + 1) size operand true).run viewOp cpu = _
    rw [xaddRmReg_locked hmem, Program.run_bind, run_getContext]
    exact run_lockedRmw hm hexc (fun old c => rfl) hrun fuel
  | xchg =>
    show (xchgRmReg (fuel + 1) size operand).run viewOp cpu = _
    rw [xchgRmReg_locked hmem, Program.run_bind, run_getContext]
    exact run_lockedRmw hm hexc (fun old c => rfl) hrun fuel
  | cmpxchg => exact run_lockedCmpxchg hm hexc hmem hrun fuel

/-- **The locked path** apart, of an operand that may be read. -/
theorem run_locked_apart (op : InPlaceOp)
    (hread : cpu.operandPtrs false operand.memAddress (size.bits / 8) 0 = .ok ptrs)
    {fault : CpuContext} (hfault : fault.hasException = true)
    (hapart : ∀ fuel, ApartOutcome cpu fault
      ((getMemoryWritePtr operand.memAddress (size.bits / 8) fuel).run viewOp cpu)) (fuel : ℕ) :
    LockedApart cpu fault ((op.execute fuel size operand true).run viewOp cpu) := by
  have hrmw : ∀ callback tail, LockedApart cpu fault
      ((lockedRmw fuel operand.memAddress size callback tail).run viewOp cpu) := fun callback tail =>
    run_lockedRmw_apart hm hexc callback tail hread hfault hapart fuel
  have hlogic : ∀ (operation : U64 → U64 → U64) (source : CpuContext → U64), LockedApart cpu fault
      ((logicToRm fuel operation size operand source true).run viewOp cpu) := by
    intro operation source
    rw [logicToRm_locked hmem, Program.run_bind, run_getContext]
    exact hrmw _ _
  have hunary : ∀ (callback : U64 → U64)
      (flags : CpuContext → BitVec size.bits → BitVec size.bits → CpuContext), LockedApart cpu fault
      ((unaryRm fuel callback size flags operand true).run viewOp cpu) := by
    intro callback flags
    rw [unaryRm_locked hmem]
    exact hrmw _ _
  have hout := hapart fuel
  -- each instruction asks for the pointer before it stores anything
  cases op with
  | or imm => cases imm <;> exact hlogic _ _
  | xor imm => cases imm <;> exact hlogic _ _
  | inc => exact hunary _ _
  | dec => exact hunary _ _
  | neg => exact hunary _ _
  | not =>
    show LockedApart cpu fault ((notRm fuel size operand true).run viewOp cpu)
    have hhost : (perform .isHostWritePassthrough).run viewOp cpu =
      (cpu.memory.hostWritePassthrough, cpu) := rfl
    rw [notRm_locked hmem, Program.run_bind, hhost]
    cases cpu.memory.hostWritePassthrough with
    | false => exact hrmw _ _
    | true =>
      simp only [if_true]
      unfold notPassthrough
      rw [Program.run_bind]
      generalize (getMemoryWritePtr operand.memAddress (size.bits / 8) fuel).run viewOp cpu = r
        at hout
      cases hout with
      | endless asked => exact ⟨asked, Or.inl rfl⟩
      | faulted asked => exact ⟨asked, Or.inr rfl⟩
  | xadd =>
    show LockedApart cpu fault ((xaddRmReg fuel size operand true).run viewOp cpu)
    rw [xaddRmReg_locked hmem, Program.run_bind, run_getContext]
    exact hrmw _ _
  | xchg =>
    show LockedApart cpu fault ((xchgRmReg fuel size operand).run viewOp cpu)
    rw [xchgRmReg_locked hmem, Program.run_bind, run_getContext]
    exact hrmw _ _
  | cmpxchg =>
    show LockedApart cpu fault ((cmpxchgRmReg fuel size operand true).run viewOp cpu)
    unfold cmpxchgRmReg cpuAtomicCompareExchangeMemory
    rw [Program.run_bind, run_getContext]
    simp only [hmem, Bool.not_false, Bool.and_true, if_true]
    rw [Program.run_bind, Program.run_bind]
    generalize (getMemoryWritePtr operand.memAddress (size.bits / 8) fuel).run viewOp cpu = r at hout
    cases hout with
    | endless asked => exact ⟨asked, Or.inl rfl⟩
    | faulted asked =>
      refine ⟨asked, Or.inr ?_⟩
      dsimp only [Program.run_pure]
      rw [Program.run_bind, run_cpuHasException]
      dsimp only
      rw [hfault]
      rfl

/-- **The locked path** apart has no end while the callbacks claim to have handled the access. -/
theorem run_locked_endless (op : InPlaceOp)
    (hread : cpu.operandPtrs false operand.memAddress (size.bits / 8) 0 = .ok ptrs)
    (hapart : ¬ cpu.OneRun true operand.memAddress (size.bits / 8)) (hclaims : cpu.Claims true)
    (fuel : ℕ) : ((op.execute fuel size operand true).run viewOp cpu).1 = none := by
  have hsize : 0 < size.bits / 8 := by
    have height := size.eight_le
    omega
  -- whatever fault there would be, the loop ends in it or goes on
  have hend : ∀ code : U32, code ≠ cpuExceptionNone →
      ((op.execute fuel size operand true).run viewOp cpu).1 = none ∨
        ((op.execute fuel size operand true).run viewOp cpu).2.context.exception.code = code := by
    intro code hcode
    have hfault : CpuContext.hasException
        { cpu.context with exception := { code := code, errorCode := 0 } } = true :=
      bne_iff_ne.mpr hcode
    have hptr : ∀ fuel, ApartOutcome cpu
        { cpu.context with exception := { code := code, errorCode := 0 } }
        ((getMemoryWritePtr operand.memAddress (size.bits / 8) fuel).run viewOp cpu) := by
      intro fuel
      obtain ⟨asked, hendless⟩ := run_getContiguousPtr_endless hm hexc hsize hapart hclaims fuel
      unfold getMemoryWritePtr
      rw [hendless]
      exact .endless asked
    obtain ⟨asked, hrun⟩ := run_locked_apart hm hexc hmem op hread hfault hptr fuel
    rcases hrun with hrun | hrun
    · rw [hrun]
      exact Or.inl rfl
    · rw [hrun]
      exact Or.inr rfl
  -- no fault has both codes
  rcases hend cpuExceptionPf (by decide) with hnone | hpf
  · exact hnone
  · rcases hend cpuExceptionGp (by decide) with hnone | hgp
    · exact hnone
    · exact absurd (hpf.symm.trans hgp) (by decide)

end All

/-! ## The law -/

/-- A byte of the operand is refused that a locked instruction asks for. -/
def Cpu.LockedRefused (cpu : Cpu) (reads : Bool) (address : U64) (size : OperandWidth) : Prop :=
  ∃ i < size.bits / 8, (reads = true ∧ cpu.dataPtr false (address + BitVec.ofNat 64 i) = none) ∨
    cpu.dataPtr true (address + BitVec.ofNat 64 i) = none

/-- A locked instruction that is refused ends behind the access to a byte of its operand. -/
theorem lockedPtrs_refused {reads : Bool} (h : cpu.LockedRefused reads address size) :
    ∃ store, ∃ j < size.bits / 8, cpu.dataPtr store (address + BitVec.ofNat 64 j) = none ∧
      cpu.lockedPtrs reads address size =
        .error (cpu.refused store (address + BitVec.ofNat 64 j)) := by
  have hplace : ∀ {store : Bool} {a : U64},
      cpu.operandPtrs store address (size.bits / 8) 0 = .error a →
      ∃ j < size.bits / 8, cpu.dataPtr store (address + BitVec.ofNat 64 j) = none ∧
        a = address + BitVec.ofNat 64 j := by
    intro store a ha
    obtain ⟨j, hj, hsame⟩ := operandPtrs_error_mem _ ha
    rw [show (0 : U64) + BitVec.ofNat 64 j = BitVec.ofNat 64 j from BitVec.zero_add _] at hsame
    exact ⟨j, hj, hsame ▸ operandPtrs_error _ ha, hsame⟩
  obtain ⟨i, hi, hrefused⟩ := h
  have hrefusedPtrs : ∀ {store : Bool}, cpu.dataPtr store (address + BitVec.ofNat 64 i) = none →
      ∃ a, cpu.operandPtrs store address (size.bits / 8) 0 = .error a := by
    intro store hnone
    cases hptrs : cpu.operandPtrs store address (size.bits / 8) 0 with
    | error a => exact ⟨a, rfl⟩
    | ok ptrs => exact absurd hnone (operandPtrs_iff.mp ⟨ptrs, hptrs⟩ i hi)
  unfold Cpu.lockedPtrs Cpu.slotPtrs
  -- the bytes are asked for reading first
  cases hread : cpu.operandPtrs false address (size.bits / 8) 0 with
  | error a =>
    cases reads with
    | true =>
      obtain ⟨j, hj, hnone, rfl⟩ := hplace hread
      exact ⟨false, j, hj, hnone, rfl⟩
    | false =>
      rcases hrefused with ⟨hreads, -⟩ | hwrite
      · cases hreads
      · obtain ⟨b, hb⟩ := hrefusedPtrs hwrite
        obtain ⟨j, hj, hnone, rfl⟩ := hplace hb
        refine ⟨true, j, hj, hnone, ?_⟩
        rw [hb]
  | ok ptrs =>
    rcases hrefused with ⟨-, hnone⟩ | hwrite
    · exact absurd hnone (operandPtrs_iff.mp ⟨ptrs, hread⟩ i hi)
    · obtain ⟨b, hb⟩ := hrefusedPtrs hwrite
      obtain ⟨j, hj, hnone, rfl⟩ := hplace hb
      refine ⟨true, j, hj, hnone, ?_⟩
      rw [hb]
      cases reads <;> rfl

/-- **The locked instructions.**  Where the bytes of the operand lie behind one another, one ends
as the plain instruction does, or, if a byte of the operand is refused, as the access to that
byte leaves the CPU, with nothing else changed.  Where they lie apart it never completes: its
passes go on, or it faults at a byte that may be accessed. -/
theorem locked_law (hm : MemoryOk cpu.memory) (hexc : cpu.context.hasException = false)
    (op : InPlaceOp) (size : OperandWidth) {operand : RmOperand}
    (hmem : operand.isRegister = false) :
    (cpu.OneRun true operand.memAddress (size.bits / 8) → ∀ fuel,
      (∀ ptrs, cpu.InPlace operand.memAddress size ptrs → op ≠ .xchg →
        EndsLike ((op.execute (fuel + 1) size operand true).run cpuOp cpu)
          ((op.execute 0 size operand false).run cpuOp cpu).2) ∧
      (cpu.LockedRefused (op.reads cpu.memory.hostWritePassthrough) operand.memAddress size →
        ∃ store, ∃ j < size.bits / 8,
          cpu.dataPtr store (operand.memAddress + BitVec.ofNat 64 j) = none ∧
          EndsLike ((op.execute (fuel + 1) size operand true).run cpuOp cpu)
            (cpu.refused store (operand.memAddress + BitVec.ofNat 64 j)))) ∧
    (¬ cpu.OneRun true operand.memAddress (size.bits / 8) →
      ∀ ptrs, cpu.operandPtrs false operand.memAddress (size.bits / 8) 0 = .ok ptrs →
        ∃ j < size.bits / 8,
          cpu.dataPtr true (operand.memAddress + BitVec.ofNat 64 j) ≠ none ∧
          ∀ fuel, ((op.execute fuel size operand true).run cpuOp cpu).2.memory.host =
              cpu.memory.host ∧
            (((op.execute fuel size operand true).run cpuOp cpu).1 = none ∨
              ((op.execute fuel size operand true).run cpuOp cpu).2.context =
                cpuRaisePageFault cpu.context (operand.memAddress + BitVec.ofNat 64 j) .write
                  true)) := by
  have hview := fun fuel lock => run_viewOp (op.execute fuel size operand lock) hm
  have hlike : ∀ {fuel lock} {c : Cpu},
      (op.execute fuel size operand lock).run viewOp cpu = (some (), c) →
      EndsLike ((op.execute fuel size operand lock).run cpuOp cpu) c := by
    intro fuel lock c hrun
    obtain ⟨hresult, hsame⟩ := hview fuel lock
    rw [hrun] at hresult hsame
    exact ⟨hresult, hsame.context_eq, hsame.host_eq⟩
  constructor
  · intro hone fuel
    have hlocked := run_locked hm.manager hexc hmem op hone fuel
    constructor
    · intro ptrs hptrs hop
      have hplain := run_plain hm.manager hexc hmem hop hptrs 0
      obtain ⟨-, hsame⟩ := hview 0 false
      rw [hplain] at hsame
      rw [locked_inPlace hptrs] at hlocked
      obtain ⟨hanswer, hcontext, hhost⟩ := hlike hlocked
      exact ⟨hanswer, hcontext.trans hsame.context_eq.symm, hhost.trans hsame.host_eq.symm⟩
    -- the instruction ends behind the access that is refused
    · intro hrefused
      obtain ⟨store, j, hj, hnone, hptrs⟩ := lockedPtrs_refused hrefused
      unfold Cpu.locked at hlocked
      rw [hptrs] at hlocked
      exact ⟨store, j, hj, hnone, hlike hlocked⟩
  -- without one run there is no pointer, and no store
  · intro hapart ptrs hread
    obtain ⟨j, hj, hgranted, hptr⟩ := run_getMemoryWritePtr_apart hm.manager hexc hapart
    have hfault := pageFault_pending hexc (operand.memAddress + BitVec.ofNat 64 j) .write
    refine ⟨j, hj, hgranted j le_rfl, fun fuel => ?_⟩
    obtain ⟨asked, hend⟩ := run_locked_apart hm.manager hexc hmem op hread hfault hptr fuel
    obtain ⟨hresult, hsame⟩ := hview fuel true
    rcases hend with hend | hend
    · rw [hend] at hresult hsame
      exact ⟨hsame.host_eq, Or.inl hresult⟩
    · rw [hend] at hresult hsame
      exact ⟨hsame.host_eq, Or.inr hsame.context_eq⟩

/-- A locked instruction whose operand may be read and lies apart does not end while the callbacks
claim to have handled the access. -/
theorem locked_endless (hm : MemoryOk cpu.memory) (hexc : cpu.context.hasException = false)
    (op : InPlaceOp) (size : OperandWidth) {operand : RmOperand}
    (hmem : operand.isRegister = false) {ptrs : List HostPtr}
    (hread : cpu.operandPtrs false operand.memAddress (size.bits / 8) 0 = .ok ptrs)
    (hapart : ¬ cpu.OneRun true operand.memAddress (size.bits / 8)) (hclaims : cpu.Claims true)
    (fuel : ℕ) : ((op.execute fuel size operand true).run cpuOp cpu).1 = none := by
  rw [(run_viewOp (op.execute fuel size operand true) hm).1]
  exact run_locked_endless hm.manager hexc hmem op hread hapart hclaims fuel

/-- Four bytes of the host program lie behind one another. -/
theorem oneRun_hostCpu : (hostCpu (initCpuContext false) fun _ => 0).OneRun true 0x1000 4 := by
  refine ⟨.user 0x1000, fun j hj _ => ?_⟩
  have hcases : j = 0 ∨ j = 1 ∨ j = 2 ∨ j = 3 := by omega
  rcases hcases with rfl | rfl | rfl | rfl <;> rfl

/-- `LOCK INC [1000h]`, which needs one turn. -/
theorem locked_law_example :
    EndsLike ((InPlaceOp.inc.execute 1 .dword ⟨0, 0x1000⟩ true).run cpuOp
        (hostCpu (initCpuContext false) fun _ => 0))
      ((InPlaceOp.inc.execute 0 .dword ⟨0, 0x1000⟩ false).run cpuOp
        (hostCpu (initCpuContext false) fun _ => 0)).2 := by
  have hmem : (⟨0, 0x1000⟩ : RmOperand).isRegister = false := rfl
  have hlaw := locked_law (memoryOk_hostCpu (initCpuContext false) fun _ => 0) rfl .inc .dword hmem
  exact (hlaw.1 oneRun_hostCpu 0).1
    [.user 0x1000, .user 0x1001, .user 0x1002, .user 0x1003] ⟨rfl, rfl⟩ (by decide)

end Cpueaxh
