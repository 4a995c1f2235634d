/-
# One element of a string

What a string instruction does with one element, as a function: it completes in another
CPU or it is refused.  The index registers move by one element within the address size,
and a comparison sets the flags of the subtraction by arithmetic.
-/
import Cpueaxh.FarOutcome
import Cpueaxh.StringOps
import Cpueaxh.SubtractionFlags

namespace Cpueaxh

open HostMemory SubtractionFlags

/-! ## The flags of a comparison -/

/-- The flags register with a flag set or cleared. -/
def withFlag (rflags flag : U64) (value : Bool) : U64 :=
  if value then rflags ||| flag else rflags &&& ~~~flag

/-- The flags register behind the comparison of two values of some width: the carry is the
unsigned borrow, the overflow the signed one. -/
def compareFlags {w : ℕ} (rflags : U64) (lhs rhs : BitVec w) : U64 :=
  [(rflagsCf, decide (lhs.toNat < rhs.toNat)), (rflagsOf, BitVec.ssubOverflow lhs rhs),
    (rflagsSf, decide ((lhs - rhs).toInt < 0)), (rflagsZf, decide (lhs = rhs)),
    (rflagsAf, decide (lhs.toNat % 16 < rhs.toNat % 16)), (rflagsPf, evenParity (lhs - rhs))].foldl
    (fun flags flag => withFlag flags flag.1 flag.2) rflags

theorem setFlag_eq {ctx : CpuContext} (hexc : ctx.hasException = false) (flag : U64)
    (value : Bool) :
    setFlag ctx flag value = { ctx with rflags := withFlag ctx.rflags flag value } := by
  unfold setFlag withFlag
  rw [hexc]
  rfl

/-- The parity is that of the low byte. -/
theorem calcParity_lowByte {w : ℕ} (result : BitVec w) :
    calcParity (result.setWidth 8) = evenParity result :=
  (evenParity_fold _).trans (evenParity_setWidth _)

/-- **The flags** that the code sets are those of the comparison. -/
theorem updateFlagsCompare_eq {ctx : CpuContext} (hexc : ctx.hasException = false) {w : ℕ}
    (hw : 8 ≤ w) (lhs rhs : U64) :
    updateFlagsCompare w ctx lhs rhs =
      { ctx with rflags := compareFlags ctx.rflags (lhs.setWidth w) (rhs.setWidth w) } := by
  unfold updateFlagsCompare updateFlagsSub compareFlags
  generalize lhs.setWidth w = x
  generalize rhs.setWidth w = y
  have hzero : (x - y == 0) = decide (x = y) := by
    rw [Bool.eq_iff_iff, beq_iff_eq, decide_eq_true_iff]
    exact sub_eq_zero
  have hsign : (x - y &&& BitVec.intMin w != 0) = decide ((x - y).toInt < 0) := by
    rw [and_intMin_ne_zero _ (by omega), BitVec.msb_eq_toInt]
  -- no flag touches the exception, so all six are set
  have hset : ∀ rflags flag value, setFlag { ctx with rflags := rflags } flag value =
      { ctx with rflags := withFlag rflags flag value } := fun rflags flag value =>
    @setFlag_eq { ctx with rflags := rflags } hexc flag value
  dsimp only
  rw [overflow_formula x y (by omega), hsign, hzero, borrow_formula x y hw, calcParity_lowByte,
    setFlag_eq hexc, hset, hset, hset, hset, hset]
  rfl

/-! ## What an element does -/

namespace Cpu

variable (cpu : Cpu)

/-- The check of `cpu_validate_linear_address`. -/
def validAddress (address : U64) (segment : SegmentRegisterIndex) : Except Cpu Unit :=
  if cpu.context.is64BitCode && !cpuIsCanonicalAddress address then
    .error (cpu.raised (if segment = .ss then .ss else .gp) 0)
  else .ok ()

/-- The CPU with other registers. -/
def edit (f : CpuContext → CpuContext) : Cpu := { cpu with context := f cpu.context }

/-- The CPU behind the store of an element. -/
def storedAt (size : ℕ) (address value : U64) : Except Cpu Cpu := do
  let ptrs ← cpu.slotPtrs address size
  return cpu.setHost (storeBytes cpu.memory.host ptrs value)

end Cpu

namespace StringInst

variable (inst : StringInst)

/-- The number of bytes of an element. -/
def bytes : ℕ := inst.operandSize / 8

/-- The registers with the source index behind the element, and with the destination index. -/
def nextSource (ctx : CpuContext) : CpuContext :=
  inst.advance ctx regRsi (getReg inst.addressSize ctx regRsi)

def nextDest (ctx : CpuContext) : CpuContext :=
  inst.advance ctx regRdi (getReg inst.addressSize ctx regRdi)

/-- The flags behind the comparison of two elements. -/
def compared (lhs rhs : U64) (ctx : CpuContext) : CpuContext :=
  let lhs := lhs.setWidth inst.operandSize
  let rhs := rhs.setWidth inst.operandSize
  { ctx with rflags := compareFlags ctx.rflags lhs rhs }

/-- The CPU behind one element of the instruction. -/
def element (cpu : Cpu) : Except Cpu Cpu :=
  match inst.op with
  | .movs => do
    cpu.validAddress (inst.sourceAddress cpu.context) inst.sourceSegment
    cpu.validAddress (inst.destAddress cpu.context) .es
    let value ← cpu.loadAt inst.bytes (inst.sourceAddress cpu.context)
    let stored ← cpu.storedAt inst.bytes (inst.destAddress cpu.context) value
    return stored.edit fun ctx => inst.nextDest (inst.nextSource ctx)
  | .cmps => do
    cpu.validAddress (inst.sourceAddress cpu.context) inst.sourceSegment
    cpu.validAddress (inst.destAddress cpu.context) .es
    let source ← cpu.loadAt inst.bytes (inst.sourceAddress cpu.context)
    let dest ← cpu.loadAt inst.bytes (inst.destAddress cpu.context)
    return cpu.edit fun ctx => inst.nextDest (inst.nextSource (inst.compared source dest ctx))
  | .stos => do
    let stored ← cpu.storedAt inst.bytes (inst.destAddress cpu.context)
      (readAccumulator inst.operandSize cpu.context)
    return stored.edit inst.nextDest
  | .lods => do
    cpu.validAddress (inst.sourceAddress cpu.context) inst.sourceSegment
    let value ← cpu.loadAt inst.bytes (inst.sourceAddress cpu.context)
    return cpu.edit fun ctx =>
      inst.nextSource (writeLodsAccumulator inst.operandSize ctx value)
  | .scas => do
    let value ← cpu.loadAt inst.bytes (inst.destAddress cpu.context)
    return cpu.edit fun ctx => inst.nextDest
      (inst.compared (readAccumulator inst.operandSize cpu.context) value ctx)

end StringInst

/-! ## Running an element -/

variable {cpu : Cpu}

/-- A part of an instruction that the code leaves when it is refused. -/
theorem run_unlessFault {α : Type} {p : CpuProgram α} {rest : α → CpuProgram Unit}
    {r : α × Cpu} (h : p.run viewOp cpu = r) :
    (do
      let x ← p
      if ← cpuHasException then return ()
      rest x : CpuProgram Unit).run viewOp cpu =
      if r.2.context.hasException then ((), r.2) else (rest r.1).run viewOp r.2 := by
  rw [Program.run_bind, h, Program.run_bind,
    show (cpuHasException).run viewOp r.2 = (r.2.context.hasException, r.2) from rfl]
  cases r.2.context.hasException <;> rfl

theorem run_validateLinearAddress (address : U64) (segment : SegmentRegisterIndex) :
    (validateLinearAddress address segment).run viewOp cpu =
      match cpu.validAddress address segment with
      | .error c => (false, c)
      | .ok _ => (true, cpu) := by
  unfold validateLinearAddress Cpu.validAddress
  rw [Program.run_bind, show (getContext).run viewOp cpu = (cpu.context, cpu) from rfl]
  simp only
  split_ifs <;> rfl

theorem clean_validAddress (hexc : cpu.context.hasException = false) (address : U64)
    (segment : SegmentRegisterIndex) : cpu.Clean (cpu.validAddress address segment) := by
  unfold Cpu.validAddress
  split_ifs
  · exact .error (failed_raised hexc _ _)
  · exact .error (failed_raised hexc _ _)
  · exact .ok ()

theorem run_readMemoryByte (hexc : cpu.context.hasException = false) (address : U64) :
    (readMemoryByte address).run viewOp cpu =
      match cpu.loadAt 1 address with
      | .error c => (0, c)
      | .ok value => (value.setWidth 8, cpu) := by
  unfold readMemoryByte
  rw [Program.run_bind, run_cpuResolve hexc]
  unfold Cpu.loadAt Cpu.operandPtrs
  rw [show address + 0 = address from BitVec.add_zero address]
  cases cpu.dataPtr false address with
  | none => rfl
  | some p =>
    have hloaded : loadValue cpu.memory.host [p] =
        ((cpu.memory.host.read p).getD 0).setWidth 64 := BitVec.or_zero
    refine Prod.ext ?_ rfl
    show (cpu.memory.host.read p).getD 0 = (loadValue cpu.memory.host [p]).setWidth 8
    rw [hloaded, BitVec.setWidth_setWidth_of_le _ (by decide), BitVec.setWidth_eq]

theorem run_writeMemoryByte (hexc : cpu.context.hasException = false) (address : U64)
    (value : U8) :
    (writeMemoryByte address value).run viewOp cpu =
      match cpu.slotPtrs address 1 with
      | .error c => ((), c)
      | .ok ptrs => ((), cpu.setHost (storeBytes cpu.memory.host ptrs (value.setWidth 64))) := by
  unfold writeMemoryByte
  rw [Program.run_bind, run_cpuResolve hexc]
  unfold Cpu.slotPtrs Cpu.operandPtrs
  rw [show address + 0 = address from BitVec.add_zero address]
  cases cpu.dataPtr true address with
  | none => rfl
  | some p =>
    have hstored : storeBytes cpu.memory.host [p] (value.setWidth 64) =
        cpu.memory.host.write p value := by
      simp only [storeBytes]
      rw [BitVec.setWidth_setWidth_of_le _ (by decide), BitVec.setWidth_eq]
    show _ = ((), cpu.setHost (storeBytes cpu.memory.host [p] (value.setWidth 64)))
    rw [hstored]
    rfl

/-- The sizes of elements. -/
theorem StringInst.eight_le (inst : StringInst) : 8 ≤ inst.operandSize := by
  have := inst.operandSize_ok
  omega

/-- **A load** of an operand of some size. -/
theorem run_readStringValue (hm : ManagerOk cpu.memory) (hexc : cpu.context.hasException = false)
    {operandSize : ℕ} (hsize : 8 ≤ operandSize) (address : U64) :
    (readStringValue address operandSize).run viewOp cpu =
      match cpu.loadAt (operandSize / 8) address with
      | .error c => (0, c)
      | .ok value => (value, cpu) := by
  unfold readStringValue
  by_cases hbyte : operandSize = 8
  · rw [if_pos hbyte, Program.run_bind, run_readMemoryByte hexc, hbyte]
    cases hload : cpu.loadAt 1 address with
    | error c => rfl
    | ok value =>
      have hlt : value.toNat < 2 ^ 8 := loadAt_lt hload
      have hvalue : (value.setWidth 8).setWidth 64 = value := by
        apply BitVec.eq_of_toNat_eq
        rw [BitVec.toNat_setWidth, BitVec.toNat_setWidth]
        omega
      change ((value.setWidth 8).setWidth 64, cpu) = (value, cpu)
      rw [hvalue]
  · rw [if_neg hbyte]
    refine (run_readMemory_loadAt hm hexc (by omega) address).trans ?_
    cases cpu.loadAt (operandSize / 8) address <;> rfl

/-- **A store** of an operand of some size. -/
theorem run_writeStringValue (hm : ManagerOk cpu.memory) (hexc : cpu.context.hasException = false)
    {operandSize : ℕ} (hsize : 8 ≤ operandSize) (address value : U64) :
    (writeStringValue address operandSize value).run viewOp cpu =
      transferred (cpu.storedAt (operandSize / 8) address value) := by
  unfold writeStringValue Cpu.storedAt Cpu.slotPtrs
  by_cases hbyte : operandSize = 8
  · rw [if_pos hbyte, run_writeMemoryByte hexc, hbyte, Cpu.slotPtrs]
    cases hptrs : cpu.operandPtrs true address 1 0 with
    | error a => rfl
    | ok ptrs =>
      have hlength := operandPtrs_length 1 hptrs
      obtain ⟨p, rfl⟩ := List.length_eq_one_iff.mp hlength
      simp only [storeBytes]
      rw [BitVec.setWidth_setWidth_of_le _ (by decide), BitVec.setWidth_eq]
      rfl
  · rw [if_neg hbyte, run_writeMemory hm hexc (by omega)]
    cases cpu.operandPtrs true address (operandSize / 8) 0 <;> rfl

theorem clean_storedAt (hexc : cpu.context.hasException = false) (size : ℕ)
    (address value : U64) : cpu.Clean (cpu.storedAt size address value) :=
  (clean_slotPtrs hexc _ _).bind fun _ _ => .ok _

/-- The check of an address in front of the rest of an instruction. -/
theorem run_validated {address : U64} {segment : SegmentRegisterIndex} {rest : CpuProgram Unit}
    {next : Except Cpu Cpu} (hrest : rest.run viewOp cpu = transferred next) :
    (do
      if !(← validateLinearAddress address segment) then return ()
      rest : CpuProgram Unit).run viewOp cpu =
      transferred (do
        cpu.validAddress address segment
        next) := by
  rw [Program.run_bind, run_validateLinearAddress]
  cases cpu.validAddress address segment with
  | error c => rfl
  | ok u => exact hrest

/-- The load of an operand in front of the rest of an instruction. -/
theorem run_loaded (hm : ManagerOk cpu.memory) (hexc : cpu.context.hasException = false)
    {operandSize : ℕ} (hsize : 8 ≤ operandSize) {address : U64} {rest : U64 → CpuProgram Unit}
    {next : U64 → Except Cpu Cpu}
    (hrest : ∀ value, (rest value).run viewOp cpu = transferred (next value)) :
    (do
      let value ← readStringValue address operandSize
      if ← cpuHasException then return ()
      rest value : CpuProgram Unit).run viewOp cpu =
      transferred (do
        let value ← cpu.loadAt (operandSize / 8) address
        next value) := by
  rw [run_unlessFault (run_readStringValue hm hexc hsize address)]
  have hclean := clean_loadAt hexc (operandSize / 8) address
  cases hload : cpu.loadAt (operandSize / 8) address with
  | error c =>
    rw [hload] at hclean
    cases hclean with
    | error hfailed =>
      simp only
      rw [if_pos hfailed.pending]
      rfl
  | ok value =>
    simp only
    rw [if_neg (by rw [hexc]; decide)]
    exact hrest value

/-- The store of an operand in front of the rest of an instruction. -/
theorem run_stored (hm : ManagerOk cpu.memory) (hexc : cpu.context.hasException = false)
    {operandSize : ℕ} (hsize : 8 ≤ operandSize) {address value : U64} {rest : CpuProgram Unit}
    {next : Cpu → Cpu}
    (hrest : ∀ host, rest.run viewOp (cpu.setHost host) = ((), next (cpu.setHost host))) :
    (do
      writeStringValue address operandSize value
      if ← cpuHasException then return ()
      rest : CpuProgram Unit).run viewOp cpu =
      transferred (do
        let stored ← cpu.storedAt (operandSize / 8) address value
        return next stored) := by
  have hrun := @run_unlessFault cpu Unit (writeStringValue address operandSize value)
    (fun _ => rest) _ (run_writeStringValue hm hexc hsize address value)
  refine hrun.trans ?_
  have hclean := clean_storedAt hexc (operandSize / 8) address value
  cases hstored : cpu.storedAt (operandSize / 8) address value with
  | error c =>
    rw [hstored] at hclean
    cases hclean with
    | error hfailed =>
      change (if c.context.hasException = true then ((), c) else rest.run viewOp c) = ((), c)
      rw [if_pos hfailed.pending]
  | ok stored =>
    obtain ⟨host, rfl⟩ : ∃ host, stored = cpu.setHost host := by
      unfold Cpu.storedAt at hstored
      obtain ⟨ptrs, -, h⟩ := ok_bind_iff.mp hstored
      exact ⟨_, (Except.ok.inj h).symm⟩
    change (if cpu.context.hasException = true then ((), cpu.setHost host)
      else rest.run viewOp (cpu.setHost host)) = _
    rw [if_neg (by rw [hexc]; decide), hrest]
    rfl

/-! ## The five instructions -/

/-- Changes of the registers behind an element. -/
theorem run_modified (cpu : Cpu) {f : CpuContext → CpuContext} {ctx : CpuContext}
    (h : cpu.context.keepMode (f cpu.context) = ctx) :
    (modifyContext f).run viewOp cpu = ((), { cpu with context := ctx }) := by
  subst h
  rfl

theorem operandSize_ge (inst : StringInst) : 8 ≤ inst.operandSize := by
  have := inst.operandSize_ok
  omega

/-- The accumulator is one register, and not an index. -/
theorem writeLodsAccumulator_eq (operandSize : ℕ) (ctx : CpuContext) (value : U64) :
    ∃ rax, writeLodsAccumulator operandSize ctx value =
      { ctx with regs := Function.update ctx.regs regRax rax } := by
  unfold writeLodsAccumulator
  split_ifs
  · exact ⟨_, rfl⟩
  · exact ⟨_, rfl⟩

/-- **One element** of a string instruction runs as the function says. -/
theorem run_executeIteration (hm : ManagerOk cpu.memory)
    (hexc : cpu.context.hasException = false) (inst : StringInst) :
    inst.executeIteration.run viewOp cpu = transferred (inst.element cpu) := by
  have hcontext : (getContext).run viewOp cpu = (cpu.context, cpu) := rfl
  unfold StringInst.executeIteration StringInst.element
  cases inst.op with
  | movs =>
    simp only [StringInst.executeMovs]
    rw [Program.run_bind, hcontext]
    refine run_validated (run_validated (run_loaded hm hexc inst.eight_le fun value => ?_))
    exact run_stored hm hexc inst.eight_le fun host => rfl
  | cmps =>
    simp only [StringInst.executeCmps]
    rw [Program.run_bind, hcontext]
    refine run_validated (run_validated (run_loaded hm hexc inst.eight_le fun source => ?_))
    refine run_loaded hm hexc inst.eight_le fun dest => ?_
    rw [Program.run_bind, @run_modified cpu _ (inst.compared source dest cpu.context)]
    · rfl
    · rw [updateCmpsFlags, updateFlagsCompare_eq hexc (operandSize_ge inst)]
      rfl
  | stos =>
    simp only [StringInst.executeStos]
    rw [Program.run_bind, hcontext]
    exact run_stored hm hexc inst.eight_le fun host => rfl
  | lods =>
    simp only [StringInst.executeLods]
    rw [Program.run_bind, hcontext]
    refine run_validated (run_loaded hm hexc inst.eight_le fun value => ?_)
    obtain ⟨rax, hrax⟩ := writeLodsAccumulator_eq inst.operandSize cpu.context value
    rw [Program.run_bind,
      @run_modified cpu _ (writeLodsAccumulator inst.operandSize cpu.context value)]
    · unfold Cpu.edit
      simp only [hrax]
      rfl
    · rw [hrax]
      rfl
  | scas =>
    simp only [StringInst.executeScas]
    rw [Program.run_bind, hcontext]
    refine run_loaded hm hexc inst.eight_le fun value => ?_
    rw [Program.run_bind, @run_modified cpu _
      (inst.compared (readAccumulator inst.operandSize cpu.context) value cpu.context)]
    · rfl
    · rw [updateScasFlags, updateFlagsCompare_eq hexc (operandSize_ge inst)]
      rfl

end Cpueaxh
