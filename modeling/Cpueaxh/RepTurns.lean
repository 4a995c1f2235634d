/-
# Repeated string instructions

The loop of a repeat prefix makes one element after the other, each one with the count
register one less.  It ends behind the element that uses up the count or that the flags
end, or at an element that is refused, and then in the registers and the memory behind
the elements before it.
-/
import Cpueaxh.StringElement
import Cpueaxh.Repetition
import Cpueaxh.RegisterWords

namespace Cpueaxh

open HostMemory Repetition

variable {cpu : Cpu}

/-! ## Behind the decoder -/

/-- What the decoder of a string instruction leaves in the context. -/
def StringPrefix.leave (pre : StringPrefix) (override : ℤ) (ctx : CpuContext) : CpuContext :=
  { ctx with
    prefixBits := pre.bits
    lastInstSize := pre.size
    segmentOverride := override }

/-- The CPU behind the decoder of a string instruction. -/
def Cpu.prepared (pre : StringPrefix) (override : ℤ) (cpu : Cpu) : Cpu :=
  cpu.edit (pre.leave override)

section Prepared

variable {pre : StringPrefix} {override : ℤ}

theorem raiseException_leave (ctx : CpuContext) (code errorCode : U32) :
    (pre.leave override ctx).raiseException code errorCode =
      pre.leave override (ctx.raiseException code errorCode) := by
  have hexc : (pre.leave override ctx).hasException = ctx.hasException := rfl
  unfold CpuContext.raiseException
  rw [hexc]
  split_ifs <;> rfl

theorem raised_prepared (fault : RaisedFault) (errorCode : U32) :
    (cpu.prepared pre override).raised fault errorCode =
      (cpu.raised fault errorCode).prepared pre override :=
  congrArg (fun ctx => { cpu with context := ctx })
    (raiseException_leave cpu.context fault.code errorCode)

theorem cpuRaisePageFault_leave (ctx : CpuContext) (address : U64) (access : Access)
    (violation : Bool) :
    cpuRaisePageFault (pre.leave override ctx) address access violation =
      pre.leave override (cpuRaisePageFault ctx address access violation) :=
  raiseException_leave
    { ctx with controlRegs := Function.update ctx.controlRegs regCr2 address } cpuExceptionPf
    (cpuMakePageFaultError ctx access violation)

theorem writeLodsAccumulator_leave (operandSize : ℕ) (ctx : CpuContext) (value : U64) :
    writeLodsAccumulator operandSize (pre.leave override ctx) value =
      pre.leave override (writeLodsAccumulator operandSize ctx value) := by
  unfold writeLodsAccumulator
  split_ifs <;> rfl

theorem refused_prepared (store : Bool) (address : U64) :
    (cpu.prepared pre override).refused store address =
      (cpu.refused store address).prepared pre override := by
  have hexc : (cpu.prepared pre override).context.hasException = cpu.context.hasException := rfl
  have hcode : (cpu.prepared pre override).context.is64BitCode = cpu.context.is64BitCode := rfl
  have huser : (cpu.prepared pre override).context.isUser = cpu.context.isUser := rfl
  have hmemory : (cpu.prepared pre override).memory = cpu.memory := rfl
  unfold Cpu.refused accessOutcome
  simp only [hexc, hcode, huser, hmemory]
  split_ifs
  · rfl
  · exact raised_prepared .gp 0
  · cases judgeAccess cpu.context.isUser
      (accessView cpu.memory address (dataAccess store).perm) with
    | ok ptr => rfl
    | error violation =>
      exact congrArg (fun ctx => { cpu with
        context := ctx
        asked := (faultOutcome cpu.hooks (dataAccess store) violation 4 cpu.asked).2 })
        (cpuRaisePageFault_leave cpu.context address (dataAccess store)
          (faultOutcome cpu.hooks (dataAccess store) violation 4 cpu.asked).1)

theorem operandPtrs_prepared (store : Bool) (address : U64) (left : ℕ) : ∀ offset,
    (cpu.prepared pre override).operandPtrs store address left offset =
      cpu.operandPtrs store address left offset :=
  @operandPtrs_congr cpu store address (cpu.prepared pre override) (fun _ => rfl) left

theorem bind_onBoth {α β γ : Type} {f : Cpu → Cpu} {g : α → α} {h : β → γ} {e : Except Cpu α}
    {k : α → Except Cpu β} {k' : α → Except Cpu γ} (hk : ∀ a, k' (g a) = onBoth f h (k a)) :
    (onBoth f g e >>= k') = onBoth f h (e >>= k) := by
  cases e with
  | error c => rfl
  | ok a => exact hk a

theorem validAddress_prepared (address : U64) (segment : SegmentRegisterIndex) :
    (cpu.prepared pre override).validAddress address segment =
      onBoth (Cpu.prepared pre override) id (cpu.validAddress address segment) := by
  have hcode : (cpu.prepared pre override).context.is64BitCode = cpu.context.is64BitCode := rfl
  unfold Cpu.validAddress
  rw [hcode, raised_prepared]
  split_ifs <;> rfl

theorem loadAt_prepared (size : ℕ) (address : U64) :
    (cpu.prepared pre override).loadAt size address =
      onBoth (Cpu.prepared pre override) id (cpu.loadAt size address) := by
  unfold Cpu.loadAt
  rw [operandPtrs_prepared]
  cases cpu.operandPtrs false address size 0 with
  | error a => exact congrArg Except.error (refused_prepared false a)
  | ok ptrs => rfl

theorem storedAt_prepared (size : ℕ) (address value : U64) :
    (cpu.prepared pre override).storedAt size address value =
      onBoth (Cpu.prepared pre override) (Cpu.prepared pre override)
        (cpu.storedAt size address value) := by
  unfold Cpu.storedAt Cpu.slotPtrs
  rw [operandPtrs_prepared]
  cases cpu.operandPtrs true address size 0 with
  | error a => exact congrArg Except.error (refused_prepared true a)
  | ok ptrs => rfl

/-- **An element** does not see what the decoder has left behind. -/
theorem element_prepared (inst : StringInst) (cpu : Cpu) :
    inst.element (cpu.prepared pre override) =
      onBoth (Cpu.prepared pre override) (Cpu.prepared pre override) (inst.element cpu) := by
  have hsource : inst.sourceAddress (cpu.prepared pre override).context =
    inst.sourceAddress cpu.context := rfl
  have hdest : inst.destAddress (cpu.prepared pre override).context =
    inst.destAddress cpu.context := rfl
  have haccumulator : readAccumulator inst.operandSize (cpu.prepared pre override).context =
    readAccumulator inst.operandSize cpu.context := rfl
  unfold StringInst.element
  cases inst.op with
  | movs =>
    simp only [hsource, hdest, validAddress_prepared, loadAt_prepared, storedAt_prepared]
    refine bind_onBoth fun _ => bind_onBoth fun _ => bind_onBoth fun value => ?_
    exact bind_onBoth fun stored => rfl
  | cmps =>
    simp only [hsource, hdest, validAddress_prepared, loadAt_prepared]
    refine bind_onBoth fun _ => bind_onBoth fun _ => ?_
    exact bind_onBoth fun source => bind_onBoth fun dest => rfl
  | stos =>
    simp only [hdest, haccumulator, storedAt_prepared]
    exact bind_onBoth fun stored => rfl
  | lods =>
    simp only [hsource, validAddress_prepared, loadAt_prepared]
    refine bind_onBoth fun _ => bind_onBoth fun value => ?_
    have hload := @writeLodsAccumulator_leave pre override inst.operandSize cpu.context value
    exact congrArg (fun ctx => Except.ok { cpu with context := inst.nextSource ctx }) hload
  | scas =>
    simp only [hdest, haccumulator, loadAt_prepared]
    exact bind_onBoth fun value => rfl

end Prepared

/-! ## Index registers behind several moves -/

/-- A register of an address size behind `k` moves by `delta`. -/
def displaced (size : ℕ) (old delta : U64) (k : ℕ) : U64 :=
  if k = 0 then old else regMerge size old (truncateTo size old + BitVec.ofNat 64 k * delta)

/-- One move more. -/
theorem displaced_succ {size : ℕ} (hsize : size = 16 ∨ size = 32 ∨ size = 64)
    (old delta : U64) (k : ℕ) :
    displaced size old delta (k + 1) = regMerge size (displaced size old delta k)
      (truncateTo size (displaced size old delta k) + delta) := by
  have hone : BitVec.ofNat 64 (k + 1) * delta = BitVec.ofNat 64 k * delta + delta := by
    rw [BitVec.ofNat_add, BitVec.add_mul, BitVec.one_mul]
  unfold displaced
  rw [if_neg k.succ_ne_zero, hone]
  by_cases hk : k = 0
  · subst hk
    rw [if_pos rfl, show BitVec.ofNat 64 0 * delta = 0#64 from BitVec.zero_mul,
      BitVec.zero_add]
  · rw [if_neg hk, truncateTo_regMerge hsize, regMerge_regMerge hsize,
      regMerge_truncateTo_add hsize old (_ + _), BitVec.add_assoc]

/-! ## Elements and turns -/

namespace StringOp

/-- The instructions with a source index, and those with a destination index. -/
def usesSource : StringOp → Bool
  | .movs | .cmps | .lods => true
  | .stos | .scas => false

def usesDest : StringOp → Bool
  | .movs | .cmps | .stos | .scas => true
  | .lods => false

end StringOp

namespace StringInst

variable (inst : StringInst)

/-- What an element adds to an index register. -/
def delta (ctx : CpuContext) : U64 :=
  if ctx.rflags &&& rflagsDf != 0 then -inst.step else inst.step

/-- The CPU `c` behind `k` turns from the CPU `s`: besides the registers, the flags and
the bytes of the memory nothing is changed, the index registers and the count have moved,
and the other registers but the accumulator of `LODS` are as before. -/
structure Behind (k : ℕ) (s c : Cpu) : Prop where
  same : ∃ regs rflags host, c = { s with
    context := { s.context with regs := regs, rflags := rflags }
    memory := s.memory.setHost host }
  direction : c.context.rflags &&& rflagsDf = s.context.rflags &&& rflagsDf
  source : c.context.regs regRsi = if inst.op.usesSource
    then displaced inst.addressSize (s.context.regs regRsi) (inst.delta s.context) k
    else s.context.regs regRsi
  dest : c.context.regs regRdi = if inst.op.usesDest
    then displaced inst.addressSize (s.context.regs regRdi) (inst.delta s.context) k
    else s.context.regs regRdi
  count : c.context.regs regRcx = displaced inst.addressSize (s.context.regs regRcx) (-1) k
  others : ∀ reg, reg ≠ regRsi → reg ≠ regRdi → reg ≠ regRcx →
    (reg = regRax → inst.op ≠ .lods) → c.context.regs reg = s.context.regs reg

/-- One turn of the repetition: an element, and one less to go. -/
def turn (cpu : Cpu) : Except Cpu Cpu := do
  let next ← inst.element cpu
  return next.edit fun ctx => inst.setRepCount ctx (inst.getRepCount ctx - 1)

/-- The repetition under a prefix. -/
def repetition (rep : RepPrefix) : Body Cpu Cpu where
  turn := inst.turn
  stop := fun cpu => inst.stops rep cpu.context

end StringInst

/-- A flag other than `DF` leaves `DF` alone. -/
theorem withFlag_df (rflags : U64) {flag : U64} (hflag : flag &&& rflagsDf = 0) (value : Bool) :
    withFlag rflags flag value &&& rflagsDf = rflags &&& rflagsDf := by
  have hbit : ∀ i (hi : i < 64), (flag[i] && rflagsDf[i]) = false := by
    intro i hi
    rw [← BitVec.getElem_and, hflag]
    exact BitVec.getElem_zero hi
  unfold withFlag
  cases value with
  | true =>
    ext i hi
    have := hbit i hi
    simp only [if_true, BitVec.getElem_and, BitVec.getElem_or]
    revert this
    cases flag[i] <;> cases rflagsDf[i] <;> simp
  | false =>
    ext i hi
    have := hbit i hi
    simp only [Bool.false_eq_true, if_false, BitVec.getElem_and, BitVec.getElem_not]
    revert this
    cases flag[i] <;> cases rflagsDf[i] <;> simp

theorem compareFlags_df {w : ℕ} (rflags : U64) (lhs rhs : BitVec w) :
    compareFlags rflags lhs rhs &&& rflagsDf = rflags &&& rflagsDf := by
  unfold compareFlags
  simp only [List.foldl_cons, List.foldl_nil]
  rw [withFlag_df _ (by decide), withFlag_df _ (by decide), withFlag_df _ (by decide),
    withFlag_df _ (by decide), withFlag_df _ (by decide), withFlag_df _ (by decide)]

namespace StringInst

variable {inst : StringInst} {s t u : Cpu} {k : ℕ}

/-- The value of an index register behind an element. -/
def movedIndex (inst : StringInst) (ctx : CpuContext) (reg : Fin 16) : U64 :=
  regMerge inst.addressSize (ctx.regs reg)
    (truncateTo inst.addressSize (ctx.regs reg) + inst.delta ctx)

theorem advance_index (ctx : CpuContext) (reg : Fin 16) :
    inst.advance ctx reg (getReg inst.addressSize ctx reg) =
      { ctx with regs := Function.update ctx.regs reg (inst.movedIndex ctx reg) } := by
  have hstep : stepIndex ctx (getReg inst.addressSize ctx reg) inst.step =
      truncateTo inst.addressSize (ctx.regs reg) + inst.delta ctx := by
    unfold stepIndex delta getReg
    split_ifs
    · exact BitVec.sub_eq_add_neg _ _
    · rfl
  unfold advance setReg movedIndex
  rw [hstep]

/-- The index registers behind an element. -/
def indexed (inst : StringInst) (ctx : CpuContext) : CpuContext :=
  let ctx := if inst.op.usesSource then inst.nextSource ctx else ctx
  if inst.op.usesDest then inst.nextDest ctx else ctx

/-- An element moves its index registers, behind a change of the flags, of the memory and,
for `LODS`, of the accumulator. -/
theorem element_indexed {c : Cpu} (h : inst.element s = .ok c) :
    ∃ regs rflags host, rflags &&& rflagsDf = s.context.rflags &&& rflagsDf ∧
      (∀ reg, (reg = regRax → inst.op ≠ .lods) → regs reg = s.context.regs reg) ∧
      c = { s with
        context := inst.indexed { s.context with regs := regs, rflags := rflags }
        memory := s.memory.setHost host } := by
  have hstored : ∀ {size address value} {stored : Cpu},
      s.storedAt size address value = .ok stored → ∃ host, stored = s.setHost host := by
    intro size address value stored h
    unfold Cpu.storedAt at h
    obtain ⟨ptrs, -, h⟩ := ok_bind_iff.mp h
    exact ⟨_, (Except.ok.inj h).symm⟩
  unfold StringInst.element at h
  unfold indexed
  cases hop : inst.op with
  | movs =>
    simp only [hop, ok_bind_iff] at h
    obtain ⟨_, -, _, -, value, -, stored, hs, h⟩ := h
    obtain ⟨host, rfl⟩ := hstored hs
    cases h
    exact ⟨_, _, host, rfl, fun _ _ => rfl, rfl⟩
  | cmps =>
    simp only [hop, ok_bind_iff] at h
    obtain ⟨_, -, _, -, source, -, dest, -, h⟩ := h
    cases h
    exact ⟨_, _, s.memory.host, compareFlags_df _ _ _, fun _ _ => rfl, rfl⟩
  | stos =>
    simp only [hop, ok_bind_iff] at h
    obtain ⟨stored, hs, h⟩ := h
    obtain ⟨host, rfl⟩ := hstored hs
    cases h
    exact ⟨_, _, host, rfl, fun _ _ => rfl, rfl⟩
  | lods =>
    simp only [hop, ok_bind_iff] at h
    obtain ⟨_, -, value, -, h⟩ := h
    obtain ⟨rax, hrax⟩ := writeLodsAccumulator_eq inst.operandSize s.context value
    cases h
    refine ⟨Function.update s.context.regs regRax rax, s.context.rflags, s.memory.host, rfl,
      fun reg hreg => ?_, ?_⟩
    · refine Function.update_of_ne ?_ _ _
      rintro rfl
      exact hreg rfl rfl
    · exact congrArg (fun ctx => { s with context := inst.nextSource ctx }) hrax
  | scas =>
    simp only [hop, ok_bind_iff] at h
    obtain ⟨value, -, h⟩ := h
    cases h
    exact ⟨_, _, s.memory.host, compareFlags_df _ _ _, fun _ _ => rfl, rfl⟩

theorem delta_congr {ctx ctx' : CpuContext}
    (h : ctx'.rflags &&& rflagsDf = ctx.rflags &&& rflagsDf) : inst.delta ctx' = inst.delta ctx := by
  unfold delta
  rw [h]

/-- An index register that an element may move. -/
theorem advance_if (inst : StringInst) (ctx : CpuContext) (moved : Fin 16) (uses : Bool) :
    ∃ regs, (if uses then inst.advance ctx moved (getReg inst.addressSize ctx moved) else ctx) =
        { ctx with regs := regs } ∧
      regs moved = (if uses then inst.movedIndex ctx moved else ctx.regs moved) ∧
      ∀ reg, reg ≠ moved → regs reg = ctx.regs reg := by
  cases uses with
  | true =>
    exact ⟨_, advance_index ctx moved, Function.update_self _ _ _,
      fun reg hreg => Function.update_of_ne hreg _ _⟩
  | false => exact ⟨ctx.regs, rfl, rfl, fun _ _ => rfl⟩

/-- The registers behind an element. -/
theorem indexed_eq (inst : StringInst) (ctx : CpuContext) :
    ∃ regs, inst.indexed ctx = { ctx with regs := regs } ∧
      regs regRsi = (if inst.op.usesSource then inst.movedIndex ctx regRsi
        else ctx.regs regRsi) ∧
      regs regRdi = (if inst.op.usesDest then inst.movedIndex ctx regRdi
        else ctx.regs regRdi) ∧
      ∀ reg, reg ≠ regRsi → reg ≠ regRdi → regs reg = ctx.regs reg := by
  have hne : regRsi ≠ regRdi := by decide
  obtain ⟨between, hbetween, hsource, hkept⟩ :=
    inst.advance_if ctx regRsi inst.op.usesSource
  obtain ⟨regs, hregs, hdest, hkept'⟩ :=
    inst.advance_if { ctx with regs := between } regRdi inst.op.usesDest
  have hmoved : inst.movedIndex { ctx with regs := between } regRdi =
      inst.movedIndex ctx regRdi := by
    show regMerge _ (between regRdi) (truncateTo _ (between regRdi) + _) = _
    rw [hkept _ hne.symm]
    rfl
  refine ⟨regs, ?_, (hkept' _ hne).trans hsource, ?_, fun reg hsi hdi => ?_⟩
  · unfold indexed nextSource nextDest
    simp only
    rw [hbetween, hregs]
  · rw [hdest, hmoved]
    exact congrArg (fun old => if inst.op.usesDest = true then _ else old) (hkept _ hne.symm)
  · exact (hkept' _ hdi).trans (hkept _ hsi)

/-- **One turn** more. -/
theorem Behind.turn (h : inst.Behind k s t) (hturn : inst.turn t = .ok u) :
    inst.Behind (k + 1) s u := by
  obtain ⟨c, helement, hu⟩ := ok_bind_iff.mp hturn
  obtain ⟨regs, rflags, host, hdf, hregs, rfl⟩ := element_indexed helement
  obtain ⟨regs', hindexed, hsource, hdest, hkept⟩ :=
    inst.indexed_eq { t.context with regs := regs, rflags := rflags }
  rw [hindexed] at hu
  have hu := (Except.ok.inj hu).symm
  have hdelta : inst.delta t.context = inst.delta s.context := delta_congr h.direction
  have hsize := inst.addressSize_ok
  have hother : ∀ {reg}, reg ≠ regRax → regs reg = t.context.regs reg := fun hne =>
    hregs _ fun hrax => absurd hrax hne
  -- an index register of the element is the one of the turns before, moved once more
  have hmoved : ∀ {reg old}, reg ≠ regRax →
      t.context.regs reg = displaced inst.addressSize old (inst.delta s.context) k →
      inst.movedIndex { t.context with regs := regs, rflags := rflags } reg =
        displaced inst.addressSize old (inst.delta s.context) (k + 1) := by
    intro reg old hne hreg
    have hsame : regs reg = t.context.regs reg := hother hne
    have hstep : inst.delta { t.context with regs := regs, rflags := rflags } =
      inst.delta s.context := (delta_congr hdf).trans hdelta
    show regMerge _ (regs reg) (truncateTo _ (regs reg) + _) = _
    rw [hsame, hreg, hstep, displaced_succ hsize]
  have hcx : ∀ reg, reg ≠ regRcx → u.context.regs reg = regs' reg := by
    intro reg hreg
    rw [hu]
    exact Function.update_of_ne hreg _ _
  have hrcx : u.context.regs regRcx = regMerge inst.addressSize (regs' regRcx)
      (truncateTo inst.addressSize (regs' regRcx) - 1) := by
    rw [hu]
    exact Function.update_self regRcx _ regs'
  obtain ⟨regs₀, rflags₀, host₀, rfl⟩ := h.same
  refine ⟨?_, ?_, ?_, ?_, ?_, ?_⟩
  · rw [hu]
    exact ⟨_, rflags, host, rfl⟩
  · rw [hu]
    exact hdf.trans h.direction
  · rw [hcx _ (by decide), hsource]
    split_ifs with huses
    · refine hmoved (by decide) ?_
      rw [h.source, if_pos huses]
    · refine (hother (by decide)).trans ?_
      rw [h.source, if_neg huses]
  · rw [hcx _ (by decide), hdest]
    split_ifs with huses
    · refine hmoved (by decide) ?_
      rw [h.dest, if_pos huses]
    · refine (hother (by decide)).trans ?_
      rw [h.dest, if_neg huses]
  · have hcount : regs' regRcx = displaced inst.addressSize (s.context.regs regRcx) (-1) k :=
      (hkept _ (by decide) (by decide)).trans ((hother (by decide)).trans h.count)
    rw [hrcx, hcount, displaced_succ hsize, BitVec.sub_eq_add_neg]
  · intro reg hsi hdi hne hrax
    rw [hcx _ hne, hkept _ hsi hdi]
    exact (hregs _ hrax).trans (h.others _ hsi hdi hne hrax)

/-- **The CPU behind some turns.** -/
theorem behind_turns {rep : RepPrefix} (h : (inst.repetition rep).Turns k s t) :
    inst.Behind k s t := by
  induction h with
  | zero s =>
    have hzero : ∀ old delta, displaced inst.addressSize old delta 0 = old := fun _ _ => if_pos rfl
    exact ⟨⟨_, _, s.memory.host, rfl⟩, rfl, by rw [hzero, ite_self], by rw [hzero, ite_self],
      (hzero _ _).symm, fun _ _ _ _ _ => rfl⟩
  | succ _ _ turn ih => exact ih.turn turn

end StringInst

end Cpueaxh
