/-
# Restarting repeated string instructions

A repeated string instruction that is refused at some element stands behind the elements
before it.  When what refused it is repaired and it is stepped over again, it ends in the
state in which it would have ended if nothing had been refused from the start.
-/
import Cpueaxh.RepSteps

namespace Cpueaxh

open HostMemory Repetition

/-! ## Mirrored runs -/

/-- Two contexts that differ in the exception record, `CR2` and the segment override at
most. -/
def CpuContext.Alike (ctx ctx' : CpuContext) : Prop :=
  ∃ exception cr2 override, ctx' = { ctx with
    exception := exception
    controlRegs := Function.update ctx.controlRegs regCr2 cr2
    segmentOverride := override }

/-- The CPU `t` mirrors the CPU `s`: it grants what `s` grants, through pointers of a kind
`G`, and has the same bytes behind them; behind the other pointers it has some fixed bytes. -/
structure Mirrors (G : HostPtr → Prop) (base : HostPtr → Option U8) (s t : Cpu) : Prop where
  context : s.context.Alike t.context
  grants : ∀ {store address p}, s.dataPtr store address = some p →
    t.dataPtr store address = some p ∧ G p
  reads : ∀ p, G p → t.memory.host.read p = s.memory.host.read p
  outside : ∀ p, ¬ G p → t.memory.host.read p = base p

theorem CpuContext.Alike.refl (ctx : CpuContext) : ctx.Alike ctx :=
  ⟨ctx.exception, ctx.controlRegs regCr2, ctx.segmentOverride, by rw [Function.update_eq_self]⟩

theorem CpuContext.Alike.euclid {ctx ctx₁ ctx₂ : CpuContext} (h₁ : ctx.Alike ctx₁)
    (h₂ : ctx.Alike ctx₂) : ctx₁.Alike ctx₂ := by
  obtain ⟨exception₁, cr2₁, override₁, rfl⟩ := h₁
  obtain ⟨exception₂, cr2₂, override₂, rfl⟩ := h₂
  refine ⟨exception₂, cr2₂, override₂, ?_⟩
  rw [Function.update_idem]

/-- Bytes that are stored on both sides are the same on both sides. -/
theorem read_storeBytes_congr (ptrs : List HostPtr) : ∀ {host host' : HostMemory} {value : U64}
    {p : HostPtr}, host'.read p = host.read p →
    (storeBytes host' ptrs value).read p = (storeBytes host ptrs value).read p := by
  induction ptrs with
  | nil => exact id
  | cons q rest ih =>
    intro host host' value p h
    refine ih ?_
    rw [read_write, read_write]
    split_ifs with hq
    · subst hq
      rw [h]
    · exact h

namespace Mirrors

variable {G : HostPtr → Prop} {base : HostPtr → Option U8} {s t : Cpu}

theorem operandPtrs (h : Mirrors G base s t) {store : Bool} {address : U64} (left : ℕ) :
    ∀ {offset : U64} {ptrs : List HostPtr}, s.operandPtrs store address left offset = .ok ptrs →
      t.operandPtrs store address left offset = .ok ptrs ∧ ∀ p ∈ ptrs, G p := by
  induction left with
  | zero =>
    intro offset ptrs hptrs
    cases hptrs
    exact ⟨rfl, fun _ hp => by cases hp⟩
  | succ left ih =>
    intro offset ptrs hptrs
    unfold Cpu.operandPtrs at hptrs ⊢
    cases hfirst : s.dataPtr store (address + offset) with
    | none =>
      rw [hfirst] at hptrs
      cases hptrs
    | some p =>
      rw [hfirst] at hptrs
      obtain ⟨hfirst', hp⟩ := h.grants hfirst
      cases hrest : s.operandPtrs store address left (offset + 1) with
      | error a =>
        simp only [hrest] at hptrs
        cases hptrs
      | ok rest =>
        simp only [hrest] at hptrs
        cases hptrs
        obtain ⟨hrest', hall⟩ := ih hrest
        rw [hfirst', hrest']
        refine ⟨rfl, fun q hq => ?_⟩
        cases hq with
        | head => exact hp
        | tail _ hq => exact hall q hq

theorem loadAt (h : Mirrors G base s t) {size : ℕ} {address value : U64}
    (hload : s.loadAt size address = .ok value) : t.loadAt size address = .ok value := by
  unfold Cpu.loadAt at hload ⊢
  cases hptrs : s.operandPtrs false address size 0 with
  | error a =>
    rw [hptrs] at hload
    cases hload
  | ok ptrs =>
    rw [hptrs] at hload
    obtain ⟨hptrs', hall⟩ := h.operandPtrs size hptrs
    rw [hptrs']
    exact (congrArg Except.ok (loadValue_congr fun p hp => h.reads p (hall p hp))).trans hload

theorem storedAt (h : Mirrors G base s t) {size : ℕ} {address value : U64} {s' : Cpu}
    (hstore : s.storedAt size address value = .ok s') :
    ∃ t', t.storedAt size address value = .ok t' ∧ Mirrors G base s' t' := by
  unfold Cpu.storedAt Cpu.slotPtrs at hstore ⊢
  cases hptrs : s.operandPtrs true address size 0 with
  | error a =>
    rw [hptrs] at hstore
    cases hstore
  | ok ptrs =>
    rw [hptrs] at hstore
    cases hstore
    obtain ⟨hptrs', hall⟩ := h.operandPtrs size hptrs
    rw [hptrs']
    refine ⟨_, rfl, h.context, h.grants, fun p hp => ?_, fun p hp => ?_⟩
    · exact read_storeBytes_congr ptrs (h.reads p hp)
    · refine (read_storeBytes ptrs t.memory.host value fun hmem => hp (hall p hmem)).trans ?_
      exact h.outside p hp

theorem validAddress (h : Mirrors G base s t) {address : U64} {segment : SegmentRegisterIndex}
    (hvalid : s.validAddress address segment = .ok ()) :
    t.validAddress address segment = .ok () := by
  have hcode : t.context.is64BitCode = s.context.is64BitCode := by
    obtain ⟨exception, cr2, override, hcontext⟩ := h.context
    rw [hcontext]
    rfl
  unfold Cpu.validAddress at hvalid ⊢
  rw [hcode]
  split_ifs at hvalid ⊢
  rfl

end Mirrors

/-- A change of registers and flags that does not see in what alike contexts differ. -/
structure Plain (f : CpuContext → CpuContext) : Prop where
  alike : ∀ {ctx ctx'}, ctx.Alike ctx' → (f ctx).Alike (f ctx')
  code : ∀ ctx, (f ctx).is64BitCode = ctx.is64BitCode
  user : ∀ ctx, (f ctx).isUser = ctx.isUser

theorem Plain.comp {f g : CpuContext → CpuContext} (hf : Plain f) (hg : Plain g) :
    Plain fun ctx => f (g ctx) where
  alike := fun h => hf.alike (hg.alike h)
  code := fun ctx => (hf.code _).trans (hg.code ctx)
  user := fun ctx => (hf.user _).trans (hg.user ctx)

namespace StringInst

variable (inst : StringInst)

theorem plain_nextSource : Plain inst.nextSource := by
  refine ⟨?_, fun _ => rfl, fun _ => rfl⟩
  rintro ctx _ ⟨exception, cr2, override, rfl⟩
  exact ⟨exception, cr2, override, rfl⟩

theorem plain_nextDest : Plain inst.nextDest := by
  refine ⟨?_, fun _ => rfl, fun _ => rfl⟩
  rintro ctx _ ⟨exception, cr2, override, rfl⟩
  exact ⟨exception, cr2, override, rfl⟩

theorem plain_compared (lhs rhs : U64) : Plain (inst.compared lhs rhs) := by
  refine ⟨?_, fun _ => rfl, fun _ => rfl⟩
  rintro ctx _ ⟨exception, cr2, override, rfl⟩
  exact ⟨exception, cr2, override, rfl⟩

theorem plain_lods (operandSize : ℕ) (value : U64) :
    Plain fun ctx => writeLodsAccumulator operandSize ctx value := by
  unfold writeLodsAccumulator
  refine ⟨?_, fun ctx => ?_, fun ctx => ?_⟩
  · rintro ctx _ ⟨exception, cr2, override, rfl⟩
    split_ifs
    · exact ⟨exception, cr2, override, rfl⟩
    · exact ⟨exception, cr2, override, rfl⟩
  · split_ifs <;> rfl
  · split_ifs <;> rfl

theorem plain_count :
    Plain fun ctx => inst.setRepCount ctx (inst.getRepCount ctx - 1) := by
  refine ⟨?_, fun _ => rfl, fun _ => rfl⟩
  rintro ctx _ ⟨exception, cr2, override, rfl⟩
  exact ⟨exception, cr2, override, rfl⟩

end StringInst

namespace Mirrors

variable {G : HostPtr → Prop} {base : HostPtr → Option U8} {s t : Cpu}

/-- Registers and flags that are changed on both sides. -/
theorem edit (h : Mirrors G base s t) {f : CpuContext → CpuContext} (hf : Plain f) :
    Mirrors G base (s.edit f) (t.edit f) := by
  have hptr : ∀ (c : Cpu) store address,
      (c.edit f).dataPtr store address = c.dataPtr store address := by
    intro c store address
    show grantedPtr (f c.context).is64BitCode (f c.context).isUser _ _ _ = _
    rw [hf.code, hf.user]
    rfl
  refine ⟨hf.alike h.context, fun hs => ?_, h.reads, h.outside⟩
  rw [hptr] at hs ⊢
  exact h.grants hs

/-- **An element** that is done on one side is done on the other. -/
theorem element (h : Mirrors G base s t) {inst : StringInst} {s' : Cpu}
    (hs : inst.element s = .ok s') : ∃ t', inst.element t = .ok t' ∧ Mirrors G base s' t' := by
  have hsource : inst.sourceAddress t.context = inst.sourceAddress s.context := by
    obtain ⟨exception, cr2, override, hcontext⟩ := h.context
    rw [hcontext]
    rfl
  have hdest : inst.destAddress t.context = inst.destAddress s.context := by
    obtain ⟨exception, cr2, override, hcontext⟩ := h.context
    rw [hcontext]
    rfl
  have haccumulator : readAccumulator inst.operandSize t.context =
      readAccumulator inst.operandSize s.context := by
    obtain ⟨exception, cr2, override, hcontext⟩ := h.context
    rw [hcontext]
    rfl
  -- both CPUs take the element at the same addresses, and differ in fields that it leaves alone
  have hboth := inst.plain_nextDest.comp inst.plain_nextSource
  unfold StringInst.element at hs ⊢
  rw [hsource, hdest, haccumulator]
  cases hop : inst.op with
  | movs =>
    simp only [hop, ok_bind_iff] at hs ⊢
    obtain ⟨_, hvalid, _, hvalid', value, hload, stored, hstore, hs⟩ := hs
    obtain ⟨stored', hstore', hmirrors⟩ := h.storedAt hstore
    cases hs
    exact ⟨_, ⟨(), h.validAddress hvalid, (), h.validAddress hvalid', value, h.loadAt hload,
      stored', hstore', rfl⟩, hmirrors.edit hboth⟩
  | cmps =>
    simp only [hop, ok_bind_iff] at hs ⊢
    obtain ⟨_, hvalid, _, hvalid', source, hload, dest, hload', hs⟩ := hs
    cases hs
    exact ⟨_, ⟨(), h.validAddress hvalid, (), h.validAddress hvalid', source, h.loadAt hload,
      dest, h.loadAt hload', rfl⟩, h.edit (hboth.comp (inst.plain_compared source dest))⟩
  | stos =>
    simp only [hop, ok_bind_iff] at hs ⊢
    obtain ⟨stored, hstore, hs⟩ := hs
    obtain ⟨stored', hstore', hmirrors⟩ := h.storedAt hstore
    cases hs
    exact ⟨_, ⟨stored', hstore', rfl⟩, hmirrors.edit inst.plain_nextDest⟩
  | lods =>
    simp only [hop, ok_bind_iff] at hs ⊢
    obtain ⟨_, hvalid, value, hload, hs⟩ := hs
    cases hs
    exact ⟨_, ⟨(), h.validAddress hvalid, value, h.loadAt hload, rfl⟩,
      h.edit (inst.plain_nextSource.comp (StringInst.plain_lods inst.operandSize value))⟩
  | scas =>
    simp only [hop, ok_bind_iff] at hs ⊢
    obtain ⟨value, hload, hs⟩ := hs
    cases hs
    exact ⟨_, ⟨value, h.loadAt hload, rfl⟩,
      h.edit (inst.plain_nextDest.comp (inst.plain_compared _ value))⟩

/-- **A turn** that is done on one side is done on the other. -/
theorem turn (inst : StringInst) (rep : RepPrefix) (s t s' : Cpu) (h : Mirrors G base s t)
    (hs : (inst.repetition rep).turn s = .ok s') :
    ∃ t', (inst.repetition rep).turn t = .ok t' ∧ Mirrors G base s' t' := by
  obtain ⟨next, helement, hs⟩ := ok_bind_iff.mp hs
  obtain ⟨next', helement', hmirrors⟩ := h.element helement
  cases hs
  exact ⟨_, ok_bind_iff.mpr ⟨next', helement', rfl⟩, hmirrors.edit inst.plain_count⟩

theorem stop (inst : StringInst) (rep : RepPrefix) (s t : Cpu) (h : Mirrors G base s t) :
    (inst.repetition rep).stop t = (inst.repetition rep).stop s := by
  obtain ⟨exception, cr2, override, hcontext⟩ := h.context
  show inst.stops rep t.context = inst.stops rep s.context
  rw [hcontext]
  rfl

end Mirrors

/-! ## Repairs -/

namespace Cpu

/-- The CPU over another memory. -/
def withMemory (cpu : Cpu) (memory : MemoryManager) : Cpu := { cpu with memory := memory }

/-- The CPU may access the byte behind a pointer. -/
def Uses (cpu : Cpu) (p : HostPtr) : Prop := ∃ store address, cpu.dataPtr store address = some p

/-- The CPU without its exception. -/
def cleared (cpu : Cpu) : Cpu := cpu.edit CpuContext.clearException

end Cpu

/-- One repair of the memory, made in time or behind a fault: `early` is the memory of
`cpu` with the repair, `late` the memory of `faulted` with it.  A repair grants what was
granted, through the same pointers and with the same bytes behind them; and what it grants
besides is the same both times. -/
structure Repair (cpu faulted : Cpu) (early late : MemoryManager) : Prop where
  earlyOk : MemoryOk early
  lateOk : MemoryOk late
  grants : ∀ {store address p}, cpu.dataPtr store address = some p →
    (cpu.withMemory early).dataPtr store address = some p
  same : ∀ store address,
    (cpu.withMemory late).dataPtr store address = (cpu.withMemory early).dataPtr store address
  before : ∀ p, cpu.Uses p → early.host.read p = cpu.memory.host.read p
  behind : ∀ p, cpu.Uses p → late.host.read p = faulted.memory.host.read p
  other : ∀ p, ¬ cpu.Uses p → late.host.read p = early.host.read p

namespace StringInst

variable {inst : StringInst} {rep : RepPrefix}

/-- The count behind some turns. -/
theorem count_turns {k : ℕ} {s t : Cpu} (h : (inst.repetition rep).Turns k s t) :
    k ≤ inst.count s → inst.count t + k = inst.count s := by
  induction h with
  | zero => exact fun _ => rfl
  | @succ k s t u turns goes turn ih =>
    intro hle
    have hbefore := ih (by omega)
    obtain ⟨c, helement, hu⟩ := ok_bind_iff.mp turn
    have hcount : inst.getRepCount c.context = inst.getRepCount t.context := by
      unfold getRepCount getReg
      rw [(element_kept helement).1]
    obtain ⟨n, hn⟩ : ∃ n, inst.count t = n + 1 := ⟨inst.count t - 1, by omega⟩
    have hleft := (getRepCount_turn (hcount ▸ hn : (inst.getRepCount c.context).toNat = n + 1)).2
    have hafter : inst.count u = n := by
      cases hu
      exact hleft
    omega

/-- **Restarting.**  The repetition that is started again on the repaired memory, at the
element that was refused, ends as the one that has the repaired memory from the start. -/
theorem loop_restart {s t e u r : Cpu} {early late : MemoryManager} {k n : ℕ}
    (turns : (inst.repetition rep).Turns k s t) (goes : (inst.repetition rep).GoesOn k t)
    (hk : k < n) (repair : Repair s e early late)
    (hhost : e.memory.host = t.memory.host) (hcontext : t.context.Alike r.context)
    (hmemory : r.memory = late)
    (hearly : (inst.repetition rep).loop n (s.withMemory early) = .ok u) :
    ∃ u', (inst.repetition rep).loop (n - k) r = .ok u' ∧
      Mirrors (fun _ => True) (fun _ => none) u u' := by
  have hstart : Mirrors s.Uses early.host.read s (s.withMemory early) :=
    ⟨.refl _, fun hp => ⟨repair.grants hp, _, _, hp⟩, repair.before, fun _ _ => rfl⟩
  obtain ⟨t', hturns, hmirrors⟩ := Turns.simulate _ (Mirrors.turn inst rep)
    (Mirrors.stop inst rep) turns hstart
  have hgoes : (inst.repetition rep).GoesOn k t' :=
    goes.imp_right fun hgo => (Mirrors.stop inst rep t t' hmirrors).trans hgo
  rw [loop_resume hturns hgoes hk] at hearly
  -- behind the turns the two memories differ in what they have been built from only
  have hlate : Mirrors (fun _ => True) (fun _ => none) t' r := by
    obtain ⟨exception, cr2, override, hr⟩ := hcontext
    obtain ⟨regs, rflags, host, ht⟩ := (behind_turns hturns).same
    obtain ⟨regs₀, rflags₀, host₀, ht₀⟩ := (behind_turns turns).same
    refine ⟨hmirrors.context.euclid ⟨_, _, _, hr⟩, fun {store address p} hp => ⟨?_, trivial⟩,
      fun p _ => ?_, fun p hp => absurd trivial hp⟩
    · have hview : t'.dataPtr store address = (s.withMemory early).dataPtr store address := by
        rw [ht]
        rfl
      have hview' : r.dataPtr store address = (s.withMemory late).dataPtr store address := by
        unfold Cpu.dataPtr
        rw [hr, hmemory, ht₀]
        rfl
      rw [hview', repair.same, ← hview]
      exact hp
    · rw [hmemory]
      by_cases huses : s.Uses p
      · rw [repair.behind p huses, hhost, hmirrors.reads p huses]
      · rw [repair.other p huses, hmirrors.outside p huses]
  exact loop_simulate _ (Mirrors.turn inst rep) (Mirrors.stop inst rep) (n - k) hlate hearly

end StringInst

/-! ## Steps over the repeated form -/

/-- A step ends as it is said, up to the page cache. -/
structure EndsAs (real viewed : StepResult × Cpu) : Prop where
  result : real.1 = viewed.1
  state : UpToCache real.2 viewed.2

/-- How a step over the repeated form ends: behind the turns that its count and the flags
ask for, or with the exception of the element that is refused, at the instruction and behind
the turns before that element. -/
inductive StringInst.RepEnds (inst : StringInst) (rep : RepPrefix) (pre : StringPrefix)
    (cpu : Cpu) (out : StepResult × Cpu) : Prop where
  | done {k : ℕ} {c : Cpu} (turns : (inst.repetition rep).Turns k cpu c)
      (behind : inst.Behind k cpu c) (count : k + inst.count c = inst.count cpu)
      (last : inst.count c = 0 ∨ 0 < k ∧ inst.stops rep c.context = true)
      (ends : EndsAs out (StringInst.stepped pre true cpu.context.rip (.ok c)))
  | faults {k : ℕ} {c e : Cpu} (turns : (inst.repetition rep).Turns k cpu c)
      (behind : inst.Behind k cpu c) (count : k + inst.count c = inst.count cpu)
      (more : 0 < inst.count c) (goes : k = 0 ∨ inst.stops rep c.context = false)
      (element : inst.element c = .error e) (failed : c.Failed e)
      (ends : EndsAs out (StringInst.stepped pre true cpu.context.rip (.error e)))
      (rip : out.2.context.rip = cpu.context.rip)

/-- The step `again` ends as the step `whole` does, in the same registers but for the
exception record and `CR2`, and with the same bytes in the memory. -/
structure EndsAlike (whole again : StepResult × Cpu) : Prop where
  result : again.1 = .ok
  context : ∃ cr2, again.2.context = { whole.2.context.clearException with
    controlRegs := Function.update whole.2.context.controlRegs regCr2 cr2 }
  bytes : ∀ p, again.2.memory.host.read p = whole.2.memory.host.read p

/-- A value is loaded into the accumulator: the bits above its size stay, but for those above a
doubleword, which are cleared. -/
def LoadedAccumulator (operandSize : ℕ) (old value rax : U64) : Prop :=
  ∀ i < 64, rax.getLsbD i =
    if i < operandSize then value.getLsbD i else decide (operandSize ≠ 32) && old.getLsbD i

/-- The low bits of one value in front of the others of another. -/
theorem getLsbD_merge (n : ℕ) (old value : U64) {i : ℕ} (hi : i < 64) :
    ((old &&& ~~~(BitVec.ofNat 64 (2 ^ n - 1))) ||| (value &&& BitVec.ofNat 64 (2 ^ n - 1))).getLsbD
      i = if i < n then value.getLsbD i else old.getLsbD i := by
  have hmask : (BitVec.ofNat 64 (2 ^ n - 1)).getLsbD i = decide (i < n) := by
    rw [BitVec.getLsbD_ofNat, Nat.testBit_two_pow_sub_one]
    simp [hi]
  rw [BitVec.getLsbD_or, BitVec.getLsbD_and, BitVec.getLsbD_and, BitVec.getLsbD_not, hmask]
  by_cases hlow : i < n
  · simp [hlow]
  · simp [hlow, hi]

theorem loaded_writeLodsAccumulator {operandSize : ℕ}
    (hsize : operandSize = 8 ∨ operandSize = 16 ∨ operandSize = 32 ∨ operandSize = 64)
    (ctx : CpuContext) (value : U64) : LoadedAccumulator operandSize (ctx.regs regRax) value
      ((writeLodsAccumulator operandSize ctx value).regs regRax) := by
  intro i hi
  unfold writeLodsAccumulator setReg regMerge
  rcases hsize with rfl | rfl | rfl | rfl
  · simpa using getLsbD_merge 8 (ctx.regs regRax) value hi
  · simpa using getLsbD_merge 16 (ctx.regs regRax) value hi
  · have hlow := getLsbD_merge 32 0 value hi
    simpa using hlow
  · simp [hi]

theorem element_lods {inst : StringInst} (hop : inst.op = .lods) {cpu next : Cpu}
    (h : inst.element cpu = .ok next) : ∃ value,
      cpu.loadAt inst.bytes (inst.sourceAddress cpu.context) = .ok value ∧
      LoadedAccumulator inst.operandSize (cpu.context.regs regRax) value
        (next.context.regs regRax) := by
  unfold StringInst.element at h
  simp only [hop, ok_bind_iff] at h
  obtain ⟨_, -, value, hload, h⟩ := h
  cases h
  refine ⟨value, hload, ?_⟩
  have hindex : ∀ ctx : CpuContext, (inst.nextSource ctx).regs regRax = ctx.regs regRax := by
    intro ctx
    unfold StringInst.nextSource StringInst.advance setReg
    dsimp only
    rw [Function.update_of_ne (by decide)]
  dsimp only [Cpu.edit]
  rw [hindex]
  exact loaded_writeLodsAccumulator inst.operandSize_ok cpu.context value

section Restart

variable {cpu : Cpu} (hm : MemoryOk cpu.memory) (hexc : cpu.context.hasException = false)
  (inst : StringInst) (rep : RepPrefix) (dec : DecodedInst) (pre : StringPrefix)

include hm hexc

/-- **Every step** over the repeated form ends in one of the two ways. -/
theorem rep_ends : inst.RepEnds rep pre cpu
    (cpu.dispatchDecoded (inst.decodedRep dec rep pre) cpu.context.rip) := by
  obtain ⟨hresult, hstate⟩ :=
    StringInst.step_decodedRep hm hexc inst rep dec pre cpu.context.rip
  have hends := loop_ends (inst.repetition rep) (inst.count cpu) cpu
  generalize (inst.repetition rep).loop (inst.count cpu) cpu = e at hends hresult hstate
  cases hends with
  | @done k c turns le last =>
    have hcount := StringInst.count_turns turns le
    refine .done turns (StringInst.behind_turns turns) (by omega) ?_ ⟨hresult, hstate⟩
    rcases last with rfl | hno
    · exact .inl (by omega)
    · refine .inr ⟨Nat.pos_of_ne_zero fun hzero => hno (.inl hzero), ?_⟩
      by_contra hgo
      exact hno (.inr (Bool.eq_false_iff.mpr hgo))
  | @fails k c e turns lt goes turn =>
    have hcount := StringInst.count_turns turns lt.le
    have hfailed := StringInst.failed_turn hexc turns turn
    refine .faults turns (StringInst.behind_turns turns) (by omega) (by omega) goes
      (StringInst.turn_error turn) hfailed ⟨hresult, hstate⟩ ?_
    have hfault : e.context.rip = c.context.rip := by
      obtain ⟨exception, cr2, asked, hsame⟩ := hfailed.same
      rw [hsame]
    have hturns : c.context.rip = cpu.context.rip := by
      obtain ⟨regs, rflags, host, hsame⟩ := (StringInst.behind_turns turns).same
      rw [hsame]
    exact (congrArg CpuContext.rip hstate.context_eq).trans (hfault.trans hturns)

/-- **A step that is made again** behind a repair. -/
theorem rep_again {early late : MemoryManager}
    (repair : Repair cpu
      (cpu.dispatchDecoded (inst.decodedRep dec rep pre) cpu.context.rip).2 early late)
    (hfault : (cpu.dispatchDecoded (inst.decodedRep dec rep pre) cpu.context.rip).1 = .exception)
    (hwhole : ((cpu.withMemory early).dispatchDecoded (inst.decodedRep dec rep pre)
      cpu.context.rip).1 = .ok) :
    EndsAlike ((cpu.withMemory early).dispatchDecoded (inst.decodedRep dec rep pre)
        cpu.context.rip)
      (((cpu.dispatchDecoded (inst.decodedRep dec rep pre)
        cpu.context.rip).2.cleared.withMemory late).dispatchDecoded
          (inst.decodedRep dec rep pre) cpu.context.rip) := by
  have hends := rep_ends hm hexc inst rep dec pre
  generalize cpu.dispatchDecoded (inst.decodedRep dec rep pre) cpu.context.rip = out at *
  -- the first run has faulted behind some elements
  cases hends with
  | done _ _ _ _ ends =>
    rw [ends.result] at hfault
    cases hfault
  | @faults k c e turns behind count more goes element failed ends rip =>
    have hout : out.2.context = { e.context with
        segmentOverride := -1
        cachedModeKeyValid := true && e.context.cachedModeKeyValid } :=
      ends.state.context_eq
    obtain ⟨exception, cr2, asked, he⟩ := failed.same
    have hhost : out.2.memory.host = c.memory.host := by
      refine ends.state.host_eq.trans ?_
      show e.memory.host = _
      rw [he]
    have hcontext : c.context.Alike (out.2.cleared.withMemory late).context := by
      refine ⟨⟨cpuExceptionNone, 0⟩, cr2, -1, ?_⟩
      show out.2.context.clearException = _
      rw [hout, he]
      rfl
    have hcount : inst.count (out.2.cleared.withMemory late) = inst.count cpu - k := by
      obtain ⟨exception, cr2, override, hr⟩ := hcontext
      unfold StringInst.count at count ⊢
      rw [hr]
      show (inst.getRepCount c.context).toNat = _
      omega
    obtain ⟨hresult, hstate⟩ := @StringInst.step_decodedRep (cpu.withMemory early) repair.earlyOk
      hexc inst rep dec pre cpu.context.rip
    obtain ⟨hresult', hstate'⟩ := @StringInst.step_decodedRep (out.2.cleared.withMemory late)
      repair.lateOk rfl inst rep dec pre cpu.context.rip
    -- the run that is not interrupted ends its loop, and the rest of the elements is made again
    -- alike
    cases hloop : (inst.repetition rep).loop (inst.count cpu) (cpu.withMemory early) with
    | error e' =>
      have hsame : inst.count (cpu.withMemory early) = inst.count cpu := rfl
      rw [hwhole, hsame, hloop] at hresult
      cases hresult
    | ok u =>
      obtain ⟨u', hloop', hmirrors⟩ := StringInst.loop_restart turns goes (by omega) repair hhost
        hcontext rfl hloop
      have hsame : inst.count (cpu.withMemory early) = inst.count cpu := rfl
      rw [hsame, hloop] at hstate
      rw [hcount, hloop'] at hresult' hstate'
      -- no element that is made leaves an exception
      have hexception : u'.context.exception = ⟨cpuExceptionNone, 0⟩ := by
        have hends := loop_ends (inst.repetition rep) (inst.count cpu - k)
          (out.2.cleared.withMemory late)
        rw [hloop'] at hends
        cases hends with
        | done turns _ _ =>
          obtain ⟨regs, rflags, host, hu'⟩ := (StringInst.behind_turns turns).same
          rw [hu']
          rfl
      refine ⟨hresult', ?_, fun p => ?_⟩
      · obtain ⟨exception, cr2, override, hu'⟩ := hmirrors.context
        refine ⟨cr2, ?_⟩
        rw [hstate'.context_eq, hstate.context_eq]
        have hexception' : exception = ⟨cpuExceptionNone, 0⟩ := by
          rw [← hexception, hu']
        subst hexception'
        show ({ pre.leave (-1) u'.context with rip := _ } : CpuContext) = _
        rw [hu']
        rfl
      · rw [hstate'.host_eq, hstate.host_eq]
        exact hmirrors.reads p trivial

/-- A step over the repeated form changes the bytes of the memory only, and of these the
ones that the CPU may access. -/
theorem rep_memory : ∃ host cache,
    (cpu.dispatchDecoded (inst.decodedRep dec rep pre) cpu.context.rip).2.memory =
      (cpu.memory.setHost host).setCache cache ∧
    ∀ p, ¬ cpu.Uses p → host.read p = cpu.memory.host.read p := by
  have hbytes : ∀ {k c}, (inst.repetition rep).Turns k cpu c →
      ∃ host, c.memory = cpu.memory.setHost host ∧
        ∀ p, ¬ cpu.Uses p → host.read p = cpu.memory.host.read p := by
    intro k c turns
    have hself : Mirrors cpu.Uses cpu.memory.host.read cpu cpu :=
      ⟨.refl _, fun hp => ⟨hp, _, _, hp⟩, fun _ _ => rfl, fun _ _ => rfl⟩
    obtain ⟨c', hturns', hmirrors⟩ := Turns.simulate _ (Mirrors.turn inst rep)
      (Mirrors.stop inst rep) turns hself
    obtain rfl := Turns.unique turns hturns'
    obtain ⟨regs, rflags, host, hc⟩ := (StringInst.behind_turns turns).same
    refine ⟨host, by rw [hc], fun p hp => ?_⟩
    have houtside := hmirrors.outside p hp
    rwa [hc] at houtside
  have hends := rep_ends hm hexc inst rep dec pre
  generalize cpu.dispatchDecoded (inst.decodedRep dec rep pre) cpu.context.rip = out at *
  cases hends with
  | @done k c turns _ _ _ ends =>
    obtain ⟨host, hmemory, hother⟩ := hbytes turns
    refine ⟨host, out.2.memory.pageCache, ends.state.memory_eq.trans ?_, hother⟩
    rw [← hmemory]
    rfl
  | @faults k c e turns _ _ _ _ _ failed ends _ =>
    obtain ⟨host, hmemory, hother⟩ := hbytes turns
    obtain ⟨exception, cr2, asked, he⟩ := failed.same
    refine ⟨host, out.2.memory.pageCache, ends.state.memory_eq.trans ?_, hother⟩
    show e.memory.setCache _ = _
    rw [he, ← hmemory]

/-- **Repeated string instructions** are restartable.  A step over the single-step form does
one element, with the registers, flags and bytes that the element has; a step over the
repeated form makes the turns that the count and the flags ask for, each an element and one
less to go, and if an element is refused, it ends behind the turns before it with `RIP` at
the instruction; and if what refused the element is repaired, another step ends as a step
that is made on the repaired memory from the start.  An element of `LODS` puts what it loads in the
accumulator. -/
theorem rep_restartable :
    (∀ dec pre, EndsAs (cpu.dispatchDecoded (inst.decoded dec pre) cpu.context.rip)
      (StringInst.stepped pre false cpu.context.rip (inst.element cpu))) ∧
    inst.RepEnds rep pre cpu
      (cpu.dispatchDecoded (inst.decodedRep dec rep pre) cpu.context.rip) ∧
    (∀ early late, Repair cpu
        (cpu.dispatchDecoded (inst.decodedRep dec rep pre) cpu.context.rip).2 early late →
      (cpu.dispatchDecoded (inst.decodedRep dec rep pre) cpu.context.rip).1 = .exception →
      ((cpu.withMemory early).dispatchDecoded (inst.decodedRep dec rep pre)
        cpu.context.rip).1 = .ok →
      EndsAlike ((cpu.withMemory early).dispatchDecoded (inst.decodedRep dec rep pre)
          cpu.context.rip)
        (((cpu.dispatchDecoded (inst.decodedRep dec rep pre)
          cpu.context.rip).2.cleared.withMemory late).dispatchDecoded
            (inst.decodedRep dec rep pre) cpu.context.rip)) ∧
    (inst.op = .lods → ∀ next, inst.element cpu = .ok next → ∃ value,
      cpu.loadAt inst.bytes (inst.sourceAddress cpu.context) = .ok value ∧
      LoadedAccumulator inst.operandSize (cpu.context.regs regRax) value (next.context.regs regRax)) := by
  refine ⟨fun dec' pre' => ?_, rep_ends hm hexc inst rep dec pre,
    fun early late repair hfault hwhole => rep_again hm hexc inst rep dec pre repair hfault hwhole,
    fun hop next helement => element_lods hop helement⟩
  obtain ⟨hresult, hstate⟩ := StringInst.step_decoded hm hexc inst dec' pre' cpu.context.rip
  exact ⟨hresult, hstate⟩

end Restart

/-- What the host process grants more does not take away what was granted. -/
theorem pageEntry_hostPassthrough {mgr : MemoryManager} {perms : U32}
    (hmore : mmHostPassthroughPerms mgr &&&
      mmHostPassthroughPerms (mmSetHostPassthrough mgr perms true) = mmHostPassthroughPerms mgr)
    {address : U64} {entry : PageCacheEntry} (h : pageEntry mgr address = some entry)
    (perm : U32) (hperm : entry.perms &&& perm ≠ 0) :
    ∃ perms', pageEntry (mmSetHostPassthrough mgr perms true) address =
        some { entry with perms := perms' } ∧ perms' &&& perm ≠ 0 := by
  have hfind : mmFindRegion (mmSetHostPassthrough mgr perms true) address =
    mmFindRegion mgr address := rfl
  unfold pageEntry at h ⊢
  rw [hfind]
  cases hregion : mmFindRegion mgr address with
  | some region =>
    rw [hregion] at h
    cases h
    exact ⟨region.perms, rfl, hperm⟩
  | none =>
    rw [hregion] at h
    simp only at h ⊢
    split_ifs at h with hsome
    cases h
    -- the new permissions hold the old ones
    have hkept : mmHostPassthroughPerms (mmSetHostPassthrough mgr perms true) &&& perm ≠ 0 := by
      intro hzero
      apply hperm
      show mmHostPassthroughPerms mgr &&& perm = 0
      rw [← hmore, BitVec.and_assoc, hzero]
      exact BitVec.and_zero
    have hsome' : (mmHostPassthroughPerms (mmSetHostPassthrough mgr perms true) != 0) = true := by
      rw [bne_iff_ne]
      intro hzero
      apply hkept
      rw [hzero]
      exact BitVec.zero_and
    rw [if_pos hsome']
    exact ⟨_, rfl, hkept⟩

/-- Permissions for the host process that are granted in time or behind a fault. -/
theorem repair_hostPassthrough {cpu faulted : Cpu} (hm : MemoryOk cpu.memory)
    (hm' : MemoryOk faulted.memory)
    (hmemory : ∃ host cache, faulted.memory = (cpu.memory.setHost host).setCache cache ∧
      ∀ p, ¬ cpu.Uses p → host.read p = cpu.memory.host.read p)
    (hpatches : cpu.memory.patches = []) {perms : U32}
    (hmore : mmHostPassthroughPerms cpu.memory &&&
      mmHostPassthroughPerms (mmSetHostPassthrough cpu.memory perms true) =
        mmHostPassthroughPerms cpu.memory) :
    Repair cpu faulted (mmSetHostPassthrough cpu.memory perms true)
      (mmSetHostPassthrough faulted.memory perms true) := by
  obtain ⟨host, cache, hmemory, hother⟩ := hmemory
  refine ⟨(memoryCall_ok hm (.setHostPassthrough perms true)).1,
    (memoryCall_ok hm' (.setHostPassthrough perms true)).1, ?_, ?_, fun _ _ => rfl,
    fun _ _ => rfl, ?_⟩
  · intro store address p hp
    have hcode : (cpu.withMemory (mmSetHostPassthrough cpu.memory perms true)).context =
      cpu.context := rfl
    have hearly : (cpu.withMemory (mmSetHostPassthrough cpu.memory perms true)).memory =
      mmSetHostPassthrough cpu.memory perms true := rfl
    unfold Cpu.dataPtr grantedPtr accessView at hp ⊢
    rw [hcode, hearly]
    -- without patches only the rights of the page decide
    have hview : ∀ {mgr : MemoryManager} {info}, mgr.patches = [] →
        checkInfo mgr address (dataAccess store).perm (some info) =
          if info.perms &&& (dataAccess store).perm = 0 then
            { status := .prot, ptr := .null, cpuAttrs := info.cpuAttrs }
          else { status := .ok, ptr := info.ptr, cpuAttrs := info.cpuAttrs } := by
      intro mgr info hnone
      unfold checkInfo
      rw [hnone]
      rfl
    split_ifs at hp ⊢
    cases hentry : pageEntry cpu.memory address with
    | none =>
      rw [hentry] at hp
      cases hp
    | some entry =>
      rw [hentry, Option.map_some, hview hpatches] at hp
      by_cases hperm : (entry.info address).perms &&& (dataAccess store).perm = 0
      · rw [if_pos hperm] at hp
        cases hp
      · obtain ⟨perms', hentry', hperm'⟩ := pageEntry_hostPassthrough hmore hentry _ hperm
        rw [if_neg hperm] at hp
        have hinfo : ¬ ({ entry with perms := perms' }.info address).perms &&&
          (dataAccess store).perm = 0 := hperm'
        have hnone : (mmSetHostPassthrough cpu.memory perms true).patches = [] := hpatches
        rw [hentry', Option.map_some, hview hnone, if_neg hinfo]
        exact hp
  · intro store address
    rw [hmemory]
    rfl
  · intro p hp
    rw [hmemory]
    exact hother p hp

/-! ## A store over the end of a page -/

/-- `STOSB` in 64-bit code. -/
def stosbInst : StringInst where
  op := .stos
  operandSize := 8
  addressSize := 64
  sourceSegment := .ds
  operandSize_ok := .inl rfl
  addressSize_ok := .inr (.inr rfl)

/-- The prefixes and the length of `F3 AA`. -/
def repPrefix : StringPrefix where
  bits := (initCpuContext false).prefixBits
  size := 2
  size_pos := by decide

/-- A page that is mapped at `0x1000`, in front of host memory that may be read only. -/
def pageMemory : MemoryManager :=
  memoryCall (memoryCall (mmInit (.initial (fun _ => 0) fun _ => true))
    (.layout (.map 0x1000 0x1000 (mmProtRead ||| mmProtWrite)))) (.setHostPassthrough mmProtRead true)

/-- Two bytes are to be stored, the second one behind the page. -/
def pageEndCpu : Cpu where
  context :=
    { initCpuContext false with
      regs := fun reg => if reg = regRcx then 2 else if reg = regRdi then 0x1FFF else 0x41 }
  memory := pageMemory
  hooks := .none
  asked := 0

theorem memoryOk_pageMemory : MemoryOk pageMemory :=
  (memoryCall_ok (memoryCall_ok (memoryOk_mmInit _)
    (.layout (.map 0x1000 0x1000 (mmProtRead ||| mmProtWrite)))).1
      (.setHostPassthrough mmProtRead true)).1

/-- The second byte is refused, and stored when the host memory may be written. -/
theorem rep_restartable_pageEnd :
    (pageEndCpu.dispatchDecoded (stosbInst.decodedRep .clear .repe repPrefix) 0).1 = .exception ∧
    EndsAlike
      ((pageEndCpu.withMemory (mmSetHostPassthrough pageMemory
        (mmProtRead ||| mmProtWrite) true)).dispatchDecoded
          (stosbInst.decodedRep .clear .repe repPrefix) 0)
      (((pageEndCpu.dispatchDecoded
        (stosbInst.decodedRep .clear .repe repPrefix) 0).2.cleared.withMemory
          (mmSetHostPassthrough (pageEndCpu.dispatchDecoded
            (stosbInst.decodedRep .clear .repe repPrefix) 0).2.memory
              (mmProtRead ||| mmProtWrite) true)).dispatchDecoded
                (stosbInst.decodedRep .clear .repe repPrefix) 0) := by
  have hm : MemoryOk pageEndCpu.memory := memoryOk_pageMemory
  have hfault : (pageEndCpu.dispatchDecoded
    (stosbInst.decodedRep .clear .repe repPrefix) 0).1 = .exception := by decide +kernel
  have hok := (StringInst.step_decodedRep hm rfl stosbInst .repe .clear repPrefix 0).2.ok
  refine ⟨hfault, (rep_restartable hm rfl stosbInst .repe .clear repPrefix).2.2.1 _ _ ?_ hfault
    ?_⟩
  · exact repair_hostPassthrough hm hok (rep_memory hm rfl stosbInst .repe .clear repPrefix)
      rfl (by decide)
  · decide +kernel

end Cpueaxh
