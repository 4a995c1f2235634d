/-
# Steps of string instructions

A step over a string instruction ends as one element of it does, and a step over a
repeated one as the repetition of the element: behind the instruction, or with the
exception of the refused element at the instruction.
-/
import Cpueaxh.RepTurns

namespace Cpueaxh

open HostMemory Repetition

namespace StringInst

variable {inst : StringInst} {cpu c : Cpu}

/-! ## The loop -/

/-- An element that is refused leaves an exception and nothing else. -/
theorem clean_element (hexc : cpu.context.hasException = false) (inst : StringInst) :
    cpu.Clean (inst.element cpu) := by
  unfold StringInst.element
  cases inst.op with
  | movs =>
    refine (clean_validAddress hexc _ _).bind fun _ _ => ?_
    refine (clean_validAddress hexc _ _).bind fun _ _ => ?_
    refine (clean_loadAt hexc _ _).bind fun _ _ => ?_
    exact (clean_storedAt hexc _ _ _).bind fun _ _ => .ok _
  | cmps =>
    refine (clean_validAddress hexc _ _).bind fun _ _ => ?_
    refine (clean_validAddress hexc _ _).bind fun _ _ => ?_
    refine (clean_loadAt hexc _ _).bind fun _ _ => ?_
    exact (clean_loadAt hexc _ _).bind fun _ _ => .ok _
  | stos => exact (clean_storedAt hexc _ _ _).bind fun _ _ => .ok _
  | lods =>
    refine (clean_validAddress hexc _ _).bind fun _ _ => ?_
    exact (clean_loadAt hexc _ _).bind fun _ _ => .ok _
  | scas => exact (clean_loadAt hexc _ _).bind fun _ _ => .ok _

/-- An element leaves the count and the exception alone. -/
theorem element_kept (h : inst.element cpu = .ok c) :
    c.context.regs regRcx = cpu.context.regs regRcx ∧
      c.context.exception = cpu.context.exception := by
  obtain ⟨regs, rflags, host, -, hregs, rfl⟩ := element_indexed h
  obtain ⟨regs', hindexed, -, -, hkept⟩ :=
    inst.indexed_eq { cpu.context with regs := regs, rflags := rflags }
  rw [hindexed]
  exact ⟨(hkept _ (by decide) (by decide)).trans (hregs _ (absurd · (by decide))), rfl⟩

/-- The count behind a turn. -/
theorem getRepCount_turn {ctx : CpuContext} {n : ℕ}
    (hcount : (inst.getRepCount ctx).toNat = n + 1) :
    inst.getRepCount ctx - 1 = BitVec.ofNat 64 n ∧
      (inst.getRepCount (inst.setRepCount ctx (inst.getRepCount ctx - 1))).toNat = n := by
  have hsize := inst.addressSize_ok
  have hlt : (inst.getRepCount ctx).toNat < 2 ^ inst.addressSize := by
    unfold getRepCount getReg
    rw [truncateTo_toNat hsize]
    exact Nat.mod_lt _ (Nat.two_pow_pos _)
  have hone : inst.getRepCount ctx - 1 = BitVec.ofNat 64 n := by
    apply BitVec.eq_of_toNat_eq
    have := (inst.getRepCount ctx).isLt
    rw [BitVec.toNat_sub, BitVec.toNat_ofNat, hcount, show (1 : U64).toNat = 1 from rfl]
    omega
  refine ⟨hone, ?_⟩
  have hread : inst.getRepCount (inst.setRepCount ctx (inst.getRepCount ctx - 1)) =
      truncateTo inst.addressSize (regMerge inst.addressSize (ctx.regs regRcx)
        (inst.getRepCount ctx - 1)) :=
    congrArg (truncateTo inst.addressSize) (Function.update_self regRcx _ ctx.regs)
  rw [hread, truncateTo_regMerge hsize, truncateTo_toNat hsize, hone, BitVec.toNat_ofNat]
  have := (inst.getRepCount ctx).isLt
  rw [Nat.mod_eq_of_lt (by omega : n < 2 ^ 64), Nat.mod_eq_of_lt (by omega)]

/-- **The loop of a repeat prefix** is the repetition of the element. -/
theorem run_repLoop (rep : RepPrefix) (n : ℕ) : ∀ {cpu : Cpu}, MemoryOk cpu.memory →
    cpu.context.hasException = false → (inst.getRepCount cpu.context).toNat = n →
    (inst.repLoop rep n).run viewOp cpu = transferred ((inst.repetition rep).loop n cpu) := by
  induction n with
  | zero => exact fun _ _ _ => rfl
  | succ n ih =>
    intro cpu hm hexc hcount
    have hrun := run_executeIteration hm.manager hexc inst
    have hok := (run_viewOp inst.executeIteration hm).2.ok'
    have hclean := clean_element hexc inst
    have hpending : ∀ c : Cpu, (cpuHasException).run viewOp c = (c.context.hasException, c) :=
      fun _ => rfl
    have hcontext : ∀ c : Cpu, (getContext).run viewOp c = (c.context, c) := fun _ => rfl
    unfold repLoop Body.loop
    rw [hrun] at hok
    rw [Program.run_bind, hrun]
    cases helement : inst.element cpu with
    | error c =>
      rw [helement] at hclean
      cases hclean with
      | error hfailed =>
        have hturn : (inst.repetition rep).turn cpu = .error c := by
          show (inst.element cpu >>= _) = _
          rw [helement]
          rfl
        rw [hturn, Program.run_bind]
        show (Program.run viewOp (if c.context.hasException = true then _ else _) c) = ((), c)
        rw [if_pos hfailed.pending]
        rfl
    | ok c =>
      rw [helement] at hok
      obtain ⟨hrcx, hexception⟩ := element_kept helement
      have hexc' : c.context.hasException = false := by
        unfold CpuContext.hasException
        rw [hexception]
        exact hexc
      have hcount' : (inst.getRepCount c.context).toNat = n + 1 := by
        unfold getRepCount getReg
        rw [hrcx]
        exact hcount
      obtain ⟨hone, hleft⟩ := getRepCount_turn hcount'
      have hturn : (inst.repetition rep).turn cpu =
          .ok (c.edit fun ctx => inst.setRepCount ctx (inst.getRepCount ctx - 1)) := by
        show (inst.element cpu >>= _) = _
        rw [helement]
        rfl
      have hmodify : (modifyContext fun ctx => inst.setRepCount ctx (BitVec.ofNat 64 n)).run
          viewOp c = ((), c.edit fun ctx => inst.setRepCount ctx (inst.getRepCount ctx - 1)) := by
        rw [← hone]
        rfl
      rw [hturn]
      generalize hnext : (c.edit fun ctx => inst.setRepCount ctx (inst.getRepCount ctx - 1)) =
        next at hmodify
      have hnextOk : MemoryOk next.memory := by
        subst hnext
        exact hok
      have hnextExc : next.context.hasException = false := by
        subst hnext
        exact hexc'
      have hnextCount : (inst.getRepCount next.context).toNat = n := by
        subst hnext
        exact hleft
      simp only [transferred]
      rw [Program.run_bind, hpending]
      simp only [hexc', Bool.false_eq_true, if_false]
      rw [Program.run_bind, hmodify, Program.run_bind, hcontext]
      simp only
      have hstop : (inst.repetition rep).stop next = inst.stops rep next.context := rfl
      rw [hstop]
      split_ifs
      · rfl
      · exact ih hnextOk hnextExc hnextCount

/-! ## The end of a step -/

/-- The end of a step over a string instruction: behind the instruction, or at it with the
exception of the element that was refused.  Only a rollback of all registers makes the
remembered mode stale. -/
def stepped (pre : StringPrefix) (partialProgress : Bool) (ripPre : U64) :
    Except Cpu Cpu → StepResult × Cpu
  | .ok c => (.ok, c.edit fun ctx => { pre.leave (-1) ctx with
      rip := ripPre + BitVec.ofInt 64 pre.size })
  | .error c => (.exception, c.edit fun ctx => { ctx with
      segmentOverride := -1
      cachedModeKeyValid := partialProgress && ctx.cachedModeKeyValid })

/-- What the executor does behind the code of a string instruction. -/
def executed (dec : DecodedInst) (saved : CpuContext) (ripPre : U64) (cpu : Cpu) :
    StepResult × Cpu :=
  if cpu.context.hasException then
    (.exception, (cpu.setContext
      (Cpu.rollback dec (some saved) cpu.context)).setSegmentOverride (-1))
  else
    (.ok, (cpu.setContext { cpu.context with
      rip := ripPre + BitVec.ofInt 64 cpu.context.lastInstSize }).setSegmentOverride (-1))

theorem executed_upToCache (dec : DecodedInst) (saved : CpuContext) (ripPre : U64)
    {real viewed : Cpu} (h : UpToCache real viewed) :
    (executed dec saved ripPre real).1 = (executed dec saved ripPre viewed).1 ∧
      UpToCache (executed dec saved ripPre real).2 (executed dec saved ripPre viewed).2 := by
  obtain ⟨heq, hm, hm'⟩ := h
  generalize viewed.memory.pageCache = cache at heq
  subst heq
  have hexc : (real.setCache cache).context.hasException = real.context.hasException := rfl
  unfold executed
  rw [hexc]
  split_ifs
  · exact ⟨rfl, rfl, hm, hm'⟩
  · exact ⟨rfl, rfl, hm, hm'⟩

/-- A step over a string instruction runs its code. -/
theorem dispatchDecoded_decodedWith (cpu : Cpu) (dec : DecodedInst) (pre : StringPrefix)
    (code : CpuProgram Unit) (partialProgress : Bool) (ripPre : U64) :
    cpu.dispatchDecoded (decodedWith dec pre code partialProgress) ripPre =
      executed (decodedWith dec pre code partialProgress)
        (cpu.setSegmentOverride dec.segmentOverride).context ripPre
        (code.run cpuOp (cpu.setSegmentOverride dec.segmentOverride)).2 := by
  have hlength : ((decodedWith dec pre code partialProgress).length == 0) = false :=
    beq_eq_false_iff_ne.mpr pre.size_pos.ne'
  have hnotify : cpu.notifyFetchedBytes (decodedWith dec pre code partialProgress) = cpu := by
    unfold Cpu.notifyFetchedBytes
    rw [hlength, Bool.and_false]
    rfl
  have hrun : ∀ c : Cpu,
      (decodedWith dec pre code partialProgress).code.1.run handlerOp c = code.run cpuOp c := by
    intro c
    have hop : ∀ (o : CpuOp) (s : Cpu), (handlerOp (.cpu o) s).1 = (cpuOp o s).1 ∧
        (handlerOp (.cpu o) s).2 = (cpuOp o s).2 := fun o s => ⟨rfl, rfl⟩
    exact Program.run_lift hop code c
  unfold Cpu.dispatchDecoded
  rw [hnotify]
  show (Cpu.runCode (cpu.setSegmentOverride dec.segmentOverride)
    (decodedWith dec pre code partialProgress) ripPre).finish _ _ _ = _
  unfold Cpu.runCode executed
  rw [hrun]
  generalize (code.run cpuOp (cpu.setSegmentOverride dec.segmentOverride)).2 = c
  by_cases hpending : c.context.hasException = true
  · rw [if_pos hpending, if_neg (by simp [hpending])]
    exact if_pos hpending
  · rw [if_neg hpending]
    rw [Bool.not_eq_true] at hpending
    rw [if_pos (by rw [hpending]; rfl)]
    exact if_neg (show ¬ c.context.hasException = true by rw [hpending]; decide)

/-- A step over a string instruction whose code completes or is refused. -/
theorem dispatch_string (hm : MemoryOk cpu.memory) (dec : DecodedInst) (pre : StringPrefix)
    {code : CpuProgram Unit} {partialProgress : Bool} (ripPre : U64) {e : Except Cpu Cpu}
    (hrun : code.run viewOp (cpu.setSegmentOverride dec.segmentOverride) = transferred
      (onBoth (Cpu.prepared pre dec.segmentOverride) (Cpu.prepared pre dec.segmentOverride) e))
    (hok : ∀ c, e = .ok c → c.context.hasException = false)
    (herror : ∀ c, e = .error c → c.context.hasException = true ∧
      (Cpu.rollback (decodedWith dec pre code partialProgress)
        (some (cpu.setSegmentOverride dec.segmentOverride).context)
        (pre.leave dec.segmentOverride c.context)) = { c.context with
          segmentOverride := dec.segmentOverride
          cachedModeKeyValid := partialProgress && c.context.cachedModeKeyValid }) :
    (cpu.dispatchDecoded (decodedWith dec pre code partialProgress) ripPre).1 =
        (stepped pre partialProgress ripPre e).1 ∧
      UpToCache (cpu.dispatchDecoded (decodedWith dec pre code partialProgress) ripPre).2
        (stepped pre partialProgress ripPre e).2 := by
  have hview := (@run_viewOp Unit code (cpu.setSegmentOverride dec.segmentOverride) hm).2
  rw [dispatchDecoded_decodedWith]
  have hexecuted := executed_upToCache (decodedWith dec pre code partialProgress)
    (cpu.setSegmentOverride dec.segmentOverride).context ripPre hview
  rw [hrun] at hexecuted
  cases e with
  | ok c =>
    have hnone : (pre.leave dec.segmentOverride c.context).hasException = false := hok c rfl
    have hend : executed (decodedWith dec pre code partialProgress)
        (cpu.setSegmentOverride dec.segmentOverride).context ripPre
        (c.prepared pre dec.segmentOverride) = stepped pre partialProgress ripPre (.ok c) :=
      if_neg (show ¬ (pre.leave dec.segmentOverride c.context).hasException = true by
        rw [hnone]
        decide)
    exact hend ▸ hexecuted
  | error c =>
    obtain ⟨hpending, hrollback⟩ := herror c rfl
    have hend : executed (decodedWith dec pre code partialProgress)
        (cpu.setSegmentOverride dec.segmentOverride).context ripPre
        (c.prepared pre dec.segmentOverride) = stepped pre partialProgress ripPre (.error c) := by
      refine (if_pos (show (pre.leave dec.segmentOverride c.context).hasException = true from
        hpending)).trans ?_
      show (StepResult.exception, (Cpu.setContext _ (Cpu.rollback _ _
        (pre.leave dec.segmentOverride c.context))).setSegmentOverride (-1)) = _
      rw [hrollback]
      rfl
    exact hend ▸ hexecuted

/-! ## The two forms -/

/-- A rollback of all registers, when the vector registers are as before. -/
theorem rollback_scalar {dec : DecodedInst} {saved ctx : CpuContext}
    (hprogress : dec.flags.partialProgress = false) (hvector : ctx.vector = saved.vector) :
    Cpu.rollback dec (some saved) ctx = { cpuRestoreScalarSnapshot ctx saved with
      exception := ctx.exception
      controlRegs := Function.update saved.controlRegs regCr2 (ctx.controlRegs regCr2) } := by
  unfold Cpu.rollback
  simp only [hprogress, Bool.false_eq_true, if_false]
  split_ifs
  · unfold cpuRestoreVectorSnapshot cpuRestoreScalarSnapshot
    rw [hvector]
  · rfl

/-- A rollback of what the decoder has left. -/
theorem rollback_progress {dec : DecodedInst} {saved ctx : CpuContext}
    (hprogress : dec.flags.partialProgress = true) :
    Cpu.rollback dec (some saved) ctx = cpuRestoreDecodeTransientSnapshot ctx saved := by
  have hcr2 : Function.update ctx.controlRegs regCr2 (ctx.controlRegs regCr2) =
    ctx.controlRegs := Function.update_eq_self regCr2 ctx.controlRegs
  unfold Cpu.rollback cpuRestoreDecodeTransientSnapshot
  simp only [hprogress, if_true, hcr2]

/-- **The single-step form** steps over one element. -/
theorem step_decoded (hm : MemoryOk cpu.memory) (hexc : cpu.context.hasException = false)
    (inst : StringInst) (dec : DecodedInst) (pre : StringPrefix) (ripPre : U64) :
    (cpu.dispatchDecoded (inst.decoded dec pre) ripPre).1 =
        (stepped pre false ripPre (inst.element cpu)).1 ∧
      UpToCache (cpu.dispatchDecoded (inst.decoded dec pre) ripPre).2
        (stepped pre false ripPre (inst.element cpu)).2 := by
  refine dispatch_string hm dec pre ripPre ?_ ?_ ?_
  · have hprepared : (applyPrefix pre).run viewOp (cpu.setSegmentOverride dec.segmentOverride) =
      ((), cpu.prepared pre dec.segmentOverride) := rfl
    have hrun := @run_executeIteration (cpu.prepared pre dec.segmentOverride) hm.manager hexc inst
    unfold executeFast
    rw [Program.run_bind, hprepared]
    simp only
    rw [hrun, element_prepared]
  · intro c helement
    unfold CpuContext.hasException
    rw [(element_kept helement).2]
    exact hexc
  · intro c helement
    have hclean := clean_element hexc inst
    rw [helement] at hclean
    cases hclean with
    | error hfailed =>
      refine ⟨hfailed.pending, ?_⟩
      obtain ⟨exception, cr2, asked, rfl⟩ := hfailed.same
      have hcr2 : Function.update cpu.context.controlRegs regCr2
          (Function.update cpu.context.controlRegs regCr2 cr2 regCr2) =
          Function.update cpu.context.controlRegs regCr2 cr2 := by
        rw [Function.update_self]
      refine (rollback_scalar (by rfl) (by rfl)).trans ?_
      exact congrArg (fun controlRegs => { cpu.context with
        controlRegs := controlRegs
        exception := exception
        segmentOverride := dec.segmentOverride
        cachedModeKeyValid := false }) hcr2

/-- A turn is refused as its element is. -/
theorem turn_error {e : Cpu} (h : inst.turn cpu = .error e) : inst.element cpu = .error e := by
  unfold turn at h
  cases helement : inst.element cpu with
  | error c =>
    rw [helement] at h
    exact h
  | ok c =>
    rw [helement] at h
    cases h

/-- A turn that is refused behind others. -/
theorem failed_turn {k : ℕ} {rep : RepPrefix} {s t e : Cpu}
    (hexc : s.context.hasException = false) (turns : (inst.repetition rep).Turns k s t)
    (turn : inst.turn t = .error e) : t.Failed e := by
  have hexc' : t.context.hasException = false := by
    obtain ⟨regs, rflags, host, rfl⟩ := (behind_turns turns).same
    exact hexc
  have hclean := clean_element hexc' inst
  rw [turn_error turn] at hclean
  cases hclean with
  | error hfailed => exact hfailed

/-- The count of a repetition. -/
def count (inst : StringInst) (cpu : Cpu) : ℕ := (inst.getRepCount cpu.context).toNat

/-- **The repeated form** steps over the repetition of the element. -/
theorem step_decodedRep (hm : MemoryOk cpu.memory) (hexc : cpu.context.hasException = false)
    (inst : StringInst) (rep : RepPrefix) (dec : DecodedInst) (pre : StringPrefix)
    (ripPre : U64) :
    (cpu.dispatchDecoded (inst.decodedRep dec rep pre) ripPre).1 =
        (stepped pre true ripPre ((inst.repetition rep).loop (inst.count cpu) cpu)).1 ∧
      UpToCache (cpu.dispatchDecoded (inst.decodedRep dec rep pre) ripPre).2
        (stepped pre true ripPre ((inst.repetition rep).loop (inst.count cpu) cpu)).2 := by
  have hends := loop_ends (inst.repetition rep) (inst.count cpu) cpu
  refine dispatch_string hm dec pre ripPre ?_ ?_ ?_
  · have hprepared : (applyPrefix pre).run viewOp (cpu.setSegmentOverride dec.segmentOverride) =
      ((), cpu.prepared pre dec.segmentOverride) := rfl
    have hcontext : (getContext).run viewOp (cpu.prepared pre dec.segmentOverride) =
      ((cpu.prepared pre dec.segmentOverride).context, cpu.prepared pre dec.segmentOverride) := rfl
    have hrun : (inst.repLoop rep (inst.count cpu)).run viewOp
        (cpu.prepared pre dec.segmentOverride) = transferred
          ((inst.repetition rep).loop (inst.count cpu) (cpu.prepared pre dec.segmentOverride)) :=
      run_repLoop rep (inst.count cpu) hm hexc rfl
    unfold executeRepFast
    rw [Program.run_bind, hprepared, Program.run_bind]
    simp only
    rw [hcontext]
    refine hrun.trans (congrArg transferred (loop_map (Cpu.prepared pre dec.segmentOverride)
      (Cpu.prepared pre dec.segmentOverride) (fun c => ?_) (fun c => rfl) _ cpu))
    show (inst.element (c.prepared pre dec.segmentOverride) >>= _) = onBoth _ _ (_ >>= _)
    rw [element_prepared]
    exact bind_onBoth fun next => rfl
  · intro c hloop
    rw [hloop] at hends
    cases hends with
    | done turns _ _ =>
      obtain ⟨regs, rflags, host, rfl⟩ := (behind_turns turns).same
      exact hexc
  · intro c hloop
    rw [hloop] at hends
    cases hends with
    | @fails k t e turns _ _ turn =>
      have hfailed := failed_turn hexc turns turn
      refine ⟨hfailed.pending, ?_⟩
      obtain ⟨exception, cr2, asked, rfl⟩ := hfailed.same
      obtain ⟨regs, rflags, host, rfl⟩ := (behind_turns turns).same
      exact (rollback_progress (by rfl)).trans rfl

end StringInst

end Cpueaxh
