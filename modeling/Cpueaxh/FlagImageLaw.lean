/-
# The law of the flags image

`POPF` writes the flags that it may write, and a `PUSHF` and a `POPF` of one size leave the
flags as they were where the slot on the stack holds what is stored to it.  At privilege
level 3 a run holds `IOPL`, and `IF` while `IOPL` is below 3, exactly if each `IRET` of the
run that completes takes flags that agree on them: `execute_iret` loads the flags as they
are on the stack, without the mask of `write_popf_flags`.
-/
import Cpueaxh.GuardedFlags
import Cpueaxh.WideAccess

namespace Cpueaxh

open HostMemory Transition

/-! ## The mask -/

/-- The mask by the privilege level and the operand size. -/
theorem popfWritableMask_eq (ctx : CpuContext) (operandSize : ℕ) :
    popfWritableMask ctx operandSize =
      if ctx.privileged then (if operandSize = 16 then 0x7FD5 else 0x247FD5)
      else if ctx.cpl.setWidth 64 ≤ ctx.iopl then (if operandSize = 16 then 0x4FD5 else 0x244FD5)
      else if operandSize = 16 then 0x4DD5 else 0x244DD5 := by
  have hprivileged : (ctx.controlRegs regCr0 &&& 1 ≠ 0 ∧ ctx.cpl ≠ 0) ↔ ¬ ctx.privileged = true := by
    simp [CpuContext.privileged]
  have hlevel : ctx.iopl < ctx.cpl.setWidth 64 ↔ ¬ ctx.cpl.setWidth 64 ≤ ctx.iopl :=
    BitVec.not_le.symm
  unfold popfWritableMask
  simp only [hprivileged, hlevel]
  split_ifs <;> decide

/-- The set bits of the widest mask. -/
theorem extendedMask_bits : ∀ bit : Fin 64, (0x247FD5 : U64).getLsbD bit = true →
    bit.val ∈ [0, 2, 4, 6, 7, 8, 9, 10, 11, 12, 13, 14, 18, 21] := by
  decide

theorem pushfRfBit_bits : ∀ bit : Fin 64, bit.val ≠ 16 → pushfRfBit.getLsbD bit = false := by
  decide

/-- **The mask has only bits that may be written.** -/
theorem popfWrites_of_mask {ctx : CpuContext} {operandSize bit : ℕ}
    (h : (popfWritableMask ctx operandSize).getLsbD bit = true) : PopfWrites ctx operandSize bit := by
  have hlt : bit < 64 := BitVec.lt_of_getLsbD h
  have hbits : bit ∈ [0, 2, 4, 6, 7, 8, 9, 10, 11, 12, 13, 14, 18, 21] := by
    refine extendedMask_bits ⟨bit, hlt⟩ ?_
    have hsub : popfWritableMask ctx operandSize &&& 0x247FD5 = popfWritableMask ctx operandSize := by
      rw [popfWritableMask_eq]
      split_ifs <;> decide
    rw [← hsub, BitVec.getLsbD_and, Bool.and_eq_true] at h
    exact h.2
  rw [popfWritableMask_eq] at h
  -- the flags that are always written leave nothing to show
  simp only [List.mem_cons, List.not_mem_nil, or_false] at hbits
  rcases hbits with rfl | rfl | rfl | rfl | rfl | rfl | rfl | rfl | rfl | rfl | rfl | rfl | rfl | rfl
    <;> first | exact trivial | skip
  · show ctx.privileged = true ∨ ctx.cpl.setWidth 64 ≤ ctx.iopl
    split_ifs at h with hprivileged _ hlevel
    · exact .inl hprivileged
    · exact .inl hprivileged
    · exact .inr hlevel
    · exact .inr hlevel
    · exact absurd h (by decide)
    · exact absurd h (by decide)
  all_goals
    try show ctx.privileged = true
    try show operandSize ≠ 16
    split_ifs at h <;> first | assumption | exact absurd h (by decide)

/-- A value that is written through a mask, at a bit that the mask does not have. -/
theorem masked_bit {old value mask : U64} {bit : ℕ} (h : mask.getLsbD bit = false) :
    ((old &&& ~~~mask) ||| (value &&& mask)).getLsbD bit = old.getLsbD bit := by
  by_cases hlt : bit < 64
  · rw [BitVec.getLsbD_or, BitVec.getLsbD_and, BitVec.getLsbD_and, BitVec.getLsbD_not, h]
    simp [hlt]
  · rw [BitVec.getLsbD_of_ge _ _ (by omega), BitVec.getLsbD_of_ge _ _ (by omega)]

/-! ## One instruction -/

variable {cpu : Cpu}

theorem decodePushfOperandSize_bytes (ctx : CpuContext) :
    operandBytes (decodePushfOperandSize ctx) = 2 ∨ operandBytes (decodePushfOperandSize ctx) = 4 ∨
      operandBytes (decodePushfOperandSize ctx) = 8 := by
  unfold decodePushfOperandSize
  split_ifs <;> decide

/-- The CPU behind the decoder of an instruction. -/
def Cpu.decodedAs (cpu : Cpu) (pre : FlowPrefix) : Cpu :=
  cpu.setContext { cpu.context.withPrefix pre with lastInstSize := pre.size }

theorem recorded_eq (event : FlagEvent) (cpu : Cpu) : event.recorded cpu =
    (cpu.setSegmentOverride event.dec.segmentOverride).decodedAs event.pre := rfl

/-- The CPU with the flags that `POPF` makes of a value. -/
def Cpu.flagsPopped (cpu : Cpu) (operandSize : ℕ) (value : U64) : Cpu :=
  cpu.setFlags (popfFlags cpu.context operandSize value)

/-- What a `POPF` leaves. -/
def Cpu.popfOutcome (cpu : Cpu) : Except Cpu Cpu := do
  let operandSize := decodePushfOperandSize cpu.context
  let (value, after) ← cpu.poppedOne (operandBytes operandSize)
  return after.flagsPopped operandSize value

/-- The CPU behind a popped item. -/
theorem poppedOne_after {size : ℕ} {value : U64} {after : Cpu}
    (h : cpu.poppedOne size = .ok (value, after)) :
    after = cpu.moveStack (BitVec.ofNat 64 size) := by
  unfold Cpu.poppedOne at h
  obtain ⟨_, -, h⟩ := ok_bind_iff.mp h
  obtain ⟨_, -, h⟩ := ok_bind_iff.mp h
  exact (Prod.mk.inj (Except.ok.inj h)).2.symm

/-- The value of a `POPF` that completes, and the CPU behind it. -/
theorem popfOutcome_ok {c : Cpu} : cpu.popfOutcome = .ok c ↔
    ∃ value, cpu.poppedOne (operandBytes (decodePushfOperandSize cpu.context)) =
        .ok (value, cpu.moveStack (BitVec.ofNat 64
          (operandBytes (decodePushfOperandSize cpu.context)))) ∧
      (cpu.moveStack (BitVec.ofNat 64 (operandBytes
        (decodePushfOperandSize cpu.context)))).flagsPopped (decodePushfOperandSize cpu.context)
          value = c := by
  unfold Cpu.popfOutcome
  rw [ok_bind_iff]
  constructor
  · rintro ⟨⟨value, after⟩, hpopped, h⟩
    obtain rfl := poppedOne_after hpopped
    exact ⟨_, hpopped, Except.ok.inj h⟩
  · rintro ⟨value, hpopped, rfl⟩
    exact ⟨_, hpopped, rfl⟩

section Outcomes

variable (hm : ManagerOk cpu.memory) (hexc : cpu.context.hasException = false)

include hexc

theorem clean_popfOutcome : cpu.Clean cpu.popfOutcome :=
  ((clean_validStackSize hexc _).bind fun _ _ => (clean_loadAt hexc _ _).bind fun _ _ => .ok _).bind
    fun _ _ => .ok _

include hm

/-- **`POPF`** behind its decoder. -/
theorem run_popf :
    ((executePushfWithDecoded 0x9D (decodePushfOperandSize cpu.context)).run viewOp cpu).2 =
      (transferred cpu.popfOutcome).2 := by
  have hclean := clean_popfOutcome hexc
  unfold Cpu.popfOutcome at hclean ⊢
  unfold executePushfWithDecoded
  rw [if_neg (by decide), Program.run_bind,
    run_popValue hm hexc (decodePushfOperandSize_bytes cpu.context)]
  simp only at hclean ⊢
  cases hpopped : cpu.poppedOne (operandBytes (decodePushfOperandSize cpu.context)) with
  | error c =>
    rw [hpopped] at hclean
    cases hclean with
    | error hfailed =>
      dsimp only
      rw [Program.run_bind, run_cpuHasException, hfailed.pending]
      rfl
  | ok popped =>
    obtain ⟨value, after⟩ := popped
    obtain rfl := poppedOne_after hpopped
    have hclear : (cpu.moveStack (BitVec.ofNat 64
        (operandBytes (decodePushfOperandSize cpu.context)))).context.hasException = false := hexc
    dsimp only
    rw [Program.run_bind, run_cpuHasException, hclear]
    rfl

/-- **`PUSHF`** behind its decoder. -/
theorem run_pushf :
    ((executePushfWithDecoded 0x9C (decodePushfOperandSize cpu.context)).run viewOp cpu).2 =
      (transferred (cpu.pushedOne (operandBytes (decodePushfOperandSize cpu.context))
        (getPushfImage cpu.context (decodePushfOperandSize cpu.context)))).2 := by
  unfold executePushfWithDecoded
  rw [if_pos rfl, Program.run_bind, run_getContext]
  dsimp only
  rw [run_pushValue hm hexc (decodePushfOperandSize_bytes cpu.context)]

end Outcomes

/-! ## The end of an instruction -/

theorem restored_rflags : Restored CpuContext.rflags :=
  ⟨fun _ _ _ => rfl, fun _ _ => rfl, fun _ _ => rfl, fun _ _ => rfl, fun _ _ => rfl⟩

/-- The code of `PUSHF` and `POPF` past the page cache. -/
theorem run_pushfHandler (hm : MemoryOk cpu.memory) (pre : FlowPrefix) (opcode : U8) :
    UpToCache ((pushfHandler pre opcode).run handlerOp cpu).2
      ((executePushfWithDecoded opcode (decodePushfOperandSize (cpu.decodedAs pre).context)).run
        viewOp (cpu.decodedAs pre)).2 := by
  unfold pushfHandler
  rw [run_cpuPart]
  exact (run_viewOp (do
    modifyContext fun ctx => { ctx with lastInstSize := pre.size }
    executePushf pre opcode) hm).2

/-- Under a pending exception `PUSHF` and `POPF` do nothing. -/
theorem run_pushf_pending (hexc : cpu.context.hasException = true) (opcode : U8)
    (operandSize : ℕ) :
    ((executePushfWithDecoded opcode operandSize).run viewOp cpu).2 = cpu := by
  unfold executePushfWithDecoded
  by_cases hpush : opcode = 0x9C
  · rw [if_pos hpush, Program.run_bind, run_getContext]
    unfold pushValue
    dsimp only
    rw [Program.run_bind, run_cpuHasException, hexc]
    rfl
  · rw [if_neg hpush, Program.run_bind, run_popValue_pending hexc]
    dsimp only
    rw [Program.run_bind, run_cpuHasException, hexc]
    rfl

/-- **`PUSHF` leaves the flags alone.** -/
theorem pushf_rflags (hm : MemoryOk cpu.memory) (pre : FlowPrefix) :
    ((pushfHandler pre 0x9C).run handlerOp cpu).2.context.rflags = cpu.context.rflags := by
  rw [(run_pushfHandler hm pre 0x9C).context_eq]
  by_cases hexc : cpu.context.hasException = true
  · rw [run_pushf_pending (show (cpu.decodedAs pre).context.hasException = true from hexc)]
    rfl
  have hclear : (cpu.decodedAs pre).context.hasException = false :=
    Bool.not_eq_true _ ▸ hexc
  rw [run_pushf (show ManagerOk (cpu.decodedAs pre).memory from hm.manager) hclear]
  have hpushed := pushedOne_allOrNothing hclear
    (operandBytes (decodePushfOperandSize (cpu.decodedAs pre).context))
    (getPushfImage (cpu.decodedAs pre).context
      (decodePushfOperandSize (cpu.decodedAs pre).context))
  rcases hpushed with ⟨-, ptrs, -, hafter⟩ | ⟨-, hfailed⟩
  · rw [hafter]
    rfl
  · exact (failed_rflags hfailed).trans rfl

/-- **`POPF` ends** with the flags that it makes of a popped value, or with an exception. -/
theorem popf_ends (hm : MemoryOk cpu.memory) (pre : FlowPrefix) :
    let after := ((pushfHandler pre 0x9D).run handlerOp cpu).2.context
    (after.hasException = true ∧ after.rflags = cpu.context.rflags) ∨
      cpu.context.hasException = false ∧
        ∃ c, (cpu.decodedAs pre).popfOutcome = .ok c ∧ after = c.context := by
  intro after
  have hcontext : after = _ := (run_pushfHandler hm pre 0x9D).context_eq
  by_cases hexc : cpu.context.hasException = true
  · left
    rw [hcontext, run_pushf_pending (show (cpu.decodedAs pre).context.hasException = true from hexc)]
    exact ⟨hexc, rfl⟩
  have hclear : (cpu.decodedAs pre).context.hasException = false :=
    Bool.not_eq_true _ ▸ hexc
  have hclean := clean_popfOutcome hclear
  rw [run_popf (show ManagerOk (cpu.decodedAs pre).memory from hm.manager) hclear] at hcontext
  rw [hcontext]
  cases houtcome : (cpu.decodedAs pre).popfOutcome with
  | error c =>
    rw [houtcome] at hclean
    cases hclean with
    | error hfailed => exact .inl ⟨hfailed.pending, (failed_rflags hfailed).trans rfl⟩
  | ok c => exact .inr ⟨hclear, c, rfl, rfl⟩

theorem popfOutcome_hasException (hexc : cpu.context.hasException = false) {c : Cpu}
    (h : cpu.popfOutcome = .ok c) : c.context.hasException = false := by
  obtain ⟨value, -, rfl⟩ := popfOutcome_ok.mp h
  exact hexc

/-- A `POPF` that faults leaves the flags alone. -/
theorem popf_stays (hm : MemoryOk cpu.memory) (dec : DecodedInst) (pre : FlowPrefix) (ripPre : U64)
    (hexc : (cpu.runCode (dec.withHandler (pushfHandler pre 0x9D) false)
      ripPre).context.hasException = true) :
    (cpu.runCode (dec.withHandler (pushfHandler pre 0x9D) false) ripPre).context.rflags =
      cpu.context.rflags := by
  rw [runCode_hasException] at hexc
  rw [runCode_rflags]
  rcases popf_ends hm pre with ⟨-, hflags⟩ | ⟨hclear, c, hok, hafter⟩
  · exact hflags
  · have hbefore : (cpu.decodedAs pre).context.hasException = false := hclear
    have hnone := popfOutcome_hasException hbefore hok
    rw [← hafter] at hnone
    exact absurd (hnone.symm.trans hexc) (by decide)

/-- The flags of a `POPF` do not depend on what its decoder and its pop leave. -/
theorem popfFlags_recorded (event : FlagEvent) (distance : U64) (operandSize : ℕ) (value : U64) :
    (((event.recorded cpu).moveStack distance).flagsPopped operandSize value).context.rflags =
      popfFlags cpu.context operandSize value := rfl

/-- **One `POPF`.**  It ends with an exception and the flags as they were, or with the flags
that it makes of the popped value. -/
theorem guest_popf (hm : MemoryOk cpu.memory) {event : FlagEvent} (hinst : event.inst = .popf) :
    let operandSize := decodePushfOperandSize (event.recorded cpu).context
    ((cpu.guest event).context.hasException = true ∧
        (cpu.guest event).context.rflags = cpu.context.rflags) ∨
      (cpu.guest event).context.hasException = false ∧
        ∃ value after, (event.recorded cpu).poppedOne (operandBytes operandSize) =
            .ok (value, after) ∧
          (cpu.guest event).context.rflags = popfFlags cpu.context operandSize value := by
  intro operandSize
  have hdecoded : event.decoded cpu.context =
      event.dec.withHandler (pushfHandler event.pre 0x9D) false := by
    unfold FlagEvent.decoded
    rw [hinst]
  unfold Cpu.guest
  by_cases hexc : cpu.context.hasException = true
  · rw [if_pos hexc]
    exact .inl ⟨hexc, rfl⟩
  rw [if_neg hexc, hdecoded]
  have hend := ended restored_rflags hm (event.dec.withHandler (pushfHandler event.pre 0x9D) false)
    fun _ c hc => popf_stays hc event.dec event.pre cpu.context.rip
  rcases hend with ⟨hpending, hstays⟩ | ⟨hnone, hran, hgoes⟩
  · exact .inl ⟨hpending, hstays⟩
  right
  refine ⟨hnone, ?_⟩
  rw [runCode_hasException] at hran
  rw [runCode_rflags] at hgoes
  have hmem : MemoryOk (cpu.setSegmentOverride event.dec.segmentOverride).memory := hm
  rcases popf_ends hmem event.pre with ⟨hpending, -⟩ | ⟨-, c, hok, hafter⟩
  · exact absurd (hran.symm.trans hpending) (by decide)
  · obtain ⟨value, hpopped, rfl⟩ := popfOutcome_ok.mp hok
    have hflags := congrArg CpuContext.rflags hafter
    exact ⟨value, _, hpopped, hgoes.trans (hflags.trans (popfFlags_recorded event _ _ _))⟩

/-- **`POPF` writes only what it may write**, and it does not set `RF`. -/
theorem popf_bits (hm : MemoryOk cpu.memory) {event : FlagEvent} (hinst : event.inst = .popf)
    (bit : ℕ) (hbit : bit ≠ 16)
    (hnot : ¬ PopfWrites cpu.context (decodePushfOperandSize (event.recorded cpu).context) bit) :
    (cpu.guest event).context.rflags.getLsbD bit = cpu.context.rflags.getLsbD bit := by
  rcases guest_popf hm hinst with ⟨-, hflags⟩ | ⟨-, value, after, -, hflags⟩
  · rw [hflags]
  have hmask : (popfWritableMask cpu.context
      (decodePushfOperandSize (event.recorded cpu).context)).getLsbD bit = false :=
    Bool.not_eq_true _ ▸ fun h => hnot (popfWrites_of_mask h)
  rw [hflags, popfFlags, BitVec.getLsbD_and, masked_bit hmask]
  by_cases hlt : bit < 64
  · have hrf := pushfRfBit_bits ⟨bit, hlt⟩ hbit
    rw [BitVec.getLsbD_not, hrf]
    simp [hlt]
  · rw [BitVec.getLsbD_of_ge _ _ (by omega), Bool.false_and]

theorem popf_rf (hm : MemoryOk cpu.memory) {event : FlagEvent} (hinst : event.inst = .popf)
    (h : (cpu.guest event).context.rflags.getLsbD 16 = true) :
    cpu.context.rflags.getLsbD 16 = true := by
  rcases guest_popf hm hinst with ⟨-, hflags⟩ | ⟨-, value, after, -, hflags⟩
  · rwa [← hflags]
  · rw [hflags, popfFlags, BitVec.getLsbD_and, Bool.and_eq_true] at h
    exact absurd h.2 (by decide)

/-! ## The held flags -/

/-- The held flags are guarded ones. -/
theorem heldFlags_guarded (ctx : CpuContext) : guardedFlags &&& ctx.heldFlags = ctx.heldFlags := by
  unfold CpuContext.heldFlags
  split_ifs <;> decide

theorem flagsHeld_of_guarded {cpu' : Cpu}
    (h : cpu'.context.rflags &&& guardedFlags = cpu.context.rflags &&& guardedFlags) :
    FlagsHeld cpu cpu' := by
  have hmask : ∀ flags : U64, flags &&& cpu.context.heldFlags =
      (flags &&& guardedFlags) &&& cpu.context.heldFlags := by
    intro flags
    rw [BitVec.and_assoc, heldFlags_guarded]
  unfold FlagsHeld
  rw [hmask, h, ← hmask]

theorem flagsHeld_of_rflags {cpu' : Cpu} (h : cpu'.context.rflags = cpu.context.rflags) :
    FlagsHeld cpu cpu' := by
  unfold FlagsHeld
  rw [h]

/-- At privilege level 3 the mask has all held flags or none of them. -/
theorem popfWritableMask_held {ctx : CpuContext} (hcpl : ctx.cpl = 3) (operandSize : ℕ) :
    popfWritableMask ctx operandSize &&& ctx.heldFlags =
      if ctx.privileged then ctx.heldFlags else 0 := by
  have hlevel : ctx.cpl.setWidth 64 ≤ ctx.iopl ↔ ¬ ctx.iopl < 3 := by
    rw [hcpl]
    exact BitVec.not_lt.symm
  rw [popfWritableMask_eq]
  unfold CpuContext.heldFlags
  simp only [hlevel]
  split_ifs <;> first | contradiction | decide

/-- A value that is written through a mask, below a mask. -/
theorem and_merge (old value mask rf held : U64) (hrf : rf &&& held = 0) :
    (((old &&& ~~~mask) ||| (value &&& mask)) &&& ~~~rf) &&& held =
      (old &&& (held &&& ~~~(mask &&& held))) ||| (value &&& (mask &&& held)) := by
  ext i hi
  have hbit := congrArg (·.getLsbD i) hrf
  simp only [BitVec.getLsbD_eq_getElem hi] at hbit
  simp only [BitVec.getElem_and, BitVec.getElem_or, BitVec.getElem_not] at hbit ⊢
  revert hbit
  cases old[i] <;> cases value[i] <;> cases mask[i] <;> cases rf[i] <;> cases held[i] <;> simp

/-- **The held flags behind a `POPF`** at privilege level 3. -/
theorem popfFlags_held {ctx : CpuContext} (hcpl : ctx.cpl = 3) (operandSize : ℕ) (value : U64) :
    popfFlags ctx operandSize value &&& ctx.heldFlags =
      if ctx.privileged then value &&& ctx.heldFlags else ctx.rflags &&& ctx.heldFlags := by
  have hrf : pushfRfBit &&& ctx.heldFlags = 0 := by
    unfold CpuContext.heldFlags
    split_ifs <;> decide
  unfold popfFlags
  simp only
  rw [and_merge _ _ _ _ _ hrf, popfWritableMask_held hcpl]
  split_ifs
  · simp
  · show (ctx.rflags &&& (ctx.heldFlags &&& BitVec.allOnes 64)) ||| (value &&& 0) = _
    rw [BitVec.and_allOnes, show value &&& 0 = 0 from BitVec.and_zero]
    exact BitVec.or_zero

theorem popf_flagsHeld (hm : MemoryOk cpu.memory) (hcpl : cpu.context.cpl = 3)
    {event : FlagEvent} (hinst : event.inst = .popf) :
    FlagsHeld cpu (cpu.guest event) ↔ FlagsFit cpu event := by
  unfold FlagsFit
  rw [hinst]
  rcases guest_popf hm hinst with ⟨hpending, hflags⟩ | ⟨hnone, value, after, hpopped, hflags⟩
  · refine iff_of_true (flagsHeld_of_rflags hflags) fun hnone => ?_
    exact absurd (hpending.symm.trans hnone) (by decide)
  have hheld : FlagsHeld cpu (cpu.guest event) ↔
      (cpu.context.privileged = true → HasHeldFlags cpu value) := by
    unfold FlagsHeld HasHeldFlags
    rw [hflags, popfFlags_held hcpl]
    split_ifs with hprivileged
    · exact ⟨fun h _ => h, fun h => h hprivileged⟩
    · exact iff_of_true rfl fun h => absurd h hprivileged
  rw [hheld]
  constructor
  · intro h _ hprivileged value' after' hpopped'
    obtain ⟨rfl, -⟩ := Prod.mk.inj (Except.ok.inj (hpopped.symm.trans hpopped'))
    exact h hprivileged
  · exact fun h hprivileged => h hnone hprivileged value after hpopped

theorem guest_pushf_rflags (hm : MemoryOk cpu.memory) {event : FlagEvent}
    (hinst : event.inst = .pushf) :
    (cpu.guest event).context.rflags = cpu.context.rflags := by
  have hdecoded : event.decoded cpu.context =
      event.dec.withHandler (pushfHandler event.pre 0x9C) false := by
    unfold FlagEvent.decoded
    rw [hinst]
  have hcode : ∀ c : Cpu, MemoryOk c.memory → (c.runCode (event.dec.withHandler
      (pushfHandler event.pre 0x9C) false) cpu.context.rip).context.rflags = c.context.rflags := by
    intro c hc
    rw [runCode_rflags]
    exact pushf_rflags hc event.pre
  unfold Cpu.guest
  split_ifs
  · rfl
  rw [hdecoded]
  rcases ended restored_rflags hm (event.dec.withHandler (pushfHandler event.pre 0x9C) false)
    (fun _ c hc _ => hcode c hc) with ⟨-, hstays⟩ | ⟨-, -, hgoes⟩
  · exact hstays
  · exact hgoes.trans (hcode _ hm)

/-- An instruction without a decoder. -/
theorem undefined_rflags (dec : DecodedInst) (hud : dec.flags.ud = true) (ripPre : U64) :
    (cpu.dispatchDecoded dec ripPre).2.context.rflags = cpu.context.rflags := by
  have hnotify : (cpu.notifyFetchedBytes dec).context.rflags = cpu.context.rflags := by
    unfold Cpu.notifyFetchedBytes
    split_ifs
    · exact restored_rflags.raiseException _ _ _
    · rfl
  unfold Cpu.dispatchDecoded
  simp only
  rw [if_pos hud]
  exact (restored_rflags.finish_raised _ dec .ud .ud).2.trans hnotify

/-- **`IRET`** at the code: it loads the flags of its frame. -/
theorem iret_flagsHeld (hm : MemoryOk cpu.memory) {event : FlagEvent}
    {keeps : FlowInst.KeepsGuarded .iret} (hinst : event.inst = .flow .iret keeps) :
    FlagsHeld cpu (cpu.guest event) ↔ FlagsFit cpu event := by
  have hdecoded : event.decoded cpu.context =
      FlowEvent.decoded ⟨event.dec, event.pre, .iret⟩ cpu.context := by
    unfold FlagEvent.decoded
    rw [hinst]
  unfold FlagsFit
  rw [hinst]
  by_cases hexc : cpu.context.hasException = true
  · have hsame : cpu.guest event = cpu := if_pos hexc
    rw [hsame]
    refine iff_of_true (flagsHeld_of_rflags rfl) fun hnone => ?_
    exact absurd (hexc.symm.trans hnone) (by decide)
  have hguest : cpu.guest event = (cpu.dispatchDecoded
      (FlowEvent.decoded ⟨event.dec, event.pre, .iret⟩ cpu.context) cpu.context.rip).2 :=
    (if_neg hexc).trans (by rw [hdecoded])
  rw [hguest]
  rcases ended restored_rflags hm (FlowEvent.decoded ⟨event.dec, event.pre, .iret⟩ cpu.context)
    (fun hflags c _ _ => by simp [FlowEvent.decoded, DecodedInst.withHandler] at hflags) with
    ⟨hpending, hsame⟩ | ⟨hnone, hran, hgoes⟩
  · refine iff_of_true (flagsHeld_of_rflags hsame) fun hnone => ?_
    exact absurd (hpending.symm.trans hnone) (by decide)
  rw [runCode_hasException] at hran
  rw [runCode_rflags] at hgoes
  have hcode : (FlowEvent.decoded ⟨event.dec, event.pre, .iret⟩ cpu.context).code.1 =
      executeFar event.pre fun ctx => FlowInst.transfer event.pre ctx .iret := rfl
  have hrun : ((FlowEvent.decoded ⟨event.dec, event.pre, .iret⟩ cpu.context).code.1.run handlerOp
      (cpu.setSegmentOverride event.dec.segmentOverride)).2 =
        farTransfer (decodeIret (event.recorded cpu).context) (event.recorded cpu) := by
    rw [hcode, run_executeFar]
    rfl
  have hclear : (event.recorded cpu).context.hasException = false := Bool.not_eq_true _ ▸ hexc
  have hmem : MemoryOk (event.recorded cpu).memory := hm
  change ((FlowEvent.decoded ⟨event.dec, event.pre, .iret⟩ cpu.context).code.1.run handlerOp
    (cpu.setSegmentOverride event.dec.segmentOverride)).2.context.hasException = false at hran
  change _ = ((FlowEvent.decoded ⟨event.dec, event.pre, .iret⟩ cpu.context).code.1.run handlerOp
    (cpu.setSegmentOverride event.dec.segmentOverride)).2.context.rflags at hgoes
  rw [hrun] at hran hgoes
  obtain ⟨c, hc⟩ := (farTransfer_done hclear hmem _).mp hran
  rw [(farTransfer_ok hclear hmem hc).2.1] at hgoes
  obtain ⟨frame, hframe, rfl⟩ := iretOutcome_ok.mp hc
  rw [(iretEntered_context _ frame).1] at hgoes
  unfold FlagsHeld
  rw [hgoes]
  constructor
  · intro h _ frame' hframe'
    obtain rfl := Except.ok.inj (hframe.symm.trans hframe')
    exact h
  · exact fun h => h hnone frame hframe

/-- The other instructions of the control flow. -/
theorem flow_flagsHeld (hm : MemoryOk cpu.memory) {event : FlagEvent} {inst : FlowInst}
    {keeps : inst.KeepsGuarded} (hinst : event.inst = .flow inst keeps) (hiret : inst ≠ .iret) :
    FlagsHeld cpu (cpu.guest event) := by
  have hdecoded : event.decoded cpu.context =
      FlowEvent.decoded ⟨event.dec, event.pre, inst⟩ cpu.context := by
    unfold FlagEvent.decoded
    rw [hinst]
  unfold Cpu.guest
  by_cases hexc : cpu.context.hasException = true
  · rw [if_pos hexc]
    exact flagsHeld_of_rflags rfl
  rw [if_neg hexc, hdecoded]
  apply flagsHeld_of_guarded
  rcases ended restored_guarded hm (FlowEvent.decoded ⟨event.dec, event.pre, inst⟩ cpu.context)
    (fun hflags c hc _ => decoded_guardedStays keeps cpu.context cpu.context.rip hflags hc) with
    ⟨-, hstays⟩ | ⟨-, -, hgoes⟩
  · exact hstays
  · rw [runCode_rflags] at hgoes
    have hclear : (cpu.setSegmentOverride (FlowEvent.decoded ⟨event.dec, event.pre, inst⟩
      cpu.context).segmentOverride).context.hasException = false := Bool.not_eq_true _ ▸ hexc
    exact hgoes.trans (decoded_keepsGuarded keeps hiret cpu.context hm hclear)

/-- **One instruction** at privilege level 3. -/
theorem guest_flagsHeld (hm : MemoryOk cpu.memory) (hcpl : cpu.context.cpl = 3)
    (event : FlagEvent) : FlagsHeld cpu (cpu.guest event) ↔ FlagsFit cpu event := by
  cases hinst : event.inst with
  | pushf =>
    refine iff_of_true (flagsHeld_of_rflags (guest_pushf_rflags hm hinst)) ?_
    unfold FlagsFit
    rw [hinst]
    exact fun _ => trivial
  | popf => exact popf_flagsHeld hm hcpl hinst
  | sti | cli =>
    have hud : (event.decoded cpu.context).flags.ud = true := by
      unfold FlagEvent.decoded
      rw [hinst]
    have hheld : FlagsHeld cpu (cpu.guest event) := by
      apply flagsHeld_of_rflags
      unfold Cpu.guest
      split_ifs
      · rfl
      · exact undefined_rflags _ hud _
    refine iff_of_true hheld ?_
    unfold FlagsFit
    rw [hinst]
    exact fun _ => trivial
  | flow inst keeps =>
    by_cases hiret : inst = .iret
    · subst hiret
      exact iret_flagsHeld hm hinst
    refine iff_of_true (flow_flagsHeld hm hinst hiret) ?_
    unfold FlagsFit
    rw [hinst]
    cases inst with
    | iret => exact absurd rfl hiret
    | sequential | jump | jcc | call | ret | jmpFarMem | jmpFarPtr | callFarMem | callFarPtr
    | retFar => exact fun _ => trivial

/-! ## Runs -/

theorem memoryOk_guest (hm : MemoryOk cpu.memory) (event : FlagEvent) :
    MemoryOk (cpu.guest event).memory := by
  unfold Cpu.guest
  split_ifs
  · exact hm
  · exact (GuestFrame.dispatchDecoded cpu _ _).memory.ok hm

theorem cpl_guest (cpu : Cpu) (event : FlagEvent) :
    (cpu.guest event).context.cpl = cpu.context.cpl := by
  unfold Cpu.guest
  split_ifs
  · rfl
  · exact (GuestFrame.dispatchDecoded cpu _ _).cpl_eq

/-- Flags that agree with held ones have the same `IOPL`. -/
theorem heldFlags_of_held {cpu' : Cpu} (h : FlagsHeld cpu cpu') :
    cpu'.context.heldFlags = cpu.context.heldFlags := by
  have hiopl : ∀ ctx : CpuContext, ctx.iopl = ((ctx.rflags &&& pushfIoplMask) >>> 12) := by
    intro ctx
    unfold CpuContext.iopl
    rw [BitVec.ushiftRight_and_distrib]
    rfl
  have hmask : ∀ flags : U64, flags &&& pushfIoplMask =
      (flags &&& cpu.context.heldFlags) &&& pushfIoplMask := by
    intro flags
    have hsub : cpu.context.heldFlags &&& pushfIoplMask = pushfIoplMask := by
      unfold CpuContext.heldFlags
      split_ifs <;> decide
    rw [BitVec.and_assoc, hsub]
  unfold CpuContext.heldFlags
  rw [hiopl cpu'.context, hiopl cpu.context, hmask cpu'.context.rflags, h, ← hmask]

/-- **A run at privilege level 3.** -/
theorem run_flagsHeld (hm : MemoryOk cpu.memory) (hcpl : cpu.context.cpl = 3)
    (events : List FlagEvent) :
    (∀ past, past <+: events → FlagsHeld cpu (run Cpu.guest cpu past)) ↔
      Along Cpu.guest FlagsFit cpu events := by
  refine forall_prefix_iff_along_of (fun c => MemoryOk c.memory ∧ c.context.cpl = 3)
    (FlagsHeld cpu) ?_ ?_ cpu ⟨hm, hcpl⟩ rfl events
  · rintro c event ⟨hc, hlevel⟩
    exact ⟨memoryOk_guest hc event, (cpl_guest c event).trans hlevel⟩
  · rintro c event ⟨hc, hlevel⟩ hheld
    rw [← guest_flagsHeld hc hlevel event]
    have hsame : c.context.rflags &&& cpu.context.heldFlags =
      cpu.context.rflags &&& cpu.context.heldFlags := hheld
    unfold FlagsHeld
    rw [heldFlags_of_held hheld, hsame]

/-! ## `PUSHF` and `POPF` -/

/-- **The CPU behind a decoded instruction** that raises no exception. -/
theorem dispatchDecoded_done (hm : MemoryOk cpu.memory) (dec : DecodedInst) {ripPre : U64}
    (hnone : (cpu.dispatchDecoded dec ripPre).2.context.hasException = false) :
    (cpu.dispatchDecoded dec ripPre).2 =
      ((cpu.setSegmentOverride dec.segmentOverride).runCode dec ripPre).setSegmentOverride (-1) := by
  have hmem : MemoryOk ((cpu.notifyFetchedBytes dec).setSegmentOverride
    dec.segmentOverride).memory := (GuestFrame.notifyFetchedBytes cpu dec).memory.ok hm
  unfold Cpu.dispatchDecoded at hnone ⊢
  simp only at hnone ⊢
  have hraised : ∀ (start : Cpu) (fault : RaisedFault) (result : StepResult),
      ((start.raise fault.code).finish dec none result).2.context.hasException ≠ false := by
    intro start fault result
    rw [(restored_rflags.finish_raised start dec fault result).1]
    decide
  split_ifs at hnone ⊢ with hud hbp hdb hnofault
  · exact absurd hnone (hraised _ .ud _)
  · exact absurd hnone (hraised _ .bp _)
  · exact absurd hnone (hraised _ .db _)
  all_goals
    have hran : (((cpu.notifyFetchedBytes dec).setSegmentOverride dec.segmentOverride).runCode dec
        ripPre).context.hasException ≠ true := by
      intro hexc
      unfold Cpu.finish at hnone
      rw [if_pos hexc] at hnone
      exact absurd (hexc.symm.trans hnone) (by decide)
    have hnotify : cpu.notifyFetchedBytes dec = cpu := by
      by_contra hne
      apply hran
      apply runCode_pending hmem
      unfold Cpu.notifyFetchedBytes at hne ⊢
      split_ifs at hne ⊢
      · exact raiseException_pending _ .ud _
      · exact absurd rfl hne
    unfold Cpu.finish
    rw [if_neg hran, hnotify]

/-- The code of a `PUSHF` that raises no exception. -/
theorem pushf_ran (hm : MemoryOk cpu.memory) (pre : FlowPrefix)
    (hnone : ((pushfHandler pre 0x9C).run handlerOp cpu).2.context.hasException = false) :
    let before := cpu.decodedAs pre
    let size := operandBytes (decodePushfOperandSize before.context)
    ∃ ptrs, before.operandPtrs true (before.stackSlot (-BitVec.ofNat 64 size)) size 0 = .ok ptrs ∧
      UpToCache ((pushfHandler pre 0x9C).run handlerOp cpu).2
        ((before.moveStack (-BitVec.ofNat 64 size)).setHost (storeBytes cpu.memory.host ptrs
          (getPushfImage before.context (decodePushfOperandSize before.context)))) := by
  intro before size
  have hstate := run_pushfHandler hm pre 0x9C
  by_cases hexc : before.context.hasException = true
  · rw [run_pushf_pending hexc] at hstate
    rw [hstate.context_eq] at hnone
    exact absurd (hexc.symm.trans hnone) (by decide)
  have hclear : before.context.hasException = false := Bool.not_eq_true _ ▸ hexc
  rw [run_pushf (show ManagerOk before.memory from hm.manager) hclear] at hstate
  have hclean := clean_pushedOne hclear size (getPushfImage before.context
    (decodePushfOperandSize before.context))
  cases hpushed : before.pushedOne size (getPushfImage before.context
      (decodePushfOperandSize before.context)) with
  | error c =>
    rw [hpushed] at hclean hstate
    cases hclean with
    | error hfailed =>
      rw [hstate.context_eq] at hnone
      exact absurd (hfailed.pending.symm.trans hnone) (by decide)
  | ok c =>
    rw [hpushed] at hstate
    obtain ⟨-, ptrs, hptrs, rfl⟩ := pushedOne_ok hpushed
    rw [belowStack_rsp] at hptrs
    exact ⟨ptrs, hptrs, hstate⟩

theorem setSegmentOverride_hasException (cpu : Cpu) (override : ℤ) :
    (cpu.setSegmentOverride override).context.hasException = cpu.context.hasException := rfl

/-- The advance behind an instruction that is no branch. -/
theorem runCode_advance {dec : DecodedInst} {ripPre : U64}
    (hnone : (dec.code.1.run handlerOp cpu).2.context.hasException = false)
    (hadvance : dec.code.2 = true) :
    cpu.runCode dec ripPre = (dec.code.1.run handlerOp cpu).2.setContext
      { (dec.code.1.run handlerOp cpu).2.context with
        rip := ripPre +
          BitVec.ofInt 64 (dec.code.1.run handlerOp cpu).2.context.lastInstSize } := by
  unfold Cpu.runCode
  simp only [hnone, hadvance, Bool.not_false, Bool.true_and, if_true]

/-- **One `PUSHF`** that raises no exception: the image is in its slot, and the stack pointer
is at the slot. -/
theorem guest_pushf (hm : MemoryOk cpu.memory) {event : FlagEvent} (hinst : event.inst = .pushf)
    (hnone : (cpu.guest event).context.hasException = false) :
    let operandSize := decodePushfOperandSize (event.recorded cpu).context
    ∃ ptrs, (event.recorded cpu).operandPtrs true (event.slot cpu) (operandBytes operandSize) 0 =
        .ok ptrs ∧
      (∃ rip, (cpu.guest event).context = { ((event.recorded cpu).moveStack
        (-BitVec.ofNat 64 (operandBytes operandSize))).context with
          rip := rip
          segmentOverride := -1 }) ∧
      ∃ cache, (cpu.guest event).memory = (cpu.memory.setHost (storeBytes cpu.memory.host ptrs
        (getPushfImage cpu.context operandSize))).setCache cache := by
  intro operandSize
  have hdecoded : event.decoded cpu.context =
      event.dec.withHandler (pushfHandler event.pre 0x9C) false := by
    unfold FlagEvent.decoded
    rw [hinst]
  have hexc : ¬ cpu.context.hasException = true := by
    intro hexc
    have hsame : cpu.guest event = cpu := if_pos hexc
    rw [hsame] at hnone
    exact absurd (hexc.symm.trans hnone) (by decide)
  have hguest : cpu.guest event = (cpu.dispatchDecoded
      (event.dec.withHandler (pushfHandler event.pre 0x9C) false) cpu.context.rip).2 :=
    (if_neg hexc).trans (by rw [hdecoded])
  rw [hguest] at hnone ⊢
  have hdone := dispatchDecoded_done hm
    (event.dec.withHandler (pushfHandler event.pre 0x9C) false) hnone
  rw [hdone] at hnone ⊢
  have hmem : MemoryOk (cpu.setSegmentOverride event.dec.segmentOverride).memory := hm
  have hso : (event.dec.withHandler (pushfHandler event.pre 0x9C) false).segmentOverride =
      event.dec.segmentOverride := rfl
  have hcode : (event.dec.withHandler (pushfHandler event.pre 0x9C) false).code =
      (pushfHandler event.pre 0x9C, true) := rfl
  rw [hso] at hnone ⊢
  have hran : ((event.dec.withHandler (pushfHandler event.pre 0x9C) false).code.1.run handlerOp
      (cpu.setSegmentOverride event.dec.segmentOverride)).2.context.hasException = false := by
    rw [← runCode_hasException _ _ cpu.context.rip, ← setSegmentOverride_hasException _ (-1)]
    exact hnone
  rw [runCode_advance hran (congrArg Prod.snd hcode)]
  rw [hcode] at hran ⊢
  obtain ⟨ptrs, hptrs, hstate⟩ := pushf_ran hmem event.pre hran
  dsimp only
  generalize ((pushfHandler event.pre 0x9C).run handlerOp
    (cpu.setSegmentOverride event.dec.segmentOverride)).2 = ran at hstate ⊢
  refine ⟨ptrs, hptrs, ⟨cpu.context.rip + BitVec.ofInt 64 ran.context.lastInstSize, ?_⟩,
    ran.memory.pageCache, ?_⟩
  · show ({ ran.context with
      rip := cpu.context.rip + BitVec.ofInt 64 ran.context.lastInstSize
      segmentOverride := -1 } : CpuContext) = _
    rw [hstate.context_eq]
    rfl
  · have himage : getPushfImage (event.recorded cpu).context operandSize =
        getPushfImage cpu.context operandSize := by
      unfold getPushfImage
      rfl
    rw [← himage]
    exact hstate.memory_eq

/-- A value that is written through a mask leaves the rest as it was exactly if it agrees on the
mask. -/
theorem merged_eq_iff {old value mask rf : U64} (hrf : mask &&& rf = 0) :
    (((old &&& ~~~mask) ||| (value &&& mask)) &&& ~~~rf) &&& ~~~rf = old &&& ~~~rf ↔
      (value ^^^ old) &&& mask = 0 := by
  change _ ↔ _ = 0#64
  change _ = 0#64 at hrf
  simp only [BitVec.eq_of_getElem_eq_iff, BitVec.getElem_or, BitVec.getElem_and,
    BitVec.getElem_not, BitVec.getElem_xor, BitVec.getElem_zero] at hrf ⊢
  refine forall₂_congr fun i hi => ?_
  have hbit := hrf i hi
  revert hbit
  cases old[i] <;> cases value[i] <;> cases mask[i] <;> cases rf[i] <;> simp

theorem poppedOne_value {size : ℕ} {value : U64} {after : Cpu}
    (h : cpu.poppedOne size = .ok (value, after)) :
    cpu.loadAt size (cpu.stackSlot 0) = .ok value := by
  unfold Cpu.poppedOne at h
  obtain ⟨_, -, h⟩ := ok_bind_iff.mp h
  obtain ⟨loaded, hload, h⟩ := ok_bind_iff.mp h
  obtain ⟨rfl, -⟩ := Prod.mk.inj (Except.ok.inj h)
  exact hload

/-- The lowest item behind a move of the stack pointer. -/
theorem moveStack_slot (distance : U64) :
    (cpu.moveStack distance).stackSlot 0 = cpu.stackSlot distance := by
  rw [stackSlot_zero]
  unfold Cpu.moveStack Cpu.stackSlot
  simp only [Function.update_self]
  exact truncateTo_stackWrite _ _ _

theorem moveStack_dataPtr (distance : U64) (store : Bool) (address : U64) :
    (cpu.moveStack distance).dataPtr store address = cpu.dataPtr store address := rfl

theorem recorded_stackSlot (event : FlagEvent) (distance : U64) :
    (event.recorded cpu).stackSlot distance = cpu.stackSlot distance := rfl

theorem recorded_dataPtr (event : FlagEvent) (store : Bool) (address : U64) :
    (event.recorded cpu).dataPtr store address = cpu.dataPtr store address := rfl

/-- The next instruction finds the stack where the last one has left it. -/
theorem stackSlot_advanced {cpu' : Cpu} {rip : U64} {override : ℤ}
    (h : cpu'.context = { cpu.context with rip := rip, segmentOverride := override })
    (distance : U64) : cpu'.stackSlot distance = cpu.stackSlot distance := by
  unfold Cpu.stackSlot
  rw [h]
  rfl

theorem dataPtr_advanced {cpu' : Cpu} {rip : U64} {override : ℤ} {host : HostMemory}
    {cache : ℕ → PageCacheEntry}
    (h : cpu'.context = { cpu.context with rip := rip, segmentOverride := override })
    (hmemory : cpu'.memory = (cpu.memory.setHost host).setCache cache) (store : Bool)
    (address : U64) : cpu'.dataPtr store address = cpu.dataPtr store address := by
  unfold Cpu.dataPtr
  rw [h, hmemory]
  unfold grantedPtr
  rw [accessView_setCache, accessView_setHost]
  rfl

/-- Behind a `PUSHF` the value of a `POPF` of the same size is what its slot holds. -/
theorem popped_of_pushed (hm : MemoryOk cpu.memory) {first second : FlagEvent}
    (hfirst : first.inst = .pushf)
    (hsame : second.pre.operandSizeOverride = first.pre.operandSizeOverride)
    (hnone : (cpu.guest first).context.hasException = false) :
    let operandSize := decodePushfOperandSize (first.recorded cpu).context
    decodePushfOperandSize (second.recorded (cpu.guest first)).context = operandSize ∧
      popfWritableMask (cpu.guest first).context operandSize = popfWritableMask cpu.context operandSize ∧
      ∃ ptrs, (first.recorded cpu).operandPtrs true (first.slot cpu) (operandBytes operandSize) 0 =
          .ok ptrs ∧
        ∀ value after, (second.recorded (cpu.guest first)).poppedOne (operandBytes operandSize) =
            .ok (value, after) →
          value = loadValue (storeBytes cpu.memory.host ptrs
            (getPushfImage cpu.context operandSize)) ptrs := by
  intro operandSize
  obtain ⟨ptrs, hptrs, ⟨rip, hcontext⟩, cache, hmemory⟩ := guest_pushf hm hfirst hnone
  have hsize : decodePushfOperandSize (second.recorded (cpu.guest first)).context = operandSize := by
    rw [recorded_eq]
    unfold Cpu.decodedAs Cpu.setSegmentOverride Cpu.setContext
    simp only
    rw [hcontext]
    unfold operandSize decodePushfOperandSize CpuContext.withPrefix
    simp only [hsame]
    rfl
  have hmask : popfWritableMask (cpu.guest first).context operandSize =
      popfWritableMask cpu.context operandSize := by
    rw [hcontext]
    rfl
  refine ⟨hsize, hmask, ptrs, hptrs, fun value after hpopped => ?_⟩
  have hload := poppedOne_value hpopped
  obtain ⟨ptrs', hptrs', hvalue⟩ := loadAt_ok_iff.mp hload
  have hslot : (second.recorded (cpu.guest first)).stackSlot 0 = first.slot cpu := by
    rw [recorded_stackSlot, stackSlot_advanced hcontext, moveStack_slot]
    rfl
  have hdata : ∀ a, (second.recorded (cpu.guest first)).dataPtr false a =
      (first.recorded cpu).dataPtr false a := by
    intro a
    rw [recorded_dataPtr, dataPtr_advanced hcontext hmemory, moveStack_dataPtr]
  rw [hslot, operandPtrs_congr hdata] at hptrs'
  obtain rfl := operandPtrs_alike _ hptrs' hptrs
  rw [hvalue]
  show loadValue (cpu.guest first).memory.host ptrs' = _
  rw [hmemory]
  rfl

/-- **`PUSHF` and `POPF` of one size** leave the flags but for `RF` as they were exactly if the
slot holds what is stored to it, or one of them faults. -/
theorem pushf_popf (hm : MemoryOk cpu.memory) {first second : FlagEvent}
    (hfirst : first.inst = .pushf) (hsecond : second.inst = .popf)
    (hsame : second.pre.operandSizeOverride = first.pre.operandSizeOverride) :
    ((cpu.guest first).guest second).context.rflags &&& ~~~pushfRfBit =
        cpu.context.rflags &&& ~~~pushfRfBit ↔
      (((cpu.guest first).guest second).context.hasException = false → first.SlotHolds cpu) := by
  have hkept := guest_pushf_rflags hm hfirst
  rcases guest_popf (memoryOk_guest hm first) hsecond with
    ⟨hpending, hflags⟩ | ⟨hnone, value, after, hpopped, hflags⟩
  · rw [hflags, hkept, hpending]
    exact iff_of_true rfl fun h => nomatch h
  have hmid : (cpu.guest first).context.hasException = false := by
    by_contra hexc
    have hstays : (cpu.guest first).guest second = cpu.guest first := if_pos (by simpa using hexc)
    rw [hstays] at hnone
    exact hexc hnone
  obtain ⟨hsize, hmask, ptrs, hptrs, hvalue⟩ := popped_of_pushed hm hfirst hsame hmid
  rw [hsize] at hpopped hflags
  obtain rfl := hvalue value after hpopped
  have hrf : popfWritableMask cpu.context (decodePushfOperandSize (first.recorded cpu).context) &&&
      pushfRfBit = 0 := by
    rw [popfWritableMask_eq]
    split_ifs <;> decide
  rw [hflags, popfFlags, hkept, hmask]
  refine (merged_eq_iff hrf).trans ?_
  constructor
  · intro h _ ptrs' hptrs'
    obtain rfl := Except.ok.inj (hptrs.symm.trans hptrs')
    exact h
  · exact fun h => h hnone ptrs hptrs

theorem decodePushfOperandSize_cases (ctx : CpuContext) : decodePushfOperandSize ctx = 16 ∨
    decodePushfOperandSize ctx = 32 ∨ decodePushfOperandSize ctx = 64 := by
  unfold decodePushfOperandSize
  split_ifs <;> simp

/-- A word that is masked agrees with the word on a part of the mask. -/
theorem masked_agrees {old mask part : U64} (h : part &&& mask = part) :
    ((old &&& mask) ^^^ old) &&& part = 0 := by
  rw [← h]
  ext i hi
  simp only [BitVec.getElem_and, BitVec.getElem_xor]
  cases old[i] <;> cases mask[i] <;> cases part[i] <;> simp

/-- The image has the flags that a `POPF` writes. -/
theorem pushfImage_agrees (ctx : CpuContext) {operandSize : ℕ}
    (hsize : operandSize = 16 ∨ operandSize = 32 ∨ operandSize = 64) :
    (getPushfImage ctx operandSize ^^^ ctx.rflags) &&& popfWritableMask ctx operandSize = 0 := by
  have himage : ∃ mask : U64, getPushfImage ctx operandSize = ctx.rflags &&& mask ∧
      popfWritableMask ctx operandSize &&& mask = popfWritableMask ctx operandSize := by
    rw [popfWritableMask_eq]
    unfold getPushfImage
    rcases hsize with rfl | rfl | rfl
    · refine ⟨~~~(pushfRfBit ||| pushfVmBit) &&& 0xFFFF, (BitVec.and_assoc _ _ _), ?_⟩
      split_ifs <;> first | omega | decide
    · refine ⟨~~~(pushfRfBit ||| pushfVmBit) &&& 0xFFFFFFFF, (BitVec.and_assoc _ _ _), ?_⟩
      split_ifs <;> first | omega | decide
    · refine ⟨~~~(pushfRfBit ||| pushfVmBit), rfl, ?_⟩
      split_ifs <;> first | omega | decide
  obtain ⟨mask, himage, hmask⟩ := himage
  rw [himage]
  exact masked_agrees hmask

/-- **A slot with storage of its own** holds what is stored to it. -/
theorem slotHolds_of_separate {event : FlagEvent}
    (h : (event.recorded cpu).SeparateBytes
      (operandBytes (decodePushfOperandSize (event.recorded cpu).context)) (event.slot cpu)) :
    event.SlotHolds cpu := by
  unfold FlagEvent.SlotHolds
  intro operandSize ptrs hptrs
  have hsize := decodePushfOperandSize_cases (event.recorded cpu).context
  obtain ⟨hnodup, hbacked⟩ := separateBytes_ptrs h hptrs
  have hlength := operandPtrs_length _ hptrs
  have hbits : 8 * ptrs.length = operandSize := by
    rw [hlength]
    show 8 * operandBytes (decodePushfOperandSize _) = decodePushfOperandSize _
    rcases hsize with hsize | hsize | hsize <;> rw [hsize] <;> rfl
  have hloaded : loadValue (storeBytes cpu.memory.host ptrs (getPushfImage cpu.context operandSize))
      ptrs = getPushfImage cpu.context operandSize := by
    apply BitVec.eq_of_toNat_eq
    have hle : ptrs.length ≤ 8 := by
      have hmax : operandSize ≤ 64 := by
        rcases hsize with hsize | hsize | hsize <;> exact hsize.trans_le (by decide)
      omega
    have hstored : ∀ p ∈ ptrs, (cpu.memory.host.read p).isSome = true := hbacked
    rw [loadValue_storeBytes ptrs _ _ hnodup hstored hle, hbits]
    apply Nat.mod_eq_of_lt
    unfold getPushfImage
    rw [truncateTo_toNat hsize]
    exact Nat.mod_lt _ (Nat.two_pow_pos _)
  rw [hloaded]
  exact pushfImage_agrees cpu.context hsize

/-! ## The law -/

/-- **The law of the flags image.**  `POPF` changes only flags that it may write, and does not
set `RF`.  A `PUSHF` and a `POPF` of one size leave the flags but for `RF` as they were exactly
if the slot holds what is stored to it, or one of them faults.  A run at privilege level 3 holds
`IOPL`, and `IF` while `IOPL` is below 3, in all its states exactly if each `IRET` that completes
takes flags that agree on them. -/
theorem flag_image_law (cpu : Cpu) (hm : MemoryOk cpu.memory) :
    (∀ event : FlagEvent, event.inst = .popf →
      (∀ bit, bit ≠ 16 →
        ¬ PopfWrites cpu.context (decodePushfOperandSize (event.recorded cpu).context) bit →
        (cpu.guest event).context.rflags.getLsbD bit = cpu.context.rflags.getLsbD bit) ∧
      ((cpu.guest event).context.rflags.getLsbD 16 = true →
        cpu.context.rflags.getLsbD 16 = true)) ∧
    (∀ first second : FlagEvent, first.inst = .pushf → second.inst = .popf →
      second.pre.operandSizeOverride = first.pre.operandSizeOverride →
      (((cpu.guest first).guest second).context.rflags &&& ~~~pushfRfBit =
          cpu.context.rflags &&& ~~~pushfRfBit ↔
        (((cpu.guest first).guest second).context.hasException = false → first.SlotHolds cpu))) ∧
    (cpu.context.cpl = 3 → ∀ events : List FlagEvent,
      ((∀ past, past <+: events → FlagsHeld cpu (run Cpu.guest cpu past)) ↔
        Along Cpu.guest FlagsFit cpu events)) :=
  ⟨fun _ hinst => ⟨popf_bits hm hinst, popf_rf hm hinst⟩,
    fun _ _ hfirst hsecond hsame => pushf_popf hm hfirst hsecond hsame,
    fun hcpl events => run_flagsHeld hm hcpl events⟩

/-- An instruction of one byte. -/
def flagEvent (inst : FlagInst) : FlagEvent where
  dec := { DecodedInst.clear with length := 1 }
  pre := { size := 1, rexW := false, operandSizeOverride := false }
  inst := inst

/-- 64-bit code at privilege level 3 with `IF` set and `IOPL` 0: the entry of selector `0B` is
its code segment, and the frame on the stack has `IOPL` 3. -/
def userCpu : Cpu :=
  hostCpu { initCpuContext false with
      gdtrLimit := 0xFF
      cpl := 3
      rflags := 0x202
      regs := Function.update (fun _ => 0) regRsp 0x40 }
    (byteImage [(0x08, 0xFF), (0x09, 0xFF), (0x0D, 0xFB), (0x0E, 0xAF), (0x41, 0x10), (0x48, 0x0B),
      (0x51, 0x30), (0x50, 0x02), (0x59, 0x20), (0x60, 0x1B)])

theorem userCpu_slotHolds : (flagEvent .pushf).SlotHolds userCpu := by
  intro ptrs hptrs
  have hslot : ((flagEvent .pushf).recorded userCpu).operandPtrs true
      ((flagEvent .pushf).slot userCpu) 8 0 = .ok ((List.range 8).map fun i =>
        HostPtr.user (0x38 + BitVec.ofNat 64 i)) := rfl
  obtain rfl := Except.ok.inj (hslot.symm.trans hptrs)
  decide +kernel

/-- A run that holds its flags. -/
theorem flag_image_law_example :
    (userCpu.guest (flagEvent .popf)).context.rflags.getLsbD 12 =
        userCpu.context.rflags.getLsbD 12 ∧
      ((userCpu.guest (flagEvent .pushf)).guest (flagEvent .popf)).context.rflags &&&
        ~~~pushfRfBit = userCpu.context.rflags &&& ~~~pushfRfBit ∧
      FlagsHeld userCpu (run Cpu.guest userCpu [flagEvent .popf, flagEvent .cli]) := by
  have hm : MemoryOk userCpu.memory := memoryOk_hostCpu _ _
  refine ⟨?_, ?_, ?_⟩
  · refine ((flag_image_law userCpu hm).1 (flagEvent .popf) rfl).1 12 (by decide) ?_
    show ¬ userCpu.context.privileged = true
    decide
  · exact ((flag_image_law userCpu hm).2.1 (flagEvent .pushf) (flagEvent .popf) rfl rfl rfl).mpr
      fun _ => userCpu_slotHolds
  · refine ((flag_image_law userCpu hm).2.2 rfl [flagEvent .popf, flagEvent .cli]).mpr ?_ _
      List.prefix_rfl
    exact ⟨fun _ h => absurd h (by decide), fun _ => trivial, trivial⟩

/-- An `IRET` at privilege level 3 sets `IOPL`. -/
theorem iret_changes_iopl : ¬ ∀ cpu : Cpu, MemoryOk cpu.memory → cpu.context.cpl = 3 →
    ∀ events : List FlagEvent, ∀ past, past <+: events →
      FlagsHeld cpu (run Cpu.guest cpu past) := by
  intro hall
  have hheld := hall userCpu (memoryOk_hostCpu _ _) rfl [flagEvent (.flow .iret trivial)] _
    List.prefix_rfl
  have hflags : (run Cpu.guest userCpu [flagEvent (.flow .iret trivial)]).context.rflags =
      0x3002 := by decide +kernel
  unfold FlagsHeld at hheld
  rw [hflags] at hheld
  exact absurd hheld (by decide)

end Cpueaxh
