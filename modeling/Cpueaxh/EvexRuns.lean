/-
# Runs of an EVEX handler

What the decoder and the bodies leave behind.  The only `#UD` behind the prefix is the one for a
`vvvv` that is not empty; an address that is not canonical raises `#GP` or `#SS` before it.
-/
import Cpueaxh.EvexOperands
import Cpueaxh.MaskedLaw

namespace Cpueaxh

open Program

/-! ## Programs that never raise `#UD` -/

/-- An operation that does not raise `#UD`. -/
def CpuOp.NoUd : CpuOp → Prop
  | .raise fault _ => fault ≠ .ud
  | _ => True

theorem CpuOp.Unraised.noUd {o : CpuOp} (h : o.Unraised) : o.NoUd := by
  cases o <;> trivial

section NoUd

variable {cpu : Cpu}

/-- No operation but the one leaves `#UD` behind. -/
theorem viewOp_noUd (o : CpuOp) (cpu : Cpu) (ho : o.NoUd)
    (h : cpu.context.exception.code ≠ cpuExceptionUd) :
    (viewOp o cpu).2.context.exception.code ≠ cpuExceptionUd := by
  have hraise : ∀ (ctx : CpuContext) code errorCode, ctx.exception.code ≠ cpuExceptionUd →
      code ≠ cpuExceptionUd → (ctx.raiseException code errorCode).exception.code ≠ cpuExceptionUd := by
    intro ctx code errorCode hctx hcode
    unfold CpuContext.raiseException
    split_ifs
    · exact hctx
    · exact hcode
  cases o with
  | raise fault errorCode =>
    refine hraise _ _ _ h ?_
    cases fault <;> first | exact absurd rfl ho | decide
  | resolve address store =>
    show (accessOutcome cpu.context _ cpu.hooks cpu.asked address _).2.1.exception.code ≠ _
    unfold accessOutcome
    split_ifs with hexc hcanonical
    · exact h
    · exact hraise _ _ _ h (by decide)
    · split
      · exact h
      · exact hraise _ _ _ h (by decide)
  | raisePageFault address store =>
    show ((if cpu.context.hasException then cpu
      else cpu.raisePageFault address _ true).context.exception.code) ≠ _
    split_ifs
    · exact h
    · exact hraise _ _ _ h (by decide)
  | tryHandleInvalid store =>
    show (if cpu.context.hasException then (false, cpu)
      else cpu.tryHandleInvalidMemoryAccess _ true).2.context.exception.code ≠ _
    unfold Cpu.tryHandleInvalidMemoryAccess
    split_ifs <;> exact h
  | _ => exact h

/-- **A run** without such an operation leaves no `#UD`. -/
theorem run_noUd {α : Type} {p : CpuProgram α} (hp : p.Within CpuOp.NoUd)
    (h : cpu.context.exception.code ≠ cpuExceptionUd) :
    (p.run viewOp cpu).2.context.exception.code ≠ cpuExceptionUd :=
  Program.run_invariant (fun c : Cpu => c.context.exception.code ≠ cpuExceptionUd)
    (fun o s hs ho => viewOp_noUd o s ho hs) p cpu h (along_iff_calls.mpr hp.calls)

theorem noUd_getContext : getContext.Within CpuOp.NoUd := within_perform trivial

theorem noUd_cpuHasException : cpuHasException.Within CpuOp.NoUd :=
  noUd_getContext.bind fun _ => within_pure _

theorem noUd_modifyContext (f : CpuContext → CpuContext) :
    (modifyContext f).Within CpuOp.NoUd :=
  noUd_getContext.bind fun _ => within_perform trivial

theorem noUd_cpuResolve (address : U64) (store : Bool) :
    (cpuResolve address store).Within CpuOp.NoUd := within_perform trivial

theorem noUd_tryGetContiguousPtr (address : U64) (size : ℕ) (store : Bool) :
    (cpuTryGetContiguousPtr address size store).Within CpuOp.NoUd :=
  (probe_tryGetContiguousPtr address size store).mono fun _ h =>
    CpuOp.Unraised.noUd (CpuOp.Probe.unraised h)

theorem noUd_readXmmMemory (address : U64) : (readXmmMemory address).Within CpuOp.NoUd :=
  (unraised_readXmmMemory address).mono fun _ => CpuOp.Unraised.noUd

theorem noUd_readZmmMemory (address : U64) : (readZmmMemory address).Within CpuOp.NoUd := by
  refine Within.mono ?_ fun _ => CpuOp.Unraised.noUd
  unfold readZmmMemory
  refine (unraised_readLinearBytes _ _).bind fun bytes => ?_
  cases bytes with
  | none => exact within_pure _
  | some bytes => exact (unraised_notifyFields _ _ _).bind fun _ => within_pure _

theorem noUd_loadBytes (p : HostPtr) (left : ℕ) :
    ∀ offset, (loadBytes p left offset).Within CpuOp.NoUd := by
  induction left with
  | zero => exact fun _ => within_pure _
  | succ left ih =>
    intro offset
    have hload : (perform (.load (p.add offset))).Within CpuOp.NoUd := within_perform trivial
    unfold loadBytes
    exact hload.bind fun _ => (ih _).bind fun _ => within_pure _

theorem noUd_readBytes (address : U64) (left : ℕ) :
    ∀ offset, (readBytes address left offset).Within CpuOp.NoUd := by
  induction left with
  | zero => exact fun _ => within_pure _
  | succ left ih =>
    intro offset
    unfold readBytes
    refine (noUd_cpuResolve _ _).bind fun p => ?_
    cases p with
    | none => exact within_pure _
    | some p =>
      have hload : (perform (.load p)).Within CpuOp.NoUd := within_perform trivial
      refine hload.bind fun _ => (ih _).bind fun high => ?_
      cases high <;> exact within_pure _

theorem noUd_notify (type : HookType) (address : U64) (size : ℕ) (value : U64) :
    (perform (.notify type address size value)).Within CpuOp.NoUd := within_perform trivial

theorem noUd_readMemory (size : ℕ) (address : U64) :
    (readMemory size address).Within CpuOp.NoUd := by
  unfold readMemory
  refine noUd_cpuHasException.bind fun pending => ?_
  cases pending with
  | true => exact within_pure _
  | false =>
    refine (noUd_tryGetContiguousPtr _ _ _).bind fun p => ?_
    cases p with
    | some p =>
      exact (noUd_loadBytes _ _ _).bind fun _ => (noUd_notify _ _ _ _).bind fun _ => within_pure _
    | none =>
      refine (noUd_readBytes _ _ _).bind fun value => ?_
      cases value with
      | none => exact within_pure _
      | some value => exact (noUd_notify _ _ _ _).bind fun _ => within_pure _

theorem noUd_readMemoryByte (address : U64) : (readMemoryByte address).Within CpuOp.NoUd := by
  unfold readMemoryByte
  refine (noUd_cpuResolve _ _).bind fun p => ?_
  cases p with
  | none => exact within_pure _
  | some p =>
    have hload : (perform (.load p)).Within CpuOp.NoUd := within_perform trivial
    exact hload.bind fun _ => (noUd_notify _ _ _ _).bind fun _ => within_pure _

theorem noUd_storeValue : ∀ (ptrs : List HostPtr) (value : U64),
    (storeValue ptrs value).Within CpuOp.NoUd
  | [], _ => within_pure _
  | p :: ptrs, value => by
    have hstore : (perform (.store p (value.setWidth 8))).Within CpuOp.NoUd :=
      within_perform trivial
    unfold storeValue
    exact hstore.bind fun _ => noUd_storeValue ptrs _

theorem noUd_resolveStackSlot (address : U64) (left : ℕ) :
    ∀ offset, (cpuResolveStackSlotWrite address left offset).Within CpuOp.NoUd := by
  induction left with
  | zero => exact fun _ => within_pure _
  | succ left ih =>
    intro offset
    unfold cpuResolveStackSlotWrite
    refine (noUd_cpuResolve _ _).bind fun p => ?_
    cases p with
    | none => exact within_pure _
    | some p =>
      refine (ih _).bind fun rest => ?_
      cases rest <;> exact within_pure _

theorem noUd_writeMemory (size : ℕ) (address value : U64) :
    (writeMemory size address value).Within CpuOp.NoUd := by
  unfold writeMemory
  refine noUd_cpuHasException.bind fun pending => ?_
  cases pending with
  | true => exact within_pure _
  | false =>
    refine (noUd_tryGetContiguousPtr _ _ _).bind fun p => ?_
    cases p with
    | some p => exact (noUd_notify _ _ _ _).bind fun _ => noUd_storeValue _ _
    | none =>
      refine (noUd_resolveStackSlot _ _ _).bind fun ptrs => ?_
      cases ptrs with
      | none => exact within_pure _
      | some ptrs => exact (noUd_notify _ _ _ _).bind fun _ => noUd_storeValue _ _

theorem noUd_writeMemoryByte (address : U64) (value : U8) :
    (writeMemoryByte address value).Within CpuOp.NoUd := by
  unfold writeMemoryByte
  refine (noUd_cpuResolve _ _).bind fun p => ?_
  cases p with
  | none => exact within_pure _
  | some p => exact (noUd_notify _ _ _ _).bind fun _ => within_perform trivial

theorem noUd_raise {fault : RaisedFault} (h : fault ≠ .ud) (errorCode : U32) :
    (cpuRaiseException fault errorCode).Within CpuOp.NoUd := within_perform h

theorem noUd_validateLinearAddress (address : U64) (segment : SegmentRegisterIndex) :
    (validateLinearAddress address segment).Within CpuOp.NoUd := by
  have hfault : (if segment = .ss then RaisedFault.ss else .gp) ≠ .ud := by
    split_ifs <;> decide
  unfold validateLinearAddress
  refine noUd_getContext.bind fun ctx => ?_
  by_cases hinvalid : (ctx.is64BitCode && !cpuIsCanonicalAddress address) = true
  · rw [if_pos hinvalid]
    exact (noUd_raise hfault 0).bind fun _ => within_pure _
  · rw [if_neg hinvalid]
    exact within_pure _

theorem noUd_getEffectiveAddress (op : MemOperand) (n : ℕ) :
    (getEffectiveAddress op n).Within CpuOp.NoUd := by
  unfold getEffectiveAddress
  refine noUd_getContext.bind fun ctx => ?_
  simp only
  split_ifs with hmod
  · exact within_pure _
  · exact (noUd_validateLinearAddress _ _).bind fun _ => within_pure _

theorem noUd_raiseGp (errorCode : U32) : (raiseGp errorCode).Within CpuOp.NoUd :=
  noUd_raise (by decide) errorCode

/-- The decoder raises no `#UD` behind the prefix. -/
theorem noUd_decodeEvexOperand (format : EvexFormat) (code : List U8) :
    (decodeEvexOperand format code).Within CpuOp.NoUd := by
  have hmodrm : ∀ size bytes, (decodeModrmMovdq size bytes).Within CpuOp.NoUd := by
    intro size bytes
    unfold decodeModrmMovdq
    simp only
    split_ifs
    · exact (noUd_raiseGp 0).bind fun _ => within_pure _
    · exact (noUd_getEffectiveAddress _ _).bind fun _ => within_pure _
    · exact within_pure _
  unfold decodeEvexOperand
  refine noUd_getContext.bind fun ctx => (hmodrm _ _).bind fun decoded => ?_
  refine noUd_cpuHasException.bind fun pending => ?_
  cases pending with
  | true => exact within_pure _
  | false =>
    simp only [Bool.false_eq_true, if_false]
    split
    · exact (noUd_raiseGp 0).bind fun _ => within_pure _
    · refine Within.bind ?_ fun _ => (noUd_modifyContext _).bind fun _ => within_pure _
      unfold finalizedAddress
      split_ifs
      · exact noUd_getEffectiveAddress _ _
      · exact within_pure _

/-! ### The bodies -/

theorem noUd_readPalignrSource (info : EVEXDecodedInstructionInfo) (inst : EvexInstruction) :
    (readPalignrSource info inst).Within CpuOp.NoUd := by
  unfold readPalignrSource
  refine noUd_getContext.bind fun ctx => ?_
  simp only
  split_ifs
  · exact within_pure _
  · exact noUd_readZmmMemory _
  · exact within_pure _
  · unfold readYmmMemory
    refine Within.bind ?_ fun _ => within_pure _
    exact (noUd_readXmmMemory _).bind fun _ => (noUd_readXmmMemory _).bind fun _ => within_pure _
  · exact within_pure _
  · exact (noUd_readXmmMemory _).bind fun _ => within_pure _

theorem noUd_readPinsrSource (size : ℕ) (inst : EvexInstruction) :
    (readPinsrSource size inst).Within CpuOp.NoUd := by
  unfold readPinsrSource
  refine noUd_getContext.bind fun ctx => ?_
  simp only
  split_ifs
  · exact within_pure _
  · exact (noUd_readMemoryByte _).bind fun _ => within_pure _
  · exact within_pure _
  · exact noUd_readMemory _ _

theorem noUd_pextrWriteDestination (size : ℕ) (inst : EvexInstruction) (value : U64) :
    (pextrWriteDestination size inst value).Within CpuOp.NoUd := by
  unfold pextrWriteDestination
  by_cases hmod : modField inst.operand.modrm = 3
  · rw [if_pos hmod]
    exact noUd_modifyContext _
  · rw [if_neg hmod]
    split_ifs
    · exact noUd_writeMemoryByte _ _
    · exact noUd_writeMemory _ _ _

/-- **The bodies** raise no `#UD`, but for a `vvvv` that is not empty where there is no such
source. -/
theorem noUd_body {op : EvexOp} {info : EVEXDecodedInstructionInfo}
    (h : op.hasSource1 = false → info.source1 = 0x0F) (inst : EvexInstruction) :
    (op.body info inst).Within CpuOp.NoUd := by
  have hpinsr : (evexPinsr info inst).Within CpuOp.NoUd := by
    unfold evexPinsr executePinsrCommon
    refine noUd_getContext.bind fun ctx => Within.bind ?_ fun _ => ?_
    · exact (noUd_readPinsrSource _ _).bind fun _ => noUd_modifyContext _
    · refine noUd_cpuHasException.bind fun pending => ?_
      cases pending
      · exact noUd_modifyContext _
      · exact within_pure _
  have hpextr : info.source1 = 0x0F → (evexPextr info inst).Within CpuOp.NoUd := by
    intro hsource
    unfold evexPextr executePextrCommon
    rw [if_neg (not_not_intro hsource)]
    exact noUd_getContext.bind fun _ => noUd_getContext.bind fun _ =>
      noUd_pextrWriteDestination _ _ _
  cases op with
  | palignr =>
    show (evexPalignr info inst).Within CpuOp.NoUd
    unfold evexPalignr
    exact noUd_getContext.bind fun _ => (noUd_readPalignrSource _ _).bind fun _ =>
      noUd_modifyContext _
  | pinsrw =>
    show (evexPinsrw info inst).Within CpuOp.NoUd
    unfold evexPinsrw
    refine (noUd_readPinsrSource _ _).bind fun value => noUd_cpuHasException.bind fun pending => ?_
    cases pending
    · exact (noUd_modifyContext _).bind fun _ => noUd_modifyContext _
    · exact within_pure _
  | pinsrb => exact hpinsr
  | pinsrd => exact hpinsr
  | pextrb => exact hpextr (h rfl)
  | pextrd => exact hpextr (h rfl)

end NoUd

/-! ## Runs of the decoder -/

/-- The address of an operand passes `cpu_validate_linear_address`. -/
def CpuContext.operandReachable (ctx : CpuContext) (op : MemOperand) (instSize : ℕ) : Bool :=
  let address := ctx.getEffectiveOffset op instSize +
    ctx.segmentBaseForAddressing (ctx.operandSegment op)
  !(ctx.is64BitCode && !cpuIsCanonicalAddress address)

namespace EvexOp

variable (op : EvexOp)

/-- The decoder raises nothing for the address of the operand: not for the one that it computes
first, and not for the one that it computes again. -/
def AddressValid (ctx : CpuContext) (code : List U8) : Prop :=
  let ctx' := decodeContext ctx code
  let bytes := operandBytes ctx code
  modField bytes.operand.modrm ≠ 3 →
    ctx'.operandReachable bytes.operand 0 = true ∧
      (bytes.operand.finalized = true →
        ctx'.operandReachable bytes.operand (5 + bytes.used + 1) = true)

end EvexOp

section Runs

variable {op : EvexOp} {cpu : Cpu} {code : List U8}

/-- The CPU in which the code decodes the bytes behind the opcode. -/
def Cpu.decoding (cpu : Cpu) (code : List U8) : Cpu :=
  { cpu with context := EvexOp.decodeContext cpu.context code }

/-- **The prefix** of an encoding: `#UD` where a field is out of order. -/
theorem run_decodeEvex (hexc : cpu.context.hasException = false)
    (h : op.Encodes cpu.context code) :
    (decodeEvexModrmImmInstruction op.format code).run viewOp cpu =
      match (evexPrefixOf code).validate op.format with
      | none => (none, cpu.raised .ud 0)
      | some info =>
        let r := (decodeEvexOperand op.format code).run viewOp (cpu.decoding code)
        (r.1.map fun inst => (info, inst), r.2) := by
  have hlong : ¬ code.length < 7 := by
    have := h.immediate
    have hused := h.used_pos
    omega
  have hvalidate : (decodeEvexPrefix code).run viewOp cpu = (evexPrefixOf code, cpu) := by
    unfold decodeEvexPrefix
    rw [if_neg hlong, if_neg (not_not_intro h.first)]
    rfl
  unfold decodeEvexModrmImmInstruction
  rw [Program.run_bind, hvalidate, Program.run_bind, run_cpuHasException]
  simp only [hexc, Bool.false_eq_true, if_false]
  cases (evexPrefixOf code).validate op.format with
  | none => rfl
  | some info =>
    have hmodify : (modifyContext fun ctx => { ctx with prefixBits := (evexPrefixOf code).state }).run
        viewOp cpu = ((), cpu.decoding code) := rfl
    simp only
    rw [Program.run_bind, hmodify, Program.run_bind]
    generalize (decodeEvexOperand op.format code).run viewOp (cpu.decoding code) = r
    obtain ⟨inst, c⟩ := r
    cases inst <;> rfl

/-- The check of an address in the decoder. -/
theorem run_operandAddress {op : MemOperand} (hmod : modField op.modrm ≠ 3) (n : ℕ) :
    (getEffectiveAddress op n).run viewOp cpu =
      (cpu.context.getEffectiveOffset op n +
          cpu.context.segmentBaseForAddressing (cpu.context.operandSegment op),
        if cpu.context.operandReachable op n then cpu
        else cpu.raised (if cpu.context.operandSegment op = .ss then .ss else .gp) 0) := by
  rw [run_getEffectiveAddress hmod]
  unfold Cpu.validAddress CpuContext.operandReachable
  by_cases hinvalid : (cpu.context.is64BitCode && !cpuIsCanonicalAddress
      (cpu.context.getEffectiveOffset op n +
        cpu.context.segmentBaseForAddressing (cpu.context.operandSegment op))) = true
  · simp only [hinvalid, if_true, Bool.not_true, Bool.false_eq_true, if_false]
  · rw [Bool.not_eq_true] at hinvalid
    simp only [hinvalid, Bool.not_false, if_true, Bool.false_eq_true, if_false]

/-- The CPU behind the decoder. -/
def Cpu.decodedEvex (cpu : Cpu) (code : List U8) : Cpu :=
  { cpu with context := { EvexOp.decodeContext cpu.context code with
      lastInstSize := (5 + (EvexOp.operandBytes cpu.context code).used + 1 : ℕ) } }

/-- **The operand** of an encoding: the decoder raises an exception for its address, or leaves
the instruction. -/
theorem run_decodeEvexOperand (hexc : cpu.context.hasException = false)
    (h : op.Encodes cpu.context code) :
    (EvexOp.AddressValid cpu.context code →
      (decodeEvexOperand op.format code).run viewOp (cpu.decoding code) =
        (some (op.decoded cpu.context code), cpu.decodedEvex code)) ∧
    (¬ EvexOp.AddressValid cpu.context code →
      ((decodeEvexOperand op.format code).run viewOp (cpu.decoding code)).2.context.hasException =
        true) := by
  have hcomplete := h.complete
  have himmediate : code.drop (5 + (EvexOp.operandBytes cpu.context code).used) =
      code.getD (5 + (EvexOp.operandBytes cpu.context code).used) 0 ::
        code.drop (5 + (EvexOp.operandBytes cpu.context code).used + 1) := by
    rw [List.drop_eq_getElem_cons h.immediate, List.getD_eq_getElem _ _ h.immediate]
  have hbytes : decodeModrm (cpu.decoding code).context.evexAddressSize (code.drop 5) =
      EvexOp.operandBytes cpu.context code := rfl
  have hclear : (cpu.decoding code).context.hasException = false := hexc
  unfold decodeEvexOperand decodeModrmMovdq EvexOp.AddressValid
  rw [Program.run_bind, run_getContext]
  simp only [hbytes, hcomplete, Bool.not_true, Bool.false_eq_true, if_false]
  by_cases hmod : modField (EvexOp.operandBytes cpu.context code).operand.modrm = 3
  · -- a register has no address
    have hfinal : (EvexOp.operandBytes cpu.context code).operand.finalized = false := by
      simp [MemOperand.finalized, hmod]
    refine ⟨fun _ => ?_, fun hinvalid => absurd (fun hne => absurd hmod hne) hinvalid⟩
    rw [if_neg (not_not_intro hmod), Program.run_bind, Program.run_pure, Program.run_bind,
      run_cpuHasException]
    simp only [hclear, himmediate, Bool.false_eq_true, if_false]
    unfold finalizedAddress EvexOp.decoded
    simp only
    rw [hfinal, if_neg (by decide), if_pos hmod]
    rfl
  · have haddress := @run_operandAddress (cpu.decoding code) _ hmod 0
    have hpair : ∀ (p : CpuProgram U64) (bytes : OperandBytes) (r : U64 × Cpu),
        p.run viewOp (cpu.decoding code) = r →
        (p >>= fun address => pure (bytes, address)).run viewOp (cpu.decoding code) =
          ((bytes, r.1), r.2) := by
      rintro p bytes r rfl
      rw [Program.run_bind]
      rfl
    rw [if_pos hmod, Program.run_bind, hpair _ _ _ haddress]
    have hpending : ∀ (c : Cpu) fault, (c.raised fault 0).context.hasException = true :=
      fun c fault => raised_hasException c fault 0
    by_cases hfirst : (cpu.decoding code).context.operandReachable
        (EvexOp.operandBytes cpu.context code).operand 0 = true
    · rw [if_pos hfirst, Program.run_bind, run_cpuHasException]
      simp only [hclear, himmediate, Bool.false_eq_true, if_false]
      unfold finalizedAddress EvexOp.decoded CpuContext.operandOffset
      simp only
      rw [if_neg hmod]
      by_cases hfinal : (EvexOp.operandBytes cpu.context code).operand.finalized = true
      · rw [if_pos hfinal, if_pos hfinal, Program.run_bind, run_operandAddress hmod]
        by_cases hsecond : (cpu.decoding code).context.operandReachable
            (EvexOp.operandBytes cpu.context code).operand
            (5 + (EvexOp.operandBytes cpu.context code).used + 1) = true
        · rw [if_pos hsecond]
          exact ⟨fun _ => rfl, fun hinvalid => absurd (fun _ => ⟨hfirst, fun _ => hsecond⟩) hinvalid⟩
        · rw [if_neg hsecond]
          exact ⟨fun hvalid => absurd ((hvalid hmod).2 hfinal) hsecond, fun _ => hpending _ _⟩
      · rw [if_neg hfinal, if_neg hfinal]
        refine ⟨fun _ => rfl, fun hinvalid => ?_⟩
        exact absurd (fun _ => ⟨hfirst, fun h => absurd h hfinal⟩) hinvalid
    · rw [if_neg hfirst, Program.run_bind, run_cpuHasException]
      simp only [hpending, if_true]
      refine ⟨fun hvalid => absurd (hvalid hmod).1 hfirst, fun _ => ?_⟩
      exact hpending _ _

/-- **The handler** raises `#UD` for a prefix out of order, and an exception of the address;
otherwise it runs the body of the instruction. -/
theorem run_execute (hexc : cpu.context.hasException = false) (h : op.Encodes cpu.context code) :
    match (evexPrefixOf code).validate op.format with
    | none => (op.execute code).run viewOp cpu = ((), cpu.raised .ud 0)
    | some info =>
      (EvexOp.AddressValid cpu.context code → (op.execute code).run viewOp cpu =
        (op.body info (op.decoded cpu.context code)).run viewOp (cpu.decodedEvex code)) ∧
      (¬ EvexOp.AddressValid cpu.context code →
        ((op.execute code).run viewOp cpu).2 =
          ((decodeEvexOperand op.format code).run viewOp (cpu.decoding code)).2) := by
  have hdecode := run_decodeEvex hexc h
  obtain ⟨hvalid, hinvalid⟩ := run_decodeEvexOperand hexc h
  unfold EvexOp.execute
  cases hvalidate : (evexPrefixOf code).validate op.format with
  | none =>
    rw [hvalidate] at hdecode
    simp only at hdecode ⊢
    rw [Program.run_bind, hdecode]
    rfl
  | some info =>
    rw [hvalidate] at hdecode
    simp only at hdecode ⊢
    constructor
    · intro haddress
      rw [hvalid haddress] at hdecode
      have hclear : (cpu.decodedEvex code).context.hasException = false := hexc
      rw [Program.run_bind, hdecode]
      simp only [Option.map_some]
      rw [Program.run_bind, run_cpuHasException]
      simp only [hclear, Bool.false_eq_true, if_false]
    · intro haddress
      have hpending := hinvalid haddress
      rw [Program.run_bind, hdecode]
      generalize (decodeEvexOperand op.format code).run viewOp (cpu.decoding code) = r at *
      obtain ⟨inst, c⟩ := r
      cases inst with
      | none => rfl
      | some inst =>
        simp only [Option.map_some]
        rw [Program.run_bind, run_cpuHasException]
        simp only at hpending
        simp only [hpending, if_true]
        rfl

end Runs

end Cpueaxh
