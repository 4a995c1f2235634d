/-
# The law of EVEX encodings

An encoding without a meaning raises `#UD`, and one with a meaning has the operands that it
names: where the handlers keep to it, and where they do not.
-/
import Cpueaxh.EvexRuns

namespace Cpueaxh

/-! ## The law of an encoding -/

/-- `#UD`, and nothing else has changed but what a decoder leaves in the context. -/
def RaisesUd (before after : Cpu) : Prop :=
  after.memory.host = before.memory.host ∧
    ∃ bits size, after.context = { before.context with
      prefixBits := bits
      lastInstSize := size
      exception := ⟨cpuExceptionUd, 0⟩ }

/-- **The law of an encoding**: without a meaning it raises `#UD`, and otherwise, when the code
finds its fields in order, the operands are those that it names. -/
def EvexLaw (op : EvexOp) (cpu : Cpu) (code : List U8) : Prop :=
  if op.mustRaise code then RaisesUd cpu ((op.execute code).run cpuOp cpu).2
  else op.Accepts code → op.operands cpu.context code =
    op.archOperands cpu.context.is64BitCode cpu.context.evexAddressSize code

namespace EvexOp

variable (op : EvexOp)

/-- The encodings without a meaning that raise `#UD`: a field of the prefix is out of order, or
`vvvv` is not empty where there is no such source, and the address raises nothing before. -/
def Refused (ctx : CpuContext) (code : List U8) : Prop :=
  (evexPrefixOf code).validate op.format = none ∨
    (op.hasSource1 = false ∧ (evexPrefixOf code).source1Index ≠ 0x0F ∧ AddressValid ctx code)

/-- The encodings that the code treats as the architecture does. -/
def Plain (ctx : CpuContext) (code : List U8) : Prop :=
  if op.mustRaise code then op.Refused ctx code else op.Accepts code → op.Unextended ctx code

end EvexOp

/-! ## Encodings without a meaning -/

section Runs

variable {op : EvexOp} {cpu : Cpu} {code : List U8}

/-- The decoder takes the number of the prefix for the second operand. -/
theorem validate_source1 {p : EVEXPrefix} {format : EvexFormat} {info : EVEXDecodedInstructionInfo}
    (h : p.validate format = some info) : info.source1 = p.source1Index := by
  unfold EVEXPrefix.validate at h
  cases hbits : p.vectorBits format.allowedVectorBits with
  | none =>
    simp only [hbits, ite_self] at h
    cases h
  | some bits =>
    simp only [hbits] at h
    split_ifs at h
    rw [← Option.some.inj h]

/-- `#UD` is not left behind. -/
theorem not_raisesUd {after : Cpu} (h : after.context.exception.code ≠ cpuExceptionUd) :
    ¬ RaisesUd cpu after := by
  rintro ⟨-, bits, size, hcontext⟩
  rw [hcontext] at h
  exact h rfl

theorem raised_ud (hexc : cpu.context.hasException = false) :
    (cpu.raised .ud 0).context = { cpu.context with exception := ⟨cpuExceptionUd, 0⟩ } := by
  unfold Cpu.raised CpuContext.raiseException
  rw [hexc]
  rfl

/-- **Encodings without a meaning** raise `#UD` exactly if they are refused. -/
theorem raisesUd_iff (hexc : cpu.context.hasException = false) (h : op.Encodes cpu.context code) :
    RaisesUd cpu ((op.execute code).run viewOp cpu).2 ↔ op.Refused cpu.context code := by
  have hnone : cpu.context.exception.code ≠ cpuExceptionUd := by
    intro hud
    unfold CpuContext.hasException at hexc
    rw [hud] at hexc
    exact absurd hexc (by decide)
  have hrun := run_execute hexc h
  unfold EvexOp.Refused
  cases hvalidate : (evexPrefixOf code).validate op.format with
  | none =>
    rw [hvalidate] at hrun
    simp only at hrun
    rw [hrun]
    refine iff_of_true ⟨rfl, cpu.context.prefixBits, cpu.context.lastInstSize, ?_⟩ (Or.inl rfl)
    exact raised_ud hexc
  | some info =>
    rw [hvalidate] at hrun
    simp only at hrun
    obtain ⟨hbody, hfault⟩ := hrun
    have hsource := validate_source1 hvalidate
    by_cases haddress : EvexOp.AddressValid cpu.context code
    · rw [hbody haddress]
      by_cases hempty : op.hasSource1 = false → info.source1 = 0x0F
      · refine iff_of_false (not_raisesUd (run_noUd (noUd_body hempty _) hnone)) ?_
        rintro (hnever | ⟨hno, hused, -⟩)
        · cases hnever
        · exact hused (hsource ▸ hempty hno)
      · -- `VPEXTRB` and its like check `vvvv` behind the decoder
        push Not at hempty
        obtain ⟨hno, hused⟩ := hempty
        refine iff_of_true ?_ (Or.inr ⟨hno, hsource ▸ hused, haddress⟩)
        have hextract : op.body info (op.decoded cpu.context code) = raiseUd := by
          have hpextr : evexPextr info (op.decoded cpu.context code) = raiseUd := by
            unfold evexPextr
            rw [if_pos hused]
          cases op with
          | pextrb => exact hpextr
          | pextrd => exact hpextr
          | palignr => cases hno
          | pinsrw => cases hno
          | pinsrb => cases hno
          | pinsrd => cases hno
        rw [hextract]
        exact ⟨rfl, _, _, @raised_ud (cpu.decodedEvex code) hexc⟩
    · rw [hfault haddress]
      refine iff_of_false (not_raisesUd (run_noUd (noUd_decodeEvexOperand _ _) hnone)) ?_
      rintro (hnever | ⟨-, -, hvalid⟩)
      · cases hnever
      · exact haddress hvalid

end Runs

/-! ## The law -/

/-- What the handler does with an encoding whose fields it finds in order, and whose address
raises nothing: it runs the body for an instruction with the operands, at the address of their
parts. -/
def EvexUses (op : EvexOp) (cpu : Cpu) (code : List U8) : Prop :=
  ∃ info, (evexPrefixOf code).validate op.format = some info ∧
    let inst := op.decoded cpu.context code
    let before := cpu.decodedEvex code
    let out := ((op.execute code).run cpuOp cpu).2
    let behind := ((op.body info inst).run cpuOp before).2
    out.context = behind.context ∧ out.memory.host = behind.memory.host ∧
      inst.operands before.context (if op.hasSource1 then some info.source1 else none) =
        op.operands cpu.context code ∧
      (modField inst.operand.modrm ≠ 3 → inst.memAddress =
        before.context.partsOffset inst.operand
            (if inst.operand.finalized then inst.instSize else 0) +
          before.context.segmentBaseForAddressing (before.context.operandSegment inst.operand))

/-- A CPU in 64-bit mode. -/
def evexCpu : Cpu := hostCpu (initCpuContext false) fun _ => 0

end Cpueaxh
