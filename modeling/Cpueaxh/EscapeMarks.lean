/-
# Instructions that are known not to escape

`cpu_decode_instruction` marks an instruction whose opcode rules an escape out.  The loop of
`cpueaxh_emu_start` executes a marked instruction from the cache without a look at its
bytes, so a mark on an instruction of some class would hide it from the callbacks of the
class.

The mark and the classifier read the opcode in the same way; the classifier goes on to
read the ModRM byte and the prefixes of some opcodes, and the mark is then withheld for
the opcode as a whole.
-/
import Cpueaxh.Executor

namespace Cpueaxh

/-! ## The head of the decoder -/

/-- An EVEX instruction with one of the opcodes in its fifth byte. -/
def isEvexInstruction (opcodes : List U8) (code : List U8) : Bool :=
  decide (7 ≤ code.length) && code[0]? == some 0x62 && (code[4]?).any opcodes.contains

/-- `is_evex_palignr_instruction`. -/
def isEvexPalignrInstruction : List U8 → Bool := isEvexInstruction [0x0F]

/-- `is_evex_pinsrw_instruction`. -/
def isEvexPinsrwInstruction : List U8 → Bool := isEvexInstruction [0xC4]

/-- `is_evex_pinsr_instruction`. -/
def isEvexPinsrInstruction : List U8 → Bool := isEvexInstruction [0x20, 0x22]

/-- `is_evex_pextr_instruction`. -/
def isEvexPextrInstruction : List U8 → Bool := isEvexInstruction [0x14, 0x16]

/-- The handlers that the decoder attaches before it looks for prefixes. -/
inductive InterceptedForm where
  | evexPalignr | evexPinsrw | evexPinsr | evexPextr | avxVex
  deriving DecidableEq, Repr

/-- The special forms at the head of `cpu_decode_instruction`. -/
def interceptedForm (code : List U8) : Option InterceptedForm :=
  let first := code[0]?
  if first = some 0x62 ∧ isEvexPalignrInstruction code then some .evexPalignr
  else if first = some 0x62 ∧ isEvexPinsrwInstruction code then some .evexPinsrw
  else if first = some 0x62 ∧ isEvexPinsrInstruction code then some .evexPinsr
  else if first = some 0x62 ∧ isEvexPextrInstruction code then some .evexPextr
  else if first = some 0xC5 ∨ first = some 0xC4 then some .avxVex
  else none

/-- `cpu_decoder_is_escape_candidate_opc`. -/
def cpuDecoderIsEscapeCandidateOpc (opc : U16) : Bool :=
  [0x00CC, 0x00CD, 0x00F1, 0x00F4, 0x0F0B].contains opc
    || [0x00E4, 0x00E5, 0x00E6, 0x00E7, 0x00EC, 0x00ED, 0x00EE, 0x00EF, 0x006C, 0x006D].contains opc
    || [0x0F05, 0x0F34].contains opc
    || [0x0FA2, 0x0F31].contains opc
    || opc == 0x0F01
    || opc == 0x0FC7
    || [0x0F20, 0x0F22].contains opc
    || opc == 0x0F1E

/-- `DECODED_FLAG_KNOWN_NOT_ESCAPE` of what `cpu_decode_instruction` makes of the bytes:
the flag is set in one place, and nothing clears it. -/
def knownNotEscape (ctx : CpuContext) (code : List U8) : Bool :=
  if code.length = 0 then false
  else if (interceptedForm code).isSome then false
  else
    match peekOpcode ctx code with
    | none => false
    | some (opc, _) => !cpuDecoderIsEscapeCandidateOpc opc

/-! ## The mark and the classifier -/

variable {ctx ctx' : CpuContext} {code : List U8}

/-- The context enters into the opcode by its mode only. -/
theorem peekOpcode_congr (h : ctx'.is64BitCode = ctx.is64BitCode) (code : List U8) :
    peekOpcode ctx' code = peekOpcode ctx code := by
  simp only [peekOpcode, h]

/-- An instruction of a class has an opcode without a mark. -/
theorem candidate_of_classified {id : EscapeInsnId} {size : ℕ}
    (h : classifyEscapeInstruction ctx code = some (id, size)) :
    ∃ opc prefixLen, peekOpcode ctx code = some (opc, prefixLen) ∧
      cpuDecoderIsEscapeCandidateOpc opc = true := by
  unfold classifyEscapeInstruction at h
  split at h
  · cases h
  · rename_i opc prefixLen hpeek
    refine ⟨opc, prefixLen, hpeek, ?_⟩
    by_contra hmarked
    simp only [cpuDecoderIsEscapeCandidateOpc, List.contains_eq_mem, List.mem_cons,
      List.not_mem_nil, or_false, Bool.or_eq_true, decide_eq_true_eq, beq_iff_eq, not_or,
      BitVec.ofNat_eq_ofNat] at hmarked
    -- no branch of the classifier is left
    simp [hmarked] at h

/-- The decoder has read the opcode of a marked instruction. -/
theorem opcode_of_marked (h : knownNotEscape ctx code = true) :
    ∃ opc prefixLen, peekOpcode ctx code = some (opc, prefixLen) ∧
      cpuDecoderIsEscapeCandidateOpc opc = false := by
  unfold knownNotEscape at h
  split_ifs at h
  split at h
  · cases h
  · rename_i opc prefixLen hpeek
    exact ⟨opc, prefixLen, hpeek, by simpa using h⟩

/-- A marked instruction is of no class, also in another context of its mode. -/
theorem not_classified_of_marked (hmode : ctx'.is64BitCode = ctx.is64BitCode)
    (h : knownNotEscape ctx code = true) : classifyEscapeInstruction ctx' code = none := by
  by_contra hclass
  obtain ⟨⟨id, size⟩, hsome⟩ := Option.ne_none_iff_exists'.mp hclass
  obtain ⟨opc', prefixLen', hpeek', hcandidate⟩ := candidate_of_classified hsome
  obtain ⟨opc, prefixLen, hpeek, hmarked⟩ := opcode_of_marked h
  rw [peekOpcode_congr hmode, hpeek] at hpeek'
  obtain ⟨rfl, -⟩ := Prod.mk.inj (Option.some.inj hpeek')
  rw [hmarked] at hcandidate
  cases hcandidate

/-- What an instruction set promises of its marks is true of these. -/
theorem not_escape_of_marks {decode : CpuContext → List U8 → DecodedInst}
    (hmarks : ∀ ctx code, (decode ctx code).flags.knownNotEscape = knownNotEscape ctx code)
    (ctx : CpuContext) (code : List U8) (h : (decode ctx code).flags.knownNotEscape = true) :
    classifyEscapeInstruction ctx code = none :=
  not_classified_of_marked rfl (hmarks ctx code ▸ h)

/-- **The mark is sound.**  In the mode in which it was decoded, a marked instruction is of
no class, and so the loop may execute it without looking for a callback. -/
theorem marked_not_escape
    (hmode : cpuInstCacheComputeModeKeyBits ctx' = cpuInstCacheComputeModeKeyBits ctx)
    (h : knownNotEscape ctx code = true) :
    classifyEscapeInstruction ctx' code = none ∧
      ∀ escapes address, tryDispatchEscape escapes ctx' address code = none := by
  have hnone := not_classified_of_marked (is64BitCode_eq_of_modeKey hmode) h
  refine ⟨hnone, fun escapes address => ?_⟩
  unfold tryDispatchEscape
  rw [hnone]

/-- `LEA RAX, [RDI]` with a redundant segment prefix. -/
theorem marked_not_escape_example :
    classifyEscapeInstruction (initCpuContext false) [0x2E, 0x48, 0x8D, 0x07] = none ∧
      ∀ escapes address,
        tryDispatchEscape escapes (initCpuContext false) address [0x2E, 0x48, 0x8D, 0x07] = none :=
  have hmarked : knownNotEscape (initCpuContext false) [0x2E, 0x48, 0x8D, 0x07] = true := by decide
  marked_not_escape rfl hmarked

end Cpueaxh
