/-
# What an EVEX encoding names

The fields of an EVEX prefix: R, X, B and vvvv extend the numbers of registers, R', V' and (for
a vector register in `rm`) X name the registers from 16 on, which are not there, and a
displacement of one byte counts operands in memory.  The decoder takes R' for R, does not look
at the reserved bits of the map, and leaves the displacement as it is.
-/
import Cpueaxh.Evex
import Cpueaxh.LeaLaw
import Cpueaxh.PopOutcome

namespace Cpueaxh

open ByteOrder

/-! ## Fields of the prefix -/

namespace EVEXPrefix

variable (p : EVEXPrefix)

/-- The bits that extend the numbers of registers; they stand inverted in the prefix. -/
def extR : Bool := !p.byte1.getLsbD 7
def extX : Bool := !p.byte1.getLsbD 6
def extB : Bool := !p.byte1.getLsbD 5
def extHighR : Bool := !p.byte1.getLsbD 4
def extHighV : Bool := !p.byte3.getLsbD 3

/-- The number in `vvvv`, which stands inverted too. -/
def vvvv : ℕ := 15 - (p.byte2.toNat / 8) % 16

/-- The bits of the map that are reserved. -/
def reservedMap : Bool := p.byte1.getLsbD 3 || p.byte1.getLsbD 2

/-- The encoding asks for zeros behind a mask, and names no mask. -/
def zeroingUnmasked : Bool := p.byte3.getLsbD 7 && p.byte3.toNat % 8 == 0

/-- The number of bytes of a vector. -/
def vectorBytes : ℕ := 16 <<< ((p.byte3.toNat / 32) % 4)

end EVEXPrefix

/-! ## What an encoding names -/

/-- The operand in `rm`: a register, or memory with a base, an index with its scale, and what a
displacement of one byte adds. -/
inductive EvexRm where
  | register (reg : Fin 16)
  | memory (base : Option (Fin 16)) (index : Option (Fin 16 × ℕ)) (disp8 : Option U64)
  deriving DecidableEq, Repr

/-- The operands that an encoding names: the register of `reg`, the one of `vvvv`, if the
instruction has it, and the operand in `rm`. -/
structure EvexOperands where
  reg : Fin 16
  source1 : Option (Fin 16)
  rm : EvexRm
  deriving DecidableEq, Repr

namespace EvexOp

variable (op : EvexOp)

/-- The instruction has a source in `vvvv`. -/
def hasSource1 : Bool :=
  match op with
  | pextrb | pextrd => false
  | _ => true

/-- The number of bytes of the operand in memory. -/
def memoryBytes (mode64 : Bool) (p : EVEXPrefix) : ℕ :=
  match op with
  | palignr => p.vectorBytes
  | pinsrw => 2
  | pinsrb | pextrb => 1
  | pinsrd | pextrd => if mode64 && p.byte2.getLsbD 7 then 8 else 4

/-- An encoding that has no meaning: it names a register from 16 on, sets reserved bits of the
map, or asks for zeros without a mask. -/
def mustRaise (code : List U8) : Bool :=
  let p := evexPrefixOf code
  p.extHighR || p.extHighV || (op == palignr && modField (code.getD 5 0) == 3 && p.extX) ||
    p.reservedMap || p.zeroingUnmasked

/-- The operand in `rm` of an encoding. -/
def archRm (mode64 : Bool) (addressSize : ℕ) (code : List U8) : EvexRm :=
  let p := evexPrefixOf code
  let modrm := code.getD 5 0
  if modField modrm = 3 then .register (archRegister (mode64 && p.extB) (rmField modrm))
  else
    match archForm mode64 addressSize (mode64 && p.extX) (mode64 && p.extB) (code.drop 5) with
    | none => .memory none none none
    | some form =>
      let scaled := form.displacement * op.memoryBytes mode64 p
      .memory form.base form.index
        (if modField modrm = 1 then some (BitVec.ofInt 64 scaled) else none)

/-- **The operands** of an encoding in the architecture.  Outside 64-bit code there are eight
registers, and the bits that would extend their numbers select nothing. -/
def archOperands (mode64 : Bool) (addressSize : ℕ) (code : List U8) : EvexOperands :=
  let p := evexPrefixOf code
  { reg := archRegister (mode64 && p.extR) (regField (code.getD 5 0))
    source1 := if op.hasSource1 then
        some (Fin.ofNat 16 (if mode64 then p.vvvv else p.vvvv % 8))
      else none
    rm := op.archRm mode64 addressSize code }

end EvexOp

/-! ## What the code takes -/

namespace CpuContext

variable (ctx : CpuContext)

/-- The base register of `get_effective_offset`. -/
def addressBase (op : MemOperand) : Option (Fin 16) :=
  let rm := extended ctx.prefixBits.rexB ctx.is64BitCode (rmField op.modrm)
  if rm % 8 = 4 then
    if modField op.modrm = 0 ∧ rmField op.sib = 5 then none
    else some (reg (extended ctx.prefixBits.rexB ctx.is64BitCode (rmField op.sib)))
  else if rm % 8 = 5 ∧ modField op.modrm = 0 then none
  else some (reg rm)

/-- The index register of `get_effective_offset`, with its scale. -/
def addressIndex (op : MemOperand) : Option (Fin 16 × ℕ) :=
  let rm := extended ctx.prefixBits.rexB ctx.is64BitCode (rmField op.modrm)
  let hasIndex := !(regField op.sib == 4 && !(ctx.is64BitCode && ctx.prefixBits.rexX))
  if rm % 8 = 4 ∧ hasIndex then
    some (reg (extended ctx.prefixBits.rexX ctx.is64BitCode (regField op.sib)), modField op.sib)
  else none

/-- What stands for a base in `get_effective_offset` where there is none. -/
def addressOrigin (op : MemOperand) (instSize : ℕ) : U64 :=
  if rmField op.modrm = 5 ∧ modField op.modrm = 0 ∧ op.addressSize = 64 then
    ctx.rip + BitVec.ofNat 64 instSize + op.displacement.signExtend 64
  else op.displacement.setWidth 64

theorem addressBase_eq (op : MemOperand) :
    ctx.addressBase op =
      if rmField op.modrm = 4 then
        if modField op.modrm = 0 ∧ rmField op.sib = 5 then none
        else some (archRegister (ctx.is64BitCode && ctx.prefixBits.rexB) (rmField op.sib))
      else if rmField op.modrm = 5 ∧ modField op.modrm = 0 then none
      else some (archRegister (ctx.is64BitCode && ctx.prefixBits.rexB) (rmField op.modrm)) := by
  unfold addressBase
  simp only [extended_mod _ _ (rmField_lt op.modrm), reg_extended _ _ (rmField_lt op.modrm),
    reg_extended _ _ (rmField_lt op.sib)]

theorem addressIndex_eq (op : MemOperand) :
    ctx.addressIndex op =
      if rmField op.modrm = 4 then archIndex (ctx.is64BitCode && ctx.prefixBits.rexX) op.sib
      else none := by
  have hindex := hasIndex_iff ctx.prefixBits.rexX ctx.is64BitCode (regField_lt op.sib)
  unfold addressIndex archIndex
  simp only [extended_mod _ _ (rmField_lt op.modrm), reg_extended _ _ (regField_lt op.sib), hindex]
  by_cases hsib : rmField op.modrm = 4
  · by_cases hnone : archRegister (ctx.is64BitCode && ctx.prefixBits.rexX) (regField op.sib) = regRsp
    · rw [if_neg (fun h => h.2 hnone), if_pos hsib, if_pos hnone]
    · rw [if_pos ⟨hsib, hnone⟩, if_pos hsib, if_neg hnone]
  · rw [if_neg (fun h => hsib h.1), if_neg hsib]

/-- The sum of the parts of an operand in memory. -/
def partsOffset (op : MemOperand) (instSize : ℕ) : U64 :=
  truncateTo op.addressSize
    ((ctx.addressBase op).elim (ctx.addressOrigin op instSize) ctx.regs +
      (ctx.addressIndex op).elim 0 (fun index => ctx.regs index.1 <<< index.2) +
      displacementTerm (modField op.modrm) op.displacement)

/-- **The offset** of an operand in memory is the sum of its parts. -/
theorem getEffectiveOffset_parts {op : MemOperand} (hmod : modField op.modrm ≠ 3)
    (hsize : op.addressSize = 32 ∨ op.addressSize = 64) (instSize : ℕ) :
    ctx.getEffectiveOffset op instSize = ctx.partsOffset op instSize := by
  unfold partsOffset
  have hzero : ∀ x : U64, x + 0 = x := BitVec.add_zero
  rw [getEffectiveOffset_eq hsize hmod, addressBase_eq, addressIndex_eq]
  unfold addressOrigin
  congr 2
  by_cases hsib : rmField op.modrm = 4
  · rw [if_pos hsib, if_pos hsib, if_pos hsib, sibOffset_eq]
    have hdirect : ¬ (rmField op.modrm = 5 ∧ modField op.modrm = 0 ∧ op.addressSize = 64) := by
      omega
    rw [if_neg hdirect]
    split_ifs <;> rfl
  · rw [if_neg hsib, if_neg hsib, if_neg hsib]
    by_cases hdirect : rmField op.modrm = 5 ∧ modField op.modrm = 0
    · rw [if_pos hdirect, if_pos hdirect]
      simp only [hdirect, true_and, Option.elim_none]
      exact (hzero _).symm
    · rw [if_neg hdirect, if_neg hdirect]
      exact (hzero _).symm

end CpuContext

/-- The operands that a decoded instruction has in a context. -/
def EvexInstruction.operands (inst : EvexInstruction) (ctx : CpuContext)
    (source1 : Option (Fin 16)) : EvexOperands :=
  { reg := decodeMovdqXmmRegIndex ctx inst.operand.modrm
    source1 := source1
    rm :=
      if modField inst.operand.modrm = 3 then
        .register (decodeMovdqRmIndex ctx inst.operand.modrm)
      else
        .memory (ctx.addressBase inst.operand) (ctx.addressIndex inst.operand)
          (if modField inst.operand.modrm = 1 then
            some (CpuContext.displacementTerm (modField inst.operand.modrm)
              inst.operand.displacement)
          else none) }

namespace EvexOp

variable (op : EvexOp)

/-- The context in which the code decodes the bytes behind the opcode. -/
def decodeContext (ctx : CpuContext) (code : List U8) : CpuContext :=
  { ctx with prefixBits := (evexPrefixOf code).state }

/-- The bytes behind the opcode. -/
def operandBytes (ctx : CpuContext) (code : List U8) : OperandBytes :=
  decodeModrm ctx.evexAddressSize (code.drop 5)

/-- The instruction that the code decodes from an encoding whose address raises nothing. -/
def decoded (ctx : CpuContext) (code : List U8) : EvexInstruction :=
  let ctx' := decodeContext ctx code
  let bytes := operandBytes ctx code
  let instSize := 5 + bytes.used + 1
  { operand := bytes.operand
    memAddress :=
      if modField bytes.operand.modrm = 3 then 0
      else ctx'.operandOffset bytes.operand instSize +
        ctx'.segmentBaseForAddressing (ctx'.operandSegment bytes.operand)
    opcode := op.format.opcode
    immediate := code.getD (5 + bytes.used) 0
    instSize := instSize }

/-- The operands that the code takes for an encoding. -/
def operands (ctx : CpuContext) (code : List U8) : EvexOperands :=
  (op.decoded ctx code).operands (decodeContext ctx code)
    (if op.hasSource1 then some (evexPrefixOf code).source1Index else none)

/-- The bytes of an encoding of the instruction, up to its immediate byte. -/
structure Encodes (ctx : CpuContext) (code : List U8) : Prop where
  first : code.headD 0 = 0x62
  opcode : (evexPrefixOf code).opcode = op.format.opcode
  map : (evexPrefixOf code).byte1 &&& 0x03 = op.format.mapSelect
  mandatory : (evexPrefixOf code).byte2 &&& 0x03 = op.format.mandatoryPrefix
  fixed : (evexPrefixOf code).byte2 &&& 0x04 ≠ 0
  complete : (operandBytes ctx code).complete = true
  immediate : 5 + (operandBytes ctx code).used < code.length

/-- The code finds the fields of the prefix in order. -/
def Accepts (code : List U8) : Prop :=
  ((evexPrefixOf code).validate op.format).isSome = true ∧
    (op.hasSource1 = false → (evexPrefixOf code).source1Index = 0x0F)

/-- The encodings whose operands the code finds: R names no register from 8 on, outside 64-bit
code neither does another field, and a displacement of one byte is zero unless the operand has
one byte. -/
structure Unextended (ctx : CpuContext) (code : List U8) : Prop where
  reg : ctx.is64BitCode = true → (evexPrefixOf code).extR = false
  rm : ctx.is64BitCode = false → modField (code.getD 5 0) = 3 → (evexPrefixOf code).extB = false
  source1 : ctx.is64BitCode = false → op.hasSource1 = true → (evexPrefixOf code).vvvv < 8
  disp8 : modField (code.getD 5 0) = 1 →
    op.memoryBytes ctx.is64BitCode (evexPrefixOf code) = 1 ∨
      (operandBytes ctx code).operand.displacement = 0

end EvexOp

/-! ## The operand in memory -/

section Operand

variable {ctx : CpuContext} {modrm : U8} {rest : List U8} {size : ℕ}

/-- A displacement of one byte is a small number, and the code has the same number. -/
theorem disp8_spec {d : U32} {δ : ℤ} (h : signedDisplacement 1 rest = some δ)
    (hvalue : d.signExtend 64 = BitVec.ofInt 64 δ)
    (hbyte : (d.setWidth 8).signExtend 64 = d.signExtend 64) :
    -128 ≤ δ ∧ δ < 128 ∧ CpuContext.displacementTerm 1 d = BitVec.ofInt 64 δ ∧ (d = 0 ↔ δ = 0) := by
  unfold signedDisplacement at h
  split_ifs at h with hshort
  have hδ : (littleEndian 8 (rest.take 1)).toInt = δ := Option.some.inj h
  have hlow : -128 ≤ δ := by
    rw [← hδ]
    exact BitVec.le_toInt (littleEndian 8 (rest.take 1))
  have hhigh : δ < 128 := by
    rw [← hδ]
    exact BitVec.toInt_lt
  refine ⟨hlow, hhigh, hbyte.trans hvalue, ?_⟩
  have hint : d.toInt = δ := by
    have heq := congrArg BitVec.toInt hvalue
    rw [BitVec.toInt_signExtend_of_le (by decide), BitVec.toInt_ofInt] at heq
    rw [heq]
    apply Int.bmod_eq_of_le_mul_two
    · omega
    · omega
  rw [← hint]
  constructor
  · rintro rfl
    rfl
  · intro hzero
    exact BitVec.eq_of_toInt_eq hzero

/-- The displacement of an operand whose bytes are all there. -/
theorem decodeDisplacement_complete {op : MemOperand} {n used : ℕ} (hsize : op.dispSize = n)
    (hn : n = 0 ∨ n = 1 ∨ n = 2 ∨ n = 4)
    (hcomplete : (decodeDisplacement op used rest).complete = true) :
    ∃ d δ, (decodeDisplacement op used rest).operand = { op with displacement := d } ∧
      signedDisplacement n rest = some δ ∧
      (n = 1 → -128 ≤ δ ∧ δ < 128 ∧ CpuContext.displacementTerm 1 d = BitVec.ofInt 64 δ ∧
        (d = 0 ↔ δ = 0)) := by
  have hlong : ¬ rest.length < n := by
    intro hshort
    rw [← hsize] at hshort
    rw [decodeDisplacement_short hshort] at hcomplete
    cases hcomplete
  obtain ⟨δ, hδ⟩ : ∃ δ, signedDisplacement n rest = some δ := ⟨_, if_neg hlong⟩
  obtain ⟨d, hdecode, hvalue, hbyte, -, -⟩ := @decodeDisplacement_spec op n used rest δ hsize hn hδ
  refine ⟨d, δ, by rw [hdecode], hδ, ?_⟩
  rintro rfl
  exact disp8_spec hδ hvalue (hbyte rfl)

/-- **The form** that an operand in memory has in the architecture has the base and the index
that the code takes. -/
theorem archForm_operand (hsize : size = 32 ∨ size = 64) (hmod : modField modrm ≠ 3)
    (hcomplete : (decodeModrm size (modrm :: rest)).complete = true) :
    ∃ form, archForm ctx.is64BitCode size (ctx.is64BitCode && ctx.prefixBits.rexX)
        (ctx.is64BitCode && ctx.prefixBits.rexB) (modrm :: rest) = some form ∧
      form.base = ctx.addressBase (decodeModrm size (modrm :: rest)).operand ∧
      form.index = ctx.addressIndex (decodeModrm size (modrm :: rest)).operand ∧
      (modField modrm = 1 → -128 ≤ form.displacement ∧ form.displacement < 128 ∧
        CpuContext.displacementTerm 1 (decodeModrm size (modrm :: rest)).operand.displacement =
          BitVec.ofInt 64 form.displacement ∧
        ((decodeModrm size (modrm :: rest)).operand.displacement = 0 ↔
          form.displacement = 0)) := by
  have hne : size ≠ 16 := by omega
  have hsizes := archDisplacementSize_cases (modField modrm) (show (4 : ℕ) = 2 ∨ 4 = 4 from .inr rfl)
  have hone : modField modrm = 1 → archDisplacementSize (modField modrm) 4 = 1 := by
    intro h
    rw [archDisplacementSize, if_pos h]
  simp only [CpuContext.addressBase_eq, CpuContext.addressIndex_eq]
  by_cases hsib : rmField modrm = 4
  · cases rest with
    | nil =>
      simp [decodeModrm, hmod, hsib, hne] at hcomplete
    | cons sib rest =>
      rw [decodeModrm_sib ⟨hmod, hsib, hne⟩] at hcomplete ⊢
      have hform : ∀ mode64 rexX rexB, archForm mode64 size rexX rexB (modrm :: sib :: rest) =
          archSibForm (modField modrm) rexX rexB sib rest := by
        intro mode64 rexX rexB
        unfold archForm
        simp only
        rw [if_neg hmod, if_neg hne, if_pos hsib]
      obtain ⟨d, δ, hoperand, hδ, hbyte⟩ := decodeDisplacement_complete
        (@dispSize_sib modrm size hne sib hsib) (by split_ifs <;> omega) hcomplete
      rw [hoperand, hform]
      unfold archSibForm
      simp only [hsib, if_true]
      by_cases hbase : modField modrm = 0 ∧ rmField sib = 5
      · simp only [hbase, and_self, if_true, decide_true] at hδ ⊢
        rw [hδ]
        refine ⟨_, rfl, rfl, ?_, fun h => absurd h (by decide)⟩
        unfold archIndex
        split_ifs <;> rfl
      · simp only [hbase, if_false, decide_false, Bool.false_eq_true] at hδ hbyte ⊢
        rw [hδ]
        refine ⟨_, rfl, rfl, rfl, fun h => hbyte (hone h)⟩
  · have hplain : ¬ (modField modrm ≠ 3 ∧ rmField modrm = 4 ∧ size ≠ 16) := fun h => hsib h.2.1
    rw [decodeModrm_plain hplain] at hcomplete ⊢
    unfold archForm
    simp only
    rw [if_neg hmod, if_neg hne, if_neg hsib]
    by_cases hdirect : modField modrm = 0 ∧ rmField modrm = 5
    · have hdisp : (⟨size, true, modrm, false, 0, 0⟩ : MemOperand).dispSize = 4 := by
        unfold MemOperand.dispSize
        rw [if_pos hdirect, if_neg hne]
      obtain ⟨d, δ, hoperand, hδ, -⟩ := decodeDisplacement_complete hdisp (by omega) hcomplete
      rw [hoperand, if_pos hdirect, hδ]
      simp only [hdirect, if_true, if_neg (show ¬ (5 : ℕ) = 4 by decide), and_self]
      exact ⟨_, rfl, rfl, rfl, fun h => absurd h (by decide)⟩
    · have hdisp := @dispSize_plain modrm size 4 (by rw [if_neg hne]) hdirect
      obtain ⟨d, δ, hoperand, hδ, hbyte⟩ := decodeDisplacement_complete hdisp hsizes hcomplete
      rw [hoperand, if_neg hdirect, hδ]
      simp only [hsib, if_false]
      rw [if_neg fun h => hdirect ⟨h.2, h.1⟩]
      exact ⟨_, rfl, rfl, rfl, fun h => hbyte (hone h)⟩

end Operand

/-! ## The fields of the prefix in the code -/

namespace EVEXPrefix

variable (p : EVEXPrefix)

/-- The code takes R' for R. -/
theorem state_rexR : p.state.rexR = p.extHighR :=
  (by decide +kernel : ∀ b : U8, (b &&& 0x10 == 0) = !b.getLsbD 4) p.byte1

theorem state_rexX : p.state.rexX = p.extX :=
  (by decide +kernel : ∀ b : U8, (b &&& 0x40 == 0) = !b.getLsbD 6) p.byte1

theorem state_rexB : p.state.rexB = p.extB :=
  (by decide +kernel : ∀ b : U8, (b &&& 0x20 == 0) = !b.getLsbD 5) p.byte1

theorem source1Index_eq : p.source1Index = Fin.ofNat 16 p.vvvv :=
  (by decide +kernel : ∀ b : U8, Fin.ofNat 16 (~~~((b >>> 3) &&& 0x0F) &&& 0x0F).toNat =
    Fin.ofNat 16 (15 - (b.toNat / 8) % 16)) p.byte2

theorem vvvv_lt : p.vvvv < 16 := by
  unfold vvvv
  omega

theorem vectorBytes_bounds : 16 ≤ p.vectorBytes ∧ p.vectorBytes ≤ 128 := by
  have hcases : ∀ n < 4, 16 ≤ 16 <<< n ∧ 16 <<< n ≤ 128 := by decide
  exact hcases _ (Nat.mod_lt _ (by decide))

end EVEXPrefix

/-- An extended number is the number exactly if the bit extends nothing. -/
theorem archRegister_eq_iff (bit : Bool) {n : ℕ} (hn : n < 8) :
    CpuContext.reg n = archRegister bit n ↔ bit = false := by
  revert n
  cases bit <;> decide

/-- A register number with its bit, in the code and in 64-bit code only. -/
theorem rmIndex_eq_iff (mode64 bit : Bool) {n : ℕ} (hn : n < 8) :
    CpuContext.reg (if bit then n ||| 0x08 else n) = archRegister (mode64 && bit) n ↔
      (mode64 = false → bit = false) := by
  revert n
  cases mode64 <;> cases bit <;> decide

/-- The number of `vvvv`, in the code and outside 64-bit code. -/
theorem source1_eq_iff (mode64 : Bool) {n : ℕ} (hn : n < 16) :
    Fin.ofNat 16 n = Fin.ofNat 16 (if mode64 then n else n % 8) ↔ (mode64 = false → n < 8) := by
  revert n
  cases mode64 <;> decide

/-- A small displacement is the same when it is scaled exactly if it is not scaled or zero. -/
theorem scaled_eq_iff {δ : ℤ} {n : ℕ} (hlow : -128 ≤ δ) (hhigh : δ < 128) (hn : n ≤ 128) :
    BitVec.ofInt 64 δ = BitVec.ofInt 64 (δ * n) ↔ n = 1 ∨ δ = 0 := by
  constructor
  · intro h
    have hbmod : ∀ x : ℤ, -(2 ^ 20) ≤ x → x ≤ 2 ^ 20 → (BitVec.ofInt 64 x).toInt = x := by
      intro x hx hx'
      rw [BitVec.toInt_ofInt]
      apply Int.bmod_eq_of_le_mul_two
      · omega
      · omega
    have hbelow : -128 * (n : ℤ) ≤ δ * n := Int.mul_le_mul_of_nonneg_right hlow (by omega)
    have habove : δ * (n : ℤ) ≤ 128 * n := Int.mul_le_mul_of_nonneg_right (by omega) (by omega)
    have hint := congrArg BitVec.toInt h
    rw [hbmod δ (by omega) (by omega), hbmod (δ * n) (by omega) (by omega)] at hint
    have hfactor : δ * (n - 1 : ℤ) = 0 := by
      rw [Int.mul_sub, Int.mul_one]
      omega
    rcases Int.mul_eq_zero.mp hfactor with hδ | hn1
    · exact Or.inr hδ
    · left
      omega
  · rintro (rfl | rfl)
    · rw [Nat.cast_one, Int.mul_one]
    · rw [Int.zero_mul]

namespace EvexOp

variable {op : EvexOp} {ctx : CpuContext} {code : List U8}

theorem memoryBytes_le (mode64 : Bool) (p : EVEXPrefix) : op.memoryBytes mode64 p ≤ 128 := by
  have hwide : (if mode64 && p.byte2.getLsbD 7 then 8 else 4) ≤ 128 := by
    split_ifs <;> omega
  cases op with
  | palignr => exact p.vectorBytes_bounds.2
  | pinsrw => exact (by decide : 2 ≤ 128)
  | pinsrb => exact (by decide : 1 ≤ 128)
  | pextrb => exact (by decide : 1 ≤ 128)
  | pinsrd => exact hwide
  | pextrd => exact hwide

/-- The ModRM byte of an encoding. -/
theorem Encodes.modrm (h : op.Encodes ctx code) :
    ∃ rest, code.drop 5 = code.getD 5 0 :: rest := by
  have hlong := h.immediate
  refine ⟨code.drop 6, ?_⟩
  rw [List.drop_eq_getElem_cons (by omega), List.getD_eq_getElem _ _ (by omega)]

theorem Encodes.operand_modrm (h : op.Encodes ctx code) :
    (operandBytes ctx code).operand.modrm = code.getD 5 0 := by
  obtain ⟨rest, hrest⟩ := h.modrm
  unfold operandBytes
  rw [hrest, decodeModrm_modrm]

/-- The operand has a ModRM byte at least. -/
theorem Encodes.used_pos (h : op.Encodes ctx code) : 1 ≤ (operandBytes ctx code).used := by
  have hdisplacement : ∀ (op : MemOperand) used rest, used ≤ (decodeDisplacement op used rest).used := by
    intro op used rest
    unfold decodeDisplacement
    by_cases hshort : rest.length < op.dispSize
    · rw [if_pos hshort]
    · rw [if_neg hshort]
      exact Nat.le_add_right _ _
  obtain ⟨rest, hrest⟩ := h.modrm
  unfold operandBytes
  rw [hrest]
  unfold decodeModrm
  simp only
  split_ifs
  · cases rest with
    | nil => exact le_rfl
    | cons sib rest => exact le_trans (by decide) (hdisplacement _ 2 rest)
  · exact hdisplacement _ 1 rest

theorem evexAddressSize_cases (ctx : CpuContext) :
    ctx.evexAddressSize = 32 ∨ ctx.evexAddressSize = 64 := by
  unfold CpuContext.evexAddressSize
  split_ifs
  · exact Or.inr rfl
  · exact Or.inl rfl

/-- The operand in `rm`. -/
theorem operands_rm_iff (h : op.Encodes ctx code) :
    (op.operands ctx code).rm = op.archRm ctx.is64BitCode ctx.evexAddressSize code ↔
      (ctx.is64BitCode = false → modField (code.getD 5 0) = 3 →
        (evexPrefixOf code).extB = false) ∧
      (modField (code.getD 5 0) = 1 →
        op.memoryBytes ctx.is64BitCode (evexPrefixOf code) = 1 ∨
          (operandBytes ctx code).operand.displacement = 0) := by
  obtain ⟨rest, hrest⟩ := h.modrm
  have hmodrm := h.operand_modrm
  unfold operands EvexInstruction.operands decoded archRm
  simp only [hmodrm]
  by_cases hmod : modField (code.getD 5 0) = 3
  · rw [if_pos hmod, if_pos hmod]
    unfold decodeMovdqRmIndex decodeContext
    rw [EvexRm.register.injEq, EVEXPrefix.state_rexB, rmIndex_eq_iff _ _ (rmField_lt _)]
    constructor
    · intro hext
      exact ⟨fun hmode _ => hext hmode, fun hone => by omega⟩
    · rintro ⟨hext, -⟩ hmode
      exact hext hmode hmod
  · rw [if_neg hmod, if_neg hmod]
    have hcomplete := h.complete
    unfold operandBytes at hcomplete
    rw [hrest] at hcomplete
    obtain ⟨form, hform, hbase, hindex, hdisp⟩ := @archForm_operand (decodeContext ctx code)
      (code.getD 5 0) rest ctx.evexAddressSize (evexAddressSize_cases ctx) hmod hcomplete
    have hbytes : decodeModrm ctx.evexAddressSize (code.getD 5 0 :: rest) =
        operandBytes ctx code := by
      unfold operandBytes
      rw [hrest]
    rw [hbytes] at hbase hindex hdisp
    have hbits : (decodeContext ctx code).prefixBits.rexX = (evexPrefixOf code).extX ∧
        (decodeContext ctx code).prefixBits.rexB = (evexPrefixOf code).extB :=
      ⟨EVEXPrefix.state_rexX _, EVEXPrefix.state_rexB _⟩
    rw [hbits.1, hbits.2] at hform
    change archForm ctx.is64BitCode _ (ctx.is64BitCode && _) (ctx.is64BitCode && _) _ = _ at hform
    rw [hrest, hform]
    simp only
    rw [hbase, hindex, EvexRm.memory.injEq]
    by_cases hone : modField (code.getD 5 0) = 1
    · obtain ⟨hlow, hhigh, hterm, hzero⟩ := hdisp hone
      rw [if_pos hone, if_pos hone, hone, hterm, Option.some.injEq,
        scaled_eq_iff hlow hhigh (memoryBytes_le _ _), hzero]
      constructor
      · rintro ⟨-, -, hscale⟩
        exact ⟨fun _ hthree => absurd hthree (by decide), fun _ => hscale⟩
      · rintro ⟨-, hscale⟩
        exact ⟨rfl, rfl, hscale rfl⟩
    · rw [if_neg hone, if_neg hone]
      constructor
      · intro _
        exact ⟨fun _ hthree => absurd hthree hmod, fun h1 => absurd h1 hone⟩
      · intro _
        exact ⟨rfl, rfl, rfl⟩

/-- **The operands** of an encoding with a meaning are those that it names exactly if no field
extends a register that the code does not extend, and no displacement is to be scaled. -/
theorem operands_iff (h : op.Encodes ctx code) (hmeaning : op.mustRaise code = false) :
    op.operands ctx code = op.archOperands ctx.is64BitCode ctx.evexAddressSize code ↔
      op.Unextended ctx code := by
  have hhigh : (evexPrefixOf code).extHighR = false := by
    unfold mustRaise at hmeaning
    simp only [Bool.or_eq_false_iff] at hmeaning
    exact hmeaning.1.1.1.1
  have hreg : (op.operands ctx code).reg =
      (op.archOperands ctx.is64BitCode ctx.evexAddressSize code).reg ↔
        (ctx.is64BitCode = true → (evexPrefixOf code).extR = false) := by
    unfold operands EvexInstruction.operands decoded archOperands decodeMovdqXmmRegIndex
      decodeContext
    simp only [h.operand_modrm]
    rw [EVEXPrefix.state_rexR, hhigh, if_neg (by decide), archRegister_eq_iff _ (regField_lt _)]
    cases ctx.is64BitCode <;> simp
  have hsource : (op.operands ctx code).source1 =
      (op.archOperands ctx.is64BitCode ctx.evexAddressSize code).source1 ↔
        (ctx.is64BitCode = false → op.hasSource1 = true → (evexPrefixOf code).vvvv < 8) := by
    unfold operands EvexInstruction.operands archOperands
    cases op.hasSource1 with
    | false => simp
    | true =>
      simp only [if_true, Option.some.injEq]
      rw [EVEXPrefix.source1Index_eq, source1_eq_iff _ (EVEXPrefix.vvvv_lt _)]
      simp
  have hrm := operands_rm_iff h
  have hparts : ∀ a b : EvexOperands, a = b ↔ a.reg = b.reg ∧ a.source1 = b.source1 ∧
      a.rm = b.rm := by
    rintro ⟨reg, source1, rm⟩ ⟨reg', source1', rm'⟩
    exact EvexOperands.mk.injEq reg source1 rm reg' source1' rm' ▸ Iff.rfl
  rw [hparts, hreg, hsource]
  constructor
  · rintro ⟨hr, hs, hm⟩
    obtain ⟨hb, hd⟩ := hrm.mp hm
    exact ⟨hr, hb, hs, hd⟩
  · intro hplain
    exact ⟨hplain.reg, hplain.source1, hrm.mpr ⟨hplain.rm, hplain.disp8⟩⟩

/-- The address of the operand in memory is the sum of its parts. -/
theorem decoded_memAddress
    (hmod : modField (operandBytes ctx code).operand.modrm ≠ 3) :
    (op.decoded ctx code).memAddress =
      (decodeContext ctx code).partsOffset (operandBytes ctx code).operand
          (if (operandBytes ctx code).operand.finalized then (op.decoded ctx code).instSize
            else 0) +
        (decodeContext ctx code).segmentBaseForAddressing
          ((decodeContext ctx code).operandSegment (operandBytes ctx code).operand) := by
  have hsize : (operandBytes ctx code).operand.addressSize = 32 ∨
      (operandBytes ctx code).operand.addressSize = 64 := by
    unfold operandBytes
    rw [decodeModrm_addressSize]
    exact evexAddressSize_cases ctx
  unfold decoded CpuContext.operandOffset
  simp only
  rw [if_neg hmod, CpuContext.getEffectiveOffset_parts _ hmod hsize]

end EvexOp

end Cpueaxh
