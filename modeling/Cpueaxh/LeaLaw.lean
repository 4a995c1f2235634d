/-
# `LEA` against the architecture

`LEA` computes its address apart from the other instructions, and then lets an operand
relative to the instruction pointer have its address from `get_effective_address`, which
adds the base of the segment and checks that the sum is canonical.
-/
import Cpueaxh.AddressLaw

namespace Cpueaxh

namespace CpuContext

variable (ctx : CpuContext)

/-- The address that `LEA` leaves to be written for the bytes behind its opcode, which
start at some offset in the instruction; `none` when it raises an exception. -/
def leaAddress (offset : ℕ) (code : List U8) : Option U64 :=
  let decoded := decodeModrm ctx.decodedAddressSize code
  let op := decoded.operand
  let instSize := offset + decoded.used
  if !decoded.complete then none
  else if op.finalized then
    let segment := ctx.effectiveSegmentOverrideOrDefault (ctx.defaultSegmentForMemoryOperand op)
    let address := ctx.getEffectiveOffset op instSize + ctx.segmentBaseForAddressing segment
    if ctx.is64BitCode && !cpuIsCanonicalAddress address then none else some address
  else some (ctx.calculateLeaAddress op (ctx.rip + BitVec.ofNat 64 instSize))

end CpuContext

/-- What a context behind `LEA` has in the destination; `none` when it has an exception. -/
def leaDestination (modrm : U8) (after : CpuContext) : Option U64 :=
  if after.hasException then none
  else
    some (getReg after.leaOperandSize after
      (CpuContext.reg (CpuContext.extended after.prefixBits.rexR true (regField modrm))))

/-- What `LEA` returns: the value of its operand size in the register of the ModRM byte. -/
def CpuContext.leaResult (ctx : CpuContext) (code : List U8) : Option U64 :=
  match scanPrefixes .clear false code with
  | (_, _, _ :: modrm :: _) => leaDestination modrm (ctx.executeLea code)
  | _ => none

/-! ## The bytes of the operand -/

/-- The number of the bytes of an operand in the architecture. -/
def archOperandLength (addressSize : ℕ) : List U8 → ℕ
  | [] => 0
  | modrm :: rest =>
    let mod := modField modrm
    let rm := rmField modrm
    if addressSize = 16 then 1 + if mod = 0 ∧ rm = 6 then 2 else archDisplacementSize mod 2
    else if rm = 4 then
      2 + if mod = 0 ∧ rest.head?.map rmField = some 5 then 4 else archDisplacementSize mod 4
    else 1 + if mod = 0 ∧ rm = 5 then 4 else archDisplacementSize mod 4

section Lea

variable {ctx : CpuContext} {modrm : U8} {rest code : List U8} {δ : ℤ} {form : AddressForm}

theorem getReg_setWidth {size : ℕ} (hsize : size = 16 ∨ size = 32 ∨ size = 64) (r : Fin 16) :
    (getReg size ctx r).setWidth size = (ctx.regs r).setWidth size :=
  setWidth_truncateTo hsize _

/-- `calculate_lea_address` for an address of 32 or 64 bits. -/
theorem calculateLeaAddress_eq {op : MemOperand} {nextRip : U64}
    (hsize : op.addressSize = 32 ∨ op.addressSize = 64)
    (hcode : ctx.is64BitCode = ctx.cs.descriptor.longMode) :
    ctx.calculateLeaAddress op nextRip = truncateTo op.addressSize
      ((if op.hasSib then
          (if modField op.modrm = 0 ∧ rmField op.sib = 5 then op.displacement.signExtend 64
            else ctx.regs (archRegister (ctx.is64BitCode && ctx.prefixBits.rexB) (rmField op.sib))) +
          (archIndex (ctx.is64BitCode && ctx.prefixBits.rexX) op.sib).elim 0
            fun index => ctx.regs index.1 <<< index.2
        else if modField op.modrm = 0 ∧ rmField op.modrm = 5 then
          if op.addressSize = 64 then nextRip + op.displacement.signExtend 64
          else op.displacement.setWidth 64
        else ctx.regs (archRegister (ctx.is64BitCode && ctx.prefixBits.rexB) (rmField op.modrm))) +
        CpuContext.displacementTerm (modField op.modrm) op.displacement) := by
  have hsizes : op.addressSize = 16 ∨ op.addressSize = 32 ∨ op.addressSize = 64 := .inr hsize
  have hle : op.addressSize ≤ 64 := by omega
  rw [CpuContext.calculateLeaAddress]
  simp only [if_pos hsize.symm, CpuContext.reg_extended _ _ (rmField_lt op.modrm),
    CpuContext.reg_extended _ _ (rmField_lt op.sib), CpuContext.reg_extended _ _ (regField_lt op.sib),
    ← hcode]
  rw [cut_eq hsize, truncateTo_eq_iff hsizes, BitVec.setWidth_add _ _ hle, BitVec.setWidth_add _ _ hle]
  congr 1
  have hindex := CpuContext.hasIndex_iff ctx.prefixBits.rexX ctx.is64BitCode (regField_lt op.sib)
  -- both ways of extending a displacement have the same low bits
  have hdisp : (if op.addressSize = 64 then op.displacement.signExtend 64
      else (op.displacement.setWidth 64 : U64)).setWidth op.addressSize =
        (op.displacement.signExtend 64).setWidth op.addressSize := by
    rcases hsize with h | h
    · rw [h, if_neg (by decide), setWidth_signExtend _ (by decide),
        BitVec.setWidth_setWidth_of_le _ (by decide), BitVec.setWidth_eq]
    · rw [if_pos h]
  have hbase : (if modField op.modrm = 0 ∧ rmField op.sib = 5 then
        if op.addressSize = 64 then op.displacement.signExtend 64
        else (op.displacement.setWidth 64 : U64)
      else getReg op.addressSize ctx (archRegister (ctx.is64BitCode && ctx.prefixBits.rexB)
        (rmField op.sib))).setWidth op.addressSize =
      (if modField op.modrm = 0 ∧ rmField op.sib = 5 then op.displacement.signExtend 64
        else ctx.regs (archRegister (ctx.is64BitCode && ctx.prefixBits.rexB)
          (rmField op.sib))).setWidth op.addressSize := by
    by_cases hnone : modField op.modrm = 0 ∧ rmField op.sib = 5
    · rw [if_pos hnone, if_pos hnone, hdisp]
    · rw [if_neg hnone, if_neg hnone, getReg_setWidth hsizes]
  by_cases hsib : op.hasSib = true
  · rw [if_pos hsib, if_pos hsib, BitVec.setWidth_add _ _ hle, ← hbase]
    unfold archIndex
    by_cases hnone : archRegister (ctx.is64BitCode && ctx.prefixBits.rexX) (regField op.sib) = regRsp
    · rw [if_neg (mt hindex.mp (not_not_intro hnone)), if_pos hnone]
      simp
    · rw [if_pos (hindex.mpr hnone), if_neg hnone, BitVec.setWidth_add _ _ hle]
      simp only [Option.elim_some, BitVec.setWidth_shiftLeft_of_le hle, getReg_setWidth hsizes]
  · rw [if_neg hsib, if_neg hsib]
    by_cases hdirect : modField op.modrm = 0 ∧ rmField op.modrm = 5
    · rw [if_pos hdirect, if_pos hdirect]
    · rw [if_neg hdirect, if_neg hdirect, getReg_setWidth hsizes]

/-! ## The addresses -/

/-- The bytes of an operand that does not get its address again. -/
theorem leaAddress_eq {op : MemOperand} {used offset : ℕ}
    (h : decodeModrm ctx.decodedAddressSize code =
      { operand := op, used := used, complete := true }) (hfinal : op.finalized = false) :
    ctx.leaAddress offset code =
      some (ctx.calculateLeaAddress op (ctx.rip + BitVec.ofNat 64 (offset + used))) := by
  unfold CpuContext.leaAddress
  rw [h]
  simp only [Bool.not_true, Bool.false_eq_true, if_false, hfinal]

/-- `LEA` of a base register. -/
theorem leaAddress_base {offset : ℕ}
    (hsize : ctx.decodedAddressSize = 32 ∨ ctx.decodedAddressSize = 64)
    (hcode : ctx.is64BitCode = ctx.cs.descriptor.longMode) (hsib : rmField modrm ≠ 4)
    (hdirect : ¬ (modField modrm = 0 ∧ rmField modrm = 5))
    (hδ : signedDisplacement (archDisplacementSize (modField modrm) 4) rest = some δ)
    (nextRip : U64) :
    ctx.leaAddress offset (modrm :: rest) = some ((⟨some (archRegister
      (ctx.is64BitCode && ctx.prefixBits.rexB) (rmField modrm)), none, false, δ⟩ :
        AddressForm).offset ctx.regs nextRip ctx.decodedAddressSize) := by
  have hwide : 4 = if ctx.decodedAddressSize = 16 then 2 else 4 := by
    rcases hsize with h | h <;> simp [h]
  obtain ⟨d, hdecode, hvalue, hbyte, hnone, -⟩ := @decodeDisplacement_spec _ _ 1 _ _
    (dispSize_plain hwide hdirect) (archDisplacementSize_cases _ (.inr rfl)) hδ
  have hfinal : (⟨ctx.decodedAddressSize, true, modrm, false, 0, d⟩ : MemOperand).finalized =
      false := not_finalized (.inr hdirect)
  rw [leaAddress_eq ((decodeModrm_plain (fun h => hsib h.2.1)).trans hdecode) hfinal]
  refine congrArg some ((calculateLeaAddress_eq hsize hcode).trans ?_)
  rw [if_neg (by simp), if_neg hdirect, displacementTerm_eq hvalue hbyte hnone]
  simp [AddressForm.offset]

/-- `LEA` with a SIB byte: here a displacement without a base is extended with its sign. -/
theorem leaAddress_sib {offset : ℕ}
    (hsize : ctx.decodedAddressSize = 32 ∨ ctx.decodedAddressSize = 64)
    (hcode : ctx.is64BitCode = ctx.cs.descriptor.longMode)
    (hmod : modField modrm ≠ 3) (hsib : rmField modrm = 4) {sib : U8}
    (h : archSibForm (modField modrm) (ctx.is64BitCode && ctx.prefixBits.rexX)
      (ctx.is64BitCode && ctx.prefixBits.rexB) sib rest = some form) (nextRip : U64) :
    ctx.leaAddress offset (modrm :: sib :: rest) =
      some (form.offset ctx.regs nextRip ctx.decodedAddressSize) := by
  have hne : ctx.decodedAddressSize ≠ 16 := by omega
  have hfinal : ∀ d : U32,
      (⟨ctx.decodedAddressSize, true, modrm, true, sib, d⟩ : MemOperand).finalized = false :=
    fun d => not_finalized (.inr (by rw [hsib]; omega))
  unfold archSibForm at h
  by_cases hbase : modField modrm = 0 ∧ rmField sib = 5
  · simp only [hbase, and_self, decide_true, if_true] at h
    obtain ⟨δ, hδ, rfl⟩ := Option.map_eq_some_iff.mp h
    obtain ⟨d, hdecode, hvalue, -, -, -⟩ := @decodeDisplacement_spec
      ⟨ctx.decodedAddressSize, true, modrm, true, sib, 0⟩ 4 2 rest δ
      (by rw [dispSize_sib hne hsib, if_pos hbase]) (by simp) hδ
    rw [leaAddress_eq ((decodeModrm_sib ⟨hmod, hsib, hne⟩).trans hdecode) (hfinal d)]
    refine congrArg some ((calculateLeaAddress_eq hsize hcode).trans ?_)
    have hterm : CpuContext.displacementTerm (modField modrm) d = 0 := by
      rw [hbase.1]
      rfl
    rw [if_pos rfl, if_pos hbase, hterm, hvalue]
    simp [AddressForm.offset, archIndex, BitVec.add_comm]
  · simp only [hbase, decide_false, Bool.false_eq_true, if_false] at h
    obtain ⟨δ, hδ, rfl⟩ := Option.map_eq_some_iff.mp h
    obtain ⟨d, hdecode, hvalue, hbyte, hnone, -⟩ := @decodeDisplacement_spec
      ⟨ctx.decodedAddressSize, true, modrm, true, sib, 0⟩ _ 2 rest δ
      (by rw [dispSize_sib hne hsib, if_neg hbase]) (archDisplacementSize_cases _ (.inr rfl)) hδ
    rw [leaAddress_eq ((decodeModrm_sib ⟨hmod, hsib, hne⟩).trans hdecode) (hfinal d)]
    refine congrArg some ((calculateLeaAddress_eq hsize hcode).trans ?_)
    rw [if_pos rfl, if_neg hbase, displacementTerm_eq hvalue hbyte hnone]
    simp [AddressForm.offset, archIndex]

/-- `LEA` of an absolute address of 32 bits. -/
theorem leaAddress_direct32 {offset : ℕ} (hsize : ctx.decodedAddressSize = 32)
    (hcode : ctx.is64BitCode = ctx.cs.descriptor.longMode)
    (hdirect : modField modrm = 0 ∧ rmField modrm = 5)
    (hδ : signedDisplacement 4 rest = some δ) (nextRip : U64) :
    ctx.leaAddress offset (modrm :: rest) =
      some ((⟨none, none, 32 == 64, δ⟩ : AddressForm).offset ctx.regs nextRip 32) := by
  have hdisp : (⟨ctx.decodedAddressSize, true, modrm, false, 0, 0⟩ : MemOperand).dispSize = 4 := by
    unfold MemOperand.dispSize
    rw [if_pos hdirect]
    simp [hsize]
  obtain ⟨d, hdecode, hvalue, -, -, -⟩ := @decodeDisplacement_spec _ _ 1 _ _ hdisp (by simp) hδ
  have hfinal : (⟨ctx.decodedAddressSize, true, modrm, false, 0, d⟩ : MemOperand).finalized =
      false := not_finalized (.inl (by simp [hsize]))
  rw [leaAddress_eq ((decodeModrm_plain (fun h => by omega)).trans hdecode) hfinal]
  refine congrArg some ((calculateLeaAddress_eq (.inl hsize) hcode).trans ?_)
  have hterm : CpuContext.displacementTerm (modField modrm) d = 0 := by
    rw [hdirect.1]
    rfl
  rw [if_neg (by simp), if_pos hdirect, hterm]
  have hcut : truncateTo 32 (d.setWidth 64) = truncateTo 32 (BitVec.ofInt 64 δ) := by
    rw [truncateTo_eq_iff (by simp), ← hvalue, BitVec.setWidth_setWidth_of_le _ (by decide),
      setWidth_signExtend _ (by decide), BitVec.setWidth_eq]
  simpa [hsize, AddressForm.offset] using hcut

/-- `LEA` relative to the instruction pointer adds the base of the segment. -/
theorem leaAddress_direct64 {offset : ℕ} (hsize : ctx.decodedAddressSize = 64)
    (hdirect : modField modrm = 0 ∧ rmField modrm = 5)
    (hδ : signedDisplacement 4 rest = some δ) :
    ctx.leaAddress offset (modrm :: rest) =
      (let address := (⟨none, none, true, δ⟩ : AddressForm).offset ctx.regs
          (ctx.rip + BitVec.ofNat 64 (offset + 5)) 64 +
            ctx.segmentBaseForAddressing (ctx.effectiveSegmentOverrideOrDefault .ds)
        if ctx.is64BitCode && !cpuIsCanonicalAddress address then none else some address) := by
  have hdisp : (⟨ctx.decodedAddressSize, true, modrm, false, 0, 0⟩ : MemOperand).dispSize = 4 := by
    unfold MemOperand.dispSize
    rw [if_pos hdirect]
    simp [hsize]
  obtain ⟨d, hdecode, hvalue, -, -, -⟩ := @decodeDisplacement_spec _ _ 1 _ _ hdisp (by simp) hδ
  have hfinal : (⟨ctx.decodedAddressSize, true, modrm, false, 0, d⟩ : MemOperand).finalized =
      true := by
    simp [MemOperand.finalized, hsize, hdirect.1, hdirect.2]
  have hoffset := @getEffectiveOffset_eq ctx (offset + 5)
    ⟨ctx.decodedAddressSize, true, modrm, false, 0, d⟩ (.inr hsize) (by simp [hdirect.1])
  have hsegment : ctx.defaultSegmentForMemoryOperand
      ⟨ctx.decodedAddressSize, true, modrm, false, 0, d⟩ = .ds := by
    simp [CpuContext.defaultSegmentForMemoryOperand, hdirect.1, hdirect.2, hsize]
  unfold CpuContext.leaAddress
  rw [(decodeModrm_plain (fun h => by omega)).trans hdecode]
  simp only [Bool.not_true, Bool.false_eq_true, if_false, hfinal, if_true, hsegment, hoffset]
  have hsum : (⟨none, none, true, δ⟩ : AddressForm).offset ctx.regs
      (ctx.rip + BitVec.ofNat 64 (offset + 5)) 64 =
        ctx.rip + BitVec.ofNat 64 (offset + 5) + d.signExtend 64 := by
    simp [AddressForm.offset, hvalue, truncateTo]
  simp [hsum, hsize, hdirect.1, hdirect.2, CpuContext.displacementTerm, truncateTo]

/-- `LEA` leaves a 16-bit address to `get_effective_offset`. -/
theorem leaAddress_memoryOffset {offset instSize : ℕ} (hsize : ctx.decodedAddressSize = 16) :
    ctx.leaAddress offset (modrm :: rest) =
      ctx.memoryOffset ctx.decodedAddressSize (modrm :: rest) instSize := by
  have hplain := @decodeModrm_plain modrm rest ctx.decodedAddressSize fun h => h.2.2 hsize
  unfold CpuContext.leaAddress CpuContext.memoryOffset
  have hoperand : (decodeModrm ctx.decodedAddressSize (modrm :: rest)).operand.addressSize = 16 := by
    rw [hplain]
    unfold decodeDisplacement
    split_ifs <;> exact hsize
  have hfinal := @not_finalized (decodeModrm ctx.decodedAddressSize (modrm :: rest)).operand
    (.inl (by omega))
  have hlea : ∀ nextRip, ctx.calculateLeaAddress
      (decodeModrm ctx.decodedAddressSize (modrm :: rest)).operand nextRip =
        ctx.getEffectiveOffset (decodeModrm ctx.decodedAddressSize (modrm :: rest)).operand 0 := by
    intro nextRip
    rw [CpuContext.calculateLeaAddress]
    dsimp only
    rw [if_neg (by omega)]
  dsimp only
  rw [hfinal, hlea, CpuContext.operandOffset, hfinal]
  cases (decodeModrm ctx.decodedAddressSize (modrm :: rest)).complete <;> rfl

/-- The base of the segment that `LEA` adds to an address relative to the instruction
pointer. -/
def CpuContext.leaSegmentBase (ctx : CpuContext) : U64 :=
  ctx.segmentBaseForAddressing (ctx.effectiveSegmentOverrideOrDefault .ds)

/-- The encodings for which `LEA` returns the offset of the architecture: the address size
is the one of the mode, no operand is relative to a 32-bit instruction pointer that matters, a
16-bit displacement of its own is zero, and the segment of an operand relative to a 64-bit
instruction pointer neither moves it nor makes it not canonical. -/
structure CpuContext.LeaPlain (ctx : CpuContext) (code : List U8) (nextRip : U64)
    (form : AddressForm) : Prop where
  relative : ctx.decodedAddressSize = 32 → form.ripRelative = true →
    truncateTo ctx.leaOperandSize (truncateTo 32 nextRip) = 0
  absolute : ctx.decodedAddressSize = 16 → form.base = none → form.displacement = 0
  indirect : ctx.decodedAddressSize = 16 → ∀ modrm rest, code = modrm :: rest →
    modField modrm = 0 → rmField modrm = 5 → 2 ≤ rest.length
  segment : ctx.decodedAddressSize = 64 → form.ripRelative = true →
    truncateTo ctx.leaOperandSize ctx.leaSegmentBase = 0 ∧
      cpuIsCanonicalAddress (form.offset ctx.regs nextRip 64 + ctx.leaSegmentBase) = true

theorem leaOperandSize_cases (ctx : CpuContext) :
    ctx.leaOperandSize = 16 ∨ ctx.leaOperandSize = 32 ∨ ctx.leaOperandSize = 64 := by
  unfold CpuContext.leaOperandSize
  split_ifs <;> simp

/-- Adding to a value does not change its bits under a size exactly if the bits of what is
added are zero. -/
theorem truncateTo_add_eq_iff {size : ℕ} (hsize : size = 16 ∨ size = 32 ∨ size = 64)
    (x base : U64) :
    truncateTo size (x + base) = truncateTo size x ↔ truncateTo size base = 0 := by
  have hzero : (0 : U64) = truncateTo size 0 := by
    rcases hsize with rfl | rfl | rfl <;> rfl
  rw [hzero, truncateTo_eq_iff hsize, truncateTo_eq_iff hsize, BitVec.setWidth_add _ _ (by omega)]
  simp

/-- The offset of a 16-bit address has 16 bits. -/
theorem memoryOffset_word_cases {instSize : ℕ} {mode64 rexX rexB : Bool} (hsize : ctx.decodedAddressSize = 16)
    (hcode : ctx.is64BitCode = false)
    (h : archForm mode64 ctx.decodedAddressSize rexX rexB code = some form) :
    ctx.memoryOffset ctx.decodedAddressSize code instSize = none ∨
      ∃ sum, ctx.memoryOffset ctx.decodedAddressSize code instSize = some (truncateTo 16 sum) := by
  rw [hsize] at h
  obtain ⟨modrm, rest, δ, rfl, hmod, ⟨hzero, hsix, -, -⟩ | ⟨habsolute, hδ, -⟩⟩ := archForm_cases16 h
  · exact .inr ⟨0, memoryOffset_absolute hsize hcode ⟨hzero, hsix⟩⟩
  · by_cases hdirect : modField modrm = 0 ∧ rmField modrm = 5
    · rw [memoryOffset_indirect hsize hcode hdirect 0, hsize]
      split_ifs
      · exact .inl rfl
      · exact .inr ⟨_, rfl⟩
    · rw [memoryOffset_word hsize hcode hmod habsolute hdirect hδ 0, hsize]
      exact .inr ⟨_, rfl⟩

/-- Two sizes keep the bits that the smaller one keeps. -/
theorem truncateTo_truncateTo {size size' : ℕ} (hsize : size = 16 ∨ size = 32 ∨ size = 64)
    (hsize' : size' = 16 ∨ size' = 32 ∨ size' = 64) (x : U64) :
    truncateTo size (truncateTo size' x) = truncateTo (min size size') x := by
  have hmin : min size size' = 16 ∨ min size size' = 32 ∨ min size size' = 64 := by omega
  rw [truncateTo_eq hsize, truncateTo_eq hsize', truncateTo_eq hmin]
  ext i hi
  simp only [BitVec.getElem_setWidth, BitVec.getLsbD_setWidth, Nat.lt_min, Bool.decide_and, hi,
    decide_true, Bool.true_and]
  rw [Bool.and_assoc]

/-- The law of `LEA` for an address of 16 bits. -/
theorem leaAddress_iff_word {offset : ℕ} {nextRip : U64} {mode64 rexX rexB : Bool}
    (hsize : ctx.decodedAddressSize = 16) (hcode : ctx.is64BitCode = false)
    (h : archForm mode64 ctx.decodedAddressSize rexX rexB code = some form) :
    (ctx.leaAddress offset code).map (truncateTo ctx.leaOperandSize) =
        some (truncateTo ctx.leaOperandSize
          (form.offset ctx.regs nextRip ctx.decodedAddressSize)) ↔
      ctx.LeaPlain code nextRip form := by
  have hmemory := @memoryOffset_iff_word ctx _ 0 code form _ _ _ nextRip hsize hcode h
  have hcases := @memoryOffset_word_cases ctx code form 0 _ _ _ hsize hcode h
  have hlea : ctx.leaAddress offset code = ctx.memoryOffset ctx.decodedAddressSize code 0 := by
    cases code with
    | nil => cases h
    | cons modrm rest => exact leaAddress_memoryOffset hsize
  have hiff : ctx.LeaPlain code nextRip form ↔
      ctx.OffsetPlain ctx.decodedAddressSize code 0 nextRip form := by
    constructor
    · exact fun hplain => ⟨fun h64 => by omega, fun h32 => by omega, hplain.absolute,
        hplain.indirect, fun h64 => by omega⟩
    · exact fun hplain => ⟨fun h32 => by omega, hplain.absolute, hplain.indirect,
        fun h64 => by omega⟩
  rw [hiff, ← hmemory, hlea]
  -- the cut to the operand size changes neither side
  have hword : ∀ sum, truncateTo ctx.leaOperandSize (truncateTo 16 sum) = truncateTo 16 sum := by
    intro sum
    have hmin : min ctx.leaOperandSize 16 = 16 := by
      have hcases := leaOperandSize_cases ctx
      omega
    rw [truncateTo_truncateTo (leaOperandSize_cases ctx) (.inl rfl), hmin]
  have hform : truncateTo ctx.leaOperandSize (form.offset ctx.regs nextRip ctx.decodedAddressSize) =
      form.offset ctx.regs nextRip ctx.decodedAddressSize := by
    rw [hsize]
    exact hword _
  rw [hform]
  rcases hcases with hnone | ⟨sum, hsome⟩
  · rw [hnone]
    rfl
  · rw [hsome, Option.map_some, hword]

/-- An absolute address of 32 bits and one relative to the next instruction, cut to an operand
size. -/
theorem lea_direct_iff {size : ℕ} (hsize : size = 16 ∨ size = 32 ∨ size = 64)
    {regs : Fin 16 → U64} {nextRip : U64} {relative : Bool} :
    truncateTo size ((⟨none, none, 32 == 64, δ⟩ : AddressForm).offset regs nextRip 32) =
        truncateTo size ((⟨none, none, relative, δ⟩ : AddressForm).offset regs nextRip 32) ↔
      (relative = true → truncateTo size (truncateTo 32 nextRip) = 0) := by
  have hmin : min size 32 = 16 ∨ min size 32 = 32 ∨ min size 32 = 64 := by omega
  have hdirect : (⟨none, none, 32 == 64, δ⟩ : AddressForm).offset regs nextRip 32 =
      truncateTo 32 (BitVec.ofInt 64 δ) := by
    simp [AddressForm.offset]
  rw [hdirect]
  cases relative with
  | false => simp [AddressForm.offset]
  | true =>
    have hrelative : (⟨none, none, true, δ⟩ : AddressForm).offset regs nextRip 32 =
        truncateTo 32 (BitVec.ofInt 64 δ + nextRip) := by
      simp [AddressForm.offset, BitVec.add_comm]
    rw [hrelative, truncateTo_truncateTo hsize (by simp), truncateTo_truncateTo hsize (by simp),
      truncateTo_truncateTo hsize (by simp), eq_comm, truncateTo_add_eq_iff hmin]
    simp

/-- The law of `LEA` for an address of 32 or 64 bits. -/
theorem leaAddress_iff_long {offset : ℕ} {nextRip : U64}
    (hnext : nextRip =
      ctx.rip + BitVec.ofNat 64 (offset + archOperandLength ctx.decodedAddressSize code))
    (hsize : ctx.decodedAddressSize = 32 ∨ (ctx.decodedAddressSize = 64 ∧ ctx.is64BitCode = true))
    (hcode : ctx.is64BitCode = ctx.cs.descriptor.longMode)
    (h : archForm ctx.is64BitCode ctx.decodedAddressSize (ctx.is64BitCode && ctx.prefixBits.rexX)
      (ctx.is64BitCode && ctx.prefixBits.rexB) code = some form) :
    (ctx.leaAddress offset code).map (truncateTo ctx.leaOperandSize) =
        some (truncateTo ctx.leaOperandSize
          (form.offset ctx.regs nextRip ctx.decodedAddressSize)) ↔
      ctx.LeaPlain code nextRip form := by
  have hlong : ctx.decodedAddressSize = 32 ∨ ctx.decodedAddressSize = 64 := hsize.imp_right And.left
  have hplain : ∀ form : AddressForm, form.ripRelative = false → ctx.LeaPlain code nextRip form := by
    intro form hrip
    exact ⟨fun _ htrue => absurd (hrip.symm.trans htrue) (by decide), fun hword => by omega,
      fun hword => by omega, fun _ htrue => absurd (hrip.symm.trans htrue) (by decide)⟩
  obtain ⟨modrm, rest, rfl, hmod, ⟨sib, rest', rfl, hsib, hform⟩ | ⟨δ, hzero, hfive, hδ, rfl⟩ |
    ⟨δ, hsib, hdirect, hδ, rfl⟩⟩ := archForm_cases (by omega) h
  · have hrip : form.ripRelative = false := by
      unfold archSibForm at hform
      obtain ⟨δ, -, rfl⟩ := Option.map_eq_some_iff.mp hform
      rfl
    rw [leaAddress_sib hlong hcode hmod hsib hform nextRip]
    exact iff_of_true rfl (hplain _ hrip)
  · have hlength : archOperandLength ctx.decodedAddressSize (modrm :: rest) = 5 := by
      unfold archOperandLength
      dsimp only
      rw [if_neg (by omega), if_neg (by omega), if_pos ⟨hzero, hfive⟩]
    rcases hsize with hsize | ⟨hsize, h64⟩
    · rw [leaAddress_direct32 hsize hcode ⟨hzero, hfive⟩ hδ nextRip, hsize, Option.map_some, Option.some_inj, lea_direct_iff (leaOperandSize_cases ctx)]
      constructor
      · intro heq
        exact ⟨fun _ hrip => heq hrip, fun hword => by omega, fun hword => by omega,
          fun h64 => by omega⟩
      · exact fun hall hrip => hall.relative hsize hrip
    · rw [hlength] at hnext
      rw [leaAddress_direct64 hsize ⟨hzero, hfive⟩ hδ, hsize, h64, ← hnext]
      dsimp only
      rw [← CpuContext.leaSegmentBase, Bool.true_and]
      constructor
      · intro heq
        split_ifs at heq with hcanonical
        · cases heq
        · rw [Option.map_some, Option.some_inj, truncateTo_add_eq_iff (leaOperandSize_cases ctx)] at heq
          exact ⟨fun h32 => by omega, fun hword => by omega, fun hword => by omega,
            fun _ _ => ⟨heq, by simpa using hcanonical⟩⟩
      · intro hall
        obtain ⟨hbase, hcanonical⟩ := hall.segment hsize rfl
        have hplainBase := (truncateTo_add_eq_iff (leaOperandSize_cases ctx)
          ((⟨none, none, true, δ⟩ : AddressForm).offset ctx.regs nextRip 64)
          ctx.leaSegmentBase).mpr hbase
        rw [hcanonical]
        exact congrArg some hplainBase
  · rw [leaAddress_base hlong hcode hsib hdirect hδ nextRip]
    exact iff_of_true rfl (hplain _ rfl)

/-! ## The instruction -/

/-- A displacement is the only field that its decoder sets. -/
theorem decodeDisplacement_frame (op : MemOperand) (used : ℕ) (rest : List U8) :
    ∃ displacement, (decodeDisplacement op used rest).operand =
      { op with displacement := displacement } := by
  unfold decodeDisplacement
  split_ifs
  · exact ⟨op.displacement, rfl⟩
  · exact ⟨_, rfl⟩
  · exact ⟨_, rfl⟩

/-- The operand has the address size that the decoder was given, and the ModRM byte. -/
theorem decodeModrm_frame (size : ℕ) (modrm : U8) (rest : List U8) :
    (decodeModrm size (modrm :: rest)).operand.addressSize = size ∧
      (decodeModrm size (modrm :: rest)).operand.modrm = modrm := by
  unfold decodeModrm
  dsimp only
  split_ifs
  · cases rest with
    | nil => exact ⟨rfl, rfl⟩
    | cons sib rest =>
      obtain ⟨_, hframe⟩ := decodeDisplacement_frame
        { addressSize := size, hasModrm := true, modrm := modrm, hasSib := true, sib := sib,
          displacement := 0 } 2 rest
      exact ⟨congrArg MemOperand.addressSize hframe, congrArg MemOperand.modrm hframe⟩
  · obtain ⟨_, hframe⟩ := decodeDisplacement_frame ⟨size, true, modrm, false, 0, 0⟩ 1 rest
    exact ⟨congrArg MemOperand.addressSize hframe, congrArg MemOperand.modrm hframe⟩

theorem decodeModrm_modrm (size : ℕ) :
    (decodeModrm size (modrm :: rest)).operand.modrm = modrm :=
  (decodeModrm_frame size modrm rest).2

theorem decodeModrm_addressSize (size : ℕ) (code : List U8) :
    (decodeModrm size code).operand.addressSize = size := by
  cases code with
  | nil => rfl
  | cons modrm rest => exact (decodeModrm_frame size modrm rest).1

theorem raiseException_hasException (hexc : ctx.hasException = false) {code : U32}
    (hcode : code ≠ cpuExceptionNone) (errorCode : U32) :
    (ctx.raiseException code errorCode).hasException = true := by
  unfold CpuContext.raiseException
  rw [hexc]
  simpa [CpuContext.hasException] using hcode

/-- The check of an address keeps an exception. -/
theorem getEffectiveAddress_pending (hexc : ctx.hasException = true) (op : MemOperand) (n : ℕ) :
    (ctx.getEffectiveAddress op n).2 = ctx := by
  unfold CpuContext.getEffectiveAddress
  dsimp only
  split_ifs
  · rfl
  · unfold cpuValidateLinearAddress cpuRaiseNoncanonicalAddress
    split_ifs
    · exact raiseException_of_pending hexc _ _
    · exact raiseException_of_pending hexc _ _
    · rfl

/-- The writing part of `execute_lea`. -/
theorem getReg_setReg {size : ℕ} (hsize : size = 16 ∨ size = 32 ∨ size = 64) (dest : Fin 16)
    (address : U64) : getReg size (setReg size ctx dest address) dest = truncateTo size address := by
  unfold getReg setReg
  dsimp only
  rw [Function.update_self, truncateTo_regMerge hsize]

/-- The destination behind the writing part. -/
theorem leaDestination_write (address : U64) :
    leaDestination modrm (ctx.writeLeaRegOperand modrm address) =
      if ctx.hasException then none else some (truncateTo ctx.leaOperandSize address) := by
  unfold CpuContext.writeLeaRegOperand
  by_cases hexc : ctx.hasException = true
  · rw [if_pos hexc, if_pos hexc, leaDestination, if_pos hexc]
  · rw [if_neg hexc, if_neg hexc, leaDestination]
    exact (if_neg hexc).trans (congrArg some (getReg_setReg (leaOperandSize_cases ctx) _ _))

/-- `get_effective_address` of an operand in memory. -/
theorem getEffectiveAddress_eq {op : MemOperand} (hmod : modField op.modrm ≠ 3) (n : ℕ) :
    ctx.getEffectiveAddress op n =
      (let segment := ctx.effectiveSegmentOverrideOrDefault (ctx.defaultSegmentForMemoryOperand op)
        let address := ctx.getEffectiveOffset op n + ctx.segmentBaseForAddressing segment
        (address, (cpuValidateLinearAddress ctx address segment).2)) := by
  unfold CpuContext.getEffectiveAddress
  dsimp only
  rw [if_neg hmod]

/-- A checked address that is not canonical leaves an exception, and one that is leaves the
context. -/
theorem validate_hasException (hexc : ctx.hasException = false) (address : U64)
    (segment : SegmentRegisterIndex) :
    ((cpuValidateLinearAddress ctx address segment).2.hasException =
        (ctx.is64BitCode && !cpuIsCanonicalAddress address)) ∧
      (cpuValidateLinearAddress ctx address segment).2.leaOperandSize = ctx.leaOperandSize := by
  unfold cpuValidateLinearAddress
  by_cases hbad : (ctx.is64BitCode && !cpuIsCanonicalAddress address) = true
  · rw [if_pos hbad, hbad]
    have hsize : ∀ code, (ctx.raiseException code 0).leaOperandSize = ctx.leaOperandSize := by
      intro code
      unfold CpuContext.raiseException
      rw [hexc]
      rfl
    unfold cpuRaiseNoncanonicalAddress
    split_ifs
    · exact ⟨raiseException_hasException hexc (by decide) 0, hsize _⟩
    · exact ⟨raiseException_hasException hexc (by decide) 0, hsize _⟩
  · rw [if_neg hbad, hexc]
    exact ⟨(Bool.eq_false_iff.mpr hbad).symm, rfl⟩

/-- `LEA` writes the address, unless it raises an exception. -/
theorem executeLeaOperand_destination {offset : ℕ} (hexc : ctx.hasException = false)
    (hmod : modField modrm ≠ 3) :
    leaDestination modrm (ctx.executeLeaOperand false offset (modrm :: rest)) =
      (ctx.leaAddress offset (modrm :: rest)).map (truncateTo ctx.leaOperandSize) := by
  have hmodrm := @decodeModrm_modrm modrm rest ctx.decodedAddressSize
  unfold CpuContext.executeLeaOperand CpuContext.leaAddress
  dsimp only
  rw [hmodrm, leaDestination_write]
  have hlea : ctx.decodeModrmLea false offset (modrm :: rest) =
      if !(decodeModrm ctx.decodedAddressSize (modrm :: rest)).complete then
        (0, ctx.raiseException cpuExceptionGp 0)
      else (ctx.calculateLeaAddress (decodeModrm ctx.decodedAddressSize (modrm :: rest)).operand
        (ctx.rip + BitVec.ofNat 64
          (offset + (decodeModrm ctx.decodedAddressSize (modrm :: rest)).used)), ctx) := by
    unfold CpuContext.decodeModrmLea
    simp only [hmodrm, hmod, and_false, if_false, Bool.false_eq_true]
  rw [hlea]
  have hmod' : modField (decodeModrm ctx.decodedAddressSize (modrm :: rest)).operand.modrm ≠ 3 := by
    rwa [hmodrm]
  generalize decodeModrm ctx.decodedAddressSize (modrm :: rest) = decoded at *
  cases hcomplete : decoded.complete with
  | false =>
    -- the exception stays
    have hgp := raiseException_hasException hexc (by decide : cpuExceptionGp ≠ cpuExceptionNone) 0
    simp only [Bool.not_false, if_true, Option.map_none]
    refine if_pos ?_
    split_ifs
    · rw [getEffectiveAddress_pending hgp]
      exact hgp
    · exact hgp
  | true =>
    simp only [Bool.not_true, Bool.false_eq_true, if_false]
    by_cases hfinal : decoded.operand.finalized = true
    · rw [if_pos hfinal, if_pos hfinal, getEffectiveAddress_eq hmod']
      dsimp only
      generalize ctx.effectiveSegmentOverrideOrDefault _ = segment
      obtain ⟨hvalid, hsize⟩ := validate_hasException hexc (ctx.getEffectiveOffset decoded.operand
        (offset + decoded.used) + ctx.segmentBaseForAddressing segment) segment
      refine (congrArg₂ (fun (raised : Bool) size => if raised = true then none
        else some (truncateTo size _)) hvalid hsize).trans ?_
      split_ifs <;> rfl
    · rw [if_neg hfinal, if_neg hfinal]
      have hnone : ¬ ctx.hasException = true := by simp [hexc]
      exact if_neg hnone

/-- **`LEA`.**  With the address size of the mode, `LEA` returns the offset of the
architecture, cut to its operand size, exactly for the plain encodings. -/
theorem executeLeaOperand_iff {offset : ℕ} (hactive : ctx.longModeActive = true)
    (hexc : ctx.hasException = false) (h : ctx.archOperand (modrm :: rest) = some form)
    {nextRip : U64} (hnext : nextRip =
      ctx.rip + BitVec.ofNat 64 (offset + archOperandLength ctx.archAddressSize (modrm :: rest))) :
    ctx.decodedAddressSize = ctx.archAddressSize ∧
        leaDestination modrm (ctx.executeLeaOperand false offset (modrm :: rest)) =
          some (truncateTo ctx.leaOperandSize
            (form.offset ctx.regs nextRip ctx.archAddressSize)) ↔
      ctx.decodedAddressSize = ctx.archAddressSize ∧ ctx.LeaPlain (modrm :: rest) nextRip form := by
  refine and_congr_right fun hsize => ?_
  have hcode : ctx.is64BitCode = ctx.cs.descriptor.longMode := by
    rw [CpuContext.is64BitCode, hactive, Bool.true_and]
  have hmod : modField modrm ≠ 3 := by
    intro hthree
    simp [CpuContext.archOperand, archForm, hthree] at h
  unfold CpuContext.archOperand at h
  rw [executeLeaOperand_destination hexc hmod]
  rw [← hsize] at h hnext ⊢
  rcases hsize ▸ archAddressSize_cases ctx with ⟨hword, h64⟩ | hlong
  · exact leaAddress_iff_word hword h64 h
  · exact leaAddress_iff_long hnext hlong hcode h

end Lea

/-- **The law of effective addresses.**  The decoders of operands in memory take the address
size of the mode and find the offset that an encoding names in the architecture exactly for
the plain operands, and `LEA` returns it, cut to its operand size, exactly for its own plain
encodings. -/
theorem effective_address_law (ctx : CpuContext) (hactive : ctx.longModeActive = true) :
    (∀ (decoder : OperandDecoder) (code : List U8) (instSize : ℕ) (form : AddressForm),
      ctx.archOperand code = some form →
      (decoder.addressSize ctx = ctx.archAddressSize ∧
          decoder.memoryOffset ctx code instSize = some (form.offset ctx.regs
            (ctx.rip + BitVec.ofNat 64 instSize) ctx.archAddressSize) ↔
        decoder.Plain ctx code instSize form)) ∧
    ∀ (code : List U8) (bits : PrefixBits) (rest : List U8) (form : AddressForm) (lea : CpuContext)
      (nextRip : U64),
      ctx.hasException = false → scanPrefixes .clear false code = (bits, false, 0x8D :: rest) →
      lea = { ctx with prefixBits := bits } → lea.archOperand rest = some form →
      nextRip = ctx.rip + BitVec.ofNat 64
        (code.length - rest.length + archOperandLength lea.archAddressSize rest) →
      (lea.decodedAddressSize = lea.archAddressSize ∧
          ctx.leaResult code = some (truncateTo lea.leaOperandSize
            (form.offset ctx.regs nextRip lea.archAddressSize)) ↔
        lea.decodedAddressSize = lea.archAddressSize ∧ lea.LeaPlain rest nextRip form) := by
  refine ⟨fun decoder code instSize form h => memoryOffset_iff decoder h, ?_⟩
  rintro code bits rest form lea nextRip hexc hscan hlea h hnext
  cases rest with
  | nil => cases h
  | cons modrm rest =>
    have hregs : lea.regs = ctx.regs := by rw [hlea]
    have hresult : ctx.leaResult code = leaDestination modrm
        (lea.executeLeaOperand false (code.length - (modrm :: rest).length) (modrm :: rest)) := by
      unfold CpuContext.leaResult CpuContext.executeLea
      rw [hscan, hlea]
      simp only [ne_eq, not_true_eq_false, if_false]
    rw [hresult, ← hregs]
    refine executeLeaOperand_iff ?_ ?_ h ?_
    · rw [hlea]
      exact hactive
    · rw [hlea]
      exact hexc
    · rw [hnext, hlea]

/-- The law for `[-16]` with a SIB byte in 64-bit mode, and for `LEA RAX, [-16]`. -/
theorem effective_address_law_example :
    (OperandDecoder.common.addressSize (initCpuContext false) =
          (initCpuContext false).archAddressSize ∧
        OperandDecoder.common.memoryOffset (initCpuContext false)
            [0x04, 0x25, 0xF0, 0xFF, 0xFF, 0xFF] 8 = some 0xFFFFFFFFFFFFFFF0 ↔
      OperandDecoder.common.Plain (initCpuContext false) [0x04, 0x25, 0xF0, 0xFF, 0xFF, 0xFF] 8
        ⟨none, none, false, -16⟩) ∧
    ((initCpuContext false).decodedAddressSize = (initCpuContext false).archAddressSize ∧
        (initCpuContext false).leaResult [0x8D, 0x04, 0x25, 0xF0, 0xFF, 0xFF, 0xFF] =
          some 0xFFFFFFF0 ↔
      (initCpuContext false).decodedAddressSize = (initCpuContext false).archAddressSize ∧
        (initCpuContext false).LeaPlain [0x04, 0x25, 0xF0, 0xFF, 0xFF, 0xFF] 7
          ⟨none, none, false, -16⟩) := by
  have hvalue : truncateTo (initCpuContext false).leaOperandSize
      ((⟨none, none, false, -16⟩ : AddressForm).offset (initCpuContext false).regs 7
        (initCpuContext false).archAddressSize) = 0xFFFFFFF0 := by decide
  constructor
  · exact (effective_address_law (initCpuContext false) rfl).1 .common
      [0x04, 0x25, 0xF0, 0xFF, 0xFF, 0xFF] 8 ⟨none, none, false, -16⟩ (by decide)
  · rw [← hvalue]
    exact (effective_address_law (initCpuContext false) rfl).2
      [0x8D, 0x04, 0x25, 0xF0, 0xFF, 0xFF, 0xFF] .clear [0x04, 0x25, 0xF0, 0xFF, 0xFF, 0xFF]
      ⟨none, none, false, -16⟩ (initCpuContext false) 7 rfl (by decide) rfl (by decide) (by decide)

/-- In 64-bit mode an operand at `[-16]` is read at `0xFFFFFFF0`. -/
theorem no_base_displacement_unsigned :
    (initCpuContext false).archOperand [0x04, 0x25, 0xF0, 0xFF, 0xFF, 0xFF] =
        some ⟨none, none, false, -16⟩ ∧
      (⟨none, none, false, -16⟩ : AddressForm).offset (initCpuContext false).regs 8
          (initCpuContext false).archAddressSize = 0xFFFFFFFFFFFFFFF0 ∧
      OperandDecoder.common.memoryOffset (initCpuContext false)
        [0x04, 0x25, 0xF0, 0xFF, 0xFF, 0xFF] 8 = some 0xFFFFFFF0 := by
  decide

end Cpueaxh
