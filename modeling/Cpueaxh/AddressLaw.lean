/-
# Effective addresses against the architecture

The offsets that the two computations find, compared with the sum that an encoding names in
the architecture.  The sums agree as numbers of 64 bits, or at least in the bits that the
address size keeps, but for four encodings: a SIB byte without a base takes its
displacement for unsigned, an operand relative to a 32-bit instruction pointer is taken for
an absolute one, and with 16-bit addresses the displacement is looked for behind the wrong
value of `rm`.  `LEA` of an operand relative to the instruction pointer gets the base of the
segment too.
-/
import Cpueaxh.EffectiveAddress
import Cpueaxh.RepTurns

namespace Cpueaxh

open ByteOrder

/-! ## Displacements -/

theorem setWidth_signExtend {v u : ℕ} (x : BitVec v) (hvu : v ≤ u) :
    (x.signExtend u).setWidth v = x := by
  ext i hi
  rw [BitVec.getElem_setWidth, BitVec.getLsbD_signExtend]
  simp [hi, show i < u by omega]

theorem signExtend_signExtend {v w u : ℕ} (x : BitVec v) (hvu : v ≤ u) :
    (x.signExtend u).signExtend w = x.signExtend w := by
  show BitVec.ofInt w (x.signExtend u).toInt = BitVec.ofInt w x.toInt
  rw [BitVec.toInt_signExtend_of_le hvu]

theorem low_word (d : U32) :
    ((d &&& 0xFFFF).setWidth 64 : U64).setWidth 16 = (d.signExtend 64).setWidth 16 := by
  rw [BitVec.setWidth_setWidth_of_le _ (by decide), BitVec.setWidth_and]
  show d.setWidth 16 &&& BitVec.allOnes 16 = _
  rw [BitVec.and_allOnes]
  ext i hi
  rw [BitVec.getElem_setWidth, BitVec.getElem_setWidth, BitVec.getLsbD_signExtend]
  simp [show i < 32 by omega, show i < 64 by omega]

/-- A displacement of one, two or four bytes is the signed number that they are. -/
theorem displacementValue_spec {n : ℕ} (hn : n = 1 ∨ n = 2 ∨ n = 4) {bytes : List U8}
    (hlen : bytes.length = n) :
    (displacementValue bytes).signExtend 64 =
        BitVec.ofInt 64 (littleEndian (8 * n) bytes).toInt ∧
      (n = 1 → ((displacementValue bytes).setWidth 8).signExtend 64 =
        (displacementValue bytes).signExtend 64) := by
  unfold displacementValue
  rcases hn with rfl | rfl | rfl
  · rw [if_pos hlen, littleEndian_setWidth (by decide)]
    refine ⟨signExtend_signExtend _ (by decide), fun _ => ?_⟩
    rw [setWidth_signExtend _ (by decide), signExtend_signExtend _ (by decide)]
  · rw [if_neg (by omega), if_pos hlen, littleEndian_setWidth (by decide)]
    exact ⟨signExtend_signExtend _ (by decide), fun h => absurd h (by decide)⟩
  · rw [if_neg (by omega), if_neg (by omega)]
    exact ⟨rfl, fun h => absurd h (by decide)⟩

/-- The decoder finds the displacement where the encoding has one of the same size. -/
theorem decodeDisplacement_spec {op : MemOperand} {n used : ℕ} {rest : List U8} {δ : ℤ}
    (hsize : op.dispSize = n) (hn : n = 0 ∨ n = 1 ∨ n = 2 ∨ n = 4)
    (h : signedDisplacement n rest = some δ) :
    ∃ d : U32, decodeDisplacement op used rest =
        { operand := { op with displacement := d }, used := used + n, complete := true } ∧
      d.signExtend 64 = BitVec.ofInt 64 δ ∧
      (n = 1 → (d.setWidth 8).signExtend 64 = d.signExtend 64) ∧ (n = 0 → d = 0 ∧ δ = 0) ∧
      (n = 4 → δ = d.toInt) := by
  unfold signedDisplacement at h
  split_ifs at h with hshort
  obtain rfl := Option.some.inj h
  unfold decodeDisplacement
  rw [hsize, if_neg hshort]
  by_cases hzero : n = 0
  · subst hzero
    refine ⟨0, rfl, by simp [littleEndian], fun h => absurd h (by decide), fun _ => ⟨rfl, ?_⟩,
      fun h => absurd h (by decide)⟩
    simp [littleEndian]
  · have hlen : (rest.take n).length = n := by
      rw [List.length_take]
      omega
    obtain ⟨hvalue, hbyte⟩ := displacementValue_spec (by omega) hlen
    refine ⟨displacementValue (rest.take n), ?_, hvalue, hbyte, fun h => absurd h hzero, ?_⟩
    · rw [if_neg hzero]
    · rintro rfl
      unfold displacementValue
      rw [if_neg (by omega), if_neg (by omega)]

/-- The decoder runs out of bytes. -/
theorem decodeDisplacement_short {op : MemOperand} {used : ℕ} {rest : List U8}
    (h : rest.length < op.dispSize) : (decodeDisplacement op used rest).complete = false := by
  unfold decodeDisplacement
  rw [if_pos h]

/-! ## Registers -/

theorem regField_lt (b : U8) : regField b < 8 := by
  unfold regField
  rw [BitVec.toNat_and]
  exact lt_of_le_of_lt Nat.and_le_right (by decide)

theorem rmField_lt (b : U8) : rmField b < 8 := by
  unfold rmField
  rw [BitVec.toNat_and]
  exact lt_of_le_of_lt Nat.and_le_right (by decide)

namespace CpuContext

/-- A register number with its REX bit is the one of the architecture. -/
theorem reg_extended (bit longMode : Bool) {n : ℕ} (hn : n < 8) :
    reg (extended bit longMode n) = archRegister (longMode && bit) n := by
  unfold reg extended archRegister
  rw [Bool.and_comm]
  cases longMode && bit
  · rfl
  · revert n
    decide

theorem extended_mod (bit longMode : Bool) {n : ℕ} (hn : n < 8) :
    extended bit longMode n % 8 = n := by
  unfold extended
  split_ifs
  · revert n
    decide
  · exact Nat.mod_eq_of_lt hn

/-- The index 4 without its REX bit is none. -/
theorem hasIndex_iff (bit longMode : Bool) {n : ℕ} (hn : n < 8) :
    (!(n == 4 && !(longMode && bit))) = true ↔ archRegister (longMode && bit) n ≠ regRsp := by
  unfold archRegister
  cases longMode && bit <;> (revert n; decide)

end CpuContext

/-! ## Operands in memory -/

/-- The inversion of `archForm`, for an address of 16 bits. -/
theorem archForm_cases16 {mode64 rexX rexB : Bool} {code : List U8} {form : AddressForm}
    (h : archForm mode64 16 rexX rexB code = some form) :
    ∃ modrm rest δ, code = modrm :: rest ∧ modField modrm ≠ 3 ∧
      ((modField modrm = 0 ∧ rmField modrm = 6 ∧ signedDisplacement 2 rest = some δ ∧
          form = ⟨none, none, false, δ⟩) ∨
        (¬ (modField modrm = 0 ∧ rmField modrm = 6) ∧
          signedDisplacement (archDisplacementSize (modField modrm) 2) rest = some δ ∧
          form = ⟨some (archRegisters16 (rmField modrm)).1, (archRegisters16 (rmField modrm)).2,
            false, δ⟩)) := by
  unfold archForm at h
  split at h
  · cases h
  · rename_i modrm rest
    dsimp only at h
    by_cases hmod : modField modrm = 3
    · simp [hmod] at h
    rw [if_neg hmod, if_pos rfl] at h
    split_ifs at h with habsolute
    · obtain ⟨δ, hδ, rfl⟩ := Option.map_eq_some_iff.mp h
      exact ⟨modrm, rest, δ, rfl, hmod, .inl ⟨habsolute.1, habsolute.2, hδ, rfl⟩⟩
    · obtain ⟨δ, hδ, rfl⟩ := Option.map_eq_some_iff.mp h
      exact ⟨modrm, rest, δ, rfl, hmod, .inr ⟨habsolute, hδ, rfl⟩⟩

/-- The inversion of `archForm`, for an address of 32 or 64 bits. -/
theorem archForm_cases {mode64 rexX rexB : Bool} {size : ℕ} (hsize : size ≠ 16)
    {code : List U8} {form : AddressForm} (h : archForm mode64 size rexX rexB code = some form) :
    ∃ modrm rest, code = modrm :: rest ∧ modField modrm ≠ 3 ∧
      ((∃ sib rest', rest = sib :: rest' ∧ rmField modrm = 4 ∧
          archSibForm (modField modrm) rexX rexB sib rest' = some form) ∨
        (∃ δ, modField modrm = 0 ∧ rmField modrm = 5 ∧ signedDisplacement 4 rest = some δ ∧
          form = ⟨none, none, mode64, δ⟩) ∨
        (∃ δ, rmField modrm ≠ 4 ∧ ¬ (modField modrm = 0 ∧ rmField modrm = 5) ∧
          signedDisplacement (archDisplacementSize (modField modrm) 4) rest = some δ ∧
          form = ⟨some (archRegister rexB (rmField modrm)), none, false, δ⟩)) := by
  unfold archForm at h
  split at h
  · cases h
  · rename_i modrm rest
    dsimp only at h
    split_ifs at h with hmod hsib hdirect
    · split at h
      · cases h
      · rename_i sib rest'
        exact ⟨modrm, _, rfl, hmod, .inl ⟨sib, rest', rfl, hsib, h⟩⟩
    · obtain ⟨δ, hδ, rfl⟩ := Option.map_eq_some_iff.mp h
      exact ⟨modrm, rest, rfl, hmod, .inr (.inl ⟨δ, hdirect.1, hdirect.2, hδ, rfl⟩)⟩
    · obtain ⟨δ, hδ, rfl⟩ := Option.map_eq_some_iff.mp h
      exact ⟨modrm, rest, rfl, hmod, .inr (.inr ⟨δ, hsib, hdirect, hδ, rfl⟩)⟩

/-- What the displacement adds is the displacement of the encoding. -/
theorem displacementTerm_eq {mod wide : ℕ} {d : U32} {δ : ℤ}
    (hvalue : d.signExtend 64 = BitVec.ofInt 64 δ)
    (hbyte : archDisplacementSize mod wide = 1 → (d.setWidth 8).signExtend 64 = d.signExtend 64)
    (hnone : archDisplacementSize mod wide = 0 → d = 0 ∧ δ = 0) :
    CpuContext.displacementTerm mod d = BitVec.ofInt 64 δ := by
  unfold CpuContext.displacementTerm
  unfold archDisplacementSize at hbyte hnone
  by_cases hone : mod = 1
  · rw [if_pos hone] at hbyte ⊢
    rw [hbyte rfl, hvalue]
  · rw [if_neg hone] at hbyte hnone ⊢
    by_cases htwo : mod = 2
    · rw [if_pos htwo, hvalue]
    · rw [if_neg htwo] at hnone ⊢
      rw [(hnone rfl).2]
      rfl

theorem cut_eq {size : ℕ} (hsize : size = 32 ∨ size = 64) (x : U64) :
    (if size = 32 then x &&& 0xFFFFFFFF else x) = truncateTo size x := by
  rcases hsize with rfl | rfl <;> rfl

section Memory

variable {ctx : CpuContext} {modrm : U8} {rest : List U8} {δ : ℤ} {size instSize : ℕ}

/-- The decoder behind a ModRM byte without a SIB byte. -/
theorem decodeModrm_plain {size : ℕ} (hsib : ¬ (modField modrm ≠ 3 ∧ rmField modrm = 4 ∧ size ≠ 16)) :
    decodeModrm size (modrm :: rest) = decodeDisplacement ⟨size, true, modrm, false, 0, 0⟩ 1 rest := by
  unfold decodeModrm
  dsimp only
  rw [if_neg hsib]

/-- The decoder behind a SIB byte. -/
theorem decodeModrm_sib {size : ℕ} {sib : U8}
    (hsib : modField modrm ≠ 3 ∧ rmField modrm = 4 ∧ size ≠ 16) :
    decodeModrm size (modrm :: sib :: rest) =
      decodeDisplacement ⟨size, true, modrm, true, sib, 0⟩ 2 rest := by
  unfold decodeModrm
  dsimp only
  rw [if_pos hsib]

/-- The displacement has its size where the architecture has one of the same size. -/
theorem dispSize_plain {size wide : ℕ} (hwide : wide = if size = 16 then 2 else 4)
    (hdirect : ¬ (modField modrm = 0 ∧ rmField modrm = 5)) :
    (⟨size, true, modrm, false, 0, 0⟩ : MemOperand).dispSize =
      archDisplacementSize (modField modrm) wide := by
  unfold MemOperand.dispSize archDisplacementSize
  rw [if_neg hdirect, if_neg (by simp), hwide]

theorem archDisplacementSize_cases (mod : ℕ) {wide : ℕ} (hwide : wide = 2 ∨ wide = 4) :
    archDisplacementSize mod wide = 0 ∨ archDisplacementSize mod wide = 1 ∨
      archDisplacementSize mod wide = 2 ∨ archDisplacementSize mod wide = 4 := by
  unfold archDisplacementSize
  rcases hwide with rfl | rfl <;> split_ifs <;> simp

/-- The address of the operand is not given anew. -/
theorem not_finalized {op : MemOperand}
    (h : op.addressSize ≠ 64 ∨ ¬ (modField op.modrm = 0 ∧ rmField op.modrm = 5)) :
    op.finalized = false := by
  unfold MemOperand.finalized
  rcases h with h | h
  · simp [h]
  · rw [not_and'] at h
    by_cases hrm : rmField op.modrm = 5
    · simp [h hrm]
    · simp [hrm]

/-- The operand that the decoder leaves when there are enough bytes. -/
theorem memoryOffset_eq {op : MemOperand} {used : ℕ}
    (h : decodeModrm size (modrm :: rest) =
      { operand := op, used := used, complete := true }) :
    ctx.memoryOffset size (modrm :: rest) instSize = some (ctx.operandOffset op instSize) := by
  unfold CpuContext.memoryOffset
  rw [h]
  rfl

/-- `get_effective_offset` for an address of 32 or 64 bits. -/
theorem getEffectiveOffset_eq {op : MemOperand} (hsize : op.addressSize = 32 ∨ op.addressSize = 64)
    (hmod : modField op.modrm ≠ 3) :
    ctx.getEffectiveOffset op instSize = truncateTo op.addressSize
      ((if rmField op.modrm = 4 then ctx.sibOffset (modField op.modrm) op.sib op.displacement
        else if rmField op.modrm = 5 ∧ modField op.modrm = 0 then
          if op.addressSize = 64 then
            ctx.rip + BitVec.ofNat 64 instSize + op.displacement.signExtend 64
          else op.displacement.setWidth 64
        else ctx.regs (archRegister (ctx.is64BitCode && ctx.prefixBits.rexB) (rmField op.modrm))) +
        CpuContext.displacementTerm (modField op.modrm) op.displacement) := by
  rw [CpuContext.getEffectiveOffset]
  simp only [if_neg hmod, if_pos hsize, CpuContext.extended_mod _ _ (rmField_lt op.modrm),
    CpuContext.reg_extended _ _ (rmField_lt op.modrm)]
  exact cut_eq hsize _

/-- A base register. -/
theorem memoryOffset_base (hsize : size = 32 ∨ size = 64)
    (hmod : modField modrm ≠ 3) (hsib : rmField modrm ≠ 4)
    (hdirect : ¬ (modField modrm = 0 ∧ rmField modrm = 5))
    (hδ : signedDisplacement (archDisplacementSize (modField modrm) 4) rest = some δ)
    (nextRip : U64) :
    ctx.memoryOffset size (modrm :: rest) instSize = some ((⟨some (archRegister
      (ctx.is64BitCode && ctx.prefixBits.rexB) (rmField modrm)), none, false, δ⟩ :
        AddressForm).offset ctx.regs nextRip size) := by
  have hwide : 4 = if size = 16 then 2 else 4 := by
    rcases hsize with h | h <;> simp [h]
  obtain ⟨d, hdecode, hvalue, hbyte, hnone, -⟩ := @decodeDisplacement_spec _ _ 1 _ _
    (dispSize_plain hwide hdirect) (archDisplacementSize_cases _ (.inr rfl)) hδ
  have hoffset := @getEffectiveOffset_eq ctx 0
    ⟨size, true, modrm, false, 0, d⟩ hsize hmod
  have hfinal : (⟨size, true, modrm, false, 0, d⟩ : MemOperand).finalized =
      false := not_finalized (.inr hdirect)
  rw [memoryOffset_eq ((decodeModrm_plain (fun h => hsib h.2.1)).trans hdecode),
    CpuContext.operandOffset, hfinal]
  refine congrArg some (hoffset.trans ?_)
  rw [if_neg hsib, if_neg (fun h => hdirect ⟨h.2, h.1⟩), displacementTerm_eq hvalue hbyte hnone]
  simp [AddressForm.offset]

/-- An operand without registers.  It is relative to the next instruction if the address
size is 64, and absolute otherwise. -/
theorem memoryOffset_direct (hsize : size = 32 ∨ size = 64)
    (hdirect : modField modrm = 0 ∧ rmField modrm = 5)
    (hδ : signedDisplacement 4 rest = some δ) :
    ctx.memoryOffset size (modrm :: rest) instSize =
      some ((⟨none, none, size == 64, δ⟩ : AddressForm).offset ctx.regs
        (ctx.rip + BitVec.ofNat 64 instSize) size) := by
  have hdisp : (⟨size, true, modrm, false, 0, 0⟩ : MemOperand).dispSize = 4 := by
    unfold MemOperand.dispSize
    rw [if_pos hdirect]
    rcases hsize with h | h <;> simp [h]
  have hmod : modField modrm ≠ 3 := by omega
  obtain ⟨d, hdecode, hvalue, -, -, -⟩ := @decodeDisplacement_spec _ _ 1 _ _ hdisp (by simp) hδ
  rw [memoryOffset_eq ((decodeModrm_plain (fun h => by omega)).trans hdecode),
    CpuContext.operandOffset]
  have hoffset := fun instSize => @getEffectiveOffset_eq ctx instSize
    ⟨size, true, modrm, false, 0, d⟩ hsize hmod
  refine congrArg some ((hoffset _).trans ?_)
  simp only [hdirect.1, hdirect.2]
  rcases hsize with hsize | hsize
  · -- the displacement is an address of 32 bits
    have hcut : truncateTo 32 (d.setWidth 64) = truncateTo 32 (BitVec.ofInt 64 δ) := by
      rw [truncateTo_eq_iff (by simp), ← hvalue, BitVec.setWidth_setWidth_of_le _ (by decide),
        setWidth_signExtend _ (by decide), BitVec.setWidth_eq]
    rw [hsize]
    simpa [CpuContext.displacementTerm, AddressForm.offset] using hcut
  · have hfinal : (⟨size, true, modrm, false, 0, d⟩ : MemOperand).finalized =
        true := by
      simp [MemOperand.finalized, hsize, hdirect.1, hdirect.2]
    rw [if_pos hfinal, hsize]
    simp [CpuContext.displacementTerm, AddressForm.offset, hvalue]

/-- The index of a SIB byte in the architecture. -/
def archIndex (rexX : Bool) (sib : U8) : Option (Fin 16 × ℕ) :=
  if archRegister rexX (regField sib) = regRsp then none
  else some (archRegister rexX (regField sib), modField sib)

/-- The SIB case of `get_effective_offset`. -/
theorem sibOffset_eq (mod : ℕ) (sib : U8) (d : U32) :
    ctx.sibOffset mod sib d =
      (if mod = 0 ∧ rmField sib = 5 then d.setWidth 64
        else ctx.regs (archRegister (ctx.is64BitCode && ctx.prefixBits.rexB) (rmField sib))) +
      (archIndex (ctx.is64BitCode && ctx.prefixBits.rexX) sib).elim 0
        fun index => ctx.regs index.1 <<< index.2 := by
  rw [CpuContext.sibOffset]
  simp only [CpuContext.reg_extended _ _ (rmField_lt sib), CpuContext.reg_extended _ _ (regField_lt sib)]
  unfold archIndex
  have hindex := CpuContext.hasIndex_iff ctx.prefixBits.rexX ctx.is64BitCode (regField_lt sib)
  by_cases hnone : archRegister (ctx.is64BitCode && ctx.prefixBits.rexX) (regField sib) = regRsp
  · rw [if_neg (mt hindex.mp (not_not_intro hnone)), if_pos hnone]
    exact (BitVec.add_zero _).symm
  · rw [if_pos (hindex.mpr hnone), if_neg hnone]
    rfl

/-- The decoder behind the SIB byte of an operand. -/
theorem dispSize_sib {size : ℕ} (hsize : size ≠ 16) {sib : U8} (hsib : rmField modrm = 4) :
    (⟨size, true, modrm, true, sib, 0⟩ : MemOperand).dispSize =
      if modField modrm = 0 ∧ rmField sib = 5 then 4 else archDisplacementSize (modField modrm) 4 := by
  unfold MemOperand.dispSize archDisplacementSize
  rw [if_neg (by simp [hsib]), if_neg hsize]
  by_cases hbase : modField modrm = 0 ∧ rmField sib = 5
  · simp [hbase.1, hbase.2]
  · rw [if_neg (fun h => hbase ⟨h.1, h.2.2⟩), if_neg hbase]

/-- The offset of an operand with a SIB byte: a displacement without a base is extended
with zeros. -/
theorem memoryOffset_sib (hsize : size = 32 ∨ size = 64)
    (hmod : modField modrm ≠ 3) (hsib : rmField modrm = 4) {sib : U8} {form : AddressForm}
    (h : archSibForm (modField modrm) (ctx.is64BitCode && ctx.prefixBits.rexX)
      (ctx.is64BitCode && ctx.prefixBits.rexB) sib rest = some form) (nextRip : U64) :
    (form.base ≠ none ∧ form.ripRelative = false ∧
        ctx.memoryOffset size (modrm :: sib :: rest) instSize =
        some (form.offset ctx.regs nextRip size)) ∨
      ∃ d : U32, form.base = none ∧ form.ripRelative = false ∧ form.displacement = d.toInt ∧
        ctx.memoryOffset size (modrm :: sib :: rest) instSize =
          some (truncateTo size (d.setWidth 64 +
            form.index.elim 0 fun index => ctx.regs index.1 <<< index.2)) := by
  have hne : size ≠ 16 := by omega
  have hfinal : ∀ d : U32,
      (⟨size, true, modrm, true, sib, d⟩ : MemOperand).finalized = false :=
    fun d => not_finalized (.inr (by rw [hsib]; omega))
  have hoffset := fun d : U32 => @getEffectiveOffset_eq ctx 0
    ⟨size, true, modrm, true, sib, d⟩ hsize hmod
  unfold archSibForm at h
  by_cases hbase : modField modrm = 0 ∧ rmField sib = 5
  · simp only [hbase, and_self, decide_true, if_true] at h
    obtain ⟨δ, hδ, rfl⟩ := Option.map_eq_some_iff.mp h
    obtain ⟨d, hdecode, -, -, -, hvalue⟩ := @decodeDisplacement_spec
      ⟨size, true, modrm, true, sib, 0⟩ 4 2 rest δ
      (by rw [dispSize_sib hne hsib, if_pos hbase]) (by simp) hδ
    refine .inr ⟨d, rfl, rfl, hvalue rfl, ?_⟩
    rw [memoryOffset_eq ((decodeModrm_sib ⟨hmod, hsib, hne⟩).trans hdecode),
      CpuContext.operandOffset, hfinal]
    refine congrArg some ((hoffset d).trans ?_)
    simp only [hsib, sibOffset_eq, hbase, and_self, if_true]
    rw [CpuContext.displacementTerm, if_neg (by decide), if_neg (by decide)]
    exact congrArg (truncateTo _) (BitVec.add_zero _)
  · simp only [hbase, decide_false, Bool.false_eq_true, if_false] at h
    obtain ⟨δ, hδ, rfl⟩ := Option.map_eq_some_iff.mp h
    obtain ⟨d, hdecode, hvalue, hbyte, hnone, -⟩ := @decodeDisplacement_spec
      ⟨size, true, modrm, true, sib, 0⟩ _ 2 rest δ
      (by rw [dispSize_sib hne hsib, if_neg hbase]) (archDisplacementSize_cases _ (.inr rfl)) hδ
    refine .inl ⟨by simp, rfl, ?_⟩
    rw [memoryOffset_eq ((decodeModrm_sib ⟨hmod, hsib, hne⟩).trans hdecode),
      CpuContext.operandOffset, hfinal]
    refine congrArg some ((hoffset d).trans ?_)
    simp only [hsib, sibOffset_eq, hbase, if_true, if_false,
      displacementTerm_eq hvalue hbyte hnone]
    simp [AddressForm.offset, archIndex]

/-- The registers of a 16-bit address. -/
theorem registers16_eq {mod rm : ℕ} (hrm : rm < 8) (habsolute : ¬ (mod = 0 ∧ rm = 6)) (d : U32) :
    ctx.registers16 mod rm d = truncateTo 16 (ctx.regs (archRegisters16 rm).1 +
      (archRegisters16 rm).2.elim 0 fun index => ctx.regs index.1 <<< index.2) := by
  unfold CpuContext.registers16
  rcases rm with _ | _ | _ | _ | _ | _ | _ | _ | rm
  · simp [archRegisters16, truncateTo]
  · simp [archRegisters16, truncateTo]
  · simp [archRegisters16, truncateTo]
  · simp [archRegisters16, truncateTo]
  · simp [archRegisters16, truncateTo]
  · simp [archRegisters16, truncateTo]
  · have hmod : mod ≠ 0 := fun h => habsolute ⟨h, rfl⟩
    simp [archRegisters16, truncateTo, hmod]
  · simp [archRegisters16, truncateTo]
  · omega

/-- The 16-bit case of `get_effective_offset`, where it has registers. -/
theorem effectiveOffset16_eq {mod rm : ℕ} (hrm : rm < 8) (habsolute : ¬ (mod = 0 ∧ rm = 6))
    (d : U32) :
    ctx.effectiveOffset16 mod rm d = truncateTo 16 (ctx.regs (archRegisters16 rm).1 +
      ((archRegisters16 rm).2.elim 0 fun index => ctx.regs index.1 <<< index.2) +
      CpuContext.displacementTerm mod d) := by
  have haddr : ∀ sum : U64, (sum &&& 0xFFFF) = truncateTo 16 sum := fun _ => rfl
  have hcut := @truncateTo_truncateTo_add 16 (.inl rfl)
  unfold CpuContext.effectiveOffset16 CpuContext.displacementTerm
  dsimp only
  rw [registers16_eq hrm habsolute]
  by_cases hone : mod = 1
  · rw [if_pos hone, if_pos hone, haddr, hcut]
  · rw [if_neg hone, if_neg hone]
    by_cases htwo : mod = 2
    · -- 16 bits of the displacement are enough
      rw [if_pos htwo, if_pos htwo, haddr, hcut, truncateTo_eq_iff (.inl rfl)]
      simp only [BitVec.setWidth_add _ _ (show 16 ≤ 64 by decide), low_word]
    · rw [if_neg htwo, if_neg htwo]
      exact (congrArg (truncateTo 16) (BitVec.add_zero _)).symm

/-- `get_effective_offset` for an address of 16 bits. -/
theorem getEffectiveOffset_word {op : MemOperand} (hsize : op.addressSize = 16)
    (hcode : ctx.is64BitCode = false) (hmod : modField op.modrm ≠ 3) :
    ctx.getEffectiveOffset op instSize =
      ctx.effectiveOffset16 (modField op.modrm) (rmField op.modrm) op.displacement := by
  rw [CpuContext.getEffectiveOffset]
  simp only [if_neg hmod, CpuContext.extended, hcode, Bool.and_false, Bool.false_eq_true, if_false]
  rw [if_neg (by omega)]

/-- A 16-bit address with registers, but for the one that has a displacement for the decoder
only. -/
theorem memoryOffset_word (hsize : size = 16) (hcode : ctx.is64BitCode = false)
    (hmod : modField modrm ≠ 3) (habsolute : ¬ (modField modrm = 0 ∧ rmField modrm = 6))
    (hdirect : ¬ (modField modrm = 0 ∧ rmField modrm = 5))
    (hδ : signedDisplacement (archDisplacementSize (modField modrm) 2) rest = some δ)
    (nextRip : U64) :
    ctx.memoryOffset size (modrm :: rest) instSize =
      some ((⟨some (archRegisters16 (rmField modrm)).1, (archRegisters16 (rmField modrm)).2, false,
        δ⟩ : AddressForm).offset ctx.regs nextRip
          size) := by
  have hwide : 2 = if size = 16 then 2 else 4 := by rw [if_pos hsize]
  obtain ⟨d, hdecode, hvalue, hbyte, hnone, -⟩ := @decodeDisplacement_spec _ _ 1 _ _
    (dispSize_plain hwide hdirect) (archDisplacementSize_cases _ (.inl rfl)) hδ
  have hfinal : (⟨size, true, modrm, false, 0, d⟩ : MemOperand).finalized =
      false := not_finalized (.inr hdirect)
  have hoffset := @getEffectiveOffset_word ctx 0
    ⟨size, true, modrm, false, 0, d⟩ hsize hcode hmod
  rw [memoryOffset_eq ((decodeModrm_plain (fun h => h.2.2 hsize)).trans hdecode),
    CpuContext.operandOffset, hfinal]
  refine congrArg some (hoffset.trans ?_)
  rw [effectiveOffset16_eq (rmField_lt modrm) habsolute, displacementTerm_eq hvalue hbyte hnone, hsize]
  simp [AddressForm.offset]

/-- The absolute 16-bit address: the decoder takes no displacement. -/
theorem memoryOffset_absolute (hsize : size = 16)
    (hcode : ctx.is64BitCode = false) (habsolute : modField modrm = 0 ∧ rmField modrm = 6) :
    ctx.memoryOffset size (modrm :: rest) instSize = some 0 := by
  have hdisp : (⟨size, true, modrm, false, 0, 0⟩ : MemOperand).dispSize = 0 := by
    unfold MemOperand.dispSize
    simp [habsolute.1, habsolute.2]
  have hdecode : decodeDisplacement ⟨size, true, modrm, false, 0, 0⟩ 1 rest =
      ⟨⟨size, true, modrm, false, 0, 0⟩, 1, true⟩ := by
    unfold decodeDisplacement
    rw [hdisp, if_neg (Nat.not_lt_zero _)]
    rfl
  have hfinal : (⟨size, true, modrm, false, 0, 0⟩ : MemOperand).finalized =
      false := not_finalized (.inl (by simp [hsize]))
  have hoffset := @getEffectiveOffset_word ctx 0
    ⟨size, true, modrm, false, 0, 0⟩ hsize hcode (by rw [habsolute.1]; decide)
  rw [memoryOffset_eq ((decodeModrm_plain (fun h => h.2.2 hsize)).trans hdecode),
    CpuContext.operandOffset, hfinal]
  refine congrArg some (hoffset.trans ?_)
  simp only [habsolute.1, habsolute.2]
  rfl

/-- The 16-bit address in `DI`: the decoder takes two bytes of displacement, and does not
add them. -/
theorem memoryOffset_indirect (hsize : size = 16)
    (hcode : ctx.is64BitCode = false) (hdirect : modField modrm = 0 ∧ rmField modrm = 5)
    (nextRip : U64) :
    ctx.memoryOffset size (modrm :: rest) instSize =
      if rest.length < 2 then none
      else some ((⟨some regRdi, none, false, 0⟩ : AddressForm).offset ctx.regs
        nextRip size) := by
  have hdisp : (⟨size, true, modrm, false, 0, 0⟩ : MemOperand).dispSize = 2 := by
    unfold MemOperand.dispSize
    rw [if_pos hdirect, if_pos hsize]
  by_cases hshort : rest.length < 2
  · unfold CpuContext.memoryOffset
    have hincomplete : (decodeDisplacement ⟨size, true, modrm, false, 0, 0⟩ 1
        rest).complete = false := decodeDisplacement_short (by rwa [hdisp])
    rw [decodeModrm_plain (fun h => h.2.2 hsize), if_pos hshort]
    simp only [hincomplete, Bool.false_eq_true, if_false]
  · rw [if_neg hshort]
    obtain ⟨d, hdecode, -⟩ := @decodeDisplacement_spec _ _ 1 _ _ hdisp (by simp)
      (show signedDisplacement 2 rest = some _ by rw [signedDisplacement, if_neg hshort])
    have hfinal : (⟨size, true, modrm, false, 0, d⟩ : MemOperand).finalized =
        false := not_finalized (.inl (by simp [hsize]))
    have hoffset := @getEffectiveOffset_word ctx 0
      ⟨size, true, modrm, false, 0, d⟩ hsize hcode (by rw [hdirect.1]; decide)
    rw [memoryOffset_eq ((decodeModrm_plain (fun h => h.2.2 hsize)).trans hdecode),
      CpuContext.operandOffset, hfinal]
    refine congrArg some (hoffset.trans ?_)
    rw [effectiveOffset16_eq (rmField_lt modrm) (by omega), hsize, hdirect.1, hdirect.2]
    simp [CpuContext.displacementTerm, AddressForm.offset, archRegisters16]

/-- The encodings whose offset is the one of the architecture: no displacement below zero
stands for a base, no operand is relative to a 32-bit instruction pointer, unless the next
instruction is at a multiple of `2^32`, a 16-bit displacement of its own is zero, and the
length for the last computation leads to the next instruction. -/
structure CpuContext.OffsetPlain (ctx : CpuContext) (size : ℕ) (code : List U8) (instSize : ℕ)
    (nextRip : U64) (form : AddressForm) : Prop where
  base : size = 64 → form.base = none → form.ripRelative = false → 0 ≤ form.displacement
  relative : size = 32 → form.ripRelative = true → nextRip.setWidth 32 = 0
  absolute : size = 16 → form.base = none → form.displacement = 0
  indirect : size = 16 → ∀ modrm rest, code = modrm :: rest → modField modrm = 0 →
    rmField modrm = 5 → 2 ≤ rest.length
  length : size = 64 → form.ripRelative = true → ctx.rip + BitVec.ofNat 64 instSize = nextRip

theorem signedDisplacement_zero (bytes : List U8) : signedDisplacement 0 bytes = some 0 := rfl

/-- A displacement of two bytes is zero exactly if its 16 bits are. -/
theorem truncateTo_displacement_word (h : signedDisplacement 2 rest = some δ) :
    truncateTo 16 (BitVec.ofInt 64 δ) = 0 ↔ δ = 0 := by
  unfold signedDisplacement at h
  split_ifs at h
  obtain rfl := Option.some.inj h
  generalize (littleEndian (8 * 2) (rest.take 2) : BitVec (8 * 2)) = value
  have hzero : (0 : U64) = truncateTo 16 0 := rfl
  rw [hzero, truncateTo_eq_iff (.inl rfl)]
  show (value.signExtend 64).setWidth 16 = _ ↔ _
  rw [setWidth_signExtend _ (by decide)]
  constructor
  · rintro rfl
    rfl
  · intro hint
    exact BitVec.eq_of_toInt_eq hint

/-- A displacement is the same with zeros and with its sign exactly if it is not below
zero. -/
theorem setWidth_eq_signExtend_iff (d : U32) :
    d.setWidth 64 = BitVec.ofInt 64 d.toInt ↔ 0 ≤ d.toInt := by
  show d.setWidth 64 = d.signExtend 64 ↔ _
  cases hsign : d.msb with
  | false =>
    exact iff_of_true (BitVec.signExtend_eq_setWidth_of_msb_false hsign).symm
      (BitVec.toInt_nonneg_of_msb_false hsign)
  | true =>
    refine iff_of_false (fun heq => ?_) (not_le.mpr (BitVec.toInt_neg_of_msb_true hsign))
    -- the two differ in the highest bit
    have hbit := congrArg BitVec.msb heq
    rw [BitVec.msb_signExtend, BitVec.msb_setWidth] at hbit
    simp [hsign] at hbit

/-- An absolute address of 32 bits and one relative to the next instruction are the same
only when the next instruction is at a multiple of `2^32`. -/
theorem direct_eq_relative_iff {regs : Fin 16 → U64} {rip nextRip : U64} {relative : Bool} :
    (⟨none, none, 32 == 64, δ⟩ : AddressForm).offset regs rip 32 =
        (⟨none, none, relative, δ⟩ : AddressForm).offset regs nextRip 32 ↔
      (relative = true → nextRip.setWidth 32 = 0) := by
  have hdirect : (⟨none, none, 32 == 64, δ⟩ : AddressForm).offset regs rip 32 =
      truncateTo 32 (BitVec.ofInt 64 δ) := by
    simp [AddressForm.offset]
  rw [hdirect]
  cases relative with
  | false => simp [AddressForm.offset]
  | true =>
    have hrelative : (⟨none, none, true, δ⟩ : AddressForm).offset regs nextRip 32 =
        truncateTo 32 (nextRip + BitVec.ofInt 64 δ) := by
      simp [AddressForm.offset]
    rw [hrelative, truncateTo_eq_iff (by simp), BitVec.setWidth_add _ _ (by decide)]
    simp [eq_comm]

section Iff

variable {code : List U8} {form : AddressForm} {mode64 rexX rexB : Bool} {nextRip : U64}

/-- The law of the offsets for an address of 16 bits. -/
theorem memoryOffset_iff_word (hsize : size = 16) (hcode : ctx.is64BitCode = false)
    (h : archForm mode64 size rexX rexB code = some form) :
    ctx.memoryOffset size code instSize = some (form.offset ctx.regs nextRip size) ↔
      ctx.OffsetPlain size code instSize nextRip form := by
  rw [hsize] at h
  obtain ⟨modrm, rest, δ, rfl, hmod, ⟨hzero, hsix, hδ, rfl⟩ | ⟨habsolute, hδ, rfl⟩⟩ :=
    archForm_cases16 h
  · -- the displacement is not read
    rw [memoryOffset_absolute hsize hcode ⟨hzero, hsix⟩, Option.some_inj, eq_comm, hsize]
    have hoffset : (⟨none, none, false, δ⟩ : AddressForm).offset ctx.regs nextRip 16 =
        truncateTo 16 (BitVec.ofInt 64 δ) := by
      simp [AddressForm.offset]
    rw [hoffset, truncateTo_displacement_word hδ]
    constructor
    · intro hnone
      exact ⟨fun hlong => by omega, fun hlong => by omega, fun _ _ => hnone,
        fun _ _ _ heq _ hfive => (by
          obtain ⟨rfl, -⟩ := List.cons.inj heq
          omega), fun hlong => by omega⟩
    · exact fun hplain => hplain.absolute rfl rfl
  · by_cases hdirect : modField modrm = 0 ∧ rmField modrm = 5
    · rw [memoryOffset_indirect hsize hcode hdirect nextRip]
      rw [hdirect.1, show archDisplacementSize 0 2 = 0 from rfl, signedDisplacement_zero] at hδ
      obtain rfl := Option.some.inj hδ
      have hform : archRegisters16 (rmField modrm) = (regRdi, none) := by
        rw [hdirect.2]
        rfl
      rw [hform]
      by_cases hshort : rest.length < 2
      · rw [if_pos hshort]
        refine iff_of_false (by simp) fun hplain => ?_
        have hlength := hplain.indirect hsize modrm rest rfl hdirect.1 hdirect.2
        omega
      · rw [if_neg hshort]
        refine iff_of_true rfl ⟨fun hlong => by omega, fun hlong => by omega,
          fun _ hnone => (by cases hnone), fun _ _ _ heq _ _ => ?_, fun hlong => by omega⟩
        obtain ⟨-, rfl⟩ := List.cons.inj heq
        omega
    · rw [memoryOffset_word hsize hcode hmod habsolute hdirect hδ nextRip]
      refine iff_of_true rfl ⟨fun hlong => by omega, fun hlong => by omega,
        fun _ hnone => (by cases hnone), fun _ _ _ heq hzero hfive => ?_, fun hlong => by omega⟩
      obtain ⟨rfl, -⟩ := List.cons.inj heq
      exact absurd ⟨hzero, hfive⟩ hdirect

/-- The law of the offsets for an address of 32 or 64 bits. -/
theorem memoryOffset_iff_long (hsize : size = 32 ∨ (size = 64 ∧ ctx.is64BitCode = true))
    (h : archForm ctx.is64BitCode size (ctx.is64BitCode && ctx.prefixBits.rexX)
      (ctx.is64BitCode && ctx.prefixBits.rexB) code = some form) :
    ctx.memoryOffset size code instSize = some (form.offset ctx.regs nextRip size) ↔
      ctx.OffsetPlain size code instSize nextRip form := by
  have hlong : size = 32 ∨ size = 64 := hsize.imp_right And.left
  have hplain : (size = 64 → form.base = none → form.ripRelative = false →
      0 ≤ form.displacement) → (size = 32 → form.ripRelative = true → nextRip.setWidth 32 = 0) →
      (size = 64 → form.ripRelative = true → ctx.rip + BitVec.ofNat 64 instSize = nextRip) →
      ctx.OffsetPlain size code instSize nextRip form :=
    fun hbase hrelative hlength =>
      ⟨hbase, hrelative, fun hword => by omega, fun hword => by omega, hlength⟩
  obtain ⟨modrm, rest, rfl, hmod, ⟨sib, rest', rfl, hsib, hform⟩ | ⟨δ, hzero, hfive, hδ, rfl⟩ |
    ⟨δ, hsib, hdirect, hδ, rfl⟩⟩ := archForm_cases (by omega) h
  · rcases @memoryOffset_sib ctx modrm rest' size instSize hlong hmod hsib sib form hform nextRip with
      ⟨hbase, hrip, hoffset⟩ | ⟨d, hbase, hrip, hδ, hoffset⟩
    · rw [hoffset]
      have hfalse : form.ripRelative ≠ true := by simp [hrip]
      exact iff_of_true rfl (hplain (fun _ hnone => absurd hnone hbase)
        (fun _ htrue => absurd htrue hfalse) fun _ htrue => absurd htrue hfalse)
    · rw [hoffset, Option.some_inj]
      have hfalse : form.ripRelative ≠ true := by simp [hrip]
      have harch : form.offset ctx.regs nextRip size =
          truncateTo size (BitVec.ofInt 64 d.toInt +
            form.index.elim 0 fun index => ctx.regs index.1 <<< index.2) := by
        unfold AddressForm.offset
        rw [hbase, hrip, hδ]
        simp [BitVec.add_comm]
      rw [harch]
      rcases hsize with rfl | ⟨rfl, -⟩
      · refine iff_of_true ?_ (hplain (fun h64 => by omega) (fun _ htrue => absurd htrue hfalse)
          fun h64 => by omega)
        rw [truncateTo_eq_iff (by simp)]
        show _ = (d.signExtend 64 + _).setWidth 32
        rw [BitVec.setWidth_add _ _ (by decide), BitVec.setWidth_add _ _ (by decide),
          setWidth_signExtend _ (by decide), BitVec.setWidth_setWidth_of_le _ (by decide),
          BitVec.setWidth_eq]
      · show d.setWidth 64 + _ = BitVec.ofInt 64 d.toInt + _ ↔ _
        rw [BitVec.add_left_inj, setWidth_eq_signExtend_iff, ← hδ]
        exact ⟨fun hnonneg => hplain (fun _ _ _ => hnonneg) (fun h32 => by omega)
          fun _ htrue => absurd htrue hfalse, fun hall => hall.base rfl hbase hrip⟩
  · rw [memoryOffset_direct hlong ⟨hzero, hfive⟩ hδ, Option.some_inj]
    rcases hsize with rfl | ⟨rfl, hcode⟩
    · rw [direct_eq_relative_iff]
      exact ⟨fun heq => hplain (fun h64 => by omega) (fun _ => heq) fun h64 => by omega,
        fun hall => hall.relative rfl⟩
    · have hoffset : ∀ rip : U64, (⟨none, none, true, δ⟩ : AddressForm).offset ctx.regs rip 64 =
          rip + BitVec.ofInt 64 δ := by
        intro rip
        simp [AddressForm.offset, truncateTo]
      rw [hcode] at hplain ⊢
      show (⟨none, none, true, δ⟩ : AddressForm).offset ctx.regs _ 64 = _ ↔ _
      rw [hoffset, hoffset, BitVec.add_left_inj]
      exact ⟨fun heq => hplain (fun _ _ hfalse => by cases hfalse) (fun h32 => by omega)
        fun _ _ => heq, fun hall => hall.length rfl rfl⟩
  · rw [memoryOffset_base hlong hmod hsib hdirect hδ nextRip]
    exact iff_of_true rfl (hplain (fun _ hnone => (by cases hnone)) (fun _ htrue => (by cases htrue))
      fun _ htrue => by cases htrue)

/-- The sizes of addresses in the modes. -/
theorem archAddressSize_cases (ctx : CpuContext) :
    (ctx.archAddressSize = 16 ∧ ctx.is64BitCode = false) ∨ ctx.archAddressSize = 32 ∨
      (ctx.archAddressSize = 64 ∧ ctx.is64BitCode = true) := by
  unfold CpuContext.archAddressSize
  cases ctx.is64BitCode <;> cases ctx.prefixBits.addressSizeOverride <;>
    cases ctx.cs.descriptor.db <;> simp

end Iff

/-- The operands whose decoder finds the offset of the architecture: the address size is the
one of the mode, and the encoding is plain. -/
structure OperandDecoder.Plain (decoder : OperandDecoder) (ctx : CpuContext) (code : List U8)
    (instSize : ℕ) (form : AddressForm) : Prop where
  size : decoder.addressSize ctx = ctx.archAddressSize
  offset : ctx.OffsetPlain ctx.archAddressSize code (decoder.finalSize instSize)
    (ctx.rip + BitVec.ofNat 64 instSize) form

/-- **Operands in memory.**  With the address size of the mode, an instruction finds the
offset that its encoding names in the architecture exactly for the plain encodings. -/
theorem memoryOffset_iff (decoder : OperandDecoder) {code : List U8} {form : AddressForm}
    (h : ctx.archOperand code = some form) :
    decoder.addressSize ctx = ctx.archAddressSize ∧
        decoder.memoryOffset ctx code instSize = some (form.offset ctx.regs
          (ctx.rip + BitVec.ofNat 64 instSize) ctx.archAddressSize) ↔
      decoder.Plain ctx code instSize form := by
  have hlaw : ctx.memoryOffset ctx.archAddressSize code (decoder.finalSize instSize) =
      some (form.offset ctx.regs (ctx.rip + BitVec.ofNat 64 instSize) ctx.archAddressSize) ↔
        ctx.OffsetPlain ctx.archAddressSize code (decoder.finalSize instSize)
          (ctx.rip + BitVec.ofNat 64 instSize) form := by
    rcases archAddressSize_cases ctx with ⟨hsize, hword⟩ | hlong
    · exact memoryOffset_iff_word hsize hword h
    · exact memoryOffset_iff_long hlong h
  unfold OperandDecoder.memoryOffset
  constructor
  · rintro ⟨hsize, hoffset⟩
    rw [hsize] at hoffset
    exact ⟨hsize, hlaw.mp hoffset⟩
  · rintro ⟨hsize, hplain⟩
    rw [hsize]
    exact ⟨rfl, hlaw.mpr hplain⟩

end Memory

end Cpueaxh
