/-
# The operand of POP

Which operand a `POP` to memory has: its offset is the one of the architecture, with the
stack pointer behind the popped value as the base, but for some encodings.  Those that all
decoders read differently are among them, and operands relative to the instruction pointer,
for which the second computation of the address lacks the length of the instruction.  In
front of the opcode, a REX prefix stays in force behind which another prefix follows, and
the operand size depends neither on the code segment outside of 64-bit code nor, within it,
on `REX.W`.
-/
import Cpueaxh.PopOutcome

namespace Cpueaxh

/-! ## The architecture -/

/-- The prefix bits without what a REX prefix sets. -/
def PrefixBits.withoutRex (bits : PrefixBits) : PrefixBits :=
  { bits with rexPresent := false, rexW := false, rexR := false, rexX := false, rexB := false }

/-- The prefixes in the architecture: a REX prefix counts only right in front of the
opcode. -/
def archPopPrefixes (mode64 : Bool) (bits : PrefixBits) : List U8 → PrefixBits × List U8
  | [] => (bits, [])
  | b :: code =>
    if b = 0x66 then
      archPopPrefixes mode64 { bits.withoutRex with operandSizeOverride := true } code
    else if b = 0x67 then
      archPopPrefixes mode64 { bits.withoutRex with addressSizeOverride := true } code
    else if skippedPrefixes.contains b then archPopPrefixes mode64 bits.withoutRex code
    else if mode64 = true ∧ 0x40 ≤ b ∧ b ≤ 0x4F then
      archPopPrefixes mode64 (bits.withRex b) code
    else (bits, b :: code)

/-- The segment of an operand without an override. -/
def AddressForm.defaultSegment (form : AddressForm) : SegmentRegisterIndex :=
  if form.base = some regRsp ∨ form.base = some regRbp then .ss else .ds

/-- The sum of the registers. -/
def AddressForm.registers (form : AddressForm) (regs : Fin 16 → U64) : U64 :=
  form.base.elim 0 regs + form.index.elim 0 fun index => regs index.1 <<< index.2

namespace CpuContext

variable (ctx : CpuContext)

/-- The operand size of a `POP` in the architecture.  `REX.W` goes over the override. -/
def archPopSize : ℕ :=
  if ctx.is64BitCode then
    if ctx.prefixBits.rexW then 64 else if ctx.prefixBits.operandSizeOverride then 16 else 64
  else if ctx.cs.descriptor.db != ctx.prefixBits.operandSizeOverride then 32
  else 16

/-- The address of the instruction behind a `POP` whose operand follows the opcode. -/
def popNextRip (offset : ℕ) (code : List U8) : U64 :=
  ctx.rip + BitVec.ofNat 64 (offset + archOperandLength ctx.archAddressSize code)

/-- The operand of a `POP` in the architecture: registers have the values behind the step of
the stack pointer. -/
def archPopOperand (offset : ℕ) (code : List U8) (form : AddressForm) : PopOperand where
  size := ctx.archPopSize
  addressSize := ctx.archAddressSize
  offset := form.offset (ctx.advancedStack ctx.archPopSize).regs (ctx.popNextRip offset code)
    ctx.archAddressSize
  segmentBase := ctx.segmentBaseForAddressing
    (ctx.effectiveSegmentOverrideOrDefault form.defaultSegment)

/-- The context with the prefixes of an instruction. -/
def withPrefixes (bits : PrefixBits) : CpuContext := { ctx with prefixBits := bits }

end CpuContext

/-- **The memory forms of POP**: some prefixes, `8F /0` and an operand in memory, within the
length of an instruction. -/
structure PopEncoding (ctx : CpuContext) (code : List U8) (bits : PrefixBits) (operand : List U8)
    (form : AddressForm) : Prop where
  prefixes : archPopPrefixes ctx.is64BitCode .clear code = (bits, 0x8F :: operand)
  group : operand.head?.map regField = some 0
  memory : (ctx.withPrefixes bits).archOperand operand = some form
  length : code.length - operand.length +
    archOperandLength (ctx.withPrefixes bits).archAddressSize operand ≤ 15

/-! ## Plain operands -/

/-- What a displacement without a base that is below zero lacks when it is extended with
zeros. -/
def unsignedGap (addressSize : ℕ) (form : AddressForm) : U64 :=
  if addressSize = 64 ∧ form.base = none ∧ form.ripRelative = false ∧ form.displacement < 0 then
    BitVec.ofNat 64 (2 ^ 32)
  else 0

/-- The operands that a `POP` finds: not in a 16-bit code segment, without `REX.W` over an
override of the operand size, not relative to the instruction pointer, no 16-bit displacement
of its own, and with the registers that the encoding names.  The prefix bits are those that the
decoder leaves, where a REX prefix may be left in force. -/
structure CpuContext.PopPlain (ctx : CpuContext) (scanned : PrefixBits) (code : List U8)
    (nextRip : U64) (form : AddressForm) : Prop where
  segment : ctx.is64BitCode = true ∨ ctx.cs.descriptor.db = true
  width : ctx.is64BitCode = true → ctx.prefixBits.operandSizeOverride = true →
    ctx.prefixBits.rexW = false
  registers : ∀ read ∈ (ctx.withPrefixes scanned).archOperand code,
    truncateTo ctx.archAddressSize (read.registers (ctx.advancedStack ctx.archPopSize).regs
      + unsignedGap ctx.archAddressSize form) =
    truncateTo ctx.archAddressSize (form.registers (ctx.advancedStack ctx.archPopSize).regs)
  relative : ctx.archAddressSize = 32 → form.ripRelative = true → nextRip.setWidth 32 = 0
  near : ctx.archAddressSize = 64 → form.ripRelative = false
  absolute : ctx.archAddressSize = 16 → form.base = none → form.displacement = 0
  indirect : ctx.archAddressSize = 16 → ∀ modrm rest, code = modrm :: rest →
    modField modrm = 0 → rmField modrm = 5 → 2 ≤ rest.length

/-! ## Prefixes -/

section Prefixes

/-- What two scans of the prefixes agree in. -/
def PrefixBits.SameSizes (bits bits' : PrefixBits) : Prop :=
  bits'.operandSizeOverride = bits.operandSizeOverride ∧
    bits'.addressSizeOverride = bits.addressSizeOverride

/-- The decoder finds the opcode of the architecture, under the same sizes. -/
theorem scanPopPrefixes_arch (mode64 : Bool) {code operand : List U8} {opcode : U8}
    (hopcode : opcode ≠ 0xF0) : ∀ {bits bits' final : PrefixBits}, bits.SameSizes bits' →
      archPopPrefixes mode64 bits code = (final, opcode :: operand) →
      ∃ final', scanPopPrefixes mode64 bits' code = (final', some (opcode :: operand)) ∧
        final.SameSizes final' ∧ (mode64 = false → final'.rexW = bits'.rexW) := by
  -- the induction is on the bytes; the two scans differ in the `REX` bits that they keep
  induction code with
  | nil =>
    intro bits bits' final _ h
    cases h
  | cons b code ih =>
    intro bits bits' final hsame h
    unfold archPopPrefixes at h
    unfold scanPopPrefixes
    split_ifs at h with hoperand haddress hskipped hrex
    · rw [if_pos hoperand]
      refine ih ?_ h
      exact ⟨rfl, hsame.2⟩
    · rw [if_neg hoperand, if_pos haddress]
      refine ih ?_ h
      exact ⟨hsame.1, rfl⟩
    · have hnot : ¬ (mode64 = true ∧ 0x40 ≤ b ∧ b ≤ 0x4F) := by
        rintro ⟨-, hlow, hhigh⟩
        revert hskipped hlow hhigh
        revert b
        decide
      have hlock : b ≠ 0xF0 := by
        rintro rfl
        revert hskipped
        decide
      rw [if_neg hoperand, if_neg haddress, if_neg hnot, if_neg hlock, if_pos hskipped]
      refine ih ?_ h
      exact hsame
    · rw [if_neg hoperand, if_neg haddress, if_pos hrex]
      have hnext : (bits.withRex b).SameSizes (bits'.withRex b) := hsame
      obtain ⟨final', hscan, hfinal, -⟩ := ih hnext h
      refine ⟨final', hscan, hfinal, ?_⟩
      rintro rfl
      cases hrex.1
    · obtain ⟨rfl, hcode⟩ := Prod.mk.inj h
      obtain ⟨rfl, rfl⟩ := List.cons.inj hcode
      rw [if_neg hoperand, if_neg haddress, if_neg hrex, if_neg hopcode, if_neg hskipped]
      exact ⟨bits', rfl, hsame, fun _ => rfl⟩

end Prefixes

/-! ## Offsets -/

section Offsets

variable {ctx : CpuContext} {size : ℕ} {code : List U8} {read form : AddressForm}

theorem offset_registers (form : AddressForm) (regs : Fin 16 → U64) (nextRip : U64) (size : ℕ) :
    form.offset regs nextRip size = truncateTo size (form.registers regs +
      (if form.ripRelative then nextRip else 0) + BitVec.ofInt 64 form.displacement) := rfl

/-- The REX prefix selects the registers of a form, and nothing else. -/
theorem archSibForm_alike {mod : ℕ} {rexX rexB rexX' rexB' : Bool} {sib : U8} {rest : List U8}
    (hread : archSibForm mod rexX rexB sib rest = some read)
    (hform : archSibForm mod rexX' rexB' sib rest = some form) :
    form.displacement = read.displacement ∧ form.ripRelative = false ∧
      (form.base = none ↔ read.base = none) := by
  unfold archSibForm at hread hform
  obtain ⟨δ, hδ, rfl⟩ := Option.map_eq_some_iff.mp hread
  obtain ⟨δ', hδ', rfl⟩ := Option.map_eq_some_iff.mp hform
  rw [hδ] at hδ'
  obtain rfl := Option.some.inj hδ'
  refine ⟨rfl, rfl, ?_⟩
  dsimp only
  split_ifs <;> simp

/-- A displacement below zero is larger by `2^32` when it is extended with zeros. -/
theorem setWidth_eq_ofInt_add (d : U32) :
    d.setWidth 64 = BitVec.ofInt 64 d.toInt +
      (if d.toInt < 0 then BitVec.ofNat 64 (2 ^ 32) else (0 : U64)) := by
  have hint := BitVec.toInt_eq_toNat_cond d
  have hlt := d.isLt
  apply BitVec.eq_of_toNat_eq
  rw [BitVec.toNat_setWidth, BitVec.toNat_add, BitVec.toNat_ofInt]
  split_ifs with hneg
  · rw [BitVec.toNat_ofNat]
    split_ifs at hint <;> omega
  · rw [show (0 : U64).toNat = 0 from rfl]
    split_ifs at hint <;> omega

/-- **The offset of an operand** is the one of a form that may differ from the one that the
decoder reads in its registers. -/
theorem memoryOffset_alike_iff (hsize : size = 32 ∨ (size = 64 ∧ ctx.is64BitCode = true))
    {rexX rexB : Bool}
    (hread : archForm ctx.is64BitCode size (ctx.is64BitCode && ctx.prefixBits.rexX)
      (ctx.is64BitCode && ctx.prefixBits.rexB) code = some read)
    (hform : archForm ctx.is64BitCode size rexX rexB code = some form) (instSize : ℕ)
    (nextRip : U64) :
    ctx.memoryOffset size code instSize = some (form.offset ctx.regs nextRip size) ↔
      truncateTo size (read.registers ctx.regs + unsignedGap size form) =
        truncateTo size (form.registers ctx.regs) ∧
      (size = 32 → form.ripRelative = true → nextRip.setWidth 32 = 0) ∧
      (size = 64 → form.ripRelative = true → ctx.rip + BitVec.ofNat 64 instSize = nextRip) := by
  have hlong : size = 32 ∨ size = 64 := hsize.imp_right And.left
  have hwide : size = 16 ∨ size = 32 ∨ size = 64 := Or.inr hlong
  have hne : size ≠ 16 := by omega
  -- an SIB operand, one without registers, and one with a base
  obtain ⟨modrm, rest, rfl, hmod, ⟨sib, rest', rfl, hsib, hread'⟩ | ⟨δ, hzero, hfive, hδ, rfl⟩ |
    ⟨δ, hsib, hdirect, hδ, rfl⟩⟩ := archForm_cases hne hread
  · have hform' : archSibForm (modField modrm) rexX rexB sib rest' = some form := by
      unfold archForm at hform
      dsimp only at hform
      rwa [if_neg hmod, if_neg hne, if_pos hsib] at hform
    obtain ⟨hdisp, hrip, hbase⟩ := archSibForm_alike hread' hform'
    rw [offset_registers, hrip]
    simp only [Bool.false_eq_true, if_false, add_zero, imp_true_iff, and_true, false_implies]
    rcases @memoryOffset_sib ctx modrm rest' size instSize hlong hmod hsib sib read hread' nextRip with
      ⟨hsome, hrip', hoffset⟩ | ⟨d, hnone, -, hd, hoffset⟩
    · have hgap : unsignedGap size form = 0 := if_neg fun h => hsome (hbase.mp h.2.1)
      rw [hoffset, Option.some_inj, offset_registers, hrip', hdisp, hgap]
      simp only [Bool.false_eq_true, if_false, add_zero]
      exact truncateTo_add_inj hwide _ _ _
    · -- the displacement is extended with zeros
      have hregisters : read.registers ctx.regs =
          read.index.elim 0 fun index => ctx.regs index.1 <<< index.2 := by
        unfold AddressForm.registers
        rw [hnone]
        exact BitVec.zero_add _
      rw [hoffset, Option.some_inj, hdisp, hd, ← hregisters, setWidth_eq_ofInt_add]
      rw [show BitVec.ofInt 64 d.toInt + (if d.toInt < 0 then BitVec.ofNat 64 (2 ^ 32) else (0 : U64))
          + read.registers ctx.regs = read.registers ctx.regs
            + (if d.toInt < 0 then BitVec.ofNat 64 (2 ^ 32) else 0) + BitVec.ofInt 64 d.toInt by ac_rfl,
        truncateTo_add_inj hwide]
      have hgap : unsignedGap size form =
          if size = 64 ∧ d.toInt < 0 then BitVec.ofNat 64 (2 ^ 32) else 0 := by
        simp only [unsignedGap, hbase.mpr hnone, hrip, hdisp, hd, true_and]
      rw [hgap]
      rcases hlong with rfl | rfl
      · -- within 32 bits both extensions are the same
        have hcut : ∀ x : U64, truncateTo 32
            (x + if d.toInt < 0 then BitVec.ofNat 64 (2 ^ 32) else 0) = truncateTo 32 x := by
          intro x
          rw [truncateTo_add_eq_iff hwide]
          split_ifs <;> rfl
        rw [hcut, if_neg (by omega), add_zero]
      · simp only [true_and]
  · have hform' : form = ⟨none, none, ctx.is64BitCode, δ⟩ := by
      unfold archForm at hform
      dsimp only at hform
      rw [if_neg hmod, if_neg hne, if_neg (by omega), if_pos ⟨hzero, hfive⟩, hδ] at hform
      exact (Option.some.inj hform).symm
    subst hform'
    have hgap : unsignedGap size ⟨none, none, ctx.is64BitCode, δ⟩ = 0 := by
      apply if_neg
      rintro ⟨rfl, -, hrip, -⟩
      obtain ⟨-, hcode⟩ := hsize.resolve_left (by decide)
      rw [hcode] at hrip
      cases hrip
    rw [memoryOffset_direct hlong ⟨hzero, hfive⟩ hδ, Option.some_inj, hgap]
    -- with 32 bits the code takes the displacement alone, with 64 bits from its own `rip` on
    rcases hsize with rfl | ⟨rfl, hcode⟩
    · rw [direct_eq_relative_iff]
      constructor
      · intro hrelative
        exact ⟨rfl, fun _ => hrelative, fun h64 => by omega⟩
      · rintro ⟨-, hrelative, -⟩
        exact hrelative rfl
    · have hoffset : ∀ rip : U64, (⟨none, none, true, δ⟩ : AddressForm).offset ctx.regs rip 64 =
          rip + BitVec.ofInt 64 δ := by
        intro rip
        simp [AddressForm.offset, truncateTo]
      rw [hcode]
      show (⟨none, none, true, δ⟩ : AddressForm).offset ctx.regs _ 64 = _ ↔ _
      rw [hoffset, hoffset, BitVec.add_left_inj]
      constructor
      · intro hrip
        exact ⟨rfl, fun h32 => by omega, fun _ _ => hrip⟩
      · rintro ⟨-, -, hnear⟩
        exact hnear rfl rfl
  · have hform' : form = ⟨some (archRegister rexB (rmField modrm)), none, false, δ⟩ := by
      unfold archForm at hform
      dsimp only at hform
      rw [if_neg hmod, if_neg hne, if_neg hsib, if_neg hdirect, hδ] at hform
      exact (Option.some.inj hform).symm
    subst hform'
    have hgap : unsignedGap size ⟨some (archRegister rexB (rmField modrm)), none, false, δ⟩ = 0 :=
      if_neg fun h => by cases h.2.1
    rw [memoryOffset_base hlong hmod hsib hdirect hδ nextRip, Option.some_inj, offset_registers,
      offset_registers, hgap]
    simp only [Bool.false_eq_true, if_false, add_zero, imp_true_iff, and_true, false_implies]
    exact truncateTo_add_inj hwide _ _ _

end Offsets

/-! ## Segments -/

section Segments

variable {ctx : CpuContext}

theorem decodeDisplacement_operand (op : MemOperand) (used : ℕ) (rest : List U8) :
    ∃ d, (decodeDisplacement op used rest).operand = { op with displacement := d } := by
  unfold decodeDisplacement
  split_ifs
  · exact ⟨op.displacement, rfl⟩
  · exact ⟨_, rfl⟩
  · exact ⟨_, rfl⟩

/-- An operand is in the stack segment or in the data segment. -/
theorem defaultSegment_cases (op : MemOperand) :
    ctx.defaultSegmentForMemoryOperand op = .ss ∨ ctx.defaultSegmentForMemoryOperand op = .ds := by
  unfold CpuContext.defaultSegmentForMemoryOperand
  dsimp only
  split_ifs <;> simp

/-- The registers that address the stack, outside of 64-bit code. -/
theorem archRegister_stack_iff : ∀ n < 8, (some (archRegister false n) = some regRsp ∨
    some (archRegister false n) = some regRbp) ↔ CpuContext.memoryBaseRegisterUsesSs n = true := by
  decide

theorem archRegisters16_stack_iff : ∀ n < 8, (some (archRegisters16 n).1 = some regRsp ∨
    some (archRegisters16 n).1 = some regRbp) ↔ (n = 2 ∨ n = 3 ∨ n = 6) := by
  decide

/-- Outside of 64-bit code an operand has the default segment of its base. -/
theorem defaultSegment_eq (hcode : ctx.is64BitCode = false) {size : ℕ} {mode64 : Bool}
    {code : List U8} {form : AddressForm} (h : archForm mode64 size false false code = some form) :
    ctx.defaultSegmentForMemoryOperand (decodeModrm size code).operand = form.defaultSegment := by
  have hextended : ∀ n, CpuContext.extended ctx.prefixBits.rexB ctx.is64BitCode n = n := by
    intro n
    rw [hcode, CpuContext.extended, Bool.and_false]
    rfl
  -- the registers of 16-bit operands are in a table of their own
  by_cases hsize : size = 16
  · subst hsize
    obtain ⟨modrm, rest, δ, rfl, hmod, hform⟩ := archForm_cases16 h
    obtain ⟨d, hop⟩ := decodeDisplacement_operand ⟨16, true, modrm, false, 0, 0⟩ 1 rest
    rw [decodeModrm_plain (fun h => h.2.2 rfl), hop]
    unfold CpuContext.defaultSegmentForMemoryOperand AddressForm.defaultSegment
    simp only [hmod, if_false, ne_eq, not_true_eq_false]
    rcases hform with ⟨hzero, hsix, -, rfl⟩ | ⟨habsolute, -, rfl⟩
    · simp [hzero, hsix]
    · simp only [archRegisters16_stack_iff _ (rmField_lt modrm)]
      congr 1
      simp only [eq_iff_iff]
      omega
  · obtain ⟨modrm, rest, rfl, hmod, ⟨sib, rest', rfl, hsib, hform⟩ | ⟨δ, hzero, hfive, -, rfl⟩ |
      ⟨δ, hsib, hdirect, -, rfl⟩⟩ := archForm_cases hsize h
    · obtain ⟨d, hop⟩ := decodeDisplacement_operand ⟨size, true, modrm, true, sib, 0⟩ 2 rest'
      rw [decodeModrm_sib ⟨hmod, hsib, hsize⟩, hop]
      unfold archSibForm at hform
      obtain ⟨δ, -, rfl⟩ := Option.map_eq_some_iff.mp hform
      unfold CpuContext.defaultSegmentForMemoryOperand AddressForm.defaultSegment
      simp only [hmod, if_false, ne_eq, hsize, not_false_eq_true, if_true, hsib, hextended]
      by_cases hbase : modField modrm = 0 ∧ rmField sib = 5
      · simp [hbase.1, hbase.2]
      · have hguard : (!(rmField sib == 5 && modField modrm == 0)) = true := by
          simp only [Bool.not_eq_true', Bool.and_eq_false_iff, beq_eq_false_iff_ne]
          omega
        simp only [hguard, Bool.true_and, hbase, decide_false, Bool.false_eq_true, if_false,
          archRegister_stack_iff _ (rmField_lt sib)]
    · obtain ⟨d, hop⟩ := decodeDisplacement_operand ⟨size, true, modrm, false, 0, 0⟩ 1 rest
      rw [decodeModrm_plain (fun h => by omega), hop]
      unfold CpuContext.defaultSegmentForMemoryOperand AddressForm.defaultSegment
      simp [hzero, hfive, hsize]
    · obtain ⟨d, hop⟩ := decodeDisplacement_operand ⟨size, true, modrm, false, 0, 0⟩ 1 rest
      rw [decodeModrm_plain (fun h => hsib h.2.1), hop]
      unfold CpuContext.defaultSegmentForMemoryOperand AddressForm.defaultSegment
      have hguard : (!(modField modrm == 0 && rmField modrm == 5)) = true := by
        simp only [Bool.not_eq_true', Bool.and_eq_false_iff, beq_eq_false_iff_ne]
        omega
      simp only [hmod, if_false, ne_eq, hsize, not_false_eq_true, if_true, hsib, hextended, hguard,
        Bool.true_and, archRegister_stack_iff _ (rmField_lt modrm)]

/-- In 64-bit code the default segments have no base. -/
theorem segmentBase_flat (hcode : ctx.is64BitCode = true) {s s' : SegmentRegisterIndex}
    (hs : s = .ss ∨ s = .ds) (hs' : s' = .ss ∨ s' = .ds) :
    ctx.segmentBaseForAddressing (ctx.effectiveSegmentOverrideOrDefault s) =
      ctx.segmentBaseForAddressing (ctx.effectiveSegmentOverrideOrDefault s') := by
  have hflat : ∀ s, (s = .ss ∨ s = .ds) → ctx.segmentBaseForAddressing s = 0 := by
    rintro s (rfl | rfl)
    · exact if_pos ⟨hcode, by decide, by decide⟩
    · exact if_pos ⟨hcode, by decide, by decide⟩
  unfold CpuContext.effectiveSegmentOverrideOrDefault
  split_ifs
  all_goals first | rfl | rw [hflat s hs, hflat s' hs']

end Segments

/-! ## The law -/

section Law

variable {ctx : CpuContext}

/-- The operand is the one of the last computation of its offset. -/
theorem popOperandOf_eq (ctx : CpuContext) (code : List U8) :
    ctx.popOperandOf code =
      ((ctx.advancedStack ctx.popOperandSize).memoryOffset ctx.modeAddressSize code 0).map
        fun offset =>
          { size := ctx.popOperandSize
            addressSize := ctx.modeAddressSize
            offset := offset
            segmentBase := ctx.segmentBaseForAddressing
              (ctx.operandSegment (decodeModrm ctx.modeAddressSize code).operand) } := by
  unfold CpuContext.popOperandOf CpuContext.memoryOffset CpuContext.operandOffset
  simp only [ite_self]
  split_ifs <;> rfl

/-- The decoder has the operand size of the architecture outside of 16-bit code segments, unless
`REX.W` goes over an override. -/
theorem popOperandSize_iff {read : CpuContext} (hcode : read.is64BitCode = ctx.is64BitCode)
    (hsizes : ctx.prefixBits.SameSizes read.prefixBits)
    (hrex : ctx.is64BitCode = false → read.prefixBits.rexW = false) :
    read.popOperandSize = ctx.archPopSize ↔
      (ctx.is64BitCode = true ∨ ctx.cs.descriptor.db = true) ∧
        (ctx.is64BitCode = true → ctx.prefixBits.operandSizeOverride = true →
          ctx.prefixBits.rexW = false) := by
  unfold CpuContext.popOperandSize CpuContext.archPopSize
  rw [hcode, hsizes.1]
  cases hmode : ctx.is64BitCode with
  | true => cases ctx.prefixBits.operandSizeOverride <;> cases ctx.prefixBits.rexW <;> simp
  | false =>
    rw [hrex hmode]
    cases ctx.prefixBits.operandSizeOverride <;> cases ctx.cs.descriptor.db <;> simp

/-- So has it the address size. -/
theorem modeAddressSize_eq {read : CpuContext} (hcode : read.is64BitCode = ctx.is64BitCode)
    (hsizes : ctx.prefixBits.SameSizes read.prefixBits) (hcs : read.cs = ctx.cs)
    (hsegment : ctx.is64BitCode = true ∨ ctx.cs.descriptor.db = true) :
    read.modeAddressSize = ctx.archAddressSize := by
  unfold CpuContext.modeAddressSize CpuContext.archAddressSize CpuContext.defaultAddressSize
  rw [hcode, hsizes.2, hcs]
  rcases hsegment with hmode | hdb
  · rw [hmode]
    cases ctx.prefixBits.addressSizeOverride <;> rfl
  · rw [hdb]
    cases ctx.is64BitCode <;> cases ctx.prefixBits.addressSizeOverride <;> rfl

/-- Some byte of a `POP` is behind its start. -/
theorem popNextRip_ne {offset : ℕ} {code : List U8} (hcode : code ≠ [])
    (hlength : offset + archOperandLength ctx.archAddressSize code ≤ 15) :
    ctx.popNextRip offset code ≠ ctx.rip := by
  have hpos : 0 < archOperandLength ctx.archAddressSize code := by
    match code with
    | [] => exact absurd rfl hcode
    | modrm :: rest =>
      unfold archOperandLength
      dsimp only
      split_ifs <;> omega
  unfold CpuContext.popNextRip
  generalize archOperandLength ctx.archAddressSize code = n at *
  intro heq
  have hzero : BitVec.ofNat 64 (offset + n) = 0 := BitVec.self_eq_add_right.mp heq.symm
  have hnat := congrArg BitVec.toNat hzero
  rw [BitVec.toNat_ofNat, Nat.mod_eq_of_lt (by omega)] at hnat
  exact absurd hnat (by simp; omega)

/-- Other registers make another form of the same bytes. -/
theorem archForm_other {mode64 rexX rexB : Bool} {size : ℕ} {code : List U8} {form : AddressForm}
    (h : archForm mode64 size rexX rexB code = some form) (rexX' rexB' : Bool) :
    ∃ read, archForm mode64 size rexX' rexB' code = some read := by
  by_cases hsize : size = 16
  · subst hsize
    match code with
    | [] => cases h
    | modrm :: rest => exact ⟨form, h⟩
  · obtain ⟨modrm, rest, rfl, hmod, ⟨sib, rest', rfl, hsib, hform⟩ | ⟨δ, hzero, hfive, hδ, rfl⟩ |
      ⟨δ, hsib, hdirect, hδ, rfl⟩⟩ := archForm_cases hsize h
    · unfold archSibForm at hform
      obtain ⟨δ, hδ, rfl⟩ := Option.map_eq_some_iff.mp hform
      unfold archForm archSibForm
      dsimp only
      rw [if_neg hmod, if_neg hsize, if_pos hsib, hδ]
      exact ⟨_, rfl⟩
    · unfold archForm
      dsimp only
      rw [if_neg hmod, if_neg hsize, if_neg (by omega), if_pos ⟨hzero, hfive⟩, hδ]
      exact ⟨_, rfl⟩
    · unfold archForm
      dsimp only
      rw [if_neg hmod, if_neg hsize, if_neg hsib, if_neg hdirect, hδ]
      exact ⟨_, rfl⟩

/-- A decoder finds the offset of a form when it reads another form of the same bytes. -/
structure OffsetAlike (size : ℕ) (code : List U8) (regs : Fin 16 → U64) (readRip nextRip : U64)
    (read form : AddressForm) : Prop where
  registers : truncateTo size (read.registers regs + unsignedGap size form) =
    truncateTo size (form.registers regs)
  relative : size = 32 → form.ripRelative = true → nextRip.setWidth 32 = 0
  near : size = 64 → form.ripRelative = true → readRip = nextRip
  absolute : size = 16 → form.base = none → form.displacement = 0
  indirect : size = 16 → ∀ modrm rest, code = modrm :: rest → modField modrm = 0 →
    rmField modrm = 5 → 2 ≤ rest.length

/-- **The offset of an operand** under prefix bits that need not be those of the architecture. -/
theorem memoryOffset_reading_iff {reading : CpuContext}
    (hcode : reading.is64BitCode = ctx.is64BitCode) {code : List U8} {read form : AddressForm}
    (hform : ctx.archOperand code = some form)
    (hread : archForm ctx.is64BitCode ctx.archAddressSize
      (ctx.is64BitCode && reading.prefixBits.rexX) (ctx.is64BitCode && reading.prefixBits.rexB) code =
        some read) (instSize : ℕ) (nextRip : U64) :
    reading.memoryOffset ctx.archAddressSize code instSize =
        some (form.offset reading.regs nextRip ctx.archAddressSize) ↔
      OffsetAlike ctx.archAddressSize code reading.regs (reading.rip + BitVec.ofNat 64 instSize)
        nextRip read form := by
  rcases archAddressSize_cases ctx with ⟨hword, hmode⟩ | hlong
  · -- no prefix selects the registers of a 16-bit address
    have hsame : read = form := by
      unfold CpuContext.archOperand at hform
      rw [hmode, Bool.false_and, Bool.false_and] at hform hread
      exact Option.some.inj (hread.symm.trans hform)
    have hlaw : reading.memoryOffset ctx.archAddressSize code instSize =
        some (form.offset reading.regs nextRip ctx.archAddressSize) ↔
        reading.OffsetPlain ctx.archAddressSize code instSize nextRip form :=
      memoryOffset_iff_word hword (hcode.trans hmode) hform
    rw [hlaw]
    constructor
    · intro hplain
      constructor
      · rw [hsame, unsignedGap, if_neg (by omega), add_zero]
      · exact fun h32 => by omega
      · exact fun h64 => by omega
      · exact hplain.absolute
      · exact hplain.indirect
    · intro halike
      exact ⟨fun h64 => by omega, fun h32 => by omega, halike.absolute, halike.indirect,
        fun h64 => by omega⟩
  · rw [← hcode] at hlong hread
    unfold CpuContext.archOperand at hform
    rw [← hcode] at hform
    rw [memoryOffset_alike_iff hlong hread hform]
    constructor
    · rintro ⟨hregisters, hrelative, hnear⟩
      exact ⟨hregisters, hrelative, hnear, fun h16 => by omega, fun h16 => by omega⟩
    · intro halike
      exact ⟨halike.registers, halike.relative, halike.near⟩

/-- The prefixes of the same sizes give the same address size. -/
theorem archAddressSize_withPrefixes {scanned : PrefixBits}
    (hsizes : ctx.prefixBits.SameSizes scanned) :
    (ctx.withPrefixes scanned).archAddressSize = ctx.archAddressSize := by
  unfold CpuContext.archAddressSize
  show (if ctx.is64BitCode then if scanned.addressSizeOverride then 32 else 64
    else if ctx.cs.descriptor.db != scanned.addressSizeOverride then 32 else 16) = _
  rw [hsizes.2]

/-- **The offset of a POP operand** is the one of the architecture exactly for the forms
that the decoder reads. -/
theorem popOffset_iff {scanned : PrefixBits} {code : List U8} {form : AddressForm} {nextRip : U64}
    (hsizes : ctx.prefixBits.SameSizes scanned) (hform : ctx.archOperand code = some form)
    (hnext : nextRip ≠ ctx.rip) (hsegment : ctx.is64BitCode = true ∨ ctx.cs.descriptor.db = true)
    (hwidth : ctx.is64BitCode = true → ctx.prefixBits.operandSizeOverride = true →
      ctx.prefixBits.rexW = false) :
    ((ctx.withPrefixes scanned).advancedStack ctx.archPopSize).memoryOffset ctx.archAddressSize
        code 0 = some (form.offset (ctx.advancedStack ctx.archPopSize).regs nextRip
          ctx.archAddressSize) ↔
      ctx.PopPlain scanned code nextRip form := by
  let advanced := (ctx.withPrefixes scanned).advancedStack ctx.archPopSize
  have hregs : (ctx.advancedStack ctx.archPopSize).regs = advanced.regs := rfl
  obtain ⟨read, hother⟩ := archForm_other hform (ctx.is64BitCode && scanned.rexX)
    (ctx.is64BitCode && scanned.rexB)
  have hreading : (ctx.withPrefixes scanned).archOperand code = some read := by
    rw [← hother, ← archAddressSize_withPrefixes hsizes]
    rfl
  -- without the length an operand is never relative to the next instruction
  have hrip : advanced.rip + BitVec.ofNat 64 0 = ctx.rip := BitVec.add_zero _
  show advanced.memoryOffset _ _ _ = _ ↔ _
  rw [hregs, @memoryOffset_reading_iff ctx advanced rfl code read form hform hother, hrip]
  constructor
  · intro halike
    constructor
    · exact hsegment
    · exact hwidth
    · intro read' hread'
      rw [hreading] at hread'
      obtain rfl := Option.some.inj hread'
      exact halike.registers
    · exact halike.relative
    · intro h64
      rw [← Bool.not_eq_true]
      exact fun htrue => hnext (halike.near h64 htrue).symm
    · exact halike.absolute
    · exact halike.indirect
  · intro hplain
    constructor
    · exact hplain.registers read hreading
    · exact hplain.relative
    · intro h64 htrue
      rw [hplain.near h64] at htrue
      cases htrue
    · exact hplain.absolute
    · exact hplain.indirect

/-- The base of the segment of an operand. -/
theorem popSegment_eq {scanned : PrefixBits} {code : List U8} {form : AddressForm}
    (hform : ctx.archOperand code = some form) :
    (ctx.withPrefixes scanned).segmentBaseForAddressing ((ctx.withPrefixes scanned).operandSegment
        (decodeModrm ctx.archAddressSize code).operand) =
      ctx.segmentBaseForAddressing (ctx.effectiveSegmentOverrideOrDefault form.defaultSegment) := by
  unfold CpuContext.operandSegment
  have hdefault : form.defaultSegment = .ss ∨ form.defaultSegment = .ds := by
    unfold AddressForm.defaultSegment
    split_ifs <;> simp
  cases hcode : ctx.is64BitCode with
  | true => exact @segmentBase_flat ctx hcode _ _ (defaultSegment_cases _) hdefault
  | false =>
    unfold CpuContext.archOperand at hform
    rw [hcode, Bool.false_and, Bool.false_and] at hform
    rw [@defaultSegment_eq (ctx.withPrefixes scanned) hcode _ _ _ _ hform]
    rfl

/-- **The operand of a POP** to memory is the one of the architecture exactly for the plain
operands. -/
theorem popOperand_iff {code operand : List U8} {bits : PrefixBits} {form : AddressForm}
    (h : PopEncoding ctx code bits operand form) :
    ctx.popOperand code = some ((ctx.withPrefixes bits).archPopOperand
        (code.length - operand.length) operand form) ↔
      (ctx.withPrefixes bits).PopPlain (scanPopPrefixes ctx.is64BitCode .clear code).1 operand
        ((ctx.withPrefixes bits).popNextRip (code.length - operand.length) operand) form := by
  obtain ⟨scanned, hscan, hsizes, hrex⟩ := scanPopPrefixes_arch ctx.is64BitCode
    (show (0x8F : U8) ≠ 0xF0 by decide) ⟨rfl, rfl⟩ h.prefixes
  have hnonempty : operand ≠ [] := by
    rintro rfl
    cases h.group
  have hpop : ctx.popOperand code = (ctx.withPrefixes scanned).popOperandOf operand := by
    unfold CpuContext.popOperand
    rw [hscan]
    rfl
  rw [hpop, hscan, popOperandOf_eq]
  have hnext := popNextRip_ne hnonempty h.length
  have hsize := @popOperandSize_iff (ctx.withPrefixes bits) (ctx.withPrefixes scanned) rfl hsizes hrex
  have haddress := @modeAddressSize_eq (ctx.withPrefixes bits) (ctx.withPrefixes scanned) rfl hsizes
    rfl
  have hoffset := @popOffset_iff (ctx.withPrefixes bits) scanned operand form _ hsizes h.memory hnext
  have hbase := @popSegment_eq (ctx.withPrefixes bits) scanned operand form h.memory
  constructor
  · intro heq
    obtain ⟨offset, hread, hfields⟩ := Option.map_eq_some_iff.mp heq
    unfold CpuContext.archPopOperand at hfields
    simp only [PopOperand.mk.injEq] at hfields
    obtain ⟨hpopSize, haddressSize, rfl, -⟩ := hfields
    obtain ⟨hsegment, hwidth⟩ := hsize.mp hpopSize
    rw [hpopSize, haddressSize] at hread
    exact (hoffset hsegment hwidth).mp hread
  · intro hplain
    have hread := (hoffset hplain.segment hplain.width).mpr hplain
    rw [hsize.mpr ⟨hplain.segment, hplain.width⟩, haddress hplain.segment]
    have hread' : ((ctx.withPrefixes scanned).advancedStack
        (ctx.withPrefixes bits).archPopSize).memoryOffset
          (ctx.withPrefixes bits).archAddressSize operand 0 = _ := hread
    rw [hread', Option.map_some]
    unfold CpuContext.archPopOperand
    rw [← hbase]
    rfl

/-- The ModRM byte of a form names memory. -/
theorem modField_of_archForm {mode64 rexX rexB : Bool} {size : ℕ} {modrm : U8} {rest : List U8}
    {form : AddressForm} (h : archForm mode64 size rexX rexB (modrm :: rest) = some form) :
    modField modrm ≠ 3 := by
  intro hmod
  unfold archForm at h
  dsimp only at h
  rw [if_pos hmod] at h
  cases h

/-- Only operands relative to the instruction pointer get their address again. -/
theorem finalized_eq_false {mode64 rexX rexB : Bool} {size : ℕ} {modrm : U8} {rest : List U8}
    {form : AddressForm} (h : archForm mode64 size rexX rexB (modrm :: rest) = some form)
    (hmode : size = 64 → mode64 = true) (hnear : size = 64 → form.ripRelative = false) :
    (decodeModrm size (modrm :: rest)).operand.finalized = false := by
  apply not_finalized
  rw [decodeModrm_addressSize, decodeModrm_modrm]
  by_cases hsize : size = 64
  · right
    rintro ⟨hzero, hfive⟩
    unfold archForm at h
    dsimp only at h
    rw [if_neg (by omega), if_neg (by omega), if_neg (by omega), if_pos ⟨hzero, hfive⟩] at h
    obtain ⟨δ, -, rfl⟩ := Option.map_eq_some_iff.mp h
    have hrip : mode64 = false := hnear hsize
    rw [hmode hsize] at hrip
    cases hrip
  · exact Or.inl hsize

/-- A stack of 16-bit addresses holds no values of 64 bits. -/
theorem narrowStack_size (hstack : ctx.stackAddressSize = 16) :
    operandBytes ctx.archPopSize ≠ 8 := by
  unfold CpuContext.stackAddressSize at hstack
  unfold CpuContext.archPopSize
  cases hcode : ctx.is64BitCode with
  | true =>
    rw [hcode, if_pos rfl] at hstack
    omega
  | false =>
    rw [if_neg Bool.false_ne_true]
    cases ctx.cs.descriptor.db <;> cases ctx.prefixBits.operandSizeOverride <;> decide

/-- `POP QWORD PTR [RSP]` in 64-bit mode, with the stack at `0x1000`: the value goes to
`0x1008`, where the stack pointer is then. -/
def popCpu : Cpu :=
  hostCpu { initCpuContext false with regs := fun r => if r = regRsp then 0x1000 else 0 } fun _ => 0

theorem popCpu_encoding : PopEncoding popCpu.context [0x8F, 0x04, 0x24] .clear [0x04, 0x24]
    ⟨some regRsp, none, false, 0⟩ := ⟨rfl, rfl, rfl, by decide⟩

end Law

end Cpueaxh
