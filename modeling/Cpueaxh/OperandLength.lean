/-
# The length of an operand

How many bytes the ModRM decoders take: the ModRM byte, the SIB byte and the displacement.
What stands behind them is the immediate, or the next instruction.  The rule is written
once in `decode_modrm_common` of `cpu/dispatch_helpers.hpp` and again in a function of its
own for each family of instructions; the copies differ in the encodings that they refuse.
-/
import Cpueaxh.LeaLaw

namespace Cpueaxh

/-! ## The decoders -/

/-- The functions that read a ModRM byte with what belongs to it.  `common` is the length
scan `decode_modrm_common`, with its argument `allow_register_form`; the others are
`decode_modrm_adc` and so on, `decode_bmi_modrm`, `decode_nop_modrm`,
`decode_sse_state_modrm`, `decode_x87_control_modrm` and `decode_x87_status_modrm`. -/
inductive ModrmDecoder where
  | common (allowRegisterForm : Bool)
  | adc | add | aesenc | aeskeygenassist | and | bmi | bsf | bt | call | cmovcc | cmp
  | cmpxchg | cmpxchg8b16b | dec | div | idiv | imul | inc | jmp | lea | mov | movaps
  | movdq | movss | movsx | movsxd | movups | movzx | mul | neg | nop | not | or
  | pcmpestri | pcmpestrm | pcmpistri | pcmpistrm | pop | popcnt | pshufb | push | rol
  | ror | roundsd | roundss | sar | sbb | setcc | shl | shr | sse2ArithPd | sse2CmpPd
  | sse2Convert | sse2IntArith | sse2IntCmp | sse2IntLogic | sse2LogicPd | sse2MathPd
  | sse2Misc | sse2MovInt | sse2MovPd | sse2Pack | sse2ScalarConvert | sse2Shift
  | sse2Shuffle | sse2StoreMisc | sseArith | sseCmp | sseConvert | sseLogic | sseMath
  | sseMisc | sseMovMisc | sseShuffle | sseState | sub | test | x87Control | x87Status
  | xadd | xchg | xor | xorps
  deriving DecidableEq, Repr

namespace ModrmDecoder

/-- The encodings for which a decoder has raised `#UD` before it is through: it returns
behind the ModRM byte, or reads on as if the operand were in memory.  The checks that the
other decoders make (for `LOCK`, or for a form that the opcode does not have) come behind
the last byte. -/
def refuses (decoder : ModrmDecoder) (modrm : U8) : Bool :=
  match decoder with
  | common allowRegisterForm => modField modrm == 3 && !allowRegisterForm
  | nop => regField modrm != 0
  | cmpxchg8b16b => regField modrm != 1 || modField modrm == 3
  | _ => false

/-- The end of all decoders: the size of the displacement, and its bytes. -/
def takeDisplacement (op : MemOperand) (used : ℕ) (rest : List U8) : Option ℕ :=
  if rest.length < op.dispSize then none else some (used + op.dispSize)

/-- The bytes behind a ModRM byte, whose SIB byte is there if `hasSib` says so. -/
def takeOperand (hasSib : Bool) (addressSize : ℕ) (modrm : U8) (rest : List U8) : Option ℕ :=
  let op : MemOperand := ⟨addressSize, true, modrm, false, 0, 0⟩
  if hasSib then
    match rest with
    | [] => none
    | sib :: rest => takeDisplacement { op with hasSib := true, sib := sib } 2 rest
  else takeDisplacement op 1 rest

/-- The number of bytes that a decoder takes; `none` when there are not enough. -/
def consumed (decoder : ModrmDecoder) (addressSize : ℕ) : List U8 → Option ℕ
  | [] => none
  | modrm :: rest =>
    let hasSib := rmField modrm == 4 && addressSize != 16
    match decoder with
    | common allowRegisterForm =>
      if modField modrm = 3 ∧ allowRegisterForm = false then some 1
      else takeOperand (modField modrm != 3 && hasSib) addressSize modrm rest
    | nop =>
      if regField modrm ≠ 0 then some 1
      else takeOperand (modField modrm != 3 && hasSib) addressSize modrm rest
    -- a register form has been refused here, but a SIB byte is read behind it all the same
    | cmpxchg8b16b => takeOperand hasSib addressSize modrm rest
    | _ => takeOperand (modField modrm != 3 && hasSib) addressSize modrm rest

end ModrmDecoder

/-! ## The architecture -/

/-- The number of bytes of an operand in the architecture, also of a register; `none` when
they are not all there. -/
def archConsumed (addressSize : ℕ) (code : List U8) : Option ℕ :=
  match code with
  | [] => none
  | modrm :: _ =>
    let length := if modField modrm = 3 then 1 else archOperandLength addressSize code
    if code.length < length then none else some length

/-- The encodings of 16-bit addresses that the decoders take for one another: a displacement
alone, and `[DI]`. -/
def SwapsDisplacement (addressSize : ℕ) (modrm : U8) : Prop :=
  addressSize = 16 ∧ modField modrm = 0 ∧ (rmField modrm = 5 ∨ rmField modrm = 6)

/-! ## The law -/

section Length

variable {modrm : U8} {rest : List U8} {size : ℕ}

/-- A decoder that does not refuse the encoding takes its operand as all of them do. -/
theorem consumed_of_not_refuses {decoder : ModrmDecoder} (h : decoder.refuses modrm = false) :
    decoder.consumed size (modrm :: rest) =
      ModrmDecoder.takeOperand (modField modrm != 3 && (rmField modrm == 4 && size != 16))
        size modrm rest := by
  cases decoder
  case common allowRegisterForm =>
    rw [ModrmDecoder.consumed, if_neg]
    rintro ⟨hmod, rfl⟩
    simp [ModrmDecoder.refuses, hmod] at h
  case nop =>
    rw [ModrmDecoder.consumed, if_neg]
    simpa [ModrmDecoder.refuses] using h
  case cmpxchg8b16b =>
    have hmod : (modField modrm != 3) = true := by
      have h := (Bool.or_eq_false_iff.mp h).2
      simpa using h
    rw [ModrmDecoder.consumed, hmod, Bool.true_and]
  all_goals rfl

/-- What a decoder takes is what `decodeModrm` takes. -/
theorem takeDisplacement_eq (op : MemOperand) (used : ℕ) (rest : List U8) :
    ModrmDecoder.takeDisplacement op used rest =
      if (decodeDisplacement op used rest).complete then
        some (decodeDisplacement op used rest).used
      else none := by
  unfold ModrmDecoder.takeDisplacement decodeDisplacement
  by_cases hshort : rest.length < op.dispSize
  · rw [if_pos hshort, if_pos hshort]
    rfl
  · rw [if_neg hshort, if_neg hshort]
    rfl

/-- The length of an operand is the number of bytes behind which its decoder goes on. -/
theorem consumed_eq_used {decoder : ModrmDecoder} (h : decoder.refuses modrm = false) :
    decoder.consumed size (modrm :: rest) =
      if (decodeModrm size (modrm :: rest)).complete then
        some (decodeModrm size (modrm :: rest)).used
      else none := by
  rw [consumed_of_not_refuses h]
  by_cases hsib : modField modrm ≠ 3 ∧ rmField modrm = 4 ∧ size ≠ 16
  · have hhas : (modField modrm != 3 && (rmField modrm == 4 && size != 16)) = true := by
      simp [hsib]
    rw [hhas]
    match rest with
    | [] => simp [ModrmDecoder.takeOperand, decodeModrm, hsib]
    | sib :: rest =>
      rw [decodeModrm_sib hsib]
      exact takeDisplacement_eq _ 2 rest
  · have hhas : (modField modrm != 3 && (rmField modrm == 4 && size != 16)) = false := by
      rw [← Bool.not_eq_true]
      intro hhas
      apply hsib
      simpa using hhas
    rw [hhas, decodeModrm_plain hsib]
    exact takeDisplacement_eq _ 1 rest

/-- A register form has neither a SIB byte nor a displacement. -/
theorem takeOperand_register (hmod : modField modrm = 3) :
    ModrmDecoder.takeOperand false size modrm rest = some 1 := by
  unfold ModrmDecoder.takeOperand ModrmDecoder.takeDisplacement MemOperand.dispSize
  simp [hmod]

/-- Without a SIB byte, the displacement decides about the length. -/
theorem takeOperand_plain :
    ModrmDecoder.takeOperand false size modrm rest =
      let n := (⟨size, true, modrm, false, 0, 0⟩ : MemOperand).dispSize
      if rest.length < n then none else some (1 + n) :=
  rfl

/-- The length with a SIB byte. -/
theorem takeOperand_sib (hsize : size ≠ 16) (hsib : rmField modrm = 4)
    (hmod : modField modrm ≠ 3) :
    ModrmDecoder.takeOperand true size modrm rest = archConsumed size (modrm :: rest) := by
  have hlength : archOperandLength size (modrm :: rest) =
      2 + if modField modrm = 0 ∧ rest.head?.map rmField = some 5 then 4
        else archDisplacementSize (modField modrm) 4 := by
    unfold archOperandLength
    dsimp only
    rw [if_neg hsize, if_pos hsib]
  unfold archConsumed
  dsimp only
  rw [if_neg hmod, hlength]
  match rest with
  | [] =>
    rw [if_pos (by simp only [List.length_cons, List.length_nil]; omega)]
    rfl
  | sib :: rest =>
    have hdisp := @dispSize_sib modrm size hsize sib hsib
    simp only [List.head?_cons, Option.map_some, Option.some.injEq, ← hdisp]
    unfold ModrmDecoder.takeOperand ModrmDecoder.takeDisplacement
    dsimp only [if_true]
    simp only [List.length_cons, if_true]
    split_ifs <;> first | rfl | omega

/-- The displacement of the operand in the architecture, without a SIB byte. -/
def plainDisplacement (size : ℕ) (modrm : U8) : ℕ :=
  if size = 16 then
    if modField modrm = 0 ∧ rmField modrm = 6 then 2
    else archDisplacementSize (modField modrm) 2
  else if modField modrm = 0 ∧ rmField modrm = 5 then 4
  else archDisplacementSize (modField modrm) 4

/-- The length of a memory operand without a SIB byte. -/
theorem archConsumed_plain (hmod : modField modrm ≠ 3) (hsib : ¬ (rmField modrm = 4 ∧ size ≠ 16)) :
    archConsumed size (modrm :: rest) =
      let n := plainDisplacement size modrm
      if rest.length < n then none else some (1 + n) := by
  have hlength : archOperandLength size (modrm :: rest) = 1 + plainDisplacement size modrm := by
    unfold archOperandLength plainDisplacement
    dsimp only
    by_cases hsize : size = 16
    · rw [if_pos hsize, if_pos hsize]
    · rw [if_neg hsize, if_neg hsize, if_neg (fun h => hsib ⟨h, hsize⟩)]
  unfold archConsumed
  dsimp only
  rw [if_neg hmod, hlength]
  simp only [List.length_cons]
  split_ifs <;> first | rfl | omega

/-- The two displacements agree but for the forms that the decoders take for one another. -/
theorem dispSize_eq_iff :
    (⟨size, true, modrm, false, 0, 0⟩ : MemOperand).dispSize = plainDisplacement size modrm ↔
      ¬ SwapsDisplacement size modrm := by
  unfold SwapsDisplacement plainDisplacement
  by_cases hdirect : modField modrm = 0 ∧ rmField modrm = 5
  · have hdisp : (⟨size, true, modrm, false, 0, 0⟩ : MemOperand).dispSize =
        if size = 16 then 2 else 4 := by
      unfold MemOperand.dispSize
      rw [if_pos hdirect]
    rw [hdisp]
    by_cases hsize : size = 16
    · simp [hsize, hdirect, archDisplacementSize]
    · simp [hsize, hdirect]
  · rw [dispSize_plain rfl hdirect]
    by_cases hsize : size = 16
    · by_cases habsolute : modField modrm = 0 ∧ rmField modrm = 6
      · simp [hsize, habsolute, archDisplacementSize]
      · rw [if_pos hsize, if_pos hsize, if_neg habsolute]
        simp only [hsize, true_and]
        constructor
        · rintro - ⟨hmod, hrm | hrm⟩
          · exact hdirect ⟨hmod, hrm⟩
          · exact habsolute ⟨hmod, hrm⟩
        · rintro -
          trivial
    · simp [hsize, hdirect]

/-- One of the two forms has no displacement, so that its bytes are always there. -/
theorem dispSize_zero_of_swaps (h : SwapsDisplacement size modrm) :
    (⟨size, true, modrm, false, 0, 0⟩ : MemOperand).dispSize = 0 ∨
      plainDisplacement size modrm = 0 := by
  obtain ⟨hsize, hmod, hrm | hrm⟩ := h
  · right
    simp [plainDisplacement, archDisplacementSize, hsize, hmod, hrm]
  · left
    simp [MemOperand.dispSize, hmod, hrm]

/-- Two displacements of which one is empty give one length only if both are. -/
theorem length_eq_iff {m n : ℕ} (used : ℕ) (h : m = n ∨ m = 0 ∨ n = 0) :
    ((if rest.length < m then none else some (used + m)) =
      if rest.length < n then none else some (used + n)) ↔ m = n := by
  constructor
  · intro heq
    split_ifs at heq with hm hn
    · omega
    · have := Option.some.inj heq
      omega
  · rintro rfl
    rfl

/-- **The length of an operand.**  The bytes that a decoder takes for an encoding that it
does not refuse are those of the architecture if and only if the encoding is not one of
those of 16-bit addresses that the decoders take for one another. -/
theorem operand_length_iff (decoder : ModrmDecoder) (size : ℕ) (modrm : U8) (rest : List U8) :
    (decoder.refuses modrm = false →
        decoder.consumed size (modrm :: rest) = archConsumed size (modrm :: rest)) ↔
      (decoder.refuses modrm = false → ¬ SwapsDisplacement size modrm) := by
  apply imp_congr_right
  intro h
  rw [consumed_of_not_refuses h]
  by_cases hmod : modField modrm = 3
  · have hswaps : ¬ SwapsDisplacement size modrm := by
      rintro ⟨-, hzero, -⟩
      omega
    have harch : archConsumed size (modrm :: rest) = some 1 := by
      simp [archConsumed, hmod]
    have hhas : (modField modrm != 3 && (rmField modrm == 4 && size != 16)) = false := by
      simp [hmod]
    simp only [hhas, takeOperand_register hmod, harch, true_iff]
    exact hswaps
  · by_cases hsib : rmField modrm = 4 ∧ size ≠ 16
    · have hswaps : ¬ SwapsDisplacement size modrm := by
        rintro ⟨hsize, -⟩
        exact hsib.2 hsize
      have hhas : (modField modrm != 3 && (rmField modrm == 4 && size != 16)) = true := by
        simp [hmod, hsib]
      simp only [hhas, takeOperand_sib hsib.2 hsib.1 hmod, true_iff]
      exact hswaps
    · have hhas : (modField modrm != 3 && (rmField modrm == 4 && size != 16)) = false := by
        rw [← Bool.not_eq_true]
        intro hhas
        apply hsib
        simpa [hmod] using hhas
      have hzero : (⟨size, true, modrm, false, 0, 0⟩ : MemOperand).dispSize =
          plainDisplacement size modrm ∨
          (⟨size, true, modrm, false, 0, 0⟩ : MemOperand).dispSize = 0 ∨
          plainDisplacement size modrm = 0 := by
        by_cases hswaps : SwapsDisplacement size modrm
        · exact Or.inr (dispSize_zero_of_swaps hswaps)
        · exact Or.inl (dispSize_eq_iff.mpr hswaps)
      rw [hhas, takeOperand_plain, archConsumed_plain hmod hsib, ← dispSize_eq_iff]
      exact length_eq_iff 1 hzero

/-- `MOV EAX, [0x1234]` with a 16-bit address: the decoder stops in front of the two bytes
of the displacement, and the next instruction begins with them. -/
theorem mov_absolute_length :
    ¬ ∀ (decoder : ModrmDecoder) (size : ℕ) (modrm : U8) (rest : List U8),
      decoder.refuses modrm = false →
        decoder.consumed size (modrm :: rest) = archConsumed size (modrm :: rest) := by
  intro h
  have hmov : ModrmDecoder.mov.consumed 16 [0x06, 0x34, 0x12] =
      archConsumed 16 [0x06, 0x34, 0x12] := h .mov 16 0x06 [0x34, 0x12] rfl
  -- the decoder has taken one byte, where the operand has three
  revert hmov
  decide

end Length

end Cpueaxh
