/-
# Bit scans

`BSF`, `BSR`, `TZCNT`, `LZCNT` and `POPCNT`, and the opcode `F3` of `instructions/bmi.hpp`, behind
their decoders.  `TZCNT` finds the lowest set bit and `BLSR` clears it, so that the two take the
set bits of a register one after another, as many as `POPCNT` counts; `BSR` and `LZCNT` find the
highest one.
-/
import Cpueaxh.BitMoves

namespace Cpueaxh

open HostMemory SetBits

/-! ## The loops -/

/-- The loops from the lowest bit on, with the bits that are left. -/
def scanUp (value : U64) : ℕ → ℕ → Option ℕ
  | 0, _ => none
  | left + 1, bit =>
    if (value >>> bit) &&& 1 != 0 then some bit else scanUp value left (bit + 1)

/-- The loops from the highest bit on. -/
def scanDown (value : U64) : ℕ → Option ℕ
  | 0 => none
  | bit + 1 => if (value >>> bit) &&& 1 != 0 then some bit else scanDown value bit

/-- `scan_forward_bsf`. -/
def scanForwardBsf (value : U64) (operandSize : ℕ) : ℕ := (scanUp value operandSize 0).getD 0

/-- `scan_reverse_bsf`. -/
def scanReverseBsf (value : U64) (operandSize : ℕ) : ℕ := (scanDown value operandSize).getD 0

/-- `count_trailing_zeros_bsf`. -/
def countTrailingZerosBsf (value : U64) (operandSize : ℕ) : ℕ :=
  (scanUp value operandSize 0).getD operandSize

/-- `count_leading_zeros_bsf`. -/
def countLeadingZerosBsf (value : U64) (operandSize : ℕ) : ℕ :=
  match scanDown value operandSize with
  | some bit => operandSize - 1 - bit
  | none => operandSize

/-- The loop of `popcnt_count_bits`, with the bits that are left. -/
def popcntLoop (value : U64) : ℕ → ℕ → U64 → U64
  | 0, _, count => count
  | left + 1, bit, count => popcntLoop value left (bit + 1) (count + ((value >>> bit) &&& 1))

/-- `popcnt_count_bits`. -/
def popcntCountBits (value : U64) (operandSize : ℕ) : U64 := popcntLoop value operandSize 0 0

/-! ## The instructions -/

/-- The operand size of `decode_bsf_instruction` and `decode_popcnt_instruction`. -/
def bsfOperandSize (ctx : CpuContext) : OperandWidth :=
  if ctx.prefixBits.rexW then .qword
  else if ctx.prefixBits.operandSizeOverride then .word
  else .dword

/-- The direction of a scan: the opcodes `BC` and `BD`. -/
inductive ScanOp where
  | forward | reverse
  deriving DecidableEq, Repr

/-- `f3_is_tzcnt_lzcnt`: with the prefix and the feature the zeros are counted.  The answers of
`cpu_has_bmi1_feature` and `cpu_has_lzcnt_feature` are the host's. -/
def ScanOp.countsZeros (op : ScanOp) (hasBmi1 hasLzcnt f3 : Bool) : Bool :=
  match op with
  | forward => f3 && hasBmi1
  | reverse => f3 && hasLzcnt

/-- The end of `execute_bsf_with_decoded`, behind the source. -/
def writeBsf (zeros : Bool) (op : ScanOp) (modrm : U8) (source : U64) (ctx : CpuContext) :
    CpuContext :=
  let size := bsfOperandSize ctx
  let reg := decodeRegIndex ctx modrm
  if zeros then
    let result := match op with
      | .forward => countTrailingZerosBsf source size.bits
      | .reverse => countLeadingZerosBsf source size.bits
    let ctx := setRegister size ctx reg (BitVec.ofNat 64 result)
    let ctx := setFlag ctx rflagsCf (source == 0)
    setFlag ctx rflagsZf (result == 0)
  else if source = 0 then setFlag ctx rflagsZf true
  else
    let result := match op with
      | .forward => scanForwardBsf source size.bits
      | .reverse => scanReverseBsf source size.bits
    let ctx := setRegister size ctx reg (BitVec.ofNat 64 result)
    setFlag ctx rflagsZf false

/-- `execute_bsf_with_decoded`. -/
def executeBsfWithDecoded (hasBmi1 hasLzcnt : Bool) (op : ScanOp) (f3 : Bool)
    (operand : RmOperand) : CpuProgram Unit := do
  let ctx ← getContext
  let size := bsfOperandSize ctx
  let value ← readRmOperand operand size
  if ← cpuHasException then return ()
  let zeros := op.countsZeros hasBmi1 hasLzcnt f3
  modifyContext (writeBsf zeros op operand.modrm (value &&& operandMask size))

/-- The end of `execute_popcnt_with_decoded`, behind the source. -/
def writePopcnt (modrm : U8) (source : U64) (ctx : CpuContext) : CpuContext :=
  let size := bsfOperandSize ctx
  let result := popcntCountBits source size.bits
  let ctx := setRegister size ctx (decodeRegIndex ctx modrm) result
  let ctx := setFlag ctx rflagsCf false
  let ctx := setFlag ctx rflagsPf false
  let ctx := setFlag ctx rflagsAf false
  let ctx := setFlag ctx rflagsZf (source == 0)
  let ctx := setFlag ctx rflagsSf false
  setFlag ctx rflagsOf false

/-- `execute_popcnt_with_decoded`.  The answer of `cpu_has_popcnt_feature` is the host's. -/
def executePopcntWithDecoded (hasPopcnt : Bool) (operand : RmOperand) : CpuProgram Unit := do
  if !hasPopcnt then raiseUd
  else
    let ctx ← getContext
    let source ← readRmOperand operand (bsfOperandSize ctx)
    if ← cpuHasException then return ()
    modifyContext (writePopcnt operand.modrm source)

/-- The instructions under the opcode `F3`. -/
inductive LowestBitOp where
  | blsr | blsmsk | blsi
  deriving DecidableEq, Repr

/-- The instruction of the `reg` field; the others are not handled. -/
def lowestBitOp (modrm : U8) : Option LowestBitOp :=
  match regField modrm with
  | 1 => some .blsr
  | 2 => some .blsmsk
  | 3 => some .blsi
  | _ => none

/-- The result of an instruction, and its carry. -/
def LowestBitOp.result (op : LowestBitOp) (source : U64) : U64 × Bool :=
  match op with
  | blsr => (source &&& (source - 1), source == 0)
  | blsmsk => (source ^^^ (source - 1), source == 0)
  | blsi => (source &&& (~~~source + 1), source != 0)

/-- `bmi_sign_mask`. -/
def bmiSignMask (size : OperandWidth) : U64 :=
  if size = .qword then 0x8000000000000000 else 0x80000000

/-- `bmi_update_zf_sf`. -/
def bmiUpdateZfSf (ctx : CpuContext) (result : U64) (size : OperandWidth) : CpuContext :=
  let value := result &&& bmiOperandMask size
  let ctx := setFlag ctx rflagsZf (value == 0)
  setFlag ctx rflagsSf (value &&& bmiSignMask size != 0)

/-- `bmi_set_logic_flags`. -/
def bmiSetLogicFlags (ctx : CpuContext) (result : U64) (size : OperandWidth) : CpuContext :=
  let ctx := bmiUpdateZfSf ctx result size
  let ctx := setFlag ctx rflagsOf false
  let ctx := setFlag ctx rflagsAf false
  setFlag ctx rflagsPf (calcParity (result.setWidth 8))

/-- The end of the opcode `F3`, behind the source. -/
def writeLowestBit (op : LowestBitOp) (dest : Fin 16) (source : U64) (ctx : CpuContext) :
    CpuContext :=
  let size := bmiOperandSize ctx
  let ctx := setFlag ctx rflagsCf (op.result source).2
  let result := (op.result source).1 &&& bmiOperandMask size
  let ctx := setRegister size ctx dest result
  bmiSetLogicFlags ctx result size

/-- The opcode `F3` of `try_execute_bmi_vex`, and whether it is handled.  The answer of
`bmi_has_bmi1_feature` is the host's; `dest` is the register of the prefix. -/
def executeLowestBit (hasBmi1 is256 : Bool) (operand : RmOperand) (dest : Fin 16) :
    CpuProgram Bool := do
  if is256 || !hasBmi1 then
    raiseUd
    return true
  else
    match lowestBitOp operand.modrm with
    | none => return false
    | some op =>
      let ctx ← getContext
      let size := bmiOperandSize ctx
      let value ← readRmOperand operand size
      if ← cpuHasException then return true
      modifyContext (writeLowestBit op dest (value &&& bmiOperandMask size))
      return true

/-- `TZCNT` and `BLSR` in turn, until `TZCNT` sets the carry: what it has found. -/
def takeBits (scan clear : RmOperand) (source : Fin 16) : ℕ → CpuProgram (Option (List U64))
  | 0 => return none
  | turns + 1 => do
    executeBsfWithDecoded true true .forward true scan
    let ctx ← getContext
    if ctx.rflags &&& rflagsCf != 0 then return some []
    let bit := getRegister (bsfOperandSize ctx) ctx (decodeRegIndex ctx scan.modrm)
    let _ ← executeLowestBit true false clear source
    match ← takeBits scan clear source turns with
    | none => return none
    | some rest => return some (bit :: rest)

/-! ## What the loops find -/

/-- One bit of a value. -/
theorem shifted_bit (value : U64) (bit : ℕ) :
    (value >>> bit) &&& 1 = if value.getLsbD bit then 1 else 0 := by
  have hone : ∀ i, (1 : U64).getLsbD i = decide (i = 0) := fun i => BitVec.getLsbD_one
  apply BitVec.eq_of_getLsbD_eq
  intro i _
  rw [BitVec.getLsbD_and, BitVec.getLsbD_ushiftRight, hone]
  by_cases hi : i = 0
  · subst hi
    cases value.getLsbD bit <;> rfl
  · rw [decide_eq_false hi, Bool.and_false]
    split_ifs
    · rw [hone, decide_eq_false hi]
    · exact BitVec.getLsbD_zero.symm

theorem shifted_bit_ne_zero (value : U64) (bit : ℕ) :
    ((value >>> bit) &&& 1 != 0) = value.getLsbD bit := by
  rw [shifted_bit]
  cases value.getLsbD bit <;> rfl

theorem scanUp_eq (value : U64) (left : ℕ) : ∀ bit,
    scanUp value left bit = ((List.range' bit left).filter value.getLsbD).head? := by
  induction left with
  | zero => exact fun _ => rfl
  | succ left ih =>
    intro bit
    rw [scanUp, shifted_bit_ne_zero, List.range'_succ, List.filter_cons]
    split_ifs
    · rfl
    · exact ih (bit + 1)

theorem scanDown_eq (value : U64) (bits : ℕ) :
    scanDown value bits = ((List.range bits).filter value.getLsbD).getLast? := by
  induction bits with
  | zero => rfl
  | succ bits ih =>
    rw [scanDown, shifted_bit_ne_zero, List.range_succ, List.filter_append, List.filter_cons]
    split_ifs with hbit
    · rw [List.filter_nil, List.getLast?_concat]
    · rw [List.filter_nil, List.append_nil]
      exact ih

theorem popcntLoop_eq (value : U64) (left : ℕ) : ∀ bit count,
    popcntLoop value left bit count =
      count + BitVec.ofNat 64 ((List.range' bit left).filter value.getLsbD).length := by
  induction left with
  | zero => exact fun bit count => (BitVec.add_zero count).symm
  | succ left ih =>
    intro bit count
    rw [popcntLoop, ih, shifted_bit, List.range'_succ, List.filter_cons]
    split_ifs
    · rw [List.length_cons, BitVec.add_assoc, BitVec.ofNat_add, BitVec.add_comm (1 : U64)]
      rfl
    · exact congrArg (· + _) (BitVec.add_zero count)

section Found

variable {value : U64} {size : OperandWidth} (h : value.toNat < 2 ^ size.bits)

include h

/-- The set bits of a value of a size. -/
theorem positions_of_lt : positions value = (List.range size.bits).filter value.getLsbD := by
  have hle := size.le_sixtyFour
  obtain ⟨above, habove⟩ : ∃ above, 64 = size.bits + above := ⟨64 - size.bits, by omega⟩
  have hnone : ((List.range above).map (size.bits + ·)).filter value.getLsbD = [] := by
    rw [List.filter_eq_nil_iff]
    intro i hi
    obtain ⟨j, -, rfl⟩ := List.mem_map.mp hi
    have hbit : value.getLsbD (size.bits + j) = false :=
      Nat.testBit_lt_two_pow (h.trans_le (Nat.pow_le_pow_right (by decide) (by omega)))
    rw [hbit]
    decide
  unfold positions
  rw [show List.range 64 = List.range size.bits ++ (List.range above).map (size.bits + ·) by
    rw [← List.range_add, ← habove], List.filter_append, hnone, List.append_nil]

theorem scanUp_positions : scanUp value size.bits 0 = (positions value).head? := by
  rw [scanUp_eq, positions_of_lt h, List.range_eq_range']

theorem scanDown_positions : scanDown value size.bits = (positions value).getLast? := by
  rw [scanDown_eq, positions_of_lt h]

theorem popcntCountBits_eq : popcntCountBits value size.bits = BitVec.ofNat 64 (popcount value) := by
  unfold popcntCountBits popcount
  rw [popcntLoop_eq, positions_of_lt h, List.range_eq_range']
  exact BitVec.zero_add _

end Found

/-! ## The contexts behind the instructions -/

/-- Writing a flag changes the flags only. -/
theorem setFlag_frame (ctx : CpuContext) (flag : U64) (value : Bool) :
    setFlag ctx flag value = { ctx with rflags := (setFlag ctx flag value).rflags } := by
  unfold setFlag
  split_ifs <;> rfl

/-- A context with other registers and flags. -/
def CpuContext.withRegs (ctx : CpuContext) (regs : Fin 16 → U64) (rflags : U64) : CpuContext :=
  { ctx with regs := regs, rflags := rflags }

/-- Flags and a register that are written one after another. -/
theorem setFlag_withRegs (ctx : CpuContext) (regs : Fin 16 → U64) (rflags flag : U64)
    (value : Bool) : ∃ rflags', setFlag (ctx.withRegs regs rflags) flag value =
      ctx.withRegs regs rflags' :=
  ⟨_, setFlag_frame _ _ _⟩

theorem withRegs_self (ctx : CpuContext) : ctx.withRegs ctx.regs ctx.rflags = ctx := rfl

section Contexts

variable {size : OperandWidth} (hsize : size = .dword ∨ size = .qword)

include hsize

/-- What a write of a register leaves in the registers. -/
theorem setRegister_withRegs (ctx : CpuContext) (regs : Fin 16 → U64) (rflags : U64) (reg : Fin 16)
    (value : U64) : setRegister size (ctx.withRegs regs rflags) reg value =
      ctx.withRegs (Function.update regs reg (regMerge size.bits (regs reg) value)) rflags := by
  rcases hsize with rfl | rfl <;> rfl

theorem getRegister_withRegs (ctx : CpuContext) (regs : Fin 16 → U64) (rflags : U64) (reg : Fin 16) :
    getRegister size (ctx.withRegs regs rflags) reg = truncateTo size.bits (regs reg) := by
  rcases hsize with rfl | rfl <;> rfl

/-- A register of the size behind a write of the size. -/
theorem truncateTo_merged (old : U64) {value : U64} (h : value.toNat < 2 ^ size.bits) :
    truncateTo size.bits (regMerge size.bits old value) = value := by
  have hbits : size.bits = 16 ∨ size.bits = 32 ∨ size.bits = 64 := by
    rcases hsize with rfl | rfl <;> decide
  rw [truncateTo_regMerge hbits]
  apply BitVec.eq_of_toNat_eq
  rw [truncateTo_toNat hbits, Nat.mod_eq_of_lt h]

/-- `TZCNT`, on any registers and flags of a context. -/
theorem writeBsf_withRegs {ctx : CpuContext} (hexc : ctx.hasException = false)
    (hctx : bsfOperandSize ctx = size) (modrm : U8) (source : U64) (regs : Fin 16 → U64)
    (rflags : U64) :
    ∃ rflags', writeBsf true .forward modrm source (ctx.withRegs regs rflags) =
        ctx.withRegs (Function.update regs (decodeRegIndex ctx modrm)
          (regMerge size.bits (regs (decodeRegIndex ctx modrm))
            (BitVec.ofNat 64 (countTrailingZerosBsf source size.bits)))) rflags' ∧
      (rflags' &&& rflagsCf != 0) = (source == 0) := by
  have hset : ∀ regs rflags flag value, setFlag (ctx.withRegs regs rflags) flag value =
      ctx.withRegs regs (withFlag rflags flag value) := fun regs rflags flag value =>
    @setFlag_eq (ctx.withRegs regs rflags) hexc flag value
  have hwrite : writeBsf true .forward modrm source (ctx.withRegs regs rflags) =
      setFlag (setFlag (setRegister size (ctx.withRegs regs rflags) (decodeRegIndex ctx modrm)
        (BitVec.ofNat 64 (countTrailingZerosBsf source size.bits))) rflagsCf (source == 0)) rflagsZf
          (countTrailingZerosBsf source size.bits == 0) := by
    rw [← hctx]
    rfl
  refine ⟨withFlag (withFlag rflags rflagsCf (source == 0)) rflagsZf
    (countTrailingZerosBsf source size.bits == 0), ?_, ?_⟩
  · rw [hwrite, setRegister_withRegs hsize, hset, hset]
  · have hcf := hasFlag_withFlag (withFlag rflags rflagsCf (source == 0)) .zf .cf
      (countTrailingZerosBsf source size.bits == 0)
    rw [if_neg (by decide)] at hcf
    have hcf' := hasFlag_withFlag rflags .cf .cf (source == 0)
    rw [if_pos rfl] at hcf'
    exact hcf.trans hcf'

/-- `BLSR`, on any registers and flags of a context. -/
theorem writeLowestBit_withRegs (op : LowestBitOp) (ctx : CpuContext)
    (hctx : bmiOperandSize ctx = size) (dest : Fin 16) (source : U64) (regs : Fin 16 → U64)
    (rflags : U64) :
    ∃ rflags', writeLowestBit op dest source (ctx.withRegs regs rflags) =
      ctx.withRegs (Function.update regs dest (regMerge size.bits (regs dest)
        ((op.result source).1 &&& operandMask size))) rflags' := by
  have hmask := bmiOperandMask_eq hsize
  obtain ⟨r₁, h₁⟩ := setFlag_withRegs ctx regs rflags rflagsCf (op.result source).2
  have hwrite : writeLowestBit op dest source (ctx.withRegs regs rflags) =
      bmiSetLogicFlags (setRegister size (setFlag (ctx.withRegs regs rflags) rflagsCf
        (op.result source).2) dest ((op.result source).1 &&& bmiOperandMask size))
          ((op.result source).1 &&& bmiOperandMask size) size := by
    rw [← hctx]
    rfl
  rw [hwrite, hmask, h₁, setRegister_withRegs hsize]
  generalize Function.update regs dest _ = written
  unfold bmiSetLogicFlags bmiUpdateZfSf
  dsimp only
  -- five flags follow
  obtain ⟨r₂, h₂⟩ := setFlag_withRegs ctx written r₁ rflagsZf
    ((op.result source).1 &&& operandMask size &&& bmiOperandMask size == 0)
  rw [h₂]
  obtain ⟨r₃, h₃⟩ := setFlag_withRegs ctx written r₂ rflagsSf
    ((op.result source).1 &&& operandMask size &&& bmiOperandMask size &&& bmiSignMask size != 0)
  rw [h₃]
  obtain ⟨r₄, h₄⟩ := setFlag_withRegs ctx written r₃ rflagsOf false
  rw [h₄]
  obtain ⟨r₅, h₅⟩ := setFlag_withRegs ctx written r₄ rflagsAf false
  rw [h₅]
  exact setFlag_withRegs ctx written r₅ rflagsPf _

/-- `POPCNT`, on any registers and flags of a context. -/
theorem writePopcnt_withRegs (ctx : CpuContext) (hctx : bsfOperandSize ctx = size) (modrm : U8)
    (source : U64) (regs : Fin 16 → U64) (rflags : U64) :
    ∃ rflags', writePopcnt modrm source (ctx.withRegs regs rflags) =
      ctx.withRegs (Function.update regs (decodeRegIndex ctx modrm)
        (regMerge size.bits (regs (decodeRegIndex ctx modrm)) (popcntCountBits source size.bits)))
        rflags' := by
  have hwrite : setRegister (bsfOperandSize (ctx.withRegs regs rflags)) (ctx.withRegs regs rflags)
      (decodeRegIndex (ctx.withRegs regs rflags) modrm)
        (popcntCountBits source (bsfOperandSize (ctx.withRegs regs rflags)).bits) =
      ctx.withRegs (Function.update regs (decodeRegIndex ctx modrm)
        (regMerge size.bits (regs (decodeRegIndex ctx modrm)) (popcntCountBits source size.bits)))
        rflags := by
    rw [← setRegister_withRegs hsize, ← hctx]
    rfl
  unfold writePopcnt
  dsimp only
  rw [hwrite]
  generalize Function.update regs (decodeRegIndex ctx modrm) _ = written
  -- six flags follow
  obtain ⟨r₁, h₁⟩ := setFlag_withRegs ctx written rflags rflagsCf false
  rw [h₁]
  obtain ⟨r₂, h₂⟩ := setFlag_withRegs ctx written r₁ rflagsPf false
  rw [h₂]
  obtain ⟨r₃, h₃⟩ := setFlag_withRegs ctx written r₂ rflagsAf false
  rw [h₃]
  obtain ⟨r₄, h₄⟩ := setFlag_withRegs ctx written r₃ rflagsZf (source == 0)
  rw [h₄]
  obtain ⟨r₅, h₅⟩ := setFlag_withRegs ctx written r₄ rflagsSf false
  rw [h₅]
  exact setFlag_withRegs ctx written r₅ rflagsOf false

end Contexts

/-! ## Runs -/

theorem keepMode_writeBsf (zeros : Bool) (op : ScanOp) (modrm : U8) (source : U64)
    (ctx : CpuContext) :
    ctx.keepMode (writeBsf zeros op modrm source ctx) = writeBsf zeros op modrm source ctx := by
  have hwritten := keepMode_setRegister (bsfOperandSize ctx) ctx (decodeRegIndex ctx modrm)
  unfold writeBsf
  dsimp only
  split_ifs
  · iterate 2 refine keepMode_setFlag ?_ _ _
    exact hwritten _
  · exact keepMode_setFlag rfl _ _
  · exact keepMode_setFlag (hwritten _) _ _

theorem keepMode_writePopcnt (modrm : U8) (source : U64) (ctx : CpuContext) :
    ctx.keepMode (writePopcnt modrm source ctx) = writePopcnt modrm source ctx := by
  unfold writePopcnt
  dsimp only
  iterate 6 refine keepMode_setFlag ?_ _ _
  exact keepMode_setRegister _ _ _ _

variable {cpu : Cpu}

/-- A register as the operand. -/
theorem rmValue_register {operand : RmOperand} (hreg : operand.isRegister = true)
    (size : OperandWidth) : cpu.rmValue operand size =
      .ok (getRegister size cpu.context (decodeRmIndex cpu.context operand.modrm)) := by
  unfold Cpu.rmValue
  rw [if_pos hreg]

section Runs

variable (hm : ManagerOk cpu.memory) (hexc : cpu.context.hasException = false)

include hm hexc

/-- `BSF`, `BSR`, `TZCNT` and `LZCNT`. -/
theorem run_executeBsf (hasBmi1 hasLzcnt : Bool) (op : ScanOp) (f3 : Bool) (operand : RmOperand) :
    (executeBsfWithDecoded hasBmi1 hasLzcnt op f3 operand).run viewOp cpu =
      transferred (do
        let value ← cpu.rmValue operand (bsfOperandSize cpu.context)
        return cpu.edit (writeBsf (op.countsZeros hasBmi1 hasLzcnt f3) op operand.modrm value)) := by
  unfold executeBsfWithDecoded
  rw [Program.run_bind, run_getContext]
  refine run_rmRead hm hexc operand _ fun value hvalue => ?_
  rw [and_operandMask (rmValue_lt hvalue), run_modifyContext, keepMode_writeBsf]
  rfl

/-- `POPCNT`. -/
theorem run_executePopcnt (operand : RmOperand) :
    (executePopcntWithDecoded true operand).run viewOp cpu =
      transferred (do
        let value ← cpu.rmValue operand (bsfOperandSize cpu.context)
        return cpu.edit (writePopcnt operand.modrm value)) := by
  unfold executePopcntWithDecoded
  simp only [Bool.not_true, Bool.false_eq_true, if_false]
  rw [Program.run_bind, run_getContext]
  refine run_rmRead hm hexc operand _ fun value hvalue => ?_
  rw [run_modifyContext, keepMode_writePopcnt]
  rfl

/-- The opcode `F3` on a register. -/
theorem run_executeLowestBit {operand : RmOperand} (hreg : operand.isRegister = true)
    {op : LowestBitOp} (hop : lowestBitOp operand.modrm = some op) (dest : Fin 16) :
    (executeLowestBit true false operand dest).run viewOp cpu =
      (true, cpu.edit fun ctx => ctx.keepMode (writeLowestBit op dest
        (getRegister (bmiOperandSize ctx) ctx (decodeRmIndex ctx operand.modrm)) ctx)) := by
  have hsize := bmiOperandSize_cases cpu.context
  have hlow := and_operandMask (getRegister_lt (bmiOperandSize cpu.context) cpu.context
    (decodeRmIndex cpu.context operand.modrm))
  unfold executeLowestBit
  simp only [Bool.not_true, Bool.false_or, Bool.false_eq_true, if_false, hop]
  rw [Program.run_bind, run_getContext]
  dsimp only
  rw [Program.run_bind, run_readRmOperand hm hexc, rmValue_register hreg]
  dsimp only
  rw [Program.run_bind, run_cpuHasException, hexc]
  simp only [Bool.false_eq_true, if_false]
  rw [Program.run_bind, run_modifyContext, bmiOperandMask_eq hsize, hlow]
  rfl

end Runs

/-! ## The bits one after another -/

/-- The registers behind `TZCNT`. -/
def scannedRegs (size : OperandWidth) (source dest : Fin 16) (regs : Fin 16 → U64) : Fin 16 → U64 :=
  Function.update regs dest (regMerge size.bits (regs dest)
    (BitVec.ofNat 64 (countTrailingZerosBsf (truncateTo size.bits (regs source)) size.bits)))

/-- The registers behind `BLSR`. -/
def clearedRegs (size : OperandWidth) (source : Fin 16) (regs : Fin 16 → U64) : Fin 16 → U64 :=
  Function.update regs source (regMerge size.bits (regs source)
    (clearLowest (truncateTo size.bits (regs source))))

/-- `TZCNT` and `BLSR` of one size work on the register `source`, and `TZCNT` answers in `dest`. -/
structure TakesBits (ctx : CpuContext) (scan clear : RmOperand) (size : OperandWidth)
    (source dest : Fin 16) : Prop where
  scanSize : bsfOperandSize ctx = size
  clearSize : bmiOperandSize ctx = size
  clean : ctx.hasException = false
  scanRegister : scan.isRegister = true
  clearRegister : clear.isRegister = true
  clears : lowestBitOp clear.modrm = some .blsr
  scanSource : decodeRmIndex ctx scan.modrm = source
  clearSource : decodeRmIndex ctx clear.modrm = source
  scanDest : decodeRegIndex ctx scan.modrm = dest
  apart : dest ≠ source

namespace TakesBits

variable {ctx : CpuContext} {scan clear : RmOperand} {size : OperandWidth} {source dest : Fin 16}
  (h : TakesBits ctx scan clear size source dest)

include h

theorem size_cases : size = .dword ∨ size = .qword := h.clearSize ▸ bmiOperandSize_cases ctx

theorem bits_cases : size.bits = 16 ∨ size.bits = 32 ∨ size.bits = 64 := by
  rcases h.size_cases with rfl | rfl <;> decide

theorem truncateTo_lt (value : U64) : (truncateTo size.bits value).toNat < 2 ^ size.bits := by
  rw [truncateTo_toNat h.bits_cases]
  exact Nat.mod_lt _ (Nat.two_pow_pos _)

section Turn

variable (hm : ManagerOk cpu.memory) {regs : Fin 16 → U64} {rflags : U64}
  (hcpu : cpu.context = ctx.withRegs regs rflags)

include hm hcpu

/-- `TZCNT`. -/
theorem run_scan : ∃ rflags',
    (executeBsfWithDecoded true true .forward true scan).run viewOp cpu =
      ((), { cpu with context := ctx.withRegs (scannedRegs size source dest regs) rflags' }) ∧
      (rflags' &&& rflagsCf != 0) = (truncateTo size.bits (regs source) == 0) := by
  have hexc : cpu.context.hasException = false := by
    rw [hcpu]
    exact h.clean
  have hvalue : getRegister (bsfOperandSize cpu.context) cpu.context
      (decodeRmIndex cpu.context scan.modrm) = truncateTo size.bits (regs source) := by
    rw [hcpu, ← getRegister_withRegs h.size_cases ctx regs rflags source, ← h.scanSource,
      ← h.scanSize]
    rfl
  obtain ⟨rflags', hwrite, hcf⟩ := writeBsf_withRegs h.size_cases h.clean h.scanSize scan.modrm
    (truncateTo size.bits (regs source)) regs rflags
  refine ⟨rflags', ?_, hcf⟩
  unfold scannedRegs
  rw [run_executeBsf hm hexc, rmValue_register h.scanRegister, hvalue, ← h.scanDest, ← hwrite,
    ← hcpu]
  rfl

/-- `BLSR`. -/
theorem run_clear : ∃ rflags',
    (executeLowestBit true false clear source).run viewOp cpu =
      (true, { cpu with context := ctx.withRegs (clearedRegs size source regs) rflags' }) := by
  have hexc : cpu.context.hasException = false := by
    rw [hcpu]
    exact h.clean
  have hvalue : getRegister (bmiOperandSize cpu.context) cpu.context
      (decodeRmIndex cpu.context clear.modrm) = truncateTo size.bits (regs source) := by
    rw [hcpu, ← getRegister_withRegs h.size_cases ctx regs rflags source, ← h.clearSource,
      ← h.clearSize]
    rfl
  have hlt : (clearLowest (truncateTo size.bits (regs source))).toNat < 2 ^ size.bits := by
    unfold clearLowest
    rw [BitVec.toNat_and]
    exact lt_of_le_of_lt Nat.and_le_left (h.truncateTo_lt (regs source))
  obtain ⟨rflags', hwrite⟩ := writeLowestBit_withRegs h.size_cases .blsr ctx h.clearSize source
    (truncateTo size.bits (regs source)) regs rflags
  refine ⟨rflags', ?_⟩
  change writeLowestBit .blsr source _ _ = ctx.withRegs (Function.update regs source (regMerge
    size.bits (regs source) (clearLowest _ &&& operandMask size))) rflags' at hwrite
  rw [and_operandMask hlt] at hwrite
  rw [run_executeLowestBit hm hexc h.clearRegister h.clears]
  unfold Cpu.edit
  dsimp only
  rw [hvalue, hcpu, hwrite]
  rfl

end Turn

/-- **The set bits** of a register, one after another. -/
theorem run_takeBits (left : List ℕ) :
    ∀ {turns : ℕ} {cpu : Cpu} {regs : Fin 16 → U64} {rflags : U64},
      ManagerOk cpu.memory → cpu.context = ctx.withRegs regs rflags → left.length < turns →
        positions (truncateTo size.bits (regs source)) = left →
        ∃ regs' rflags', (takeBits scan clear source turns).run viewOp cpu =
            (some (left.map (BitVec.ofNat 64)), { cpu with context := ctx.withRegs regs' rflags' }) ∧
          truncateTo size.bits (regs' source) = 0 ∧
          ∀ r, r ≠ source → r ≠ dest → regs' r = regs r := by
  induction left with
  | nil =>
    intro turns cpu regs rflags hm hcpu hturns hleft
    obtain ⟨turns, rfl⟩ : ∃ t, turns = t + 1 := ⟨turns - 1, by omega⟩
    obtain ⟨rflags', hscan, hcf⟩ := h.run_scan hm hcpu
    have hzero : truncateTo size.bits (regs source) = 0 := positions_eq_nil.mp hleft
    have hcarry : ((ctx.withRegs (scannedRegs size source dest regs) rflags').rflags &&&
        rflagsCf != 0) = true := by
      refine hcf.trans ?_
      rw [hzero]
      rfl
    refine ⟨scannedRegs size source dest regs, rflags', ?_, ?_, ?_⟩
    · unfold takeBits
      rw [Program.run_bind, hscan]
      dsimp only
      rw [Program.run_bind, run_getContext]
      dsimp only
      rw [if_pos hcarry]
      rfl
    · unfold scannedRegs
      rw [Function.update_of_ne h.apart.symm]
      exact hzero
    · intro r _ hr
      exact Function.update_of_ne hr _ _
  | cons p rest ih =>
    intro turns cpu regs rflags hm hcpu hturns hleft
    obtain ⟨turns, rfl⟩ : ∃ t, turns = t + 1 := ⟨turns - 1, by omega⟩
    rw [List.length_cons] at hturns
    obtain ⟨rflags₁, hscan, hcf⟩ := h.run_scan hm hcpu
    have hlt := h.truncateTo_lt (regs source)
    have hcarry : ((ctx.withRegs (scannedRegs size source dest regs) rflags₁).rflags &&&
        rflagsCf != 0) = false := by
      refine hcf.trans ?_
      exact beq_eq_false_iff_ne.mpr (mask_ne_zero hleft)
    -- `TZCNT` finds the lowest of the bits that are left
    have hfound : countTrailingZerosBsf (truncateTo size.bits (regs source)) size.bits = p := by
      unfold countTrailingZerosBsf
      rw [scanUp_positions hlt, hleft]
      rfl
    have hp : (BitVec.ofNat 64 p).toNat < 2 ^ size.bits := by
      have hp64 := BitVec.lt_of_getLsbD (getLsbD_lowest hleft)
      rw [BitVec.toNat_ofNat, Nat.mod_eq_of_lt (by omega)]
      rcases h.size_cases with rfl | rfl
      · show p < 2 ^ 32
        omega
      · show p < 2 ^ 64
        omega
    have hbit : truncateTo size.bits (scannedRegs size source dest regs dest) = BitVec.ofNat 64 p := by
      unfold scannedRegs
      rw [Function.update_self, hfound, truncateTo_merged h.size_cases _ hp]
    have hkept : scannedRegs size source dest regs source = regs source :=
      Function.update_of_ne h.apart.symm _ _
    -- `BLSR` leaves the others
    have hm₁ : ManagerOk ({ cpu with
      context := ctx.withRegs (scannedRegs size source dest regs) rflags₁ } : Cpu).memory := hm
    obtain ⟨rflags₂, hclear⟩ := h.run_clear hm₁ rfl
    have hrest : positions (truncateTo size.bits
        (clearedRegs size source (scannedRegs size source dest regs) source)) = rest := by
      have hclearLt : (clearLowest (truncateTo size.bits (regs source))).toNat < 2 ^ size.bits := by
        unfold clearLowest
        rw [BitVec.toNat_and]
        exact lt_of_le_of_lt Nat.and_le_left hlt
      unfold clearedRegs
      rw [Function.update_self, hkept, truncateTo_merged h.size_cases _ hclearLt]
      exact positions_clearLowest hleft
    have hm₂ : ManagerOk ({ cpu with context := ctx.withRegs (clearedRegs size source
      (scannedRegs size source dest regs)) rflags₂ } : Cpu).memory := hm
    obtain ⟨regs', rflags', hrun, hend, hframe⟩ := @ih turns _ _ _ hm₂ rfl (by omega) hrest
    refine ⟨regs', rflags', ?_, hend, ?_⟩
    · unfold takeBits
      rw [Program.run_bind, hscan]
      dsimp only
      rw [Program.run_bind, run_getContext]
      dsimp only
      rw [hcarry]
      simp only [Bool.false_eq_true, if_false]
      rw [Program.run_bind, hclear]
      dsimp only
      rw [Program.run_bind, hrun]
      dsimp only [Program.run_pure]
      have hscanSize : bsfOperandSize (ctx.withRegs (scannedRegs size source dest regs) rflags₁) =
          size := h.scanSize
      have hscanDest : decodeRegIndex (ctx.withRegs (scannedRegs size source dest regs) rflags₁)
          scan.modrm = dest := h.scanDest
      rw [hscanSize, hscanDest, getRegister_withRegs h.size_cases, hbit, List.map_cons]
    · intro r hr hr'
      rw [hframe r hr hr']
      exact (Function.update_of_ne hr _ _).trans (Function.update_of_ne hr' _ _)

end TakesBits

/-! ## The law -/

/-- Where a scan ends. -/
structure ScanLaw (value : U64) (size : OperandWidth) : Prop where
  zero : value = 0 → countTrailingZerosBsf value size.bits = size.bits ∧
    countLeadingZerosBsf value size.bits = size.bits
  lowest : ∀ p rest, positions value = p :: rest → scanForwardBsf value size.bits = p ∧
    countTrailingZerosBsf value size.bits = p
  highest : ∀ p rest, positions value = rest ++ [p] → scanReverseBsf value size.bits = p ∧
    countLeadingZerosBsf value size.bits = size.bits - 1 - p

theorem scanLaw {value : U64} {size : OperandWidth} (h : value.toNat < 2 ^ size.bits) :
    ScanLaw value size where
  zero hzero := by
    have hnil : positions value = [] := positions_eq_nil.mpr hzero
    unfold countTrailingZerosBsf countLeadingZerosBsf
    rw [scanUp_positions h, scanDown_positions h, hnil]
    exact ⟨rfl, rfl⟩
  lowest p rest hbits := by
    unfold scanForwardBsf countTrailingZerosBsf
    rw [scanUp_positions h, hbits]
    exact ⟨rfl, rfl⟩
  highest p rest hbits := by
    unfold scanReverseBsf countLeadingZerosBsf
    rw [scanDown_positions h, hbits, List.getLast?_concat]
    exact ⟨rfl, rfl⟩

/-- **The set bits** of a register: `TZCNT` and `BLSR` in turn find them all, from the lowest to
the highest, and leave zero in the register, in as many turns as `POPCNT` counts and the one in
which `TZCNT` sets the carry.  Nothing else changes but the flags and the destination. -/
theorem takeBits_law (hm : MemoryOk cpu.memory) {scan clear : RmOperand} {size : OperandWidth}
    {source dest : Fin 16} (h : TakesBits cpu.context scan clear size source dest)
    {value : U64} (hvalue : value = getRegister size cpu.context source) {turns : ℕ}
    (hturns : popcount value < turns) :
    let after := (takeBits scan clear source turns).run cpuOp cpu
    let counted := (executePopcntWithDecoded true scan).run cpuOp cpu
    after.1 = some ((positions value).map (BitVec.ofNat 64)) ∧
      getRegister size after.2.context source = 0 ∧
      (∀ r, r ≠ source → r ≠ dest → after.2.context.regs r = cpu.context.regs r) ∧
      (∃ regs rflags, after.2.context = cpu.context.withRegs regs rflags) ∧
      after.2.memory.host = cpu.memory.host ∧
      getRegister size counted.2.context dest = BitVec.ofNat 64 (positions value).length ∧
      ScanLaw value size := by
  intro after counted
  have hsize := h.size_cases
  have hlow : value = truncateTo size.bits (cpu.context.regs source) := by
    rw [hvalue, ← withRegs_self cpu.context, getRegister_withRegs hsize]
    rfl
  have hlt : value.toNat < 2 ^ size.bits := hlow ▸ h.truncateTo_lt _
  obtain ⟨regs', rflags', hrun, hend, hframe⟩ := h.run_takeBits (positions value) hm.manager
    (withRegs_self cpu.context).symm hturns (by rw [hlow])
  obtain ⟨hanswer, hstate⟩ := run_viewOp (takeBits scan clear source turns) hm
  rw [hrun] at hanswer hstate
  have hcontext : after.2.context = cpu.context.withRegs regs' rflags' := hstate.context_eq
  have hcounted : getRegister size counted.2.context dest =
      BitVec.ofNat 64 (positions value).length := by
    have hcount : (popcntCountBits value size.bits).toNat < 2 ^ size.bits := by
      have hle : popcount value ≤ 64 := popcount_le fun i hi => BitVec.lt_of_getLsbD hi
      have hbig : 2 ^ 32 ≤ 2 ^ size.bits := by
        rcases hsize with rfl | rfl <;> decide
      rw [popcntCountBits_eq hlt, BitVec.toNat_ofNat]
      omega
    obtain ⟨rflags₁, hwrite⟩ := writePopcnt_withRegs hsize cpu.context h.scanSize scan.modrm value
      cpu.context.regs cpu.context.rflags
    have hcountRun : (executePopcntWithDecoded true scan).run viewOp cpu =
        ((), cpu.edit (writePopcnt scan.modrm value)) := by
      rw [run_executePopcnt hm.manager h.clean, rmValue_register h.scanRegister, h.scanSource,
        h.scanSize, ← hvalue]
      rfl
    have hends := (run_viewOp (executePopcntWithDecoded true scan) hm).2
    rw [hcountRun] at hends
    rw [withRegs_self] at hwrite
    show getRegister size ((executePopcntWithDecoded true scan).run cpuOp cpu).2.context dest = _
    rw [hends.context_eq]
    dsimp only [Cpu.edit]
    rw [hwrite, getRegister_withRegs hsize, h.scanDest, Function.update_self,
      truncateTo_merged hsize _ hcount, popcntCountBits_eq hlt]
    rfl
  refine ⟨hanswer, ?_, ?_, ⟨regs', rflags', hcontext⟩, hstate.host_eq, hcounted, scanLaw hlt⟩
  · rw [hcontext, getRegister_withRegs hsize]
    exact hend
  · intro r hr hr'
    rw [hcontext]
    exact hframe r hr hr'

/-- A CPU with the same two bits in all registers. -/
def bitsCpu : Cpu := hostCpu { initCpuContext false with regs := fun _ => 0b1010 } fun _ => 0

/-- `TZCNT ECX, EBX` and `BLSR EBX, EBX` find the two bits of `EBX` and leave it empty; `POPCNT ECX,
EBX` counts them. -/
theorem takeBits_law_example :
    let after := (takeBits ⟨0xCB, 0⟩ ⟨0xCB, 0⟩ 3 3).run cpuOp bitsCpu
    let counted := (executePopcntWithDecoded true ⟨0xCB, 0⟩).run cpuOp bitsCpu
    after.1 = some [1, 3] ∧ getRegister .dword after.2.context 3 = 0 ∧
      after.2.context.regs 0 = 0b1010 ∧ getRegister .dword counted.2.context 1 = 2 := by
  have htakes : TakesBits bitsCpu.context ⟨0xCB, 0⟩ ⟨0xCB, 0⟩ .dword 3 1 := by
    refine ⟨rfl, rfl, rfl, rfl, rfl, rfl, rfl, rfl, rfl, by decide⟩
  have hbits : positions (0b1010 : U64) = [1, 3] := by decide
  have hturns : popcount (0b1010 : U64) < 3 := by decide
  obtain ⟨hfound, hend, hframe, -, -, hcounted, -⟩ := takeBits_law
    (memoryOk_hostCpu { initCpuContext false with regs := fun _ => 0b1010 } fun _ => 0) htakes
    (rfl : (0b1010 : U64) = getRegister .dword bitsCpu.context 3) hturns
  rw [hbits] at hfound hcounted
  exact ⟨hfound, hend, hframe 0 (by decide) (by decide), hcounted⟩

end Cpueaxh
