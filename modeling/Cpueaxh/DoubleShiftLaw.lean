/-
# The law of double shifts

`SHLD` and `SHRD` leave a window of the destination and the source side by side, at the masked
count or, for operands of 16 bits, at the count that is left of it above the width.
-/
import Cpueaxh.DoubleShift
import Cpueaxh.FlagWords

namespace Cpueaxh

open HostMemory SubtractionFlags

/-! ## Windows of two words -/

/-- The destination and the source side by side, as they are shifted. -/
def sideBySide (isShrd : Bool) {n : ℕ} (dest source : BitVec n) : BitVec (n + n) :=
  if isShrd then source ++ dest else dest ++ source

/-- The part of two words that is at the destination after a shift of both. -/
def window (isShrd : Bool) {n : ℕ} (dest source : BitVec n) (count : ℕ) : BitVec n :=
  if isShrd then (sideBySide isShrd dest source >>> count).setWidth n
  else ((sideBySide isShrd dest source <<< count) >>> n).setWidth n

/-- The bit that such a shift moves out last. -/
def lastShifted (isShrd : Bool) {n : ℕ} (dest source : BitVec n) (count : ℕ) : Bool :=
  if isShrd then (sideBySide isShrd dest source).getLsbD (count - 1)
  else (sideBySide isShrd dest source).getLsbD (n + n - count)

theorem getLsbD_window_left {n : ℕ} (x y : BitVec n) {count i : ℕ} (hcount : count ≤ n)
    (hi : i < n) : (window false x y count).getLsbD i =
      if i < count then y.getLsbD (i + n - count) else x.getLsbD (i - count) := by
  show (((x ++ y) <<< count >>> n).setWidth n).getLsbD i = _
  rw [BitVec.getLsbD_setWidth, BitVec.getLsbD_ushiftRight, BitVec.getLsbD_shiftLeft,
    BitVec.getLsbD_append, decide_eq_true hi, decide_eq_true (show n + i < n + n by omega),
    decide_eq_false (show ¬ n + i < count by omega)]
  by_cases hlow : i < count
  · rw [if_pos hlow, if_pos (by omega)]
    simp only [Bool.true_and, Bool.not_false]
    congr 1
    omega
  · rw [if_neg hlow, if_neg (by omega)]
    simp only [Bool.true_and, Bool.not_false]
    congr 1
    omega

theorem getLsbD_window_right {n : ℕ} (x y : BitVec n) {count i : ℕ} (hi : i < n) :
    (window true x y count).getLsbD i =
      if count + i < n then x.getLsbD (count + i) else y.getLsbD (count + i - n) := by
  show (((y ++ x) >>> count).setWidth n).getLsbD i = _
  rw [BitVec.getLsbD_setWidth, BitVec.getLsbD_ushiftRight, BitVec.getLsbD_append,
    decide_eq_true hi, Bool.true_and]

/-- **The value** of the code is the window. -/
theorem shldShrdValue_eq (size : OperandWidth) (isShrd : Bool) (x y : BitVec size.bits) {count : ℕ}
    (hcount : count ≤ size.bits) :
    shldShrdValue size isShrd (x.setWidth 64) (y.setWidth 64) count =
      (window isShrd x y count).setWidth 64 := by
  have hle := size.le_sixtyFour
  apply BitVec.eq_of_getLsbD_eq
  intro i hi
  unfold shldShrdValue
  rw [BitVec.getLsbD_setWidth, decide_eq_true hi, Bool.true_and, BitVec.getLsbD_and,
    getLsbD_operandMask]
  -- bit by bit: each one comes from one of the two operands
  by_cases hsize : i < size.bits
  · rw [decide_eq_true hsize, Bool.and_true]
    have hlow : ∀ j, j < 64 → ∀ z : BitVec size.bits, (z.setWidth 64).getLsbD j = z.getLsbD j := by
      intro j hj z
      rw [BitVec.getLsbD_setWidth, decide_eq_true hj, Bool.true_and]
    cases isShrd with
    | false =>
      rw [getLsbD_window_left x y hcount hsize, if_neg (by decide)]
      -- a count of the full size is a case of its own in the code, where the shift would be too far
      by_cases hfull : count = size.bits
      · rw [if_pos hfull, hlow i hi, if_pos (by omega)]
        congr 1
        omega
      · rw [if_neg hfull, BitVec.getLsbD_or, BitVec.getLsbD_shiftLeft, BitVec.getLsbD_ushiftRight,
          decide_eq_true hi, Bool.true_and, hlow _ (by omega)]
        by_cases hcut : i < count
        · rw [if_pos hcut, decide_eq_true hcut, Bool.not_true, Bool.false_and, Bool.false_or,
            hlow _ (by omega)]
          congr 1
          omega
        · rw [if_neg hcut, decide_eq_false hcut, Bool.not_false, Bool.true_and,
            BitVec.getLsbD_setWidth, y.getLsbD_of_ge _ (by omega), Bool.and_false, Bool.or_false]
    | true =>
      rw [getLsbD_window_right x y hsize, if_pos rfl]
      by_cases hfull : count = size.bits
      · rw [if_pos hfull, hlow i hi, if_neg (by omega)]
        congr 1
        omega
      · rw [if_neg hfull, BitVec.getLsbD_or, BitVec.getLsbD_shiftLeft, BitVec.getLsbD_ushiftRight,
          decide_eq_true hi, Bool.true_and]
        by_cases hcut : count + i < size.bits
        · rw [if_pos hcut, decide_eq_true (by omega), Bool.not_true, Bool.false_and, Bool.or_false,
            hlow _ (by omega)]
        · rw [if_neg hcut, decide_eq_false (by omega), Bool.not_false, Bool.true_and,
            BitVec.getLsbD_setWidth, x.getLsbD_of_ge _ (not_lt.mp hcut), Bool.and_false,
            Bool.false_or, hlow _ (by omega)]
          congr 1
          omega
  · rw [decide_eq_false hsize, Bool.and_false, BitVec.getLsbD_of_ge _ _ (not_lt.mp hsize)]

/-- **The carry** of the code is the bit last moved out. -/
theorem carryBit_eq (size : OperandWidth) (isShrd : Bool) (x y : BitVec size.bits) {count : ℕ}
    (hpos : 0 < count) (hcount : count ≤ size.bits) :
    ((if isShrd then x.setWidth 64 >>> (count - 1) &&& 1
        else x.setWidth 64 >>> (size.bits - count) &&& 1) != 0) =
      lastShifted isShrd x y count := by
  have hle := size.le_sixtyFour
  have hbit : ∀ j, j < size.bits → (x.setWidth 64 >>> j &&& 1 != 0) = x.getLsbD j := by
    intro j hj
    rw [show (1 : U64) = BitVec.twoPow 64 0 from rfl, and_twoPow_ne_zero _ (by decide),
      BitVec.getLsbD_ushiftRight, BitVec.getLsbD_setWidth, decide_eq_true (by omega),
      Bool.true_and, add_zero]
  cases isShrd with
  | false =>
    show (x.setWidth 64 >>> (size.bits - count) &&& 1 != 0) =
      (x ++ y).getLsbD (size.bits + size.bits - count)
    rw [hbit _ (by omega), BitVec.getLsbD_append, if_neg (by omega)]
    congr 1
    omega
  | true =>
    show (x.setWidth 64 >>> (count - 1) &&& 1 != 0) = (y ++ x).getLsbD (count - 1)
    rw [hbit _ (by omega), BitVec.getLsbD_append, if_pos (by omega)]

/-! ## The flags -/

/-- The flags that a double shift should leave. -/
structure DoubleShiftFlags (isShrd : Bool) {n : ℕ} (dest source : BitVec n) (count : ℕ)
    (old new : U64) : Prop where
  cf : hasFlag new .cf = lastShifted isShrd dest source count
  of : count = 1 → hasFlag new .of = (dest.msb ^^ (window isShrd dest source count).msb)
  sf : hasFlag new .sf = (window isShrd dest source count).msb
  zf : hasFlag new .zf = decide (window isShrd dest source count = 0)
  pf : hasFlag new .pf = evenParity (window isShrd dest source count)
  others : SameFlagsBut [.cf, .of, .sf, .zf, .pf] old new

/-- The flags register behind the code. -/
def doubleShiftFlags (rflags : U64) (isShrd : Bool) {n : ℕ} (dest source : BitVec n)
    (count : ℕ) : U64 :=
  let result := window isShrd dest source count
  let rflags := withFlag rflags rflagsCf (lastShifted isShrd dest source count)
  let rflags := if count = 1 then withFlag rflags rflagsOf (dest.msb ^^ result.msb) else rflags
  let rflags := withFlag rflags rflagsSf result.msb
  let rflags := withFlag rflags rflagsZf (decide (result = 0))
  withFlag rflags rflagsPf (evenParity result)

theorem updateFlagsShldShrd_eq {ctx : CpuContext} (hexc : ctx.hasException = false)
    (size : OperandWidth) (isShrd : Bool) (x y : BitVec size.bits) {count : ℕ} (hpos : 0 < count)
    (hcount : count ≤ size.bits) :
    updateFlagsShldShrd size isShrd ctx (x.setWidth 64)
        ((window isShrd x y count).setWidth 64) count =
      { ctx with rflags := doubleShiftFlags ctx.rflags isShrd x y count } := by
  unfold updateFlagsShldShrd doubleShiftFlags
  rw [if_neg (by omega)]
  dsimp only
  rw [carryBit_eq size isShrd x y hpos hcount, and_signMask_ne_zero, and_signMask_ne_zero,
    setWidth_beq_zero, calcParity_setWidth]
  split_ifs
  · rw [setFlag_eq hexc, setFlag_rflags hexc, setFlag_rflags hexc, setFlag_rflags hexc,
      setFlag_rflags hexc]
  · rw [setFlag_eq hexc, setFlag_rflags hexc, setFlag_rflags hexc, setFlag_rflags hexc]

theorem doubleShiftFlags_spec (rflags : U64) (isShrd : Bool) {n : ℕ} (x y : BitVec n)
    (count : ℕ) :
    DoubleShiftFlags isShrd x y count rflags (doubleShiftFlags rflags isShrd x y count) := by
  have hcf : rflagsCf = StatusFlag.cf.mask := rfl
  have hof : rflagsOf = StatusFlag.of.mask := rfl
  have hsf : rflagsSf = StatusFlag.sf.mask := rfl
  have hzf : rflagsZf = StatusFlag.zf.mask := rfl
  have hpf : rflagsPf = StatusFlag.pf.mask := rfl
  unfold doubleShiftFlags
  rw [hcf, hof, hsf, hzf, hpf]
  dsimp only
  refine ⟨?_, ?_, ?_, ?_, ?_, ?_⟩
  · split_ifs <;> simp only [hasFlag_withFlag] <;> rfl
  · rintro rfl
    rw [if_pos rfl]
    simp only [hasFlag_withFlag]
    rfl
  · split_ifs <;> simp only [hasFlag_withFlag] <;> rfl
  · split_ifs <;> simp only [hasFlag_withFlag] <;> rfl
  · split_ifs <;> simp only [hasFlag_withFlag] <;> rfl
  · have hset : SameFlagsBut [.cf, .of, .sf, .zf, .pf] rflags
        (withFlag rflags StatusFlag.cf.mask (lastShifted isShrd x y count)) :=
      (SameFlagsBut.refl _ rflags).withFlag (by decide) _
    split_ifs
    · exact (((hset.withFlag (by decide) _).withFlag (by decide) _).withFlag (by decide) _).withFlag
        (by decide) _
    · exact ((hset.withFlag (by decide) _).withFlag (by decide) _).withFlag (by decide) _

/-! ## The instructions -/

/-- The source of a double shift. -/
def Cpu.shiftSource (cpu : Cpu) (operand : RmOperand) (size : OperandWidth) : BitVec size.bits :=
  (cpu.context.regs (decodeRegIndex cpu.context operand.modrm)).setWidth size.bits

/-- The CPU with the window written. -/
def Cpu.withWindow (cpu : Cpu) (isShrd : Bool) (operand : RmOperand) (size : OperandWidth)
    (value : U64) (count : ℕ) : Except Cpu Cpu :=
  cpu.rmStored operand size
    ((window isShrd (value.setWidth size.bits) (cpu.shiftSource operand size) count).setWidth 64)

/-- What a double shift by a count should do. -/
inductive DoubleShiftOutcome (isShrd : Bool) (operand : RmOperand) (size : OperandWidth)
    (count : ℕ) (cpu : Cpu) : Cpu → Prop where
  | unread {refused : Cpu} (hread : cpu.rmValue operand size = .error refused) :
    DoubleShiftOutcome isShrd operand size count cpu refused
  | same {value : U64} (hread : cpu.rmValue operand size = .ok value) (hzero : count = 0) :
    DoubleShiftOutcome isShrd operand size count cpu cpu
  | unwritten {value : U64} {refused : Cpu} (hread : cpu.rmValue operand size = .ok value)
    (hpos : 0 < count)
    (hstored : cpu.withWindow isShrd operand size value count = .error refused) :
    DoubleShiftOutcome isShrd operand size count cpu refused
  | shifted {value : U64} {stored : Cpu} {rflags : U64}
    (hread : cpu.rmValue operand size = .ok value) (hpos : 0 < count)
    (hstored : cpu.withWindow isShrd operand size value count = .ok stored)
    (hflags : DoubleShiftFlags isShrd (value.setWidth size.bits) (cpu.shiftSource operand size)
      count cpu.context.rflags rflags) :
    DoubleShiftOutcome isShrd operand size count cpu
      (stored.edit fun ctx => { ctx with rflags := rflags })

/-- The CPU behind the code. -/
def Cpu.doubleShifted (cpu : Cpu) (isShrd : Bool) (operand : RmOperand) (size : OperandWidth)
    (count : ℕ) : Except Cpu Cpu := do
  let value ← cpu.rmValue operand size
  if count = 0 then return cpu
  let source := cpu.shiftSource operand size
  let stored ← cpu.withWindow isShrd operand size value count
  return stored.edit fun ctx =>
    { ctx with rflags := doubleShiftFlags ctx.rflags isShrd (value.setWidth size.bits) source count }

variable {cpu : Cpu}

/-- A reduced count is within the width. -/
theorem reducedCount_le (size : OperandWidth) {count : ℕ} (hpos : 0 < count) :
    0 < reducedCount size count ∧ reducedCount size count ≤ size.bits := by
  have height := size.eight_le
  have hmod := Nat.mod_lt count (show 0 < size.bits by omega)
  unfold reducedCount
  split_ifs <;> omega

/-- The source that the code reads. -/
theorem run_readShldRegOperand (operand : RmOperand) {size : OperandWidth} (hsize : size ≠ .byte) :
    (readShldRegOperand operand size).run viewOp cpu =
      ((cpu.shiftSource operand size).setWidth 64, cpu) := by
  have hbits : size.bits = 16 ∨ size.bits = 32 ∨ size.bits = 64 := by
    cases size with
    | byte => exact absurd rfl hsize
    | _ => decide
  have hread : (readShldRegOperand operand size).run viewOp cpu =
      (getReg size.bits cpu.context (decodeRegIndex cpu.context operand.modrm), cpu) := by
    cases size with
    | byte => exact absurd rfl hsize
    | _ => rfl
  rw [hread]
  exact Prod.ext (truncateTo_eq hbits _) rfl

/-- **The code** writes the window at its reduced count. -/
theorem run_shldShrdRm (hm : ManagerOk cpu.memory) (hexc : cpu.context.hasException = false)
    (operand : RmOperand) {size : OperandWidth} (hsize : size ≠ .byte) (rawCount : U8)
    (isShrd : Bool) :
    (shldShrdRm operand size rawCount isShrd).run viewOp cpu =
      transferred (cpu.doubleShifted isShrd operand size
        (reducedCount size (maskedCount size rawCount))) := by
  unfold shldShrdRm Cpu.doubleShifted
  generalize maskedCount size rawCount = count
  refine run_rmRead hm hexc operand size fun value hread => ?_
  -- a count of zero leaves the flags and the operand alone
  by_cases hzero : count = 0
  · have hreduced : reducedCount size count = 0 := by
      rw [hzero]
      rfl
    rw [if_pos hzero, if_pos hreduced]
    rfl
  obtain ⟨hpos, hle⟩ := reducedCount_le size (Nat.pos_of_ne_zero hzero)
  rw [if_neg hzero, if_neg (by omega), run_unlessFault (run_readShldRegOperand operand hsize)]
  dsimp only
  rw [if_neg (by rw [hexc]; decide)]
  generalize reducedCount size count = count at hpos hle ⊢
  have hvalue : value &&& operandMask size = (value.setWidth size.bits).setWidth 64 := by
    rw [and_operandMask (rmValue_lt hread)]
    exact eq_setWidth (rmValue_lt hread)
  have hsource : (cpu.shiftSource operand size).setWidth 64 &&& operandMask size =
      (cpu.shiftSource operand size).setWidth 64 := by
    apply and_operandMask
    rw [BitVec.toNat_setWidth]
    exact lt_of_le_of_lt (Nat.mod_le _ _) (BitVec.isLt _)
  rw [hvalue, hsource, shldShrdValue_eq size isShrd _ _ hle]
  refine run_rmWriteChecked hm hexc operand size _ ?_ ?_
  · intro ctx hclear
    exact updateFlagsShldShrd_eq hclear size isShrd _ _ hpos hle
  · intro ctx
    unfold updateFlagsShldShrd
    rw [if_neg (by omega)]
    apply keepMode_setFlag
    apply keepMode_setFlag
    apply keepMode_setFlag
    -- only a count of one defines the overflow
    by_cases hone : count = 1
    · rw [if_pos hone]
      exact keepMode_setFlag (keepMode_setFlag rfl _ _) _ _
    · rw [if_neg hone]
      exact keepMode_setFlag rfl _ _

/-- What the code does is what a double shift by its count should do. -/
theorem doubleShifted_outcome (isShrd : Bool) (operand : RmOperand) (size : OperandWidth)
    (count : ℕ) :
    DoubleShiftOutcome isShrd operand size count cpu
      (transferred (cpu.doubleShifted isShrd operand size count)).2 := by
  unfold Cpu.doubleShifted
  cases hread : cpu.rmValue operand size with
  | error refused => exact .unread hread
  | ok value =>
    show DoubleShiftOutcome isShrd operand size count cpu
      (transferred (if count = 0 then _ else _)).2
    by_cases hzero : count = 0
    · rw [if_pos hzero]
      exact .same hread hzero
    rw [if_neg hzero]
    have hpos := Nat.pos_of_ne_zero hzero
    cases hstored : cpu.withWindow isShrd operand size value count with
    | error refused => exact .unwritten hread hpos hstored
    | ok stored =>
      refine .shifted hread hpos hstored ?_
      rw [rmStored_rflags hstored]
      exact doubleShiftFlags_spec _ _ _ _ _

/-- **Double shifts** leave the window at the masked count, when it is at most the width; the
masked counts above 16 of operands of 16 bits are reduced by 16. -/
theorem double_shift_law (isShrd : Bool) (operand : RmOperand) (size : OperandWidth)
    (hsize : size ≠ .byte) (rawCount : U8) (hm : MemoryOk cpu.memory)
    (hexc : cpu.context.hasException = false) :
    ∃ cpu', UpToCache ((shldShrdRm operand size rawCount isShrd).run cpuOp cpu).2 cpu' ∧
      DoubleShiftOutcome isShrd operand size
        (if maskedCount size rawCount ≤ size.bits then maskedCount size rawCount
          else maskedCount size rawCount - 16) cpu cpu' ∧
      (size.bits < maskedCount size rawCount → size = .word) := by
  have hlt : maskedCount size rawCount ≤ (countMask size).toNat := by
    unfold maskedCount
    rw [BitVec.toNat_and]
    exact Nat.and_le_right
  have hword : size.bits < maskedCount size rawCount → size = .word := by
    intro h
    cases size with
    | byte => exact absurd rfl hsize
    | word => rfl
    | dword =>
      change 32 < _ at h
      change _ ≤ 31 at hlt
      omega
    | qword =>
      change 64 < _ at h
      change _ ≤ 63 at hlt
      omega
  have hreduced : reducedCount size (maskedCount size rawCount) =
      if maskedCount size rawCount ≤ size.bits then maskedCount size rawCount
        else maskedCount size rawCount - 16 := by
    unfold reducedCount
    by_cases hle : maskedCount size rawCount ≤ size.bits
    · rw [if_pos hle, if_neg (not_lt.mpr hle)]
    · rw [if_neg hle, if_pos (not_le.mp hle)]
      obtain rfl := hword (not_le.mp hle)
      change ¬ _ ≤ 16 at hle
      change _ ≤ 31 at hlt
      show (if maskedCount .word rawCount % 16 = 0 then 16 else maskedCount .word rawCount % 16) = _
      rw [if_neg (by omega)]
      omega
  rw [← hreduced]
  exact ⟨_, endsIn hm (run_shldShrdRm hm.manager hexc operand hsize rawCount isShrd),
    doubleShifted_outcome isShrd operand size _, hword⟩

/-- The registers behind a double shift that writes. -/
theorem DoubleShiftOutcome.regs {isShrd : Bool} {operand : RmOperand} {size : OperandWidth}
    {count : ℕ} {value : U64} {stored cpu' : Cpu}
    (h : DoubleShiftOutcome isShrd operand size count cpu cpu')
    (hread : cpu.rmValue operand size = .ok value) (hpos : 0 < count)
    (hstored : cpu.withWindow isShrd operand size value count = .ok stored) :
    cpu'.context.regs = stored.context.regs := by
  cases h with
  | unread hread' =>
    rw [hread] at hread'
    cases hread'
  | same _ hzero => omega
  | unwritten hread' _ hstored' =>
    rw [hread] at hread'
    cases hread'
    rw [hstored] at hstored'
    cases hstored'
  | shifted hread' _ hstored' _ =>
    rw [hread] at hread'
    cases hread'
    rw [hstored] at hstored'
    cases hstored'
    rfl

/-- `SHLD AX, CX` with 1234h in `AX` and ABCDh in `CX`. -/
def windowCpu : Cpu :=
  hostCpu { initCpuContext false with
    regs := fun reg => if reg = 0 then 0x1234 else if reg = 1 then 0xABCD else 0 } fun _ => 0

/-- By 4 and by 20 the window is 234Ah, as a count of 20 is reduced to 4. -/
theorem double_shift_law_example :
    (∃ cpu', UpToCache ((shldShrdRm ⟨0xC8, 0⟩ .word 4 false).run cpuOp windowCpu).2 cpu' ∧
      DoubleShiftOutcome false ⟨0xC8, 0⟩ .word 4 windowCpu cpu' ∧
      cpu'.context.regs 0 = 0x234A) ∧
    ∃ cpu', UpToCache ((shldShrdRm ⟨0xC8, 0⟩ .word 20 false).run cpuOp windowCpu).2 cpu' ∧
      DoubleShiftOutcome false ⟨0xC8, 0⟩ .word 4 windowCpu cpu' ∧
      cpu'.context.regs 0 = 0x234A := by
  have hread : windowCpu.rmValue ⟨0xC8, 0⟩ .word = .ok 0x1234 := rfl
  have hwindow : windowCpu.withWindow false ⟨0xC8, 0⟩ .word 0x1234 4 =
      .ok (windowCpu.edit fun ctx => setRegister .word ctx 0 0x234A) := by
    have hvalue : (window false ((0x1234 : U64).setWidth OperandWidth.word.bits)
        (windowCpu.shiftSource ⟨0xC8, 0⟩ .word) 4).setWidth 64 = 0x234A := by decide
    unfold Cpu.withWindow
    rw [hvalue]
    rfl
  have hvalue : ∀ {cpu'}, DoubleShiftOutcome false ⟨0xC8, 0⟩ .word 4 windowCpu cpu' →
      cpu'.context.regs 0 = 0x234A :=
    fun hout => (congrFun (hout.regs hread (by decide) hwindow) 0).trans (by decide)
  have hlaw := fun rawCount => double_shift_law false ⟨0xC8, 0⟩ .word (by decide) rawCount
    (memoryOk_hostCpu windowCpu.context fun _ => 0) rfl
  constructor
  · obtain ⟨cpu', hupTo, hout, -⟩ := hlaw 4
    exact ⟨cpu', hupTo, hout, hvalue hout⟩
  · obtain ⟨cpu', hupTo, hout, -⟩ := hlaw 20
    exact ⟨cpu', hupTo, hout, hvalue hout⟩

/-- `SHLD AX, CX, 17` with 0 in `AX` and 1 in `CX`. -/
def seventeenCpu : Cpu :=
  hostCpu { initCpuContext false with regs := fun reg => if reg = 1 then 1 else 0 } fun _ => 0

/-- The window at 17 is 2; the code shifts by 1 and leaves 0. -/
theorem double_shift_reduces_count :
    ¬ ∀ (isShrd : Bool) (operand : RmOperand) (size : OperandWidth) (rawCount : U8) (cpu : Cpu),
      size ≠ .byte → MemoryOk cpu.memory → cpu.context.hasException = false →
      ∃ cpu', UpToCache ((shldShrdRm operand size rawCount isShrd).run cpuOp cpu).2 cpu' ∧
        DoubleShiftOutcome isShrd operand size (maskedCount size rawCount) cpu cpu' := by
  intro hall
  obtain ⟨cpu', hupTo, hout⟩ := hall false ⟨0xC8, 0⟩ .word 17 seventeenCpu (by decide)
    (memoryOk_hostCpu _ _) rfl
  have hread : seventeenCpu.rmValue ⟨0xC8, 0⟩ .word = .ok 0 := rfl
  have hwindow : seventeenCpu.withWindow false ⟨0xC8, 0⟩ .word 0 17 =
      .ok (seventeenCpu.edit fun ctx => setRegister .word ctx 0 2) := by
    have hvalue : (window false ((0 : U64).setWidth OperandWidth.word.bits)
        (seventeenCpu.shiftSource ⟨0xC8, 0⟩ .word) 17).setWidth 64 = 2 := by decide
    unfold Cpu.withWindow
    rw [hvalue]
    rfl
  have hregs := congrFun (hout.regs hread (by decide) hwindow) 0
  rw [← hupTo.context_eq] at hregs
  revert hregs
  decide

end Cpueaxh
