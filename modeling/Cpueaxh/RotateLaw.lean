/-
# The law of rotates

The loops of `rol_rm` and `ror_rm` rotate by their count, and the carry is the bit last
turned around.  A masked count that is a multiple of the width but not zero should still set
the carry; the code leaves it.
-/
import Cpueaxh.Rotate
import Cpueaxh.FlagWords

namespace Cpueaxh

open HostMemory

/-! ## One turn -/

/-- The value behind a rotate. -/
def RotateOp.rotated (op : RotateOp) {n : ℕ} (x : BitVec n) (count : ℕ) : BitVec n :=
  match op with
  | rol => x.rotateLeft count
  | ror => x.rotateRight count

/-- The bit last turned around: bit 0 behind `ROL`, the top bit behind `ROR`. -/
def RotateOp.lastBit (op : RotateOp) {n : ℕ} (x : BitVec n) : Bool :=
  match op with
  | rol => x.getLsbD 0
  | ror => x.msb

/-- `OF` behind a rotate by one bit: the top bit against the carry, or against the bit below. -/
def RotateOp.overflowBit (op : RotateOp) {n : ℕ} (x : BitVec n) : Bool :=
  match op with
  | rol => x.msb ^^ x.getLsbD 0
  | ror => x.msb ^^ x.getLsbD (n - 2)

theorem rotated_zero (op : RotateOp) {n : ℕ} (x : BitVec n) : op.rotated x 0 = x := by
  cases op with
  | rol =>
    rw [RotateOp.rotated, BitVec.rotateLeft_def, Nat.zero_mod, Nat.sub_zero,
      BitVec.ushiftRight_eq_zero le_rfl, BitVec.shiftLeft_zero, BitVec.or_zero]
  | ror =>
    rw [RotateOp.rotated, BitVec.rotateRight_def, Nat.zero_mod, Nat.sub_zero,
      BitVec.shiftLeft_eq_zero le_rfl, BitVec.ushiftRight_zero, BitVec.or_zero]

/-- One turn, and then the others. -/
theorem rotated_succ (op : RotateOp) {n : ℕ} (x : BitVec n) {count : ℕ} (h : count + 1 < n) :
    op.rotated (op.rotated x 1) count = op.rotated x (count + 1) := by
  apply BitVec.eq_of_getLsbD_eq
  intro i hi
  cases op with
  | rol =>
    simp only [RotateOp.rotated, BitVec.getLsbD_rotateLeft_of_le (show count < n by omega),
      BitVec.getLsbD_rotateLeft_of_le (show 1 < n by omega), BitVec.getLsbD_rotateLeft_of_le h,
      Bool.cond_decide, decide_eq_true hi, Bool.true_and]
    -- the bit comes from the top for each turn that it has passed
    by_cases hlow : i < count
    · rw [if_pos hlow, if_neg (by omega), if_pos (by omega), decide_eq_true (by omega),
        Bool.true_and]
      congr 1
      omega
    · by_cases heq : i = count
      · subst heq
        rw [if_neg hlow, if_pos (by omega), if_pos (by omega), Nat.sub_self]
        congr 1
        omega
      · rw [if_neg hlow, if_neg (by omega), if_neg (by omega), decide_eq_true (by omega),
          Bool.true_and, Nat.sub_sub]
  | ror =>
    simp only [RotateOp.rotated, BitVec.getLsbD_rotateRight_of_lt (show count < n by omega),
      BitVec.getLsbD_rotateRight_of_lt (show 1 < n by omega), BitVec.getLsbD_rotateRight_of_lt h,
      Bool.cond_decide, decide_eq_true hi, Bool.true_and]
    by_cases hhigh : i < n - (count + 1)
    · rw [if_pos (by omega), if_pos (by omega), if_pos hhigh]
      congr 1
      omega
    · by_cases heq : i = n - (count + 1)
      · rw [if_pos (by omega), if_neg (by omega), if_neg hhigh, decide_eq_true (by omega),
          Bool.true_and]
        congr 1
        omega
      · rw [if_neg (by omega), if_pos (by omega), if_neg hhigh]
        congr 1
        omega

/-- **A turn** of the loops rotates by one bit, which it puts into the carry. -/
theorem turn_eq (op : RotateOp) (size : OperandWidth) (x : BitVec size.bits) :
    op.turn size (x.setWidth 64) =
      ((op.rotated x 1).setWidth 64, op.lastBit (op.rotated x 1)) := by
  have height := size.eight_le
  have hle := size.le_sixtyFour
  have hone : 1 < size.bits := by omega
  cases op with
  | rol =>
    have hcarry : (x.setWidth 64 &&& signMask size != 0) = (x.rotateLeft 1).getLsbD 0 := by
      rw [and_signMask_ne_zero, BitVec.getLsbD_rotateLeft_of_le hone, BitVec.msb_eq_getLsbD_last]
      rfl
    show rolTurn size _ = _
    unfold rolTurn
    rw [hcarry]
    refine Prod.ext (BitVec.eq_of_getLsbD_eq fun i hi => ?_) rfl
    have hbit : (if (x.rotateLeft 1).getLsbD 0 = true then (1 : U64) else 0).getLsbD i =
        (decide (i = 0) && (x.rotateLeft 1).getLsbD 0) := by
      cases (x.rotateLeft 1).getLsbD 0 <;> simp
    show (((x.setWidth 64 <<< 1) ||| _) &&& _).getLsbD i = ((x.rotateLeft 1).setWidth 64).getLsbD i
    rw [BitVec.getLsbD_and, BitVec.getLsbD_or, getLsbD_operandMask, hbit, BitVec.getLsbD_shiftLeft,
      BitVec.getLsbD_setWidth, BitVec.getLsbD_setWidth, BitVec.getLsbD_rotateLeft_of_le hone,
      BitVec.getLsbD_rotateLeft_of_le hone]
    by_cases hzero : i = 0
    · subst hzero
      simp
      omega
    · by_cases hsize : i < size.bits
      · simp [hzero, hsize, hi, show ¬ i < 1 by omega]
        omega
      · simp [hzero, hsize, hi, show ¬ i < 1 by omega]
  | ror =>
    have hcarry : (x.setWidth 64 &&& 1 != 0) = (x.rotateRight 1).msb := by
      rw [show (1 : U64) = BitVec.twoPow 64 0 from rfl,
        SubtractionFlags.and_twoPow_ne_zero _ (by decide), BitVec.getLsbD_setWidth,
        BitVec.msb_eq_getLsbD_last, BitVec.getLsbD_rotateRight_of_lt hone, Bool.cond_decide,
        if_neg (by omega), decide_eq_true (show size.bits - 1 < size.bits by omega), Nat.sub_self]
      rfl
    show rorTurn size _ = _
    unfold rorTurn
    rw [hcarry]
    refine Prod.ext (BitVec.eq_of_getLsbD_eq fun i hi => ?_) rfl
    have hbit : (if (x.rotateRight 1).msb = true then signMask size else 0).getLsbD i =
        (decide (i = size.bits - 1) && (x.rotateRight 1).msb) := by
      rw [signMask_eq]
      cases (x.rotateRight 1).msb with
      | true => simp [hi]
      | false => simp
    show (((x.setWidth 64 >>> 1) ||| _) &&& _).getLsbD i =
      ((x.rotateRight 1).setWidth 64).getLsbD i
    rw [BitVec.getLsbD_and, BitVec.getLsbD_or, getLsbD_operandMask, hbit, BitVec.getLsbD_ushiftRight,
      BitVec.getLsbD_setWidth, BitVec.getLsbD_setWidth, BitVec.msb_eq_getLsbD_last,
      BitVec.getLsbD_rotateRight_of_lt hone, BitVec.getLsbD_rotateRight_of_lt hone]
    by_cases hlast : i = size.bits - 1
    · subst hlast
      simp [show 1 + (size.bits - 1) = size.bits by omega, hi,
        show size.bits - 1 < size.bits by omega]
    · by_cases hsize : i < size.bits
      · simp [hlast, hsize, hi, show i < size.bits - 1 by omega, show 1 + i < 64 by omega]
      · simp [hlast, hsize, hi, show ¬ i < size.bits - 1 by omega]

/-- **The loop** rotates by its count. -/
theorem rotateLoop_eq (op : RotateOp) (size : OperandWidth) (count : ℕ) :
    ∀ x : BitVec size.bits, count + 1 < size.bits →
      ∀ carryOut, rotateLoop op size (count + 1) (x.setWidth 64, carryOut) =
        ((op.rotated x (count + 1)).setWidth 64, op.lastBit (op.rotated x (count + 1))) := by
  induction count with
  | zero =>
    intro x _ carryOut
    exact turn_eq op size x
  | succ count ih =>
    intro x hlt carryOut
    show rotateLoop op size (count + 1) (op.turn size (x.setWidth 64)) = _
    rw [turn_eq, ih (op.rotated x 1) (by omega) _, rotated_succ op x hlt]

/-! ## The flags -/

/-- The flags register behind the code. -/
def RotateOp.flags (op : RotateOp) (rflags : U64) {n : ℕ} (x : BitVec n) (count : ℕ) : U64 :=
  if count = 0 then rflags
  else
    let rflags := withFlag rflags rflagsCf (op.lastBit x)
    if count = 1 then withFlag rflags rflagsOf (op.overflowBit x) else rflags

theorem overflow_eq (op : RotateOp) (size : OperandWidth) (x : BitVec size.bits) :
    op.overflow size (x.setWidth 64) (op.lastBit x) = op.overflowBit x := by
  cases op with
  | rol =>
    show ((x.setWidth 64 &&& signMask size != 0) ^^ x.getLsbD 0) = _
    rw [and_signMask_ne_zero]
    rfl
  | ror =>
    have hmask : signMask size >>> 1 = BitVec.twoPow 64 (size.bits - 2) := by
      cases size <;> decide
    have hlt : size.bits - 2 < 64 := by
      have := size.le_sixtyFour
      omega
    show ((x.setWidth 64 &&& signMask size != 0) ^^ (x.setWidth 64 &&& (signMask size >>> 1) != 0)) = _
    rw [and_signMask_ne_zero, hmask, SubtractionFlags.and_twoPow_ne_zero _ hlt,
      BitVec.getLsbD_setWidth, decide_eq_true hlt, Bool.true_and]
    rfl

/-- The flags that the code sets. -/
theorem updateFlagsRotate_eq {ctx : CpuContext} (hexc : ctx.hasException = false) (op : RotateOp)
    (size : OperandWidth) (x : BitVec size.bits) (count : ℕ) :
    updateFlagsRotate op size ctx (x.setWidth 64) count (op.lastBit x) =
      { ctx with rflags := op.flags ctx.rflags x count } := by
  unfold updateFlagsRotate RotateOp.flags
  split_ifs with hzero hone
  · rfl
  · dsimp only
    rw [overflow_eq, setFlag_eq hexc, setFlag_rflags hexc]
  · exact setFlag_eq hexc _ _

/-! ## The instructions -/

/-- The CPU behind a rotate, or behind the refused byte. -/
def Cpu.rotated (cpu : Cpu) (op : RotateOp) (operand : RmOperand) (size : OperandWidth)
    (count : ℕ) : Except Cpu Cpu := do
  let value ← cpu.rmValue operand size
  if count = 0 then return cpu
  let result := op.rotated (value.setWidth size.bits) count
  let stored ← cpu.rmStored operand size (result.setWidth 64)
  return stored.edit fun ctx => { ctx with rflags := op.flags ctx.rflags result count }

variable {cpu : Cpu}

theorem run_rotateRm (hm : ManagerOk cpu.memory) (hexc : cpu.context.hasException = false)
    (op : RotateOp) (operand : RmOperand) (size : OperandWidth) (rawCount : U8) :
    (rotateRm op operand size rawCount).run viewOp cpu =
      transferred (cpu.rotated op operand size (maskedCount size rawCount % size.bits)) := by
  have hlt : maskedCount size rawCount % size.bits < size.bits :=
    Nat.mod_lt _ (lt_of_lt_of_le (by decide) size.eight_le)
  unfold rotateRm Cpu.rotated
  generalize maskedCount size rawCount % size.bits = count at hlt ⊢
  refine run_rmRead hm hexc operand size fun value hread => ?_
  by_cases hzero : count = 0
  · rw [if_pos hzero, if_pos hzero]
    rfl
  rw [if_neg hzero, if_neg hzero]
  obtain ⟨turns, rfl⟩ : ∃ turns, count = turns + 1 := ⟨count - 1, by omega⟩
  have hvalue := rmValue_lt hread
  generalize hx : value.setWidth size.bits = x
  have hloop : rotateLoop op size (turns + 1) (value &&& operandMask size, false) =
      ((op.rotated x (turns + 1)).setWidth 64, op.lastBit (op.rotated x (turns + 1))) := by
    rw [and_operandMask hvalue, eq_setWidth hvalue, hx]
    exact rotateLoop_eq op size turns x hlt false
  rw [hloop]
  generalize op.rotated x (turns + 1) = result
  refine run_rmWrite hm hexc operand size _ ?_ ?_ ?_
  · intro ctx hpending
    unfold updateFlagsRotate
    split_ifs
    · rfl
    · rw [setFlag_pending hpending, setFlag_pending hpending]
    · exact setFlag_pending hpending _ _
  · intro ctx hclear
    exact updateFlagsRotate_eq hclear op size result _
  · intro ctx
    unfold updateFlagsRotate
    split_ifs
    · rfl
    · exact keepMode_setFlag (keepMode_setFlag rfl _ _) _ _
    · exact keepMode_setFlag rfl _ _

/-! ## The law -/

/-- The flags that a rotate by a masked count should leave behind its result. -/
structure RotateFlags (op : RotateOp) {n : ℕ} (masked : ℕ) (result : BitVec n)
    (old new : U64) : Prop where
  unchanged : masked = 0 → new = old
  carry : masked ≠ 0 → hasFlag new .cf = op.lastBit result
  overflow : masked = 1 → hasFlag new .of = op.overflowBit result
  others : SameFlagsBut [.cf, .of] old new

/-- The CPU with a rotated operand; an operand that is turned around fully stays. -/
def Cpu.withRotated (cpu : Cpu) (op : RotateOp) (operand : RmOperand) (size : OperandWidth)
    (masked : ℕ) (value : U64) : Except Cpu Cpu :=
  if masked % size.bits = 0 then .ok cpu
  else cpu.rmStored operand size ((op.rotated (value.setWidth size.bits) masked).setWidth 64)

/-- What a rotate by a masked count should do. -/
inductive RotateOutcome (op : RotateOp) (operand : RmOperand) (size : OperandWidth) (masked : ℕ)
    (cpu : Cpu) : Cpu → Prop where
  | unread {refused : Cpu} (hread : cpu.rmValue operand size = .error refused) :
    RotateOutcome op operand size masked cpu refused
  | unwritten {value : U64} {refused : Cpu} (hread : cpu.rmValue operand size = .ok value)
    (hstored : cpu.withRotated op operand size masked value = .error refused) :
    RotateOutcome op operand size masked cpu refused
  | rotated {value : U64} {stored : Cpu} {rflags : U64}
    (hread : cpu.rmValue operand size = .ok value)
    (hstored : cpu.withRotated op operand size masked value = .ok stored)
    (hflags : RotateFlags op masked (op.rotated (value.setWidth size.bits) masked)
      cpu.context.rflags rflags) :
    RotateOutcome op operand size masked cpu
      (stored.edit fun ctx => { ctx with rflags := rflags })

theorem rotated_mod (op : RotateOp) {n : ℕ} (x : BitVec n) (count : ℕ) :
    op.rotated x (count % n) = op.rotated x count := by
  cases op with
  | rol => exact BitVec.rotateLeft_mod_eq_rotateLeft
  | ror => exact BitVec.rotateRight_mod_eq_rotateRight

/-- The flags behind a rotate that completes. -/
theorem RotateOutcome.flags {op : RotateOp} {operand : RmOperand} {size : OperandWidth}
    {masked : ℕ} {value : U64} {stored cpu' : Cpu} (h : RotateOutcome op operand size masked cpu cpu')
    (hread : cpu.rmValue operand size = .ok value)
    (hstored : cpu.withRotated op operand size masked value = .ok stored) :
    RotateFlags op masked (op.rotated (value.setWidth size.bits) masked) cpu.context.rflags
      cpu'.context.rflags := by
  cases h with
  | unread hread' =>
    rw [hread] at hread'
    cases hread'
  | unwritten hread' hstored' =>
    rw [hread] at hread'
    cases hread'
    rw [hstored] at hstored'
    cases hstored'
  | rotated hread' hstored' hflags =>
    rw [hread] at hread'
    cases hread'
    exact hflags

/-- The flags of the code behind a count that the width does not divide. -/
theorem rotateFlags_flags (op : RotateOp) {n masked : ℕ} (hn : 8 ≤ n) (hcount : masked % n ≠ 0)
    (rflags : U64) (result : BitVec n) :
    RotateFlags op masked result rflags (op.flags rflags result (masked % n)) := by
  have hcf : rflagsCf = StatusFlag.cf.mask := rfl
  have hof : rflagsOf = StatusFlag.of.mask := rfl
  unfold RotateOp.flags
  rw [if_neg hcount, hcf, hof]
  refine ⟨?_, ?_, ?_, ?_⟩
  · rintro rfl
    exact absurd (Nat.zero_mod n) hcount
  · rintro -
    dsimp only
    split_ifs
    · rw [hasFlag_withFlag, if_neg (by decide), hasFlag_withFlag, if_pos rfl]
    · rw [hasFlag_withFlag, if_pos rfl]
  · rintro rfl
    dsimp only
    rw [if_pos (Nat.mod_eq_of_lt (by omega)), hasFlag_withFlag, if_pos rfl]
  · have hset : SameFlagsBut [.cf, .of] rflags
        (withFlag rflags StatusFlag.cf.mask (op.lastBit result)) :=
      (SameFlagsBut.refl _ rflags).withFlag (by decide) _
    dsimp only
    split_ifs
    · exact hset.withFlag (by decide) _
    · exact hset

/-- **Rotates** turn their operand by the masked count and set the flags by it, if and only if
the width does not divide the masked count, or it is zero, or the carry is already the bit. -/
theorem rotate_law (op : RotateOp) (operand : RmOperand) (size : OperandWidth) (rawCount : U8)
    (hm : MemoryOk cpu.memory) (hexc : cpu.context.hasException = false) :
    ∃ cpu', UpToCache ((rotateRm op operand size rawCount).run cpuOp cpu).2 cpu' ∧
      (RotateOutcome op operand size (maskedCount size rawCount) cpu cpu' ↔
        ∀ value, cpu.rmValue operand size = .ok value →
          maskedCount size rawCount = 0 ∨ ¬ size.bits ∣ maskedCount size rawCount ∨
            hasFlag cpu.context.rflags .cf = op.lastBit (value.setWidth size.bits)) := by
  refine ⟨_, endsIn hm (run_rotateRm hm.manager hexc op operand size rawCount), ?_⟩
  have height := size.eight_le
  generalize maskedCount size rawCount = masked
  unfold Cpu.rotated
  cases hread : cpu.rmValue operand size with
  | error refused =>
    refine iff_of_true (.unread hread) ?_
    rintro value ⟨⟩
  | ok value =>
    by_cases hcount : masked % size.bits = 0
    · -- the code returns before it sets the flags
      have hdvd := Nat.dvd_of_mod_eq_zero hcount
      have hsame : op.rotated (value.setWidth size.bits) masked = value.setWidth size.bits := by
        rw [← rotated_mod, hcount, rotated_zero]
      have hstays : cpu.withRotated op operand size masked value = .ok cpu := if_pos hcount
      have hreturn : (transferred (do
          let value ← Except.ok value
          if masked % size.bits = 0 then return cpu
          let result := op.rotated (value.setWidth size.bits) (masked % size.bits)
          let stored ← cpu.rmStored operand size (result.setWidth 64)
          return stored.edit fun ctx =>
            { ctx with rflags := op.flags ctx.rflags result (masked % size.bits) })).2 = cpu := by
        show (transferred (if masked % size.bits = 0 then _ else _)).2 = cpu
        rw [if_pos hcount]
        rfl
      rw [hreturn]
      constructor
      · rintro hout _ ⟨⟩
        have hflags := hout.flags hread hstays
        rw [hsame] at hflags
        by_cases hzero : masked = 0
        · exact Or.inl hzero
        · exact Or.inr (Or.inr (hflags.carry hzero))
      · intro hcond
        refine @RotateOutcome.rotated op operand size masked cpu value cpu cpu.context.rflags
          hread hstays ?_
        rw [hsame]
        refine ⟨fun _ => rfl, fun hne => ?_, ?_, .refl _ _⟩
        · rcases hcond value rfl with hzero | hndvd | hcarry
          · exact absurd hzero hne
          · exact absurd hdvd hndvd
          · exact hcarry
        · rintro rfl
          rw [Nat.mod_eq_of_lt (by omega)] at hcount
          cases hcount
    · have hnot := mt Nat.mod_eq_zero_of_dvd hcount
      refine iff_of_true ?_ fun _ _ => Or.inr (Or.inl hnot)
      have hwrite : cpu.withRotated op operand size masked value =
          cpu.rmStored operand size ((op.rotated (value.setWidth size.bits) masked).setWidth 64) :=
        if_neg hcount
      show RotateOutcome op operand size masked cpu
        (transferred (if masked % size.bits = 0 then _ else _)).2
      rw [if_neg hcount, rotated_mod]
      cases hstored : cpu.rmStored operand size
          ((op.rotated (value.setWidth size.bits) masked).setWidth 64) with
      | error refused => exact .unwritten hread (hwrite.trans hstored)
      | ok stored =>
        refine .rotated hread (hwrite.trans hstored) ?_
        rw [rmStored_rflags hstored]
        exact rotateFlags_flags op height hcount _ _

/-- A CPU with 1 in its registers. -/
def onesCpu : Cpu := hostCpu { initCpuContext false with regs := fun _ => 1 } fun _ => 0

theorem onesCpu_memoryOk : MemoryOk onesCpu.memory := memoryOk_hostCpu _ _

/-- `ROL AL, 9` turns its operand by one bit and sets the flags. -/
theorem rotate_law_example :
    ∃ cpu', UpToCache ((rotateRm .rol ⟨0xC0, 0⟩ .byte 9).run cpuOp onesCpu).2 cpu' ∧
      RotateOutcome .rol ⟨0xC0, 0⟩ .byte 9 onesCpu cpu' := by
  obtain ⟨cpu', hupTo, hlaw⟩ := rotate_law .rol ⟨0xC0, 0⟩ .byte 9 onesCpu_memoryOk rfl
  refine ⟨cpu', hupTo, hlaw.mpr fun value _ => Or.inr (Or.inl ?_)⟩
  decide

/-- `ROL AL, 8` should set the carry to the low bit of `AL`, and leaves it. -/
theorem rotate_keeps_stale_carry :
    ¬ ∀ (op : RotateOp) (operand : RmOperand) (size : OperandWidth) (rawCount : U8) (cpu : Cpu),
      MemoryOk cpu.memory → cpu.context.hasException = false →
      ∃ cpu', UpToCache ((rotateRm op operand size rawCount).run cpuOp cpu).2 cpu' ∧
        RotateOutcome op operand size (maskedCount size rawCount) cpu cpu' := by
  intro hall
  obtain ⟨cpu', hupTo, hout⟩ := hall .rol ⟨0xC0, 0⟩ .byte 8 onesCpu onesCpu_memoryOk rfl
  have hread : onesCpu.rmValue ⟨0xC0, 0⟩ .byte = .ok 1 := rfl
  have hstays : onesCpu.withRotated .rol ⟨0xC0, 0⟩ .byte 8 1 = .ok onesCpu := rfl
  have hcarry := (hout.flags hread hstays).carry (by decide)
  rw [← hupTo.context_eq] at hcarry
  revert hcarry
  decide

end Cpueaxh
