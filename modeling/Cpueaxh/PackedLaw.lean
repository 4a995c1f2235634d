/-
# The packed-integer law

The VEX packed-integer operations return the lanes that the architecture has, and the tests the
flags: for all lane values, counts and controls but those of three kinds.  The rounded product
of two least words is saturated; a count from the width of a lane on is masked; and `VTESTPS`
and `VTESTPD` look at all bits of a lane.
-/
import Cpueaxh.FlagWords
import Cpueaxh.PackedMoves
import Cpueaxh.PackedShifts
import Cpueaxh.PackedShuffles

namespace Cpueaxh

open PackedLanes

variable {w m : ℕ}

/-! ## Laws of the operations -/

namespace PackedOp

/-- What the VEX.128 form leaves in the lanes; `none` where there is no such operation. -/
def law128 : PackedOp → Option (PackedStandard.LaneLaw 128)
  | logic opcode => PackedStandard.logic opcode.toNat
  | compare opcode => PackedStandard.compare opcode.toNat
  | pack opcode => PackedStandard.pack opcode.toNat
  | minmax opcode => PackedStandard.minMax opcode.toNat
  | sign opcode => PackedStandard.sign opcode.toNat
  | abs opcode => PackedStandard.abs opcode.toNat
  | pmovx opcode => PackedStandard.pmovx opcode.toNat
  | horizontal opcode => PackedStandard.pairwise opcode.toNat
  | arith opcode => PackedStandard.arith opcode.toNat
  | mpsadbw imm8 =>
    some (PackedStandard.mpsadbw (mpsadbwBlocks imm8).1.1 (mpsadbwBlocks imm8).1.2)
  | phminposuw => some PackedStandard.phminposuw
  | shift opcode group count => PackedStandard.shift opcode.toNat group.toNat count.toNat
  | shiftvarDword opcode => PackedStandard.shiftVariableDword opcode.toNat
  | shiftvarQword opcode => PackedStandard.shiftVariableQword opcode.toNat
  | pshufb => some PackedStandard.pshufb
  | palignr imm8 => some (PackedStandard.palignr imm8.toNat)
  | pshufd imm8 => some (PackedStandard.pshufd imm8.toNat)
  | pshufhw imm8 => some (PackedStandard.pshufhw imm8.toNat)
  | pshuflw imm8 => some (PackedStandard.pshuflw imm8.toNat)
  | blendd imm8 => some (PackedStandard.blend 32 imm8.toNat)
  | blendw imm8 => some (PackedStandard.blend 16 imm8.toNat)
  | blendvb mask => some (PackedStandard.blendVariable mask.low.bits)
  | permd => none
  | permq _ => none
  | perm2i128 _ => none
  | broadcast opcode => PackedStandard.broadcast opcode.toNat

/-- What the VEX.256 form leaves in the lanes: the same in each half, but for some operations. -/
def law256 : PackedOp → Option (PackedStandard.LaneLaw 256)
  | pmovx opcode => PackedStandard.pmovx opcode.toNat
  | mpsadbw imm8 =>
    some (PackedStandard.mpsadbwHalves (mpsadbwBlocks imm8).1 (mpsadbwBlocks imm8).2)
  | phminposuw => none
  | shiftvarDword opcode => PackedStandard.shiftVariableDword opcode.toNat
  | shiftvarQword opcode => PackedStandard.shiftVariableQword opcode.toNat
  | blendd imm8 => some (PackedStandard.blend 32 imm8.toNat)
  | blendvb mask => some (PackedStandard.blendVariable mask.bits)
  | permd => some PackedStandard.permd
  | permq imm8 => some (PackedStandard.permq imm8.toNat)
  | perm2i128 imm8 => some (PackedStandard.perm2i128 imm8.toNat)
  | broadcast opcode => PackedStandard.broadcast opcode.toNat
  | op => op.law128.map PackedStandard.halves

/-- The values and counts at which the code does what the architecture does. -/
def InRange (op : PackedOp) (x y : BitVec m) : Prop :=
  match op with
  | arith opcode =>
    opcode.toNat = 0x0B → ∀ i < m / 16, ¬(lane 16 x i = 0x8000 ∧ lane 16 y i = 0x8000)
  | shiftvarDword opcode =>
    ∀ i < m / 32, MaskKeeps opcode.toNat (lane 32 x i) (lane 32 y i)
  | shiftvarQword opcode =>
    opcode.toNat ≠ 0x46 → ∀ i < m / 64, MaskKeeps opcode.toNat (lane 64 x i) (lane 64 y i)
  | _ => True

/-- **The VEX.128 forms** return the lanes of the architecture exactly in their range. -/
theorem exact128_iff (op : PackedOp) (x y : XMMRegister) :
    ReturnsXmm op.law128 x y (op.apply128 x y) ↔ op.InRange x.bits y.bits := by
  cases op with
  | logic opcode => exact iff_of_true (returns_logic opcode x y) trivial
  | compare opcode => exact iff_of_true (returns_compare opcode x y) trivial
  | pack opcode => exact iff_of_true (returns_pack opcode x y) trivial
  | minmax opcode => exact iff_of_true (returns_minMax opcode x y) trivial
  | sign opcode => exact iff_of_true (returns_sign opcode x y) trivial
  | abs opcode => exact iff_of_true (returns_abs opcode x y) trivial
  | pmovx opcode => exact iff_of_true (returns_pmovx128 opcode x y) trivial
  | horizontal opcode => exact iff_of_true (returns_horizontal opcode x y) trivial
  | arith opcode =>
    by_cases h : opcode.toNat = 0x0B
    · show ReturnsXmm (PackedStandard.arith opcode.toNat) x y (applyAvxIntArith128 opcode x y) ↔ _
      rw [applyAvxIntArith128_mulRounded h, h]
      refine (gives_mulRounded_iff x y).trans ?_
      exact ⟨fun hlanes _ => hlanes, fun hlanes => hlanes h⟩
    · exact iff_of_true (returns_arith opcode h x y) fun heq => absurd heq h
  | mpsadbw imm8 => exact iff_of_true (returns_mpsadbw128 imm8 x y) trivial
  | phminposuw => exact iff_of_true (returns_phminposuw x y) trivial
  | shift opcode group count => exact iff_of_true (returns_shift x y count opcode group) trivial
  | shiftvarDword opcode => exact returns_shiftvarDword128_iff opcode x y
  | shiftvarQword opcode => exact returns_shiftvarQword128_iff opcode x y
  | pshufb => exact iff_of_true (returns_pshufb x y) trivial
  | palignr imm8 => exact iff_of_true (returns_palignr imm8 x y) trivial
  | pshufd imm8 => exact iff_of_true (returns_pshufd imm8 x y) trivial
  | pshufhw imm8 => exact iff_of_true (returns_pshufhw imm8 x y) trivial
  | pshuflw imm8 => exact iff_of_true (returns_pshuflw imm8 x y) trivial
  | blendd imm8 => exact iff_of_true (returns_blendd128 imm8 x y) trivial
  | blendw imm8 => exact iff_of_true (returns_blendw128 imm8 x y) trivial
  | blendvb mask => exact iff_of_true (returns_blendvb128 mask x y) trivial
  | permd => exact iff_of_true trivial trivial
  | permq imm8 => exact iff_of_true trivial trivial
  | perm2i128 imm8 => exact iff_of_true trivial trivial
  | broadcast opcode => exact iff_of_true (returns_broadcast128 opcode x y) trivial

/-- **The VEX.256 forms.** -/
theorem exact256_iff (op : PackedOp) (x y : AVXRegister256) :
    PackedStandard.Returns op.law256 x.bits y.bits ((op.apply256 x y).map AVXRegister256.bits) ↔
      op.InRange x.bits y.bits := by
  cases op with
  | logic opcode => exact iff_of_true (returns_bothHalves (returns_logic opcode) x y) trivial
  | compare opcode => exact iff_of_true (returns_bothHalves (returns_compare opcode) x y) trivial
  | pack opcode => exact iff_of_true (returns_bothHalves (returns_pack opcode) x y) trivial
  | minmax opcode => exact iff_of_true (returns_bothHalves (returns_minMax opcode) x y) trivial
  | sign opcode => exact iff_of_true (returns_bothHalves (returns_sign opcode) x y) trivial
  | abs opcode => exact iff_of_true (returns_bothHalves (returns_abs opcode) x y) trivial
  | pmovx opcode => exact iff_of_true (returns_pmovx256 opcode x y) trivial
  | horizontal opcode =>
    exact iff_of_true (returns_bothHalves (returns_horizontal opcode) x y) trivial
  | arith opcode =>
    by_cases h : opcode.toNat = 0x0B
    · have hcode : bothHalves (applyAvxIntArith128 opcode) x y = some
          { low := bytesToXmm (eachElement mulRoundedWord (xmmToBytes x.low) (xmmToBytes y.low))
            high := bytesToXmm (eachElement mulRoundedWord (xmmToBytes x.high) (xmmToBytes y.high)) } := by
        unfold bothHalves
        rw [applyAvxIntArith128_mulRounded h, applyAvxIntArith128_mulRounded h]
        rfl
      show PackedStandard.Returns ((PackedStandard.arith opcode.toNat).map PackedStandard.halves)
        x.bits y.bits ((bothHalves (applyAvxIntArith128 opcode) x y).map AVXRegister256.bits) ↔ _
      rw [hcode, h]
      refine (gives_halves_iff (l := PackedStandard.each PackedStandard.mulRounded)
        (Nat.succ_pos 15) ⟨8, rfl⟩ x y ⟨_, _⟩).trans ?_
      rw [gives_mulRounded_iff, gives_mulRounded_iff, ← forall_lanes_iff (show 16 * 8 = 128 from rfl)
        x y fun a b => ¬(a = 0x8000 ∧ b = 0x8000)]
      exact ⟨fun hlanes _ => hlanes, fun hlanes => hlanes h⟩
    · exact iff_of_true (returns_bothHalves (returns_arith opcode h) x y) fun heq => absurd heq h
  | mpsadbw imm8 => exact iff_of_true (returns_mpsadbw256 imm8 x y) trivial
  | phminposuw => exact iff_of_true trivial trivial
  | shift opcode group count =>
    exact iff_of_true
      (returns_bothHalves (fun a b => returns_shift a b count opcode group) x y) trivial
  | shiftvarDword opcode => exact returns_shiftvarDword256_iff opcode x y
  | shiftvarQword opcode => exact returns_shiftvarQword256_iff opcode x y
  | pshufb => exact iff_of_true (returns_bothHalves returns_pshufb x y) trivial
  | palignr imm8 => exact iff_of_true (returns_bothHalves (returns_palignr imm8) x y) trivial
  | pshufd imm8 => exact iff_of_true (returns_bothHalves (returns_pshufd imm8) x y) trivial
  | pshufhw imm8 => exact iff_of_true (returns_bothHalves (returns_pshufhw imm8) x y) trivial
  | pshuflw imm8 => exact iff_of_true (returns_bothHalves (returns_pshuflw imm8) x y) trivial
  | blendd imm8 => exact iff_of_true (returns_blendd256 imm8 x y) trivial
  | blendw imm8 => exact iff_of_true (returns_blendw256 imm8 x y) trivial
  | blendvb mask => exact iff_of_true (returns_blendvb256 mask x y) trivial
  | permd => exact iff_of_true (returns_permd x y) trivial
  | permq imm8 => exact iff_of_true (returns_permq imm8 x y) trivial
  | perm2i128 imm8 => exact iff_of_true (returns_perm2i128 imm8 x y) trivial
  | broadcast opcode => exact iff_of_true (returns_broadcast256 opcode x y) trivial

end PackedOp

/-! ## Tests -/

/-- `VTESTPS`, `VTESTPD` and `VPTEST`, whose lanes are single bits. -/
inductive AvxTest where
  | vtestps
  | vtestpd
  | vptest
  deriving DecidableEq, Repr

def AvxTest.width : AvxTest → ℕ
  | vtestps => 32
  | vtestpd => 64
  | vptest => 1

theorem AvxTest.width_pos (t : AvxTest) : 0 < t.width := by
  cases t <;> decide

/-- A common bit is told by the signs: some lane has its sign bit in both vectors. -/
def SignsTell (w : ℕ) (x y : BitVec m) : Prop :=
  (∃ j, x.getLsbD j = true ∧ y.getLsbD j = true) →
    ∃ i < m / w, (lane w x i).msb = true ∧ (lane w y i).msb = true

/-- Two vectors have no common bit. -/
theorem and_eq_zero_iff (x y : BitVec m) :
    x &&& y = 0 ↔ ¬∃ j, x.getLsbD j = true ∧ y.getLsbD j = true := by
  constructor
  · rintro h ⟨j, hx, hy⟩
    have hbit := congrArg (fun z : BitVec m => z.getLsbD j) h
    simp only [BitVec.getLsbD_and, hx, hy, Bool.and_self, BitVec.ofNat_eq_ofNat,
      BitVec.getLsbD_zero, Bool.true_eq_false] at hbit
  · intro h
    apply BitVec.eq_of_getLsbD_eq
    intro j _
    rw [BitVec.getLsbD_and, BitVec.ofNat_eq_ofNat, BitVec.getLsbD_zero, ← Bool.not_eq_true,
      Bool.and_eq_true]
    exact fun hbits => h ⟨j, hbits⟩

theorem testZero_eq_false_iff (x y : BitVec m) : PackedStandard.testZero w (m / w) x y = false ↔
    ∃ i < m / w, (lane w x i).msb = true ∧ (lane w y i).msb = true := by
  rw [PackedStandard.testZero, List.all_eq_false]
  refine exists_congr fun i => ?_
  rw [List.mem_range, Bool.not_eq_true', Bool.not_eq_false, Bool.and_eq_true]

/-- **The zero flag of a test** is that of the signs when they tell. -/
theorem testZero_iff (hw : 0 < w) (x y : BitVec m) :
    decide (x &&& y = 0) = PackedStandard.testZero w (m / w) x y ↔ SignsTell w x y := by
  have hsign : ∀ (z : BitVec m) (i : ℕ), (lane w z i).msb = z.getLsbD (w * i + (w - 1)) := by
    intro z i
    rw [BitVec.msb_eq_getLsbD_last, lane, BitVec.getLsbD_extractLsb',
      decide_eq_true (by omega : w - 1 < w), Bool.true_and]
  by_cases hcommon : ∃ j, x.getLsbD j = true ∧ y.getLsbD j = true
  · have hne : ¬x &&& y = 0 := fun h => (and_eq_zero_iff x y).mp h hcommon
    rw [decide_eq_false hne, eq_comm, testZero_eq_false_iff]
    exact ⟨fun h _ => h, fun h => h hcommon⟩
  · -- without a common bit there is no common sign
    have hzero : PackedStandard.testZero w (m / w) x y = true := by
      rw [← Bool.not_eq_false, testZero_eq_false_iff]
      rintro ⟨i, -, hx, hy⟩
      exact hcommon ⟨_, hsign x i ▸ hx, hsign y i ▸ hy⟩
    rw [decide_eq_true ((and_eq_zero_iff x y).mpr hcommon), hzero]
    exact iff_of_true rfl fun h => absurd h hcommon

/-- The carry flag is the zero flag of the complement. -/
theorem testCarry_eq (hw : 0 < w) (x y : BitVec m) :
    PackedStandard.testCarry w (m / w) x y = PackedStandard.testZero w (m / w) (~~~x) y := by
  have hsign : ∀ i < m / w, (lane w (~~~x) i).msb = !(lane w x i).msb := by
    intro i hi
    have hinside : w * i + w ≤ m := by
      have hle := (Nat.le_div_iff_mul_le hw).mp hi
      rwa [Nat.mul_comm, Nat.mul_succ] at hle
    rw [BitVec.msb_eq_getLsbD_last, BitVec.msb_eq_getLsbD_last, lane, lane,
      BitVec.getLsbD_extractLsb', BitVec.getLsbD_extractLsb', BitVec.getLsbD_not,
      decide_eq_true (by omega : w - 1 < w), decide_eq_true (by omega : w * i + (w - 1) < m),
      Bool.true_and, Bool.true_and, Bool.true_and]
  unfold PackedStandard.testCarry PackedStandard.testZero
  rw [Bool.eq_iff_iff, List.all_eq_true, List.all_eq_true]
  refine forall_congr' fun i => forall_congr' fun hi => ?_
  rw [hsign i (List.mem_range.mp hi)]

theorem append_eq_zero_iff (high low : BitVec w) :
    (high ++ low : BitVec (w + w)) = 0 ↔ high = 0 ∧ low = 0 := by
  have hlanes := lane_append high low
  have hzero : ∀ i, lane w (0 : BitVec (w + w)) i = 0 := by
    intro i
    apply BitVec.eq_of_getLsbD_eq
    intro j _
    rw [lane, BitVec.getLsbD_extractLsb', BitVec.ofNat_eq_ofNat, BitVec.getLsbD_zero, Bool.and_false,
      BitVec.ofNat_eq_ofNat, BitVec.getLsbD_zero]
  constructor
  · intro h
    rw [h, hzero, hzero] at hlanes
    exact ⟨hlanes.2.symm, hlanes.1.symm⟩
  · rintro ⟨rfl, rfl⟩
    exact BitVec.zero_append_zero

theorem computeAvxTestZf128_eq (x y : XMMRegister) :
    computeAvxTestZf128 x y = decide (x.bits &&& y.bits = 0) := by
  rw [XMMRegister.bits, XMMRegister.bits, BitVec.and_append, Bool.eq_iff_iff, decide_eq_true_iff,
    append_eq_zero_iff, computeAvxTestZf128, Bool.and_eq_true, beq_iff_eq, beq_iff_eq, and_comm]

theorem computeAvxTestCf128_eq (x y : XMMRegister) :
    computeAvxTestCf128 x y = decide (~~~x.bits &&& y.bits = 0) := by
  have hbits : ~~~x.bits = XMMRegister.bits { low := ~~~x.low, high := ~~~x.high } :=
    BitVec.not_append
  rw [hbits, ← computeAvxTestZf128_eq]
  rfl

theorem computeAvxTestZf256_eq (x y : AVXRegister256) :
    computeAvxTestZf256 x y = decide (x.bits &&& y.bits = 0) := by
  rw [computeAvxTestZf256, computeAvxTestZf128_eq, computeAvxTestZf128_eq, Bool.eq_iff_iff,
    Bool.and_eq_true, decide_eq_true_iff, decide_eq_true_iff, decide_eq_true_iff,
    AVXRegister256.bits, AVXRegister256.bits, BitVec.and_append, append_eq_zero_iff, and_comm]

theorem computeAvxTestCf256_eq (x y : AVXRegister256) :
    computeAvxTestCf256 x y = decide (~~~x.bits &&& y.bits = 0) := by
  have hbits : ~~~x.bits = ~~~x.high.bits ++ ~~~x.low.bits := BitVec.not_append
  rw [computeAvxTestCf256, computeAvxTestCf128_eq, computeAvxTestCf128_eq, Bool.eq_iff_iff,
    Bool.and_eq_true, decide_eq_true_iff, decide_eq_true_iff, decide_eq_true_iff, hbits,
    AVXRegister256.bits, BitVec.and_append, append_eq_zero_iff, and_comm]

theorem setAvxTestFlags_flags {ctx : CpuContext} (hexc : ctx.hasException = false) (zf cf : Bool) :
    hasFlag (setAvxTestFlags ctx zf cf).rflags .zf = zf ∧
      hasFlag (setAvxTestFlags ctx zf cf).rflags .cf = cf := by
  have hflags : (setAvxTestFlags ctx zf cf).rflags =
      [(StatusFlag.zf, zf), (.cf, cf), (.of, false), (.sf, false), (.af, false), (.pf, false)].foldl
        (fun rflags flag => withFlag rflags flag.1.mask flag.2) ctx.rflags := by
    unfold setAvxTestFlags
    dsimp only
    rw [setFlag_eq hexc, setFlag_rflags hexc, setFlag_rflags hexc, setFlag_rflags hexc,
      setFlag_rflags hexc, setFlag_rflags hexc]
    rfl
  rw [hflags]
  simp only [List.foldl_cons, List.foldl_nil, hasFlag_withFlag]
  exact ⟨rfl, rfl⟩

/-! ## The law -/

/-- The VEX packed-integer instructions; a test with the registers that it finds, without a
pending exception. -/
inductive PackedInstruction where
  | lanes (op : PackedOp)
  | test (t : AvxTest) (ctx : CpuContext) (ready : ctx.hasException = false)

namespace PackedInstruction

/-- The flags of a test are those of the signs of the lanes. -/
def FlagsOfSigns (w : ℕ) (rflags : U64) (x y : BitVec m) : Prop :=
  hasFlag rflags .zf = PackedStandard.testZero w (m / w) x y ∧
    hasFlag rflags .cf = PackedStandard.testCarry w (m / w) x y

/-- **The instruction is exact**: it leaves the lanes that the architecture has, or the zero and
carry flags of the signs of the lanes. -/
def Exact : PackedInstruction → Bool → AVXRegister256 → AVXRegister256 → Prop
  | lanes op, false, x, y =>
    PackedStandard.Returns op.law128 x.low.bits y.low.bits
      ((op.apply128 x.low y.low).map XMMRegister.bits)
  | lanes op, true, x, y =>
    PackedStandard.Returns op.law256 x.bits y.bits ((op.apply256 x y).map AVXRegister256.bits)
  | test t ctx _, false, x, y =>
    FlagsOfSigns t.width (avxTest false x y ctx).rflags x.low.bits y.low.bits
  | test t ctx _, true, x, y => FlagsOfSigns t.width (avxTest true x y ctx).rflags x.bits y.bits

/-- The values, counts and signs at which it is. -/
def InRange : PackedInstruction → Bool → AVXRegister256 → AVXRegister256 → Prop
  | lanes op, false, x, y => op.InRange x.low.bits y.low.bits
  | lanes op, true, x, y => op.InRange x.bits y.bits
  | test t _ _, false, x, y =>
    SignsTell t.width x.low.bits y.low.bits ∧ SignsTell t.width (~~~x.low.bits) y.low.bits
  | test t _ _, true, x, y => SignsTell t.width x.bits y.bits ∧ SignsTell t.width (~~~x.bits) y.bits

theorem flagsOfSigns_iff {ctx : CpuContext} (hexc : ctx.hasException = false) (hw : 0 < w)
    (x y : BitVec m) {zf cf : Bool} (hzf : zf = decide (x &&& y = 0))
    (hcf : cf = decide (~~~x &&& y = 0)) :
    FlagsOfSigns w (setAvxTestFlags ctx zf cf).rflags x y ↔
      SignsTell w x y ∧ SignsTell w (~~~x) y := by
  have hflags := setAvxTestFlags_flags hexc zf cf
  rw [FlagsOfSigns, hflags.1, hflags.2, hzf, hcf, testCarry_eq hw, testZero_iff hw, testZero_iff hw]

end PackedInstruction

/-- **The packed-integer law**: the lanes are exact in the range of an instruction, and nowhere
else. -/
theorem packed_integer_exact_iff (inst : PackedInstruction) (is256 : Bool) (x y : AVXRegister256) :
    inst.Exact is256 x y ↔ inst.InRange is256 x y := by
  cases inst with
  | lanes op =>
    cases is256 with
    | false => exact op.exact128_iff x.low y.low
    | true => exact op.exact256_iff x y
  | test t ctx ready =>
    have hflags128 := PackedInstruction.flagsOfSigns_iff ready t.width_pos x.low.bits y.low.bits
      (computeAvxTestZf128_eq x.low y.low) (computeAvxTestCf128_eq x.low y.low)
    have hflags256 := PackedInstruction.flagsOfSigns_iff ready t.width_pos x.bits y.bits
      (computeAvxTestZf256_eq x y) (computeAvxTestCf256_eq x y)
    cases is256 with
    | false =>
      show PackedInstruction.FlagsOfSigns t.width (avxTest false x y ctx).rflags _ _ ↔ _
      rw [avxTest, if_neg Bool.false_ne_true]
      exact hflags128
    | true =>
      show PackedInstruction.FlagsOfSigns t.width (avxTest true x y ctx).rflags _ _ ↔ _
      rw [avxTest, if_pos rfl]
      exact hflags256

/-- Least words in all lanes. -/
def leastWords : AVXRegister256 := ⟨⟨0x8000800080008000, 0x8000800080008000⟩, .zero⟩

/-- A one in the lowest bit. -/
def lowestBit : AVXRegister256 := ⟨⟨1, 0⟩, .zero⟩

/-- A count of the width of a doubleword. -/
def wholeCount : AVXRegister256 := ⟨⟨32, 0⟩, .zero⟩

/-- The product of two least words, a doubleword that is shifted by its width, and a test of two
vectors without signs. -/
theorem packed_integer_not_exact :
    ¬(PackedInstruction.lanes (.arith 0x0B)).Exact false leastWords leastWords ∧
      ¬(PackedInstruction.lanes (.shiftvarDword 0x45)).Exact false lowestBit wholeCount ∧
      ¬(PackedInstruction.test .vtestps (initCpuContext false) rfl).Exact false lowestBit
        lowestBit := by
  refine ⟨fun h => ?_, fun h => ?_, fun h => ?_⟩
  · have hrange := (PackedOp.exact128_iff (.arith 0x0B) leastWords.low leastWords.low).mp h
    exact hrange rfl 0 (by decide) ⟨by decide, by decide⟩
  · have hrange := (PackedOp.exact128_iff (.shiftvarDword 0x45) lowestBit.low wholeCount.low).mp h
    rcases hrange 0 (by decide) with hbelow | hout
    · exact absurd hbelow (by decide)
    · have hless : (lane 32 lowestBit.low.bits 0).toNat <
          2 ^ ((lane 32 wholeCount.low.bits 0).toNat % 32) := hout
      exact absurd hless (by decide)
  · have hzero : hasFlag (avxTest false lowestBit lowestBit (initCpuContext false)).rflags .zf =
        PackedStandard.testZero 32 4 lowestBit.low.bits lowestBit.low.bits := h.1
    exact absurd hzero (by decide)

end Cpueaxh
