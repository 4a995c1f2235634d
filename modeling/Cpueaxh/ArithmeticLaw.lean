/-
# The law of sums and differences

The flags behind `ADD`, `ADC`, `SUB` and `SBB` are those of the exact sum or difference, so
that chains of them add and subtract numbers of many words.
-/
import Cpueaxh.Arithmetic
import Cpueaxh.FlagWords
import Cpueaxh.CarryArithmetic

namespace Cpueaxh

open HostMemory SubtractionFlags CarryArithmetic

/-! ## The flags -/

/-- The flags register behind the helpers. -/
def arithmeticFlags {w : ℕ} (rflags : U64) (carry overflow adjust : Bool) (result : BitVec w) :
    U64 :=
  [(StatusFlag.cf, carry), (.of, overflow), (.sf, decide (result.toInt < 0)),
    (.zf, decide (result = 0)), (.af, adjust), (.pf, evenParity result)].foldl
    (fun flags flag => withFlag flags flag.1.mask flag.2) rflags

theorem setArithmeticFlags_eq {ctx : CpuContext} (hexc : ctx.hasException = false) {w : ℕ}
    (hw : 8 ≤ w) (carry overflow adjust : Bool) (result : BitVec w) :
    setArithmeticFlags ctx carry overflow adjust result =
      { ctx with rflags := arithmeticFlags ctx.rflags carry overflow adjust result } := by
  have hzero : (result == 0) = decide (result = 0) := by
    rw [Bool.eq_iff_iff, beq_iff_eq, decide_eq_true_iff]
  have hsign : (result &&& BitVec.intMin w != 0) = decide (result.toInt < 0) := by
    rw [and_intMin_ne_zero _ (by omega), BitVec.msb_eq_toInt]
  unfold setArithmeticFlags
  dsimp only
  rw [hzero, hsign, calcParity_lowByte, setFlag_eq hexc, setFlag_rflags hexc, setFlag_rflags hexc,
    setFlag_rflags hexc, setFlag_rflags hexc, setFlag_rflags hexc]
  rfl

/-- Each flag has its value. -/
theorem hasFlag_arithmeticFlags {w : ℕ} (rflags : U64) (carry overflow adjust : Bool)
    (result : BitVec w) (f : StatusFlag) :
    hasFlag (arithmeticFlags rflags carry overflow adjust result) f =
      match f with
      | .cf => carry
      | .pf => evenParity result
      | .af => adjust
      | .zf => decide (result = 0)
      | .sf => decide (result.toInt < 0)
      | .of => overflow := by
  unfold arithmeticFlags
  simp only [List.foldl_cons, List.foldl_nil, hasFlag_withFlag]
  cases f <;> simp

/-- No other flag changes. -/
theorem sameFlags_arithmeticFlags {w : ℕ} (rflags : U64) (carry overflow adjust : Bool)
    (result : BitVec w) :
    SameFlagsBut statusFlags rflags (arithmeticFlags rflags carry overflow adjust result) :=
  SameFlagsBut.withFlags _ (fun _ _ => mem_statusFlags _) (.refl _ _)

/-! ## One instruction -/

/-- The integer that an instruction makes of two integers and a carry. -/
def ArithmeticOp.exact (op : ArithmeticOp) (a b c : ℤ) : ℤ :=
  match op with
  | add => a + b
  | adc => a + b + c
  | sub => a - b
  | sbb => a - b - c

/-- The result is the exact one in a word, and the flags are those of it: the carry for the
words without signs, the overflow for those with signs, and the carry of the low nibble. -/
structure ExactFlags (op : ArithmeticOp) {w : ℕ} (carry : Bool) (dst src result : BitVec w)
    (rflags rflags' : U64) : Prop where
  value : (result.toNat : ℤ) = op.exact dst.toNat src.toNat carry.toNat % 2 ^ w
  cf : hasFlag rflags' .cf = decide (¬ FitsUnsigned w (op.exact dst.toNat src.toNat carry.toNat))
  of : hasFlag rflags' .of = decide (¬ FitsSigned w (op.exact dst.toInt src.toInt carry.toNat))
  af : hasFlag rflags' .af =
    decide (¬ FitsUnsigned 4 (op.exact (dst.toNat % 16 : ℕ) (src.toNat % 16 : ℕ) carry.toNat))
  zf : hasFlag rflags' .zf = decide (result = 0)
  sf : hasFlag rflags' .sf = decide (result.toInt < 0)
  pf : hasFlag rflags' .pf = evenParity result
  others : SameFlagsBut statusFlags rflags rflags'

/-- An instruction computes the value and sets the flags only. -/
def Exact (op : ArithmeticOp) {w : ℕ} (ctx : CpuContext) (dst src : BitVec w)
    (out : BitVec w × CpuContext) : Prop :=
  ∃ rflags, out.2 = { ctx with rflags := rflags } ∧
    ExactFlags op (hasFlag ctx.rflags .cf) dst src out.1 ctx.rflags rflags

/-- The helpers, when their carry, overflow and adjust are exact. -/
theorem exact_setArithmeticFlags {op : ArithmeticOp} {w : ℕ} (hw : 8 ≤ w) {ctx : CpuContext}
    (hexc : ctx.hasException = false) {dst src result : BitVec w} {carry overflow adjust : Bool}
    (hvalue : (result.toNat : ℤ) =
      op.exact dst.toNat src.toNat (hasFlag ctx.rflags .cf).toNat % 2 ^ w)
    (hcarry : carry =
      decide (¬ FitsUnsigned w (op.exact dst.toNat src.toNat (hasFlag ctx.rflags .cf).toNat)))
    (hoverflow : overflow =
      decide (¬ FitsSigned w (op.exact dst.toInt src.toInt (hasFlag ctx.rflags .cf).toNat)))
    (hadjust : adjust = decide (¬ FitsUnsigned 4 (op.exact (dst.toNat % 16 : ℕ)
      (src.toNat % 16 : ℕ) (hasFlag ctx.rflags .cf).toNat))) :
    Exact op ctx dst src (result, setArithmeticFlags ctx carry overflow adjust result) := by
  have hflag := hasFlag_arithmeticFlags ctx.rflags carry overflow adjust result
  have hset := setArithmeticFlags_eq hexc hw carry overflow adjust result
  generalize setArithmeticFlags ctx carry overflow adjust result = ctx' at hset ⊢
  refine ⟨arithmeticFlags ctx.rflags carry overflow adjust result, hset, ?_⟩
  · exact ⟨hvalue, (hflag .cf).trans hcarry, (hflag .of).trans hoverflow,
      (hflag .af).trans hadjust, hflag .zf, hflag .sf, hflag .pf,
      sameFlags_arithmeticFlags _ _ _ _ _⟩

section Exact

variable {op : ArithmeticOp} {w : ℕ} {ctx : CpuContext} {dst src result : BitVec w}
  {carry adjust : Bool} {c : ℕ}

/-- The flags of a sum. -/
theorem sum_exact (hw : 8 ≤ w) (hexc : ctx.hasException = false) (hc : c ≤ 1)
    (hop : ∀ a b : ℤ, op.exact a b (hasFlag ctx.rflags .cf).toNat = a + b + c)
    (hresult : result.toNat = (dst.toNat + src.toNat + c) % 2 ^ w)
    (hcarry : carry = decide (2 ^ w ≤ dst.toNat + src.toNat + c))
    (hadjust : adjust = decide (16 ≤ dst.toNat % 16 + src.toNat % 16 + c)) :
    Exact op ctx dst src
      (result, setArithmeticFlags ctx carry (sumOverflows dst src result) adjust result) := by
  refine exact_setArithmeticFlags hw hexc ?_ ?_ ?_ ?_
  · rw [hop, hresult]
    push_cast
    rfl
  · have hcast : ((2 ^ w : ℕ) : ℤ) = 2 ^ w := by push_cast; rfl
    rw [hop, hcarry, decide_eq_decide]
    unfold FitsUnsigned
    rw [← hcast]
    omega
  · rw [hop]
    exact overflow_sum (by omega) hc hresult
  · rw [hop, hadjust, decide_eq_decide]
    unfold FitsUnsigned
    omega

/-- The flags of a difference. -/
theorem difference_exact (hw : 8 ≤ w) (hexc : ctx.hasException = false) (hc : c ≤ 1)
    (hop : ∀ a b : ℤ, op.exact a b (hasFlag ctx.rflags .cf).toNat = a - b - c)
    (hresult : result.toNat = (2 ^ w + dst.toNat - src.toNat - c) % 2 ^ w)
    (hborrow : carry = decide (dst.toNat < src.toNat + c))
    (hadjust : adjust = decide (dst.toNat % 16 < src.toNat % 16 + c)) :
    Exact op ctx dst src
      (result, setArithmeticFlags ctx carry (differenceOverflows dst src result) adjust result) := by
  have hcast : ((2 ^ w : ℕ) : ℤ) = 2 ^ w := by push_cast; rfl
  have hd := dst.isLt
  have hs := src.isLt
  refine exact_setArithmeticFlags hw hexc ?_ ?_ ?_ ?_
  · have hle : src.toNat + c ≤ 2 ^ w + dst.toNat := by omega
    rw [hop, hresult, Nat.sub_sub, Int.natCast_mod, Nat.cast_sub hle, ← hcast,
      ← Int.add_mul_emod_self_left ((dst.toNat : ℤ) - src.toNat - c) (2 ^ w : ℕ) 1]
    congr 1
    push_cast
    omega
  · rw [hop, hborrow, decide_eq_decide]
    unfold FitsUnsigned
    rw [← hcast]
    omega
  · rw [hop]
    exact overflow_difference (by omega) hc hresult
  · rw [hop, hadjust, decide_eq_decide]
    unfold FitsUnsigned
    omega

end Exact

/-- A carry as a word. -/
theorem carryWord_toNat {w : ℕ} (hw : 8 ≤ w) (carry : Bool) :
    (if carry then 1 else 0 : BitVec w).toNat = carry.toNat := by
  have hle : 2 ^ 8 ≤ 2 ^ w := Nat.pow_le_pow_right (by decide) hw
  cases carry with
  | false => exact BitVec.toNat_zero
  | true => exact Nat.mod_eq_of_lt (show 1 < 2 ^ w by omega)

/-- The wide sum of the code is the sum. -/
theorem wideSum_toNat {w : ℕ} (hw : 8 ≤ w) (x y : BitVec w) (carry : Bool) :
    (x.setWidth (2 * w) + y.setWidth (2 * w) + (if carry then 1 else 0)).toNat =
      x.toNat + y.toNat + carry.toNat := by
  have hx := x.isLt
  have hy := y.isLt
  have hpow : 2 * 2 ^ w ≤ 2 ^ (2 * w) := by
    rw [← pow_succ']
    exact Nat.pow_le_pow_right (by decide) (by omega)
  have hc := carry.toNat_le
  have hwide : ∀ z : BitVec w, (z.setWidth (2 * w)).toNat = z.toNat := by
    intro z
    have hz := z.isLt
    rw [BitVec.toNat_setWidth, Nat.mod_eq_of_lt (by omega)]
  rw [BitVec.toNat_add, BitVec.toNat_add, hwide, hwide, carryWord_toNat (by omega),
    Nat.mod_eq_of_lt (show x.toNat + y.toNat < 2 ^ (2 * w) by omega), Nat.mod_eq_of_lt (by omega)]

/-- A wide sum passes the mask of a word exactly when it passes the word. -/
theorem allOnes_lt_iff {w : ℕ} (hw : 8 ≤ w) (z : BitVec (2 * w)) :
    decide ((BitVec.allOnes w).setWidth (2 * w) < z) = decide (2 ^ w ≤ z.toNat) := by
  have hpos := Nat.two_pow_pos w
  have hle : 2 ^ w ≤ 2 ^ (2 * w) := Nat.pow_le_pow_right (by decide) (by omega)
  rw [decide_eq_decide, BitVec.lt_def, BitVec.toNat_setWidth, BitVec.toNat_allOnes,
    Nat.mod_eq_of_lt (by omega)]
  omega

/-- A comparison that a carry makes weak. -/
theorem lt_or_eq_carry {w : ℕ} (x y : BitVec w) (carry : Bool) :
    (decide (x < y) || (carry && x == y)) = decide (x.toNat < y.toNat + carry.toNat) := by
  have heq : (x == y) = decide (x.toNat = y.toNat) := by
    rw [Bool.eq_iff_iff, beq_iff_eq, decide_eq_true_iff, BitVec.toNat_inj]
  rw [heq]
  cases carry with
  | false =>
    rw [Bool.false_and, Bool.or_false]
    rfl
  | true =>
    rw [Bool.true_and, Bool.eq_iff_iff, Bool.or_eq_true, decide_eq_true_iff, decide_eq_true_iff,
      decide_eq_true_iff, BitVec.lt_def]
    show _ ↔ x.toNat < y.toNat + 1
    omega

section Values

variable {w : ℕ} (hw : 8 ≤ w) {ctx : CpuContext} (hexc : ctx.hasException = false)

include hw hexc

/-- `ADD` of 8 to 32 bits. -/
theorem addValue_exact (dst src : BitVec w) : Exact .add ctx dst src (addValue ctx dst src) := by
  have hwide := wideSum_toNat hw dst src false
  change (dst.setWidth (2 * w) + src.setWidth (2 * w) + 0#(2 * w)).toNat = _ at hwide
  rw [BitVec.add_zero] at hwide
  refine sum_exact hw hexc (c := 0) (by decide) (fun a b => (add_zero _).symm) ?_ ?_ ?_
  · rw [BitVec.toNat_setWidth, hwide]
    rfl
  · rw [allOnes_lt_iff hw, hwide]
    rfl
  · rw [BitVec.setWidth_add _ _ (by omega), BitVec.setWidth_setWidth_of_le _ (by omega),
      BitVec.setWidth_setWidth_of_le _ (by omega), BitVec.setWidth_eq, BitVec.setWidth_eq]
    exact adjust_sum hw dst src

/-- `ADC` of 8 to 32 bits. -/
theorem adcValue_exact (dst src : BitVec w) : Exact .adc ctx dst src (adcValue ctx dst src) := by
  have hwide := wideSum_toNat hw dst src (carryIn ctx)
  refine sum_exact hw hexc (carryIn ctx).toNat_le (fun a b => rfl) ?_ ?_ ?_
  · rw [BitVec.toNat_setWidth, hwide]
  · rw [allOnes_lt_iff hw, hwide]
  · have hnibble := nibble_sum hw dst src (c := if carryIn ctx then 1 else 0)
    rw [carryWord_toNat hw] at hnibble
    exact hnibble (carryIn ctx).toNat_le

/-- `SUB`. -/
theorem subValue_exact (dst src : BitVec w) : Exact .sub ctx dst src (subValue ctx dst src) := by
  have hs := src.isLt
  refine difference_exact hw hexc (c := 0) (by decide) (fun a b => (sub_zero _).symm) ?_ ?_ ?_
  · rw [BitVec.toNat_sub, Nat.sub_zero]
    congr 1
    omega
  · rfl
  · exact borrow_formula dst src hw

/-- `SBB`. -/
theorem sbbValue_exact (dst src : BitVec w) : Exact .sbb ctx dst src (sbbValue ctx dst src) := by
  have hs := src.isLt
  have hc := (carryIn ctx).toNat_le
  have hword := carryWord_toNat hw (carryIn ctx)
  refine difference_exact hw hexc hc (fun a b => rfl) ?_ ?_ ?_
  · have hsum : 2 ^ w - (carryIn ctx).toNat + (2 ^ w - src.toNat + dst.toNat) =
        2 ^ w + (2 ^ w + dst.toNat - src.toNat - (carryIn ctx).toNat) := by omega
    rw [BitVec.toNat_sub, BitVec.toNat_sub, hword, Nat.add_mod_mod, hsum, Nat.add_mod_left]
  · exact lt_or_eq_carry dst src (carryIn ctx)
  · have hnibble := nibble_difference hw dst src (c := if carryIn ctx then 1 else 0)
    rw [hword] at hnibble
    exact hnibble hc

end Values

/-- `ADD` of 64 bits. -/
theorem addValue64_exact {ctx : CpuContext} (hexc : ctx.hasException = false) (dst src : U64) :
    Exact .add ctx dst src (addValue64 ctx dst src) := by
  have hd := dst.isLt
  have hs := src.isLt
  refine sum_exact (by decide) hexc (c := 0) (by decide) (fun a b => (add_zero _).symm) ?_ ?_ ?_
  · exact BitVec.toNat_add dst src
  · rw [decide_eq_decide, BitVec.lt_def, BitVec.toNat_add]
    omega
  · exact adjust_sum (by decide) dst src

/-- `ADC` of 64 bits: the sum wraps to its first operand under a carry exactly when the second
is the greatest word. -/
theorem adcValue64_exact {ctx : CpuContext} (hexc : ctx.hasException = false) (dst src : U64) :
    Exact .adc ctx dst src (adcValue64 ctx dst src) := by
  have hd := dst.isLt
  have hs := src.isLt
  have hresult : (dst + src + (if carryIn ctx then 1 else 0)).toNat =
      (dst.toNat + src.toNat + (carryIn ctx).toNat) % 2 ^ 64 := by
    rw [BitVec.toNat_add, BitVec.toNat_add, carryWord_toNat (by decide), Nat.mod_add_mod]
  refine sum_exact (by decide) hexc (carryIn ctx).toNat_le (fun a b => rfl) hresult ?_ ?_
  · have hc := (carryIn ctx).toNat_le
    rw [lt_or_eq_carry, hresult, decide_eq_decide]
    omega
  · have hnibble := nibble_sum (by decide) dst src (c := if carryIn ctx then 1 else 0)
    rw [carryWord_toNat (by decide)] at hnibble
    exact hnibble (carryIn ctx).toNat_le

/-- **Each instruction** is exact at each size. -/
theorem value_exact (op : ArithmeticOp) (size : OperandWidth) {ctx : CpuContext}
    (hexc : ctx.hasException = false) (dst src : BitVec size.bits) :
    Exact op ctx dst src (op.value size ctx dst src) := by
  have height := size.eight_le
  cases op with
  | add =>
    cases size with
    | qword => exact addValue64_exact hexc dst src
    | _ => exact addValue_exact height hexc dst src
  | adc =>
    cases size with
    | qword => exact adcValue64_exact hexc dst src
    | _ => exact adcValue_exact height hexc dst src
  | sub => exact subValue_exact height hexc dst src
  | sbb => exact sbbValue_exact height hexc dst src

/-! ## The handlers -/

variable {cpu : Cpu}

/-- A handler that writes to the operand sets the flags of its value and stores it. -/
theorem run_arithmeticToRm (hm : ManagerOk cpu.memory) (hexc : cpu.context.hasException = false)
    (op : ArithmeticOp) {size : OperandWidth} {operand : RmOperand} (source : CpuContext → U64)
    {dst : U64} (hread : cpu.rmValue operand size = .ok dst) :
    ∃ rflags result, Exact op cpu.context (dst.setWidth size.bits)
        ((source cpu.context).setWidth size.bits)
        (result, { cpu.context with rflags := rflags }) ∧
      (arithmeticToRm op size operand source).run viewOp cpu =
        transferred ((cpu.edit fun ctx => { ctx with rflags := rflags }).rmStored operand size
          (result.setWidth 64)) := by
  obtain ⟨rflags, hctx, hflags⟩ := value_exact op size hexc (dst.setWidth size.bits)
    ((source cpu.context).setWidth size.bits)
  refine ⟨rflags, _, ⟨rflags, rfl, hflags⟩, ?_⟩
  have hmove : (modifyContext fun _ => (op.value size cpu.context (dst.setWidth size.bits)
      ((source cpu.context).setWidth size.bits)).2).run viewOp cpu =
      ((), cpu.edit fun ctx => { ctx with rflags := rflags }) := by
    rw [hctx]
    rfl
  unfold arithmeticToRm
  rw [Program.run_bind, run_readRmOperand hm hexc, hread]
  dsimp only
  rw [Program.run_bind, run_getContext]
  dsimp only
  rw [Program.run_bind, hmove]
  dsimp only
  exact @run_writeRmOperand (cpu.edit fun ctx => { ctx with rflags := rflags }) hm hexc operand size _

/-- A handler that writes to the register. -/
theorem run_arithmeticToReg (hm : ManagerOk cpu.memory) (hexc : cpu.context.hasException = false)
    (op : ArithmeticOp) {size : OperandWidth} {operand : RmOperand} {src : U64}
    (hread : cpu.rmValue operand size = .ok src) :
    ∃ rflags result, Exact op cpu.context
        ((getRegister size cpu.context (decodeRegIndex cpu.context operand.modrm)).setWidth size.bits)
        (src.setWidth size.bits) (result, { cpu.context with rflags := rflags }) ∧
      (arithmeticToReg op size operand).run viewOp cpu =
        ((), cpu.edit fun ctx => setRegister size { ctx with rflags := rflags }
          (decodeRegIndex ctx operand.modrm) (result.setWidth 64)) := by
  obtain ⟨rflags, hctx, hflags⟩ := value_exact op size hexc
    ((getRegister size cpu.context (decodeRegIndex cpu.context operand.modrm)).setWidth size.bits)
    (src.setWidth size.bits)
  refine ⟨rflags, _, ⟨rflags, rfl, hflags⟩, ?_⟩
  unfold arithmeticToReg
  rw [Program.run_bind, run_readRmOperand hm hexc, hread]
  dsimp only
  rw [Program.run_bind, run_getContext]
  dsimp only
  rw [run_modifyContext, hctx, setRegister_frame]
  unfold Cpu.edit
  dsimp only
  rw [setRegister_frame]
  rfl

/-! ## Numbers of many words -/

/-- Instructions one behind another, each of which takes in the carry of the one before;
between them anything may happen that keeps the carry. -/
inductive Chain (op : ArithmeticOp) (size : OperandWidth) :
    Bool → List (BitVec size.bits × BitVec size.bits) → List (BitVec size.bits) → Bool → Prop where
  | nil (carry : Bool) : Chain op size carry [] [] carry
  | cons {ctx : CpuContext} {dst src : BitVec size.bits}
    {operands : List (BitVec size.bits × BitVec size.bits)} {results : List (BitVec size.bits)}
    {out : Bool} (hexc : ctx.hasException = false)
    (rest : Chain op size (hasFlag (op.value size ctx dst src).2.rflags .cf) operands results out) :
    Chain op size (hasFlag ctx.rflags .cf) ((dst, src) :: operands)
      ((op.value size ctx dst src).1 :: results) out

/-- There are chains over all operands. -/
theorem chain_exists (op : ArithmeticOp) (size : OperandWidth)
    (operands : List (BitVec size.bits × BitVec size.bits)) :
    ∀ carry, ∃ results out, Chain op size carry operands results out := by
  induction operands with
  | nil => exact fun carry => ⟨[], carry, .nil carry⟩
  | cons operand operands ih =>
    intro carry
    let ctx := setFlag (initCpuContext false) rflagsCf carry
    obtain ⟨results, out, hchain⟩ := ih (hasFlag (op.value size ctx operand.1 operand.2).2.rflags .cf)
    have hcarry : hasFlag ctx.rflags .cf = carry := by
      cases carry <;> decide
    have hexc : ctx.hasException = false := by
      cases carry <;> rfl
    refine ⟨(op.value size ctx operand.1 operand.2).1 :: results, out, ?_⟩
    rw [← hcarry]
    exact .cons hexc hchain

/-- A sum and its carry. -/
theorem Exact.sum {op : ArithmeticOp} {w : ℕ} {ctx : CpuContext} {dst src : BitVec w}
    {out : BitVec w × CpuContext} {c : ℕ} (h : Exact op ctx dst src out) (hc : c ≤ 1)
    (hop : ∀ a b : ℤ, op.exact a b (hasFlag ctx.rflags .cf).toNat = a + b + c) :
    out.1.toNat + 2 ^ w * (hasFlag out.2.rflags .cf).toNat = dst.toNat + src.toNat + c := by
  obtain ⟨rflags, hctx, hflags⟩ := h
  have hvalue := hflags.value
  have hcarry := hflags.cf
  rw [hop] at hvalue hcarry
  have hd : (dst.toNat : ℤ) < 2 ^ w := mod_cast dst.isLt
  have hs : (src.toNat : ℤ) < 2 ^ w := mod_cast src.isLt
  have hsplit := sum_split hvalue (by omega) (by omega)
  rw [← hcarry] at hsplit
  rw [hctx]
  exact_mod_cast hsplit

/-- A difference and its borrow. -/
theorem Exact.difference {op : ArithmeticOp} {w : ℕ} {ctx : CpuContext} {dst src : BitVec w}
    {out : BitVec w × CpuContext} {c : ℕ} (h : Exact op ctx dst src out) (hc : c ≤ 1)
    (hop : ∀ a b : ℤ, op.exact a b (hasFlag ctx.rflags .cf).toNat = a - b - c) :
    dst.toNat + 2 ^ w * (hasFlag out.2.rflags .cf).toNat = out.1.toNat + src.toNat + c := by
  obtain ⟨rflags, hctx, hflags⟩ := h
  have hvalue := hflags.value
  have hcarry := hflags.cf
  rw [hop] at hvalue hcarry
  have hd : (dst.toNat : ℤ) < 2 ^ w := mod_cast dst.isLt
  have hs : (src.toNat : ℤ) < 2 ^ w := mod_cast src.isLt
  have hsplit := difference_split hvalue (by omega) (by omega)
  rw [← hcarry] at hsplit
  rw [hctx]
  have hsum : (dst.toNat : ℤ) + 2 ^ w * ((hasFlag rflags .cf).toNat : ℤ) =
      out.1.toNat + src.toNat + c := by omega
  exact_mod_cast hsum

/-- **A chain of `ADC`** adds its operands and the carry. -/
theorem Chain.sum {size : OperandWidth} {carry out : Bool}
    {operands : List (BitVec size.bits × BitVec size.bits)} {results : List (BitVec size.bits)}
    (h : Chain .adc size carry operands results out) :
    wordsValue results + 2 ^ (size.bits * operands.length) * out.toNat =
      wordsValue (operands.map Prod.fst) + wordsValue (operands.map Prod.snd) + carry.toNat := by
  induction h with
  | nil carry =>
    show 0 + 2 ^ (size.bits * 0) * carry.toNat = 0 + 0 + carry.toNat
    rw [Nat.mul_zero, pow_zero, one_mul]
  | @cons ctx dst src operands results out hexc rest ih =>
    have hword := (value_exact .adc size hexc dst src).sum (Bool.toNat_le _) fun a b => rfl
    have hsum := wordsValue_sum hword ih
    rw [← pow_add, add_comm size.bits, ← Nat.mul_succ] at hsum
    exact hsum

/-- **A chain of `SBB`** subtracts its operands and the borrow. -/
theorem Chain.difference {size : OperandWidth} {borrow out : Bool}
    {operands : List (BitVec size.bits × BitVec size.bits)} {results : List (BitVec size.bits)}
    (h : Chain .sbb size borrow operands results out) :
    wordsValue (operands.map Prod.fst) + 2 ^ (size.bits * operands.length) * out.toNat =
      wordsValue results + wordsValue (operands.map Prod.snd) + borrow.toNat := by
  induction h with
  | nil borrow =>
    show 0 + 2 ^ (size.bits * 0) * borrow.toNat = 0 + 0 + borrow.toNat
    rw [Nat.mul_zero, pow_zero, one_mul]
  | @cons ctx dst src operands results out hexc rest ih =>
    have hword := (value_exact .sbb size hexc dst src).difference (Bool.toNat_le _) fun a b => rfl
    have hsum := wordsValue_sum hword ih
    rw [← pow_add, add_comm size.bits, ← Nat.mul_succ] at hsum
    exact hsum

/-- **The flags** of the four instructions are those of the exact sum or difference; so `ADD`
with a chain of `ADC` adds numbers of many words, and `SUB` with a chain of `SBB` subtracts
them, and the last carry is that of the numbers.  The handlers set these flags, and store the
exact result to the operand or the register. -/
theorem arithmetic_law :
    (∀ (op : ArithmeticOp) (size : OperandWidth) (ctx : CpuContext), ctx.hasException = false →
      ∀ dst src, Exact op ctx dst src (op.value size ctx dst src)) ∧
    (∀ (size : OperandWidth) (ctx : CpuContext), ctx.hasException = false →
      ∀ (dst src : BitVec size.bits) (operands : List (BitVec size.bits × BitVec size.bits))
        (results : List (BitVec size.bits)) (out : Bool),
      (Chain .adc size (hasFlag (ArithmeticOp.add.value size ctx dst src).2.rflags .cf) operands
          results out →
        wordsValue ((ArithmeticOp.add.value size ctx dst src).1 :: results)
            + 2 ^ (size.bits * (operands.length + 1)) * out.toNat =
          wordsValue (dst :: operands.map Prod.fst) + wordsValue (src :: operands.map Prod.snd)) ∧
      (Chain .sbb size (hasFlag (ArithmeticOp.sub.value size ctx dst src).2.rflags .cf) operands
          results out →
        wordsValue (dst :: operands.map Prod.fst)
            + 2 ^ (size.bits * (operands.length + 1)) * out.toNat =
          wordsValue ((ArithmeticOp.sub.value size ctx dst src).1 :: results)
            + wordsValue (src :: operands.map Prod.snd))) ∧
    (∀ cpu : Cpu, MemoryOk cpu.memory → cpu.context.hasException = false →
      ∀ (op : ArithmeticOp) (size : OperandWidth) (operand : RmOperand) (source : CpuContext → U64)
        (dst : U64), cpu.rmValue operand size = .ok dst →
      ∃ rflags result, Exact op cpu.context (dst.setWidth size.bits)
          ((source cpu.context).setWidth size.bits)
          (result, { cpu.context with rflags := rflags }) ∧
        UpToCache ((arithmeticToRm op size operand source).run cpuOp cpu).2
          (transferred ((cpu.edit fun ctx => { ctx with rflags := rflags }).rmStored operand size
            (result.setWidth 64))).2) ∧
    ∀ cpu : Cpu, MemoryOk cpu.memory → cpu.context.hasException = false →
      ∀ (op : ArithmeticOp) (size : OperandWidth) (operand : RmOperand) (src : U64),
        cpu.rmValue operand size = .ok src →
      ∃ rflags result, Exact op cpu.context
          ((getRegister size cpu.context (decodeRegIndex cpu.context operand.modrm)).setWidth
            size.bits)
          (src.setWidth size.bits) (result, { cpu.context with rflags := rflags }) ∧
        UpToCache ((arithmeticToReg op size operand).run cpuOp cpu).2
          (cpu.edit fun ctx => setRegister size { ctx with rflags := rflags }
            (decodeRegIndex ctx operand.modrm) (result.setWidth 64)) := by
  refine ⟨fun op size ctx hexc dst src => value_exact op size hexc dst src, ?_, ?_, ?_⟩
  · intro size ctx hexc dst src operands results out
    constructor
    · intro hchain
      -- the lowest words have no carry into them
      have hword := (value_exact .add size hexc dst src).sum (c := 0) (by decide)
        fun a b => (add_zero _).symm
      have hsum := wordsValue_sum hword hchain.sum
      rw [← pow_add, add_comm size.bits, ← Nat.mul_succ] at hsum
      exact hsum
    · intro hchain
      have hword := (value_exact .sub size hexc dst src).difference (c := 0) (by decide)
        fun a b => (sub_zero _).symm
      have hsum := wordsValue_sum hword hchain.difference
      rw [← pow_add, add_comm size.bits, ← Nat.mul_succ] at hsum
      exact hsum
  · intro cpu hm hexc op size operand source dst hread
    obtain ⟨rflags, result, hexact, hrun⟩ := run_arithmeticToRm hm.manager hexc op source hread
    obtain ⟨-, hupTo⟩ := run_viewOp (arithmeticToRm op size operand source) hm
    rw [hrun] at hupTo
    exact ⟨rflags, result, hexact, hupTo⟩
  · intro cpu hm hexc op size operand src hread
    obtain ⟨rflags, result, hexact, hrun⟩ := run_arithmeticToReg hm.manager hexc op hread
    obtain ⟨-, hupTo⟩ := run_viewOp (arithmeticToReg op size operand) hm
    rw [hrun] at hupTo
    exact ⟨rflags, result, hexact, hupTo⟩

/-- 0xFFFF + 0xFF01 in bytes, and `SBB AL, 1` behind a borrow. -/
theorem arithmetic_law_example :
    (∃ results out, Chain .adc .byte true [(0xFF, 0xFF)] results out ∧
      wordsValue ((ArithmeticOp.add.value .byte (initCpuContext false) 0xFF 1).1 :: results)
          + 2 ^ 16 * out.toNat = 0xFFFF + 0xFF01) ∧
    let cpu := hostCpu { initCpuContext false with rflags := rflagsCf } fun _ => 0
    ∃ rflags result, Exact .sbb cpu.context (0 : U8) 1
        (result, { cpu.context with rflags := rflags }) ∧
      UpToCache ((arithmeticToRm .sbb .byte ⟨0xD8, 0⟩ fun _ => 1).run cpuOp cpu).2
        (transferred ((cpu.edit fun ctx => { ctx with rflags := rflags }).rmStored ⟨0xD8, 0⟩ .byte
          (result.setWidth 64))).2 := by
  obtain ⟨results, out, hchain⟩ := chain_exists .adc .byte [(0xFF, 0xFF)] true
  have hcarry : hasFlag (ArithmeticOp.add.value .byte (initCpuContext false) 0xFF 1).2.rflags .cf =
      true := by decide
  constructor
  · refine ⟨results, out, hchain, ?_⟩
    rw [← hcarry] at hchain
    exact (arithmetic_law.2.1 .byte (initCpuContext false) rfl 0xFF 1 [(0xFF, 0xFF)] results
      out).1 hchain
  · exact arithmetic_law.2.2.1 _ (memoryOk_hostCpu _ _) rfl .sbb .byte ⟨0xD8, 0⟩ (fun _ => 1) 0 rfl

end Cpueaxh
