/-
# The law of products

`MUL` and `IMUL` give the exact product, and their flags say whether it fits a word; so a
division by the same operand undoes them, and rows of products with their carries multiply numbers
of many words.
-/
import Cpueaxh.Multiply
import Cpueaxh.DivisionLaw
import Cpueaxh.ArithmeticLaw
import Mathlib.Algebra.Order.Ring.Abs
import Mathlib.Tactic.Positivity

namespace Cpueaxh

open HostMemory SubtractionFlags CarryArithmetic

/-! ## Products -/

section Products

variable {n : ℕ}

/-- The words of a product make up the product. -/
theorem words_toNat (product : BitVec (2 * n)) :
    product.toNat = (highWord product).toNat * 2 ^ n + (lowWord product).toNat := by
  have hlt := product.isLt
  have hpow : 2 ^ (2 * n) = 2 ^ n * 2 ^ n := by rw [two_mul, pow_add]
  rw [hpow] at hlt
  have hhigh : product.toNat / 2 ^ n < 2 ^ n := Nat.div_lt_of_lt_mul hlt
  unfold highWord lowWord
  rw [BitVec.toNat_setWidth, BitVec.toNat_setWidth, BitVec.toNat_ushiftRight,
    Nat.shiftRight_eq_div_pow, Nat.mod_eq_of_lt hhigh]
  exact (Nat.div_add_mod' _ _).symm

/-- The product of two words without signs fits twice the size. -/
theorem mulWide_toNat (x y : BitVec n) : (mulWide false x y).toNat = x.toNat * y.toNat := by
  have hx := x.isLt
  have hy := y.isLt
  have hpow : 2 ^ (2 * n) = 2 ^ n * 2 ^ n := by rw [two_mul, pow_add]
  have hle : 2 ^ n ≤ 2 ^ (2 * n) := Nat.pow_le_pow_right (by decide) (by omega)
  have hlt : x.toNat * y.toNat < 2 ^ (2 * n) := by
    rw [hpow]
    exact Nat.mul_lt_mul'' hx hy
  show (x.setWidth (2 * n) * y.setWidth (2 * n)).toNat = _
  rw [BitVec.toNat_mul, BitVec.toNat_setWidth, BitVec.toNat_setWidth,
    Nat.mod_eq_of_lt (hx.trans_le hle), Nat.mod_eq_of_lt (hy.trans_le hle), Nat.mod_eq_of_lt hlt]

/-- The magnitude of a word with a sign. -/
theorem abs_toInt_le (hn : 0 < n) (x : BitVec n) : |x.toInt| ≤ 2 ^ (n - 1) := by
  have habs := natAbs_toInt_le hn x
  rw [Int.abs_eq_natAbs]
  exact_mod_cast habs

/-- The product of two words with signs fits twice the size. -/
theorem mulWide_toInt (hn : 0 < n) (x y : BitVec n) :
    (mulWide true x y).toInt = x.toInt * y.toInt := by
  have hx := abs_toInt_le hn x
  have hy := abs_toInt_le hn y
  have hprod : |x.toInt * y.toInt| ≤ 2 ^ (n - 1) * 2 ^ (n - 1) := by
    rw [abs_mul]
    exact mul_le_mul hx hy (abs_nonneg _) (by positivity)
  have hpow : (2 : ℤ) ^ (2 * n) = 4 * (2 ^ (n - 1) * 2 ^ (n - 1)) := by
    have hsum : 2 * n = 2 + ((n - 1) + (n - 1)) := by omega
    rw [hsum, pow_add, pow_add]
    norm_num
  have hpos : (0 : ℤ) < 2 ^ (n - 1) * 2 ^ (n - 1) := by positivity
  rw [abs_le] at hprod
  show (x.signExtend (2 * n) * y.signExtend (2 * n)).toInt = _
  rw [BitVec.toInt_mul, BitVec.toInt_signExtend_of_le (by omega),
    BitVec.toInt_signExtend_of_le (by omega)]
  apply Int.bmod_eq_of_le
  · push_cast
    omega
  · push_cast
    omega

/-- **A product is exact**, with signs and without. -/
theorem mulWide_wordInt (hn : 0 < n) (signed : Bool) (x y : BitVec n) :
    wordInt signed (mulWide signed x y) = wordInt signed x * wordInt signed y := by
  cases signed with
  | false =>
    show ((mulWide false x y).toNat : ℤ) = x.toNat * y.toNat
    rw [mulWide_toNat, Nat.cast_mul]
  | true => exact mulWide_toInt hn x y

/-- The words of a product as an integer. -/
theorem words_wordInt (signed : Bool) (product : BitVec (2 * n)) :
    wordInt signed (highWord product) * 2 ^ n + (lowWord product).toNat = wordInt signed product := by
  cases signed with
  | false =>
    show ((highWord product).toNat : ℤ) * 2 ^ n + (lowWord product).toNat = product.toNat
    rw [words_toNat product]
    push_cast
    rfl
  | true => exact (toInt_pair (words_toNat product)).symm

/-- A product without signs fits a word when its high word is zero. -/
theorem highWord_eq_zero_iff (product : BitVec (2 * n)) :
    highWord product = 0 ↔ product.toNat < 2 ^ n := by
  have hwords := words_toNat product
  have hlow := (lowWord product).isLt
  have hpos := Nat.two_pow_pos n
  rw [← BitVec.toNat_inj, show (0 : BitVec n).toNat = 0 from BitVec.toNat_zero]
  constructor
  · intro h
    rw [h, Nat.zero_mul] at hwords
    omega
  · intro h
    by_contra hne
    have := Nat.mul_le_mul_right (2 ^ n) (Nat.one_le_iff_ne_zero.mpr hne)
    omega

/-- A product with signs fits a word when its high word repeats the sign of the low word. -/
theorem fitsSigned_iff (hn : 0 < n) (product : BitVec (2 * n)) :
    FitsSigned n product.toInt ↔
      (highWord product).toInt = if (lowWord product).toInt < 0 then -1 else 0 := by
  obtain ⟨half, hrange, hfits, hsign⟩ := half_range hn
  obtain ⟨hlow, -, hlowInt⟩ := hsign (lowWord product)
  have hwords := toInt_pair (words_toNat product)
  have hpow : (2 : ℤ) ^ n = 2 * half := mod_cast hrange
  have hhalf : (0 : ℤ) < 2 * half := by
    rw [← hpow]
    positivity
  rw [hfits, hwords, hpow, hlowInt]
  generalize (highWord product).toInt = high
  -- a high word other than 0 and -1 takes the product out of the range
  obtain h | rfl | rfl | h : high ≤ -2 ∨ high = -1 ∨ high = 0 ∨ 1 ≤ high := by omega
  · have := Int.mul_le_mul_of_nonneg_right h hhalf.le
    split_ifs <;> omega
  · constructor
    · intro h
      split_ifs <;> omega
    · intro h
      split_ifs at h <;> omega
  · constructor
    · intro h
      split_ifs <;> omega
    · intro h
      split_ifs at h <;> omega
  · have := Int.mul_le_mul_of_nonneg_right h hhalf.le
    split_ifs <;> omega

/-- The same by the low word with its sign. -/
theorem eq_signExtend_iff (hn : 0 < n) (product : BitVec (2 * n)) :
    product = (lowWord product).signExtend (2 * n) ↔ FitsSigned n product.toInt := by
  obtain ⟨half, hrange, -, hsign⟩ := half_range hn
  obtain ⟨hlow, -, hlowInt⟩ := hsign (lowWord product)
  have hwords := toInt_pair (words_toNat product)
  have hpow : (2 : ℤ) ^ n = 2 * half := mod_cast hrange
  have hhalf : (2 : ℤ) * half ≠ 0 := by
    rw [← hpow]
    positivity
  rw [fitsSigned_iff hn, ← BitVec.toInt_inj, BitVec.toInt_signExtend_of_le (by omega), hwords, hpow,
    hlowInt]
  have hcancel : ∀ a : ℤ, (highWord product).toInt * (2 * half) = a * (2 * half) ↔
      (highWord product).toInt = a := fun a => Int.mul_eq_mul_right_iff hhalf
  have hnone := hcancel (-1)
  have hzero := hcancel 0
  split_ifs <;> omega

instance (signed : Bool) (n : ℕ) (q : ℤ) : Decidable (InRange signed n q) :=
  inferInstanceAs (Decidable (if signed = true then _ else _))

/-- The magnitude of a product without signs, by the shift. -/
theorem ushiftRight_eq_zero_iff (product : BitVec (2 * n)) :
    product >>> n = 0 ↔ product.toNat < 2 ^ n := by
  rw [← BitVec.toNat_inj, BitVec.toNat_ushiftRight, Nat.shiftRight_eq_div_pow,
    show (0 : BitVec (2 * n)).toNat = 0 from BitVec.toNat_zero,
    Nat.div_eq_zero_iff_lt (Nat.two_pow_pos n)]

/-- A test for a difference is the negation of an equation. -/
theorem bne_eq_decide {α : Type} [DecidableEq α] {a b : α} {p : Prop} [Decidable p]
    (h : a = b ↔ p) : (a != b) = decide (¬ p) := by
  rw [Bool.eq_iff_iff, bne_iff_ne, decide_eq_true_iff]
  exact not_congr h

/-- **The overflow** of a product is that it does not fit a word. -/
theorem overflows_iff (signed : Bool) (size : OperandWidth) (product : BitVec (2 * size.bits)) :
    (if signed then imulOverflows size product else mulOverflows size product) =
      decide (¬ InRange signed size.bits (wordInt signed product)) := by
  have hpos : 0 < size.bits := by
    have height := size.eight_le
    omega
  have hsmall : ∀ x : BitVec (2 * size.bits),
      x.toNat < 2 ^ size.bits ↔ InRange false size.bits (wordInt false x) := by
    intro x
    show _ ↔ (0 : ℤ) ≤ (x.toNat : ℤ) ∧ (x.toNat : ℤ) < 2 ^ size.bits
    constructor
    · intro h
      exact ⟨Int.natCast_nonneg _, mod_cast h⟩
    · intro h
      exact mod_cast h.2
  cases signed with
  | false =>
    -- the handlers look at the shifted product, and that of 64 bits at the high word
    cases size with
    | qword => exact bne_eq_decide ((highWord_eq_zero_iff product).trans (hsmall product))
    | _ => exact bne_eq_decide ((ushiftRight_eq_zero_iff product).trans (hsmall product))
  | true =>
    have hfits : FitsSigned size.bits product.toInt ↔
        InRange true size.bits (wordInt true product) := Iff.rfl
    cases size with
    | qword =>
      refine bne_eq_decide (Iff.trans ?_ ((fitsSigned_iff hpos product).symm.trans hfits))
      rw [← BitVec.toInt_inj]
      split_ifs <;> exact Iff.rfl
    | _ => exact bne_eq_decide ((eq_signExtend_iff hpos product).trans hfits)

end Products

/-! ## Results -/

/-- The words of a product in their halves. -/
theorem halves_setProduct (size : OperandWidth) (ctx : CpuContext)
    (product : BitVec (2 * size.bits)) :
    lowerHalf size (setProduct size ctx product) = lowWord product ∧
      upperHalf size (setProduct size ctx product) = highWord product := by
  have hwide : ∀ x : BitVec size.bits, (x.setWidth 64).setWidth size.bits = x := fun x => by
    rw [BitVec.setWidth_setWidth_of_le _ size.le_sixtyFour, BitVec.setWidth_eq]
  have hquotient := halves_setQuotientRemainder size ctx ((lowWord product).setWidth 64)
    ((highWord product).setWidth 64)
  rw [hwide, hwide] at hquotient
  cases size with
  | byte =>
    have hlt : product.toNat < 2 ^ 16 := product.isLt
    have hmerge := congrArg BitVec.toNat (truncateTo_regMerge (Or.inl rfl) (ctx.regs regRax)
      (product.setWidth 64))
    rw [truncateTo_toNat (Or.inl rfl), truncateTo_toNat (Or.inl rfl), BitVec.toNat_setWidth,
      Nat.mod_eq_of_lt (show product.toNat < 2 ^ 64 by omega), Nat.mod_eq_of_lt hlt] at hmerge
    show (regMerge 16 (ctx.regs regRax) _).setWidth 8 = product.setWidth 8 ∧
      (regMerge 16 (ctx.regs regRax) _ >>> 8).setWidth 8 = (product >>> 8).setWidth 8
    generalize regMerge 16 (ctx.regs regRax) _ = merged at hmerge ⊢
    constructor
    · apply BitVec.eq_of_toNat_eq
      rw [BitVec.toNat_setWidth, BitVec.toNat_setWidth]
      omega
    · apply BitVec.eq_of_toNat_eq
      rw [BitVec.toNat_setWidth, BitVec.toNat_setWidth, BitVec.toNat_ushiftRight,
        BitVec.toNat_ushiftRight, Nat.shiftRight_eq_div_pow, Nat.shiftRight_eq_div_pow]
      omega
  | word => exact hquotient
  | dword => exact hquotient
  | qword => exact hquotient

/-- Writing a product changes the registers of its halves only. -/
theorem setProduct_frame (size : OperandWidth) (ctx : CpuContext)
    (product : BitVec (2 * size.bits)) :
    ∃ rax rdx, setProduct size ctx product =
        { ctx with regs := Function.update (Function.update ctx.regs regRax rax) regRdx rdx } ∧
      (size = .byte → rdx = ctx.regs regRdx) := by
  have hne : regRdx ≠ regRax := by decide
  cases size with
  | byte =>
    refine ⟨regMerge 16 (ctx.regs regRax) (product.setWidth 64), ctx.regs regRdx, ?_, fun _ => rfl⟩
    have hsame : ∀ rax, Function.update (Function.update ctx.regs regRax rax) regRdx
        (ctx.regs regRdx) = Function.update ctx.regs regRax rax := by
      intro rax
      rw [← Function.update_of_ne hne rax ctx.regs, Function.update_eq_self]
    rw [hsame]
    rfl
  | word => exact ⟨_, _, rfl, by simp⟩
  | dword => exact ⟨_, _, rfl, by simp⟩
  | qword => exact ⟨_, _, rfl, by simp⟩

/-- The flags register behind a product. -/
def mulFlags (rflags : U64) (overflow : Bool) : U64 :=
  withFlag (withFlag rflags StatusFlag.cf.mask overflow) StatusFlag.of.mask overflow

theorem updateFlagsMul_eq {ctx : CpuContext} (hexc : ctx.hasException = false) (overflow : Bool) :
    updateFlagsMul ctx overflow = { ctx with rflags := mulFlags ctx.rflags overflow } := by
  unfold updateFlagsMul
  rw [setFlag_eq hexc, setFlag_rflags hexc]
  rfl

/-- Both flags have the value, and no other flag changes. -/
theorem mulFlags_spec (rflags : U64) (overflow : Bool) :
    hasFlag (mulFlags rflags overflow) .cf = overflow ∧
      hasFlag (mulFlags rflags overflow) .of = overflow ∧
      SameFlagsBut [.cf, .of] rflags (mulFlags rflags overflow) := by
  unfold mulFlags
  refine ⟨?_, ?_, ?_⟩
  · rw [hasFlag_withFlag, if_neg (by decide), hasFlag_withFlag, if_pos rfl]
  · rw [hasFlag_withFlag, if_pos rfl]
  · exact ((SameFlagsBut.refl _ _).withFlag (by decide) _).withFlag (by decide) _

/-- The CPU holds the product of the accumulator and an operand; the carry and the overflow say
whether a half holds it, and nothing else has changed. -/
structure Multiplied (signed : Bool) (size : OperandWidth) (operand : U64) (cpu cpu' : Cpu) :
    Prop where
  product : dividendInt signed size cpu'.context =
    wordInt signed (lowerHalf size cpu.context) * divisorInt signed size operand
  carry : hasFlag cpu'.context.rflags .cf = decide (¬ InRange signed size.bits
    (wordInt signed (lowerHalf size cpu.context) * divisorInt signed size operand))
  overflow : hasFlag cpu'.context.rflags .of = hasFlag cpu'.context.rflags .cf
  others : SameFlagsBut [.cf, .of] cpu.context.rflags cpu'.context.rflags
  byte : size = .byte → cpu'.context.regs regRdx = cpu.context.regs regRdx
  frame : ∃ rax rdx rflags, cpu' = cpu.edit fun ctx =>
    { ctx with
      regs := Function.update (Function.update ctx.regs regRax rax) regRdx rdx
      rflags := rflags }

variable {cpu : Cpu}

/-- The accumulator at a size. -/
theorem getRegister_rax (size : OperandWidth) (ctx : CpuContext) :
    (getRegister size ctx regRax).setWidth size.bits = lowerHalf size ctx := by
  have hwide : ∀ n, n = 16 ∨ n = 32 ∨ n = 64 →
      (getReg n ctx regRax).setWidth n = (ctx.regs regRax).setWidth n := by
    intro n hn
    apply BitVec.eq_of_toNat_eq
    rw [BitVec.toNat_setWidth, BitVec.toNat_setWidth]
    unfold getReg
    rw [truncateTo_toNat hn, Nat.mod_mod]
  cases size with
  | byte =>
    show ((getReg8 ctx regRax).setWidth 64).setWidth 8 = (ctx.regs regRax).setWidth 8
    have hbyte : getReg8 ctx regRax = (ctx.regs regRax &&& 0xFF).setWidth 8 := by
      unfold getReg8
      split_ifs with h1 h2
      · rfl
      · rfl
      · exact absurd (show regRax < 4 by decide) h2
    rw [BitVec.setWidth_setWidth_of_le _ (by decide), BitVec.setWidth_eq, hbyte]
    apply BitVec.eq_of_toNat_eq
    have hand := and_low_toNat (ctx.regs regRax) 8 (by decide)
    change (ctx.regs regRax &&& 0xFF).toNat = _ at hand
    rw [BitVec.toNat_setWidth, BitVec.toNat_setWidth, hand, Nat.mod_mod]
  | word => exact hwide 16 (by decide)
  | dword => exact hwide 32 (by decide)
  | qword => exact hwide 64 (by decide)

/-- The halves lie in the registers. -/
theorem halves_congr {ctx ctx' : CpuContext} (h : ctx'.regs = ctx.regs) (size : OperandWidth) :
    lowerHalf size ctx' = lowerHalf size ctx ∧ upperHalf size ctx' = upperHalf size ctx := by
  unfold lowerHalf upperHalf
  rw [h]
  exact ⟨rfl, rfl⟩

/-- The context behind a product. -/
theorem productContext {ctx : CpuContext} (hexc : ctx.hasException = false) (size : OperandWidth)
    (product : BitVec (2 * size.bits)) (overflow : Bool) :
    ∃ rax rdx, updateFlagsMul (setProduct size ctx product) overflow =
        { ctx with
          regs := Function.update (Function.update ctx.regs regRax rax) regRdx rdx
          rflags := mulFlags ctx.rflags overflow } ∧
      (size = .byte → rdx = ctx.regs regRdx) := by
  obtain ⟨rax, rdx, hframe, hbyte⟩ := setProduct_frame size ctx product
  refine ⟨rax, rdx, ?_, hbyte⟩
  rw [hframe]
  exact @updateFlagsMul_eq { ctx with
    regs := Function.update (Function.update ctx.regs regRax rax) regRdx rdx } hexc overflow

/-- The halves behind a product. -/
theorem halves_product {ctx : CpuContext} (hexc : ctx.hasException = false) (size : OperandWidth)
    (product : BitVec (2 * size.bits)) (overflow : Bool) :
    lowerHalf size (updateFlagsMul (setProduct size ctx product) overflow) = lowWord product ∧
      upperHalf size (updateFlagsMul (setProduct size ctx product) overflow) =
        highWord product := by
  obtain ⟨hlower, hupper⟩ := halves_setProduct size ctx product
  obtain ⟨rax, rdx, hframe, -⟩ := setProduct_frame size ctx product
  have hclear : (setProduct size ctx product).hasException = false := by
    rw [hframe]
    exact hexc
  rw [updateFlagsMul_eq hclear]
  obtain ⟨hl, hu⟩ := @halves_congr (setProduct size ctx product) { setProduct size ctx product with
    rflags := mulFlags (setProduct size ctx product).rflags overflow } rfl size
  exact ⟨hl.trans hlower, hu.trans hupper⟩

/-- The run of a product up to the change of its context. -/
theorem run_executeMultiply (hm : ManagerOk cpu.memory) (hexc : cpu.context.hasException = false)
    (signed : Bool) (size : OperandWidth) (op : RmOperand) :
    (executeMultiply signed size op).run viewOp cpu =
      transferred (do
        let operand ← cpu.rmValue op size
        let product := mulWide signed (lowerHalf size cpu.context) (operand.setWidth size.bits)
        return cpu.edit fun ctx => updateFlagsMul (setProduct size ctx product)
          (decide (¬ InRange signed size.bits (wordInt signed product)))) := by
  unfold executeMultiply
  rw [Program.run_bind, run_getContext]
  dsimp only
  refine run_rmRead hm hexc op size fun operand _ => ?_
  rw [getRegister_rax, overflows_iff, run_modifyContext]
  have hcontext := productContext hexc size
    (mulWide signed (lowerHalf size cpu.context) (operand.setWidth size.bits))
    (decide (¬ InRange signed size.bits (wordInt signed
      (mulWide signed (lowerHalf size cpu.context) (operand.setWidth size.bits)))))
  obtain ⟨rax, rdx, hcontext, -⟩ := hcontext
  unfold Cpu.edit
  dsimp only
  rw [hcontext]
  rfl

/-- **The product** of the accumulator and an operand that can be read. -/
theorem multiply_law (hm : ManagerOk cpu.memory) (hexc : cpu.context.hasException = false)
    (signed : Bool) (size : OperandWidth) (op : RmOperand) {operand : U64}
    (hread : cpu.rmValue op size = .ok operand) :
    ∃ cpu', (executeMultiply signed size op).run viewOp cpu = ((), cpu') ∧
      Multiplied signed size operand cpu cpu' := by
  have hrun := run_executeMultiply hm hexc signed size op
  rw [hread] at hrun
  have hpos : 0 < size.bits := by
    have height := size.eight_le
    omega
  have hexact := mulWide_wordInt hpos signed (lowerHalf size cpu.context)
    (operand.setWidth size.bits)
  obtain ⟨product, hproduct⟩ : ∃ product,
    product = mulWide signed (lowerHalf size cpu.context) (operand.setWidth size.bits) := ⟨_, rfl⟩
  rw [← hproduct] at hexact
  have hoverflow : decide (¬ InRange signed size.bits (wordInt signed product)) =
      decide (¬ InRange signed size.bits
        (wordInt signed (lowerHalf size cpu.context) * divisorInt signed size operand)) := by
    rw [hexact]
    rfl
  obtain ⟨hlower, hupper⟩ := halves_product hexc size product
    (decide (¬ InRange signed size.bits (wordInt signed product)))
  obtain ⟨rax, rdx, hcontext, hbyte⟩ := productContext hexc size product
    (decide (¬ InRange signed size.bits (wordInt signed product)))
  obtain ⟨hcf, hof, hothers⟩ := mulFlags_spec cpu.context.rflags
    (decide (¬ InRange signed size.bits (wordInt signed product)))
  rw [hcontext] at hlower hupper
  refine ⟨cpu.edit fun ctx => { ctx with
      regs := Function.update (Function.update ctx.regs regRax rax) regRdx rdx
      rflags := mulFlags ctx.rflags
        (decide (¬ InRange signed size.bits (wordInt signed product))) }, ?_, ?_⟩
  · rw [hrun]
    show ((), cpu.edit _) = _
    unfold Cpu.edit
    dsimp only
    rw [← hproduct, hcontext]
  · refine ⟨?_, hcf.trans hoverflow, hof.trans hcf.symm, hothers, ?_, rax, rdx, _, rfl⟩
    · unfold dividendInt Cpu.edit
      rw [hlower, hupper, words_wordInt, hexact]
      rfl
    · intro hsize
      show Function.update (Function.update cpu.context.regs regRax rax) regRdx rdx regRdx = _
      rw [Function.update_self, hbyte hsize]

/-- `IMUL CL` of -7 by 2. -/
theorem multiply_law_example :
    ∃ cpu', (executeMultiply true .byte ⟨0xE9, 0⟩).run viewOp idivCpu = ((), cpu') ∧
      dividendInt true .byte cpu'.context = -14 := by
  obtain ⟨cpu', hrun, hproduct⟩ := @multiply_law idivCpu (memoryOk_hostCpu _ _).manager rfl true .byte
    ⟨0xE9, 0⟩ 2 rfl
  exact ⟨cpu', hrun, hproduct.product.trans (by decide)⟩

/-! ## A division behind a product -/

/-- A word is in the range of its size. -/
theorem inRange_wordInt (signed : Bool) {n : ℕ} (hn : 0 < n) (x : BitVec n) :
    InRange signed n (wordInt signed x) := by
  cases signed with
  | false =>
    have hx := x.isLt
    show (0 : ℤ) ≤ (x.toNat : ℤ) ∧ (x.toNat : ℤ) < 2 ^ n
    exact ⟨Int.natCast_nonneg _, mod_cast hx⟩
  | true => exact ⟨(abs_le.mp (abs_toInt_le hn x)).1, BitVec.toInt_lt⟩

/-- Words with the same integer are the same. -/
theorem wordInt_injective (signed : Bool) {n : ℕ} {x y : BitVec n}
    (h : wordInt signed x = wordInt signed y) : x = y := by
  cases signed with
  | false => exact BitVec.eq_of_toNat_eq (Int.ofNat_inj.mp h)
  | true => exact BitVec.eq_of_toInt_eq h

/-- **Division undoes multiplication.**  Behind a `MUL` or `IMUL` of any size the `DIV` or `IDIV`
by an operand that holds the same value, other than zero, never raises `#DE`: the accumulator is
what it was before the product, the other half is zero, and the flags are those of the product. -/
theorem divide_undoes_multiply {udiv128 : Udiv128} (hudiv : ExactUdiv128 udiv128)
    (hm : ManagerOk cpu.memory) (hexc : cpu.context.hasException = false) (signed : Bool)
    (size : OperandWidth) (op op' : RmOperand) {operand : U64} {cpu' : Cpu}
    (hread : cpu.rmValue op size = .ok operand)
    (hrun : (executeMultiply signed size op).run viewOp cpu = ((), cpu'))
    (hread' : cpu'.rmValue op' size = .ok operand) (hne : divisorInt signed size operand ≠ 0) :
    ∃ cpu'', (executeDivision udiv128 signed size op').run viewOp cpu' = ((), cpu'') ∧
      cpu''.context.hasException = false ∧
      lowerHalf size cpu''.context = lowerHalf size cpu.context ∧
      upperHalf size cpu''.context = 0 ∧
      cpu''.context.rflags = cpu'.context.rflags := by
  obtain ⟨_, hrun', hproduct⟩ := multiply_law hm hexc signed size op hread
  obtain rfl : cpu' = _ := congrArg Prod.snd (hrun.symm.trans hrun')
  obtain ⟨rax, rdx, rflags, hframe⟩ := hproduct.frame
  have hm' : ManagerOk cpu'.memory := by
    rw [hframe]
    exact hm
  have hexc' : cpu'.context.hasException = false := by
    rw [hframe]
    exact hexc
  have hpos : 0 < size.bits := by
    have height := size.eight_le
    omega
  -- the quotient is the accumulator before the product
  have hquotient : (dividendInt signed size cpu'.context).tdiv (divisorInt signed size operand) =
      wordInt signed (lowerHalf size cpu.context) := by
    rw [hproduct.product]
    exact Int.mul_tdiv_cancel _ hne
  have hremainder : (dividendInt signed size cpu'.context).tmod (divisorInt signed size operand) =
      0 := by
    rw [hproduct.product]
    exact Int.mul_tmod_left _ _
  -- so it fits, and the division raises nothing
  have hfits : ¬ DivideError signed size cpu'.context operand := by
    unfold DivideError
    rw [hquotient]
    exact not_or.mpr ⟨hne, not_not.mpr (inRange_wordInt signed hpos _)⟩
  have hdivide := run_divideRm hm' hexc' size op' (divisionOf udiv128 signed size)
  rw [← executeDivision_eq] at hdivide
  obtain ⟨cpu'', hdivided, hlaw⟩ := (divided_law hread'
    (divisionOf_spec hudiv signed size cpu'.context operand)).2 hfits
  rw [hdivided] at hdivide
  obtain ⟨rax', rdx', hframe'⟩ := hlaw.frame
  refine ⟨cpu'', hdivide, ?_, ?_, ?_, ?_⟩
  · rw [hframe']
    exact hexc'
  · exact wordInt_injective signed (hlaw.quotient.trans hquotient)
  · have hzero : wordInt signed (0 : BitVec size.bits) = 0 := by
      cases signed with
      | false => exact congrArg Int.ofNat BitVec.toNat_zero
      | true => exact BitVec.toInt_zero
    exact wordInt_injective signed ((hlaw.remainder.trans hremainder).trans hzero.symm)
  · rw [hframe']
    rfl

/-- `IMUL CL` and `IDIV CL`. -/
theorem divide_undoes_multiply_example :
    ∃ cpu'', (executeDivision udiv128Exact true .byte ⟨0xF9, 0⟩).run viewOp
        ((executeMultiply true .byte ⟨0xE9, 0⟩).run viewOp idivCpu).2 = ((), cpu'') ∧
      lowerHalf .byte cpu''.context = 0xF9 := by
  obtain ⟨cpu'', hrun, -, hlower, -⟩ := @divide_undoes_multiply idivCpu udiv128Exact
    exactUdiv128_udiv128Exact (memoryOk_hostCpu _ _).manager rfl true .byte ⟨0xE9, 0⟩ ⟨0xF9, 0⟩ 2 _
    rfl rfl rfl (by decide)
  exact ⟨cpu'', hrun, hlower.trans (by decide)⟩

/-! ## The forms with a destination register -/

/-- The low word of a product does not know of signs. -/
theorem lowWord_mulWide (signed : Bool) {n : ℕ} (x y : BitVec n) :
    lowWord (mulWide signed x y) = x * y := by
  unfold lowWord mulWide
  cases signed with
  | false =>
    rw [if_neg (by decide), BitVec.setWidth_mul _ _ (by omega),
      BitVec.setWidth_setWidth_of_le _ (by omega), BitVec.setWidth_setWidth_of_le _ (by omega),
      BitVec.setWidth_eq, BitVec.setWidth_eq]
  | true =>
    have hword : ∀ z : BitVec n, (z.signExtend (2 * n)).setWidth n = z := by
      intro z
      apply BitVec.eq_of_getLsbD_eq
      intro i hi
      rw [BitVec.getLsbD_setWidth, BitVec.getLsbD_signExtend]
      simp [hi, show i < 2 * n by omega]
    rw [if_pos rfl, BitVec.setWidth_mul _ _ (by omega), hword, hword]

/-- The CPU with the product of two words in the destination register. -/
def Cpu.imulWritten (cpu : Cpu) (size : OperandWidth) (op : RmOperand) (x y : BitVec size.bits) :
    Cpu :=
  cpu.edit fun ctx =>
    { setRegister size ctx (decodeRegIndex ctx op.modrm) ((x * y).setWidth 64) with
      rflags := mulFlags ctx.rflags (decide (¬ FitsSigned size.bits (x.toInt * y.toInt))) }

/-- A register and the flags behind a product. -/
theorem updateFlagsMul_setRegister {ctx : CpuContext} (hexc : ctx.hasException = false)
    (size : OperandWidth) (reg : Fin 16) (value : U64) (overflow : Bool) :
    updateFlagsMul (setRegister size ctx reg value) overflow =
      { setRegister size ctx reg value with rflags := mulFlags ctx.rflags overflow } := by
  have hframe := setRegister_frame size ctx reg value
  have hclear : (setRegister size ctx reg value).hasException = false := by
    rw [hframe]
    exact hexc
  have hflags : (setRegister size ctx reg value).rflags = ctx.rflags := by rw [hframe]
  rw [updateFlagsMul_eq hclear, hflags]

theorem run_writeImulProduct (hexc : cpu.context.hasException = false) (size : OperandWidth)
    (op : RmOperand) (x y : BitVec size.bits) :
    (writeImulProduct size op (mulWide true x y)).run viewOp cpu =
      ((), cpu.imulWritten size op x y) := by
  have hpos : 0 < size.bits := by
    have height := size.eight_le
    omega
  have hoverflow := overflows_iff true size (mulWide true x y)
  rw [if_pos rfl, show wordInt true (mulWide true x y) = (mulWide true x y).toInt from rfl,
    mulWide_toInt hpos] at hoverflow
  have hkeep := keepMode_setRegister size cpu.context (decodeRegIndex cpu.context op.modrm)
    ((x * y).setWidth 64)
  unfold writeImulProduct
  rw [run_modifyContext, lowWord_mulWide, hoverflow, updateFlagsMul_setRegister hexc]
  exact congrArg (fun ctx : CpuContext => ((), { cpu with context := { ctx with
    rflags := mulFlags cpu.context.rflags (decide (¬ FitsSigned size.bits (x.toInt * y.toInt))) } }))
    hkeep

/-- **`IMUL` with a destination register**, of an operand by the register or by an immediate,
writes the low word of the product, and its flags say whether that is the product. -/
theorem imul_reg_law (hm : ManagerOk cpu.memory) (hexc : cpu.context.hasException = false)
    (size : OperandWidth) (op : RmOperand) (immediate : U64) :
    (imulRegRm size op).run viewOp cpu = transferred (do
        let rhs ← cpu.rmValue op size
        return cpu.imulWritten size op
          ((getRegister size cpu.context (decodeRegIndex cpu.context op.modrm)).setWidth size.bits)
          (rhs.setWidth size.bits)) ∧
      (imulRegRmImm size op immediate).run viewOp cpu = transferred (do
        let src ← cpu.rmValue op size
        return cpu.imulWritten size op (src.setWidth size.bits) (immediate.setWidth size.bits)) := by
  constructor
  · unfold imulRegRm
    rw [Program.run_bind, run_getContext]
    exact run_rmRead hm hexc op size fun rhs _ => run_writeImulProduct hexc size op _ _
  · exact run_rmRead hm hexc op size fun src _ => run_writeImulProduct hexc size op _ _

/-- A register behind another change of the context. -/
theorem keepMode_setRegister_of {ctx new : CpuContext} (h : ctx.keepMode new = new)
    (size : OperandWidth) (reg : Fin 16) (value : U64) :
    ctx.keepMode (setRegister size new reg value) = setRegister size new reg value := by
  rw [setRegister_frame size new]
  exact congrArg (fun c : CpuContext => { c with regs := (setRegister size new reg value).regs }) h

/-- **`MULX`** writes the words of the product of `RDX` and its operand, the high word last, and
no flags. -/
theorem mulx_law (hm : ManagerOk cpu.memory) (hexc : cpu.context.hasException = false)
    {size : OperandWidth} (vex : Fin 16) (op : RmOperand) :
    (executeMulx size vex op).run viewOp cpu = transferred (do
      let source ← cpu.rmValue op size
      let product := mulWide false ((getRegister size cpu.context regRdx).setWidth size.bits)
        (source.setWidth size.bits)
      return cpu.edit fun ctx => setRegister size
        (setRegister size ctx vex ((lowWord product).setWidth 64))
        (decodeRegIndex ctx op.modrm) ((highWord product).setWidth 64)) := by
  refine run_rmRead hm hexc op size fun source hsource => ?_
  rw [Program.run_bind, run_getContext, and_operandMask (rmValue_lt hsource)]
  dsimp only
  generalize mulWide false ((getRegister size cpu.context regRdx).setWidth size.bits)
    (source.setWidth size.bits) = product
  -- the second register is found behind the first write, which leaves the prefixes alone
  have hreg : decodeRegIndex (setRegister size cpu.context vex ((lowWord product).setWidth 64))
      op.modrm = decodeRegIndex cpu.context op.modrm := by
    rw [setRegister_frame]
    rfl
  rw [run_modifyContext, hreg,
    keepMode_setRegister_of (keepMode_setRegister size cpu.context vex _)]
  rfl

/-! ## Rows of products -/

/-- A handler with a register as its destination runs, from one CPU to another. -/
inductive HandlerRun (op : ArithmeticOp) (size : OperandWidth) (cpu : Cpu) :
    Fin 16 → U64 → Cpu → Prop where
  | toReg (operand : RmOperand) {src : U64} (hread : cpu.rmValue operand size = .ok src) :
    HandlerRun op size cpu (decodeRegIndex cpu.context operand.modrm) src
      ((arithmeticToReg op size operand).run viewOp cpu).2
  | toRm (operand : RmOperand) (source : CpuContext → U64) (hreg : operand.isRegister = true) :
    HandlerRun op size cpu (decodeRmIndex cpu.context operand.modrm) (source cpu.context)
      ((arithmeticToRm op size operand source).run viewOp cpu).2

/-- Some run of an instruction, whatever else the CPU holds: the words and the carry that it finds,
and the word and the carry that it leaves. -/
def Computes (op : ArithmeticOp) (size : OperandWidth) (dst src : BitVec size.bits) (carry : Bool)
    (result : BitVec size.bits) (out : Bool) : Prop :=
  ∃ (cpu cpu' : Cpu) (reg : Fin 16) (source : U64),
    ManagerOk cpu.memory ∧ cpu.context.hasException = false ∧ HandlerRun op size cpu reg source cpu' ∧
    (getRegister size cpu.context reg).setWidth size.bits = dst ∧ source.setWidth size.bits = src ∧
    hasFlag cpu.context.rflags .cf = carry ∧
    (getRegister size cpu'.context reg).setWidth size.bits = result ∧
    hasFlag cpu'.context.rflags .cf = out

/-- Some run of `MUL`: the word in the accumulator, the operand, and the halves of the product. -/
def MultipliesTo (size : OperandWidth) (word factor high low : BitVec size.bits) : Prop :=
  ∃ (cpu : Cpu) (op : RmOperand) (operand : U64),
    ManagerOk cpu.memory ∧ cpu.context.hasException = false ∧ cpu.rmValue op size = .ok operand ∧
    lowerHalf size cpu.context = word ∧ operand.setWidth size.bits = factor ∧
    upperHalf size ((executeMultiply false size op).run viewOp cpu).2.context = high ∧
    lowerHalf size ((executeMultiply false size op).run viewOp cpu).2.context = low

/-- A word added to a product in two words: `ADD` to the low word and `ADC` of zero to the high
word.  Between them anything may happen that keeps the carry. -/
inductive AddWord (size : OperandWidth) (high low addend : BitVec size.bits) :
    BitVec size.bits → BitVec size.bits → Prop where
  | mk {high' low' : BitVec size.bits} {before carry spill : Bool}
    (hadd : Computes .add size low addend before low' carry)
    (hadc : Computes .adc size high 0 carry high' spill) :
    AddWord size high low addend high' low'

/-- A loop over the words of a number, each with a word to add to its product: `MUL` by the factor,
then the word that comes in and the word to add are added to the product.  The high word of the
sum comes in next. -/
inductive MulRow (size : OperandWidth) (factor : BitVec size.bits) :
    BitVec size.bits → List (BitVec size.bits × BitVec size.bits) → List (BitVec size.bits) →
      BitVec size.bits → Prop where
  | nil (incoming : BitVec size.bits) : MulRow size factor incoming [] [] incoming
  | cons {word addend incoming high₀ low₀ high low high' low' outgoing : BitVec size.bits}
    {words : List (BitVec size.bits × BitVec size.bits)} {results : List (BitVec size.bits)}
    (hproduct : MultipliesTo size word factor high₀ low₀)
    (hincoming : AddWord size high₀ low₀ incoming high low)
    (haddend : AddWord size high low addend high' low')
    (rest : MulRow size factor high' words results outgoing) :
    MulRow size factor incoming ((word, addend) :: words) (low' :: results) outgoing

/-- A register that a context receives with its flags. -/
theorem getRegister_flagged (size : OperandWidth) (ctx : CpuContext) (rflags : U64) (reg : Fin 16)
    (result : BitVec size.bits) :
    (getRegister size (setRegister size { ctx with rflags := rflags } reg (result.setWidth 64))
        reg).setWidth size.bits = result ∧
      (setRegister size { ctx with rflags := rflags } reg (result.setWidth 64)).rflags = rflags := by
  have hwide : (result.setWidth 64).setWidth size.bits = result := by
    rw [BitVec.setWidth_setWidth_of_le _ size.le_sixtyFour, BitVec.setWidth_eq]
  have hlt : (result.setWidth 64).toNat < 2 ^ size.bits := by
    rw [BitVec.toNat_setWidth]
    exact lt_of_le_of_lt (Nat.mod_le _ _) result.isLt
  constructor
  · rw [getRegister_written size _ reg hlt, hwide]
  · rw [setRegister_frame]

/-- A run leaves the exact result in its register, and the flags of it. -/
theorem HandlerRun.exact {op : ArithmeticOp} {size : OperandWidth} {cpu' : Cpu} {reg : Fin 16}
    {src : U64} (hm : ManagerOk cpu.memory) (hexc : cpu.context.hasException = false)
    (h : HandlerRun op size cpu reg src cpu') :
    ∃ ctx', Exact op cpu.context ((getRegister size cpu.context reg).setWidth size.bits)
        (src.setWidth size.bits) ((getRegister size cpu'.context reg).setWidth size.bits, ctx') ∧
      ctx'.rflags = cpu'.context.rflags := by
  cases h with
  | toReg operand hread =>
    obtain ⟨rflags, result, hexact, hrun⟩ := run_arithmeticToReg hm hexc op hread
    obtain ⟨hregister, hflags⟩ := getRegister_flagged size cpu.context rflags
      (decodeRegIndex cpu.context operand.modrm) result
    rw [hrun]
    refine ⟨{ cpu.context with rflags := rflags }, ?_, hflags.symm⟩
    dsimp only [Cpu.edit]
    rw [hregister]
    exact hexact
  | toRm operand source hreg =>
    have hread : cpu.rmValue operand size =
        .ok (getRegister size cpu.context (decodeRmIndex cpu.context operand.modrm)) := by
      unfold Cpu.rmValue
      rw [if_pos hreg]
    obtain ⟨rflags, result, hexact, hrun⟩ := run_arithmeticToRm hm hexc op source hread
    obtain ⟨hregister, hflags⟩ := getRegister_flagged size cpu.context rflags
      (decodeRmIndex cpu.context operand.modrm) result
    have hstored : (cpu.edit fun ctx => { ctx with rflags := rflags }).rmStored operand size
        (result.setWidth 64) = .ok (cpu.edit fun ctx => setRegister size
          { ctx with rflags := rflags } (decodeRmIndex cpu.context operand.modrm)
            (result.setWidth 64)) := by
      unfold Cpu.rmStored
      rw [if_pos hreg]
      rfl
    rw [hrun, hstored]
    refine ⟨{ cpu.context with rflags := rflags }, ?_, hflags.symm⟩
    dsimp only [Cpu.edit, transferred]
    rw [hregister]
    exact hexact

/-- The word and the carry of a run are the sum. -/
theorem Computes.sum {op : ArithmeticOp} {size : OperandWidth} {dst src result : BitVec size.bits}
    {carry out : Bool} (h : Computes op size dst src carry result out) {c : ℕ} (hc : c ≤ 1)
    (hop : ∀ a b : ℤ, op.exact a b carry.toNat = a + b + c) :
    result.toNat + 2 ^ size.bits * out.toNat = dst.toNat + src.toNat + c := by
  obtain ⟨cpu, cpu', reg, source, hm, hexc, hrun, rfl, rfl, rfl, rfl, rfl⟩ := h
  obtain ⟨ctx', hexact, hflags⟩ := hrun.exact hm hexc
  rw [← hflags]
  exact hexact.sum hc hop

/-- The halves of a run are the product. -/
theorem MultipliesTo.product {size : OperandWidth} {word factor high low : BitVec size.bits}
    (h : MultipliesTo size word factor high low) :
    high.toNat * 2 ^ size.bits + low.toNat = word.toNat * factor.toNat := by
  obtain ⟨cpu, op, operand, hm, hexc, hread, rfl, rfl, rfl, rfl⟩ := h
  obtain ⟨cpu', hrun, hproduct⟩ := multiply_law hm hexc false size op hread
  have hwords : ((upperHalf size cpu'.context).toNat : ℤ) * 2 ^ size.bits
      + (lowerHalf size cpu'.context).toNat =
        (lowerHalf size cpu.context).toNat * (operand.setWidth size.bits).toNat := hproduct.product
  rw [hrun]
  exact mod_cast hwords

/-- A word added to a product is added exactly, as long as two words hold the sum. -/
theorem AddWord.sum {size : OperandWidth} {high low addend high' low' : BitVec size.bits}
    (h : AddWord size high low addend high' low')
    (hfits : high.toNat * 2 ^ size.bits + low.toNat + addend.toNat < 2 ^ size.bits * 2 ^ size.bits) :
    high'.toNat * 2 ^ size.bits + low'.toNat =
      high.toNat * 2 ^ size.bits + low.toNat + addend.toNat := by
  obtain ⟨hadd, hadc⟩ := h
  rename_i before carry spill
  have hlowSum := hadd.sum (c := 0) (by decide) fun a b => (add_zero _).symm
  have hhighSum := hadc.sum (Bool.toNat_le _) fun a b => rfl
  rw [show (0 : BitVec size.bits).toNat = 0 from BitVec.toNat_zero] at hhighSum
  have hover := Bool.toNat_le spill
  generalize low'.toNat = lowSum at *
  generalize carry.toNat = carry at *
  generalize high'.toNat = highSum at *
  generalize spill.toNat = spill at *
  have htotal : high.toNat * 2 ^ size.bits + low.toNat + addend.toNat =
      highSum * 2 ^ size.bits + lowSum + 2 ^ size.bits * 2 ^ size.bits * spill := by
    calc high.toNat * 2 ^ size.bits + low.toNat + addend.toNat
        = high.toNat * 2 ^ size.bits + (lowSum + 2 ^ size.bits * carry) := by omega
      _ = (high.toNat + 0 + carry) * 2 ^ size.bits + lowSum := by ring
      _ = (highSum + 2 ^ size.bits * spill) * 2 ^ size.bits + lowSum := by rw [hhighSum]
      _ = _ := by ring
  -- a carry out of the high word would put the sum out of the range
  obtain rfl | rfl : spill = 0 ∨ spill = 1 := by omega
  · rw [htotal, Nat.mul_zero, Nat.add_zero]
  · exfalso
    omega

/-- **A row of products** multiplies a number of many words by a word, and adds a number and the
word that came in: no carry is lost, whatever the words are. -/
theorem mulRow_law {size : OperandWidth} {factor incoming outgoing : BitVec size.bits}
    {words : List (BitVec size.bits × BitVec size.bits)} {results : List (BitVec size.bits)}
    (h : MulRow size factor incoming words results outgoing) :
    wordsValue results + 2 ^ (size.bits * words.length) * outgoing.toNat =
      wordsValue (words.map Prod.fst) * factor.toNat + wordsValue (words.map Prod.snd)
        + incoming.toNat := by
  -- the induction is on the words of the row, from the lowest on
  induction h with
  | nil incoming =>
    show 0 + 2 ^ (size.bits * 0) * incoming.toNat = 0 * factor.toNat + 0 + incoming.toNat
    rw [Nat.mul_zero, pow_zero, Nat.zero_mul, one_mul]
  | @cons word addend incoming high₀ low₀ high low high' low' outgoing words results hmul hincoming
      haddend rest ih =>
    have hproduct := hmul.product
    -- the greatest product leaves room for two words
    have hroom : word.toNat * factor.toNat + 2 * 2 ^ size.bits ≤
        2 ^ size.bits * 2 ^ size.bits + 1 := by
      have hword := word.isLt
      have hfactor := factor.isLt
      obtain ⟨b, hb⟩ : ∃ b, 2 ^ size.bits = b + 1 := ⟨2 ^ size.bits - 1, by omega⟩
      rw [hb] at hword hfactor ⊢
      calc word.toNat * factor.toNat + 2 * (b + 1)
          ≤ b * b + 2 * (b + 1) := Nat.add_le_add_right
            (Nat.mul_le_mul (Nat.lt_succ_iff.mp hword) (Nat.lt_succ_iff.mp hfactor)) _
        _ = (b + 1) * (b + 1) + 1 := by ring
    have hin := incoming.isLt
    have hadd := addend.isLt
    have hfirst := hincoming.sum (by omega)
    have hsecond := haddend.sum (by omega)
    have hpow : 2 ^ (size.bits * ((word, addend) :: words).length) =
        2 ^ size.bits * 2 ^ (size.bits * words.length) := by
      rw [List.length_cons, Nat.mul_succ, Nat.add_comm, pow_add]
    rw [hpow]
    show low'.toNat + 2 ^ size.bits * wordsValue results + _ =
      (word.toNat + 2 ^ size.bits * wordsValue (words.map Prod.fst)) * factor.toNat
        + (addend.toNat + 2 ^ size.bits * wordsValue (words.map Prod.snd)) + incoming.toNat
    calc low'.toNat + 2 ^ size.bits * wordsValue results
          + 2 ^ size.bits * 2 ^ (size.bits * words.length) * outgoing.toNat
        = low'.toNat + 2 ^ size.bits * (wordsValue results
          + 2 ^ (size.bits * words.length) * outgoing.toNat) := by ring
      _ = high'.toNat * 2 ^ size.bits + low'.toNat + 2 ^ size.bits *
          (wordsValue (words.map Prod.fst) * factor.toNat + wordsValue (words.map Prod.snd)) := by
        rw [ih]
        ring
      _ = word.toNat * factor.toNat + incoming.toNat + addend.toNat + 2 ^ size.bits *
          (wordsValue (words.map Prod.fst) * factor.toNat + wordsValue (words.map Prod.snd)) := by
        rw [hsecond, hfirst, hproduct]
      _ = _ := by ring

/-- A CPU without memory, with words in `AL` and `CL`. -/
def rowCpu (al cl : U64) (carry : Bool) : Cpu where
  context :=
    { initCpuContext false with
      regs := fun reg => if reg = 0 then al else cl
      rflags := if carry then rflagsCf else 0 }
  memory := mmInit (.initial (fun _ => 0) fun _ => false)
  hooks := .none
  asked := 0

/-- 0x2FF by 0xFF with 0x1FF to add and 0xFF coming in, in bytes. -/
theorem mulRow_law_example :
    ∃ results outgoing, MulRow .byte 0xFF 0xFF [(0xFF, 0xFF), (0x02, 0x01)] results outgoing ∧
      wordsValue results + 2 ^ 16 * outgoing.toNat = 0x2FF * 0xFF + 0x1FF + 0xFF := by
  have hm : ∀ al cl carry, ManagerOk (rowCpu al cl carry).memory := fun _ _ _ =>
    (memoryOk_mmInit _).manager
  have hmul : MultipliesTo .byte 0xFF 0xFF 0xFE 0x01 ∧ MultipliesTo .byte 0x02 0xFF 0x01 0xFE :=
    ⟨⟨rowCpu 0xFF 0xFF false, ⟨0xE1, 0⟩, 0xFF, hm _ _ _, rfl, rfl, rfl, rfl, rfl, rfl⟩,
      ⟨rowCpu 0x02 0xFF false, ⟨0xE1, 0⟩, 0xFF, hm _ _ _, rfl, rfl, rfl, rfl, rfl, rfl⟩⟩
  have hfirst : AddWord .byte 0xFE 0x01 0xFF 0xFF 0x00 :=
    .mk ⟨rowCpu 0x01 0xFF false, _, 0, _, hm _ _ _, rfl, .toReg ⟨0xC1, 0⟩ rfl, rfl, rfl, rfl, rfl,
        rfl⟩
      ⟨rowCpu 0xFE 0 true, _, 0, _, hm _ _ _, rfl, .toRm ⟨0xD0, 0⟩ (fun _ => 0) rfl, rfl, rfl, rfl,
        rfl, rfl⟩
  have hsecond : AddWord .byte 0xFF 0x00 0xFF 0xFF 0xFF :=
    .mk ⟨rowCpu 0x00 0xFF false, _, 0, _, hm _ _ _, rfl, .toReg ⟨0xC1, 0⟩ rfl, rfl, rfl, rfl, rfl,
        rfl⟩
      ⟨rowCpu 0xFF 0 false, _, 0, _, hm _ _ _, rfl, .toRm ⟨0xD0, 0⟩ (fun _ => 0) rfl, rfl, rfl, rfl,
        rfl, rfl⟩
  have hthird : AddWord .byte 0x01 0xFE 0xFF 0x02 0xFD :=
    .mk ⟨rowCpu 0xFE 0xFF false, _, 0, _, hm _ _ _, rfl, .toReg ⟨0xC1, 0⟩ rfl, rfl, rfl, rfl, rfl,
        rfl⟩
      ⟨rowCpu 0x01 0 true, _, 0, _, hm _ _ _, rfl, .toRm ⟨0xD0, 0⟩ (fun _ => 0) rfl, rfl, rfl, rfl,
        rfl, rfl⟩
  have hfourth : AddWord .byte 0x02 0xFD 0x01 0x02 0xFE :=
    .mk ⟨rowCpu 0xFD 0x01 false, _, 0, _, hm _ _ _, rfl, .toReg ⟨0xC1, 0⟩ rfl, rfl, rfl, rfl, rfl,
        rfl⟩
      ⟨rowCpu 0x02 0 false, _, 0, _, hm _ _ _, rfl, .toRm ⟨0xD0, 0⟩ (fun _ => 0) rfl, rfl, rfl, rfl,
        rfl, rfl⟩
  have hrow : MulRow .byte 0xFF 0xFF [(0xFF, 0xFF), (0x02, 0x01)] [0xFF, 0xFE] 0x02 :=
    .cons hmul.1 hfirst hsecond (.cons hmul.2 hthird hfourth (.nil 0x02))
  exact ⟨_, _, hrow, (mulRow_law hrow).trans (by decide)⟩

end Cpueaxh
