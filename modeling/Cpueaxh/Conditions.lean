/-
# Comparisons and conditions

The instructions that compare, and those that ask for a condition: `instructions/cmp.hpp`,
`setcc.hpp` and `cmovcc.hpp`, beside the jumps of `jcc.hpp`.  A comparison sets the flags of a
subtraction, and the sixteen conditions are the relations between its operands, without signs
and with them.  Behind a chain of `SBB` the conditions compare numbers of many words.
-/
import Cpueaxh.ArithmeticLaw
import Cpueaxh.InlineLaw
import Mathlib.Tactic.IntervalCases

namespace Cpueaxh

open HostMemory SubtractionFlags CarryArithmetic

/-! ## The instructions -/

/-- The operands of `CMP`: an immediate or the register of the ModRM byte against its operand,
its operand against the register, or an immediate against the accumulator. -/
inductive CompareForm where
  | rmImm (immediate : U64)
  | rmReg
  | regRm
  | accumulatorImm (immediate : U64)
  deriving DecidableEq, Repr

/-- `cmp_rm8_imm8`, `cmp_rm8_r8`, `cmp_r8_rm8`, `cmp_al_imm8` and their like of the other sizes.
An immediate is the sign-extended one of the encoding. -/
def executeCmp (form : CompareForm) (size : OperandWidth) (operand : RmOperand) :
    CpuProgram Unit :=
  match form with
  | .rmImm immediate => do
    let dst ← readRmOperand operand size
    modifyContext fun ctx => updateFlagsCompare size.bits ctx dst immediate
  | .rmReg => do
    let ctx ← getContext
    let src := getRegister size ctx (decodeRegIndex ctx operand.modrm)
    let dst ← readRmOperand operand size
    modifyContext fun ctx => updateFlagsCompare size.bits ctx dst src
  | .regRm => do
    let ctx ← getContext
    let dst := getRegister size ctx (decodeRegIndex ctx operand.modrm)
    let src ← readRmOperand operand size
    modifyContext fun ctx => updateFlagsCompare size.bits ctx dst src
  | .accumulatorImm immediate =>
    modifyContext fun ctx => updateFlagsCompare size.bits ctx (ctx.regs 0) immediate

/-- `execute_setcc_with_decoded`. -/
def executeSetcc (cond : U8) (operand : RmOperand) : CpuProgram Unit := do
  let ctx ← getContext
  let value : U64 := if evalCondition ctx cond then 1 else 0
  writeRmOperand operand .byte value

/-- `execute_cmovcc_with_decoded`.  A move of 32 bits that is not taken leaves the whole register
alone. -/
def executeCmovcc (cond : U8) (size : OperandWidth) (operand : RmOperand) : CpuProgram Unit := do
  let source ← readRmOperand operand size
  if ← cpuHasException then return ()
  modifyContext fun ctx =>
    if evalCondition ctx cond then setRegister size ctx (decodeRegIndex ctx operand.modrm) source
    else ctx

/-! ## Relations -/

/-- The relation between two words that a condition asks for behind their comparison. -/
def comparison (cond : U8) {w : ℕ} (dst src : BitVec w) : Bool :=
  match (cond &&& 0x0F).toNat with
  | 0x0 => decide (¬ FitsSigned w (dst.toInt - src.toInt))
  | 0x1 => decide (FitsSigned w (dst.toInt - src.toInt))
  | 0x2 => decide (dst.toNat < src.toNat)
  | 0x3 => decide (src.toNat ≤ dst.toNat)
  | 0x4 => decide (dst = src)
  | 0x5 => decide (dst ≠ src)
  | 0x6 => decide (dst.toNat ≤ src.toNat)
  | 0x7 => decide (src.toNat < dst.toNat)
  | 0x8 => decide ((dst - src).toInt < 0)
  | 0x9 => decide (0 ≤ (dst - src).toInt)
  | 0xA => evenParity (dst - src)
  | 0xB => !evenParity (dst - src)
  | 0xC => decide (dst.toInt < src.toInt)
  | 0xD => decide (src.toInt ≤ dst.toInt)
  | 0xE => decide (dst.toInt ≤ src.toInt)
  | _ => decide (src.toInt < dst.toInt)

section Order

variable {op : ArithmeticOp} {w : ℕ} {carry : Bool} {dst src result : BitVec w}
  {rflags rflags' : U64} {c : ℕ}

/-- **The carry** behind a difference is the order of the words without signs. -/
theorem ExactFlags.cf_difference (h : ExactFlags op carry dst src result rflags rflags')
    (hop : ∀ a b : ℤ, op.exact a b carry.toNat = a - b - c) :
    hasFlag rflags' .cf = decide (dst.toNat < src.toNat + c) := by
  have hd : (dst.toNat : ℤ) < 2 ^ w := mod_cast dst.isLt
  rw [h.cf, hop, decide_eq_decide]
  unfold FitsUnsigned
  omega

/-- **The sign and the overflow** behind a difference differ in the order of the words with
signs. -/
theorem ExactFlags.sf_ne_of (hw : 0 < w) (h : ExactFlags op carry dst src result rflags rflags')
    (hc : c ≤ 1) (hop : ∀ a b : ℤ, op.exact a b carry.toNat = a - b - c) :
    (hasFlag rflags' .sf != hasFlag rflags' .of) = decide (dst.toInt < src.toInt + c) := by
  have hvalue := h.value
  rw [hop] at hvalue
  obtain ⟨half, hrange, hfits, hsign⟩ := half_range hw
  have hpow : (2 : ℤ) ^ w = 2 * half := mod_cast hrange
  obtain ⟨hd, -, hdi⟩ := hsign dst
  obtain ⟨hs, -, hsi⟩ := hsign src
  obtain ⟨-, -, hri⟩ := hsign result
  -- the result is the difference, or the difference one range up
  have hsplit := difference_split hvalue (by omega) (by omega)
  have hborrow := Bool.toNat_le (decide (¬ FitsUnsigned w ((dst.toNat : ℤ) - src.toNat - c)))
  have hresult := result.isLt
  rw [h.sf, h.of, hop, Bool.eq_iff_iff, bne_iff_ne, ne_eq, decide_eq_decide, decide_eq_true_iff,
    hfits, hri, hdi, hsi]
  generalize (decide (¬ FitsUnsigned w ((dst.toNat : ℤ) - src.toNat - c))).toNat = b
    at hsplit hborrow
  rw [hpow] at hsplit
  rw [hrange] at hresult
  obtain rfl | rfl : b = 0 ∨ b = 1 := by omega
  · split_ifs <;> omega
  · split_ifs <;> omega

end Order

/-- The condition that negates a relation. -/
theorem not_eq_decide {b : Bool} {p q : Prop} [Decidable p] [Decidable q] (hb : b = decide p)
    (hq : ¬ p ↔ q) : (!b) = decide q := by
  rw [hb, ← decide_not, decide_eq_decide]
  exact hq

/-- The flags behind the subtraction of two words. -/
theorem subValue_exactFlags {w : ℕ} (hw : 8 ≤ w) {ctx : CpuContext}
    (hexc : ctx.hasException = false) (dst src : BitVec w) :
    ∃ rflags, (subValue ctx dst src).2 = { ctx with rflags := rflags } ∧
      ExactFlags .sub (hasFlag ctx.rflags .cf) dst src (dst - src) ctx.rflags rflags :=
  subValue_exact hw hexc dst src

/-- **The sixteen conditions** behind a subtraction are the relations between its operands. -/
theorem evalCondition_sub {w : ℕ} (hw : 8 ≤ w) {ctx : CpuContext} {carry : Bool}
    {dst src : BitVec w} {rflags : U64}
    (h : ExactFlags .sub carry dst src (dst - src) rflags ctx.rflags) (cond : U8) :
    evalCondition ctx cond = comparison cond dst src := by
  have hzero : ∀ a b : ℤ, ArithmeticOp.sub.exact a b carry.toNat = a - b - (0 : ℕ) :=
    fun a b => (sub_zero _).symm
  have hcf := h.cf_difference hzero
  have hlt := h.sf_ne_of (by omega) (by decide) hzero
  have hof : hasFlag ctx.rflags .of = decide (¬ FitsSigned w (dst.toInt - src.toInt)) := h.of
  have hzf : hasFlag ctx.rflags .zf = decide (dst = src) := by
    rw [h.zf, decide_eq_decide]
    exact sub_eq_zero
  have hsf := h.sf
  have hpf := h.pf
  rw [Nat.add_zero] at hcf
  rw [Nat.cast_zero, add_zero] at hlt
  have hge : (hasFlag ctx.rflags .sf == hasFlag ctx.rflags .of) = decide (src.toInt ≤ dst.toInt) := by
    have hnot := not_eq_decide hlt not_lt
    rwa [bne, Bool.not_not] at hnot
  unfold evalCondition comparison
  have hcond : (cond &&& 0x0F).toNat < 16 := by
    rw [BitVec.toNat_and]
    exact Nat.and_lt_two_pow (n := 4) _ (by decide)
  generalize (cond &&& 0x0F).toNat = n at hcond ⊢
  -- one goal for each condition code, the one that negates a relation behind the relation
  interval_cases n
  · exact hof
  · exact not_eq_decide hof not_not
  · exact hcf
  · exact not_eq_decide hcf not_lt
  · exact hzf
  · exact not_eq_decide hzf Iff.rfl
  · show (hasFlag ctx.rflags .cf || hasFlag ctx.rflags .zf) = decide (dst.toNat ≤ src.toNat)
    rw [hcf, hzf, ← Bool.decide_or, decide_eq_decide, ← BitVec.toNat_inj]
    omega
  · show (!hasFlag ctx.rflags .cf && !hasFlag ctx.rflags .zf) = decide (src.toNat < dst.toNat)
    rw [hcf, hzf, ← decide_not, ← decide_not, ← Bool.decide_and, decide_eq_decide,
      ← BitVec.toNat_inj]
    omega
  · exact hsf
  · exact not_eq_decide hsf not_lt
  · exact hpf
  · exact congrArg not hpf
  · exact hlt
  · exact hge
  · show (hasFlag ctx.rflags .zf || (hasFlag ctx.rflags .sf != hasFlag ctx.rflags .of)) =
      decide (dst.toInt ≤ src.toInt)
    rw [hzf, hlt, ← Bool.decide_or, decide_eq_decide, ← BitVec.toInt_inj]
    omega
  · show (!hasFlag ctx.rflags .zf && (hasFlag ctx.rflags .sf == hasFlag ctx.rflags .of)) =
      decide (src.toInt < dst.toInt)
    rw [hzf, hge, ← decide_not, ← Bool.decide_and, decide_eq_decide, ← BitVec.toInt_inj]
    omega

/-! ## One comparison -/

/-- The words that a form compares, or the CPU behind a refused byte of its operand. -/
def CompareForm.operands (form : CompareForm) (cpu : Cpu) (size : OperandWidth)
    (operand : RmOperand) : Except Cpu (BitVec size.bits × BitVec size.bits) :=
  let reg := getRegister size cpu.context (decodeRegIndex cpu.context operand.modrm)
  match form with
  | .rmImm immediate => do
    let value ← cpu.rmValue operand size
    return (value.setWidth size.bits, immediate.setWidth size.bits)
  | .rmReg => do
    let value ← cpu.rmValue operand size
    return (value.setWidth size.bits, reg.setWidth size.bits)
  | .regRm => do
    let value ← cpu.rmValue operand size
    return (reg.setWidth size.bits, value.setWidth size.bits)
  | .accumulatorImm immediate =>
    return ((cpu.context.regs 0).setWidth size.bits, immediate.setWidth size.bits)

variable {cpu : Cpu}

/-- The flags of a comparison stay as they are under an exception. -/
theorem updateFlagsCompare_pending {ctx : CpuContext} (hexc : ctx.hasException = true) (w : ℕ)
    (lhs rhs : U64) : updateFlagsCompare w ctx lhs rhs = ctx := by
  unfold updateFlagsCompare updateFlagsSub
  dsimp only
  simp only [setFlag_pending hexc]

/-- The CPU with the flags of a comparison. -/
def Cpu.compared (cpu : Cpu) {w : ℕ} (dst src : BitVec w) : Cpu :=
  cpu.edit fun ctx => { ctx with rflags := compareFlags ctx.rflags dst src }

/-- A comparison behind the read of its operand. -/
theorem run_compareRead (hm : ManagerOk cpu.memory) (hexc : cpu.context.hasException = false)
    (operand : RmOperand) (size : OperandWidth) (lhs rhs : U64 → U64) :
    (do
      let value ← readRmOperand operand size
      modifyContext fun ctx => updateFlagsCompare size.bits ctx (lhs value) (rhs value) :
        CpuProgram Unit).run viewOp cpu =
      transferred (do
        let value ← cpu.rmValue operand size
        return cpu.compared ((lhs value).setWidth size.bits) ((rhs value).setWidth size.bits)) := by
  rw [Program.run_bind, run_readRmOperand hm hexc]
  have hclean := clean_rmValue hexc operand size
  generalize cpu.rmValue operand size = e at hclean ⊢
  cases hclean with
  | error hfailed =>
    -- a refused operand is the value zero, and the flags stay
    show (modifyContext _).run viewOp _ = _
    rw [run_modifyContext, updateFlagsCompare_pending hfailed.pending]
    rfl
  | ok value =>
    show (modifyContext _).run viewOp _ = _
    rw [run_modifyContext, updateFlagsCompare_eq hexc size.eight_le]
    rfl

/-- **A comparison** sets the flags of its words, or it fails with its operand. -/
theorem run_executeCmp (hm : ManagerOk cpu.memory) (hexc : cpu.context.hasException = false)
    (form : CompareForm) (size : OperandWidth) (operand : RmOperand) :
    (executeCmp form size operand).run viewOp cpu =
      transferred (do
        let words ← form.operands cpu size operand
        return cpu.compared words.1 words.2) := by
  cases form with
  | rmImm immediate =>
    refine (run_compareRead hm hexc operand size (fun value => value) fun _ => immediate).trans ?_
    unfold CompareForm.operands
    cases cpu.rmValue operand size <;> rfl
  | rmReg =>
    refine (run_compareRead hm hexc operand size (fun value => value) fun _ =>
      getRegister size cpu.context (decodeRegIndex cpu.context operand.modrm)).trans ?_
    unfold CompareForm.operands
    cases cpu.rmValue operand size <;> rfl
  | regRm =>
    refine (run_compareRead hm hexc operand size (fun _ =>
      getRegister size cpu.context (decodeRegIndex cpu.context operand.modrm))
      fun value => value).trans ?_
    unfold CompareForm.operands
    cases cpu.rmValue operand size <;> rfl
  | accumulatorImm immediate =>
    show (modifyContext _).run viewOp cpu = _
    rw [run_modifyContext, updateFlagsCompare_eq hexc size.eight_le]
    rfl

/-- The helper of `CMP` is that of `SUB`. -/
theorem subValue_context (size : OperandWidth) {ctx : CpuContext}
    (hexc : ctx.hasException = false) (dst src : BitVec size.bits) :
    (subValue ctx dst src).2 = { ctx with rflags := compareFlags ctx.rflags dst src } := by
  have hcompare := updateFlagsCompare_eq hexc size.eight_le (dst.setWidth 64) (src.setWidth 64)
  have hwords : ∀ x : BitVec size.bits, (x.setWidth 64).setWidth size.bits = x := fun x => by
    rw [BitVec.setWidth_setWidth_of_le _ size.le_sixtyFour, BitVec.setWidth_eq]
  unfold updateFlagsCompare at hcompare
  rw [hwords, hwords] at hcompare
  dsimp only [subValue]
  exact hcompare

/-- The flags of a comparison are those of the subtraction. -/
theorem compareFlags_exactFlags (size : OperandWidth) {ctx : CpuContext}
    (hexc : ctx.hasException = false) (dst src : BitVec size.bits) :
    ExactFlags .sub (hasFlag ctx.rflags .cf) dst src (dst - src) ctx.rflags
      (compareFlags ctx.rflags dst src) := by
  obtain ⟨rflags, hctx, hflags⟩ := subValue_exactFlags size.eight_le hexc dst src
  have hrflags := congrArg CpuContext.rflags ((subValue_context size hexc dst src).symm.trans hctx)
  have hsame : compareFlags ctx.rflags dst src = rflags := hrflags
  rw [hsame]
  exact hflags

/-! ## What asks for a condition -/

/-- Everything that asks for a condition follows a relation: both forms of the jumps, the byte
that `SETcc` stores, and the move that `CMOVcc` makes. -/
structure Decides (cpu : Cpu) (relation : U8 → Bool) : Prop where
  inlineJcc : ∀ cond, cpuExecutorEvalJccCondition cpu.context.rflags (cond &&& 0x0F) = relation cond
  jcc : ∀ cond rel nextRip operandSize,
    (executeJccRel cond rel nextRip operandSize).run viewOp cpu =
      (branchIf (relation cond) nextRip rel operandSize).run viewOp cpu
  setcc : ∀ cond operand, (executeSetcc cond operand).run viewOp cpu =
    transferred (cpu.rmStored operand .byte (if relation cond then 1 else 0))
  cmovcc : ∀ cond size operand, (executeCmovcc cond size operand).run viewOp cpu =
    transferred (do
      let source ← cpu.rmValue operand size
      return if relation cond then
          cpu.edit fun ctx => setRegister size ctx (decodeRegIndex ctx operand.modrm) source
        else cpu)

/-- They follow `eval_condition`. -/
theorem decides_evalCondition (hm : ManagerOk cpu.memory)
    (hexc : cpu.context.hasException = false) : Decides cpu (evalCondition cpu.context) where
  inlineJcc cond := evalCondition_eq cpu.context cond
  jcc cond rel nextRip operandSize := rfl
  setcc cond operand := run_writeRmOperand hm hexc operand .byte _
  cmovcc cond size operand := by
    refine run_rmRead hm hexc operand size fun value _ => ?_
    rw [run_modifyContext]
    split_ifs
    · rw [keepMode_setRegister]
      rfl
    · rfl

/-- Behind the comparison of two words every condition is the relation between them. -/
theorem decides_compared (hm : ManagerOk cpu.memory) (hexc : cpu.context.hasException = false)
    {size : OperandWidth} (dst src : BitVec size.bits) :
    Decides (cpu.compared dst src) fun cond => comparison cond dst src := by
  have hdecides := @decides_evalCondition (cpu.compared dst src) hm hexc
  have hrelation : evalCondition (cpu.compared dst src).context =
      fun cond => comparison cond dst src :=
    funext fun cond => evalCondition_sub size.eight_le
      (compareFlags_exactFlags size hexc dst src) cond
  rwa [hrelation] at hdecides

/-- **A comparison decides.**  A `CMP` of any form and size whose operand can be read changes the
status flags only; then the jumps of every condition, `SETcc` and `CMOVcc` follow the relation
between the two words that the condition names. -/
theorem compare_decides (hm : ManagerOk cpu.memory) (hexc : cpu.context.hasException = false)
    (form : CompareForm) (size : OperandWidth) (operand : RmOperand)
    {words : BitVec size.bits × BitVec size.bits}
    (hwords : form.operands cpu size operand = .ok words) :
    (executeCmp form size operand).run viewOp cpu = ((), cpu.compared words.1 words.2) ∧
      SameFlagsBut statusFlags cpu.context.rflags (cpu.compared words.1 words.2).context.rflags ∧
      Decides (cpu.compared words.1 words.2) fun cond => comparison cond words.1 words.2 := by
  have hrun := run_executeCmp hm hexc form size operand
  rw [hwords] at hrun
  have hflags := compareFlags_exactFlags size hexc words.1 words.2
  exact ⟨hrun, hflags.others, decides_compared hm hexc words.1 words.2⟩

/-- A CPU without memory, with `-1` in `RAX` and 1 in `RCX`. -/
def comparingCpu : Cpu where
  context := { initCpuContext false with regs := fun reg => if reg = 0 then -1 else 1 }
  memory := mmInit (.initial (fun _ => 0) fun _ => false)
  hooks := .none
  asked := 0

/-- Behind `CMP RAX, RCX` the number in `RAX` is above without signs and less with them. -/
theorem compare_decides_signs :
    let cpu := ((executeCmp .regRm .qword ⟨0xC1, 0⟩).run viewOp comparingCpu).2
    cpuExecutorEvalJccCondition cpu.context.rflags 0x7 = true ∧
      cpuExecutorEvalJccCondition cpu.context.rflags 0xC = true := by
  obtain ⟨hrun, -, hdecides⟩ := @compare_decides comparingCpu (memoryOk_mmInit _).manager rfl .regRm
    .qword ⟨0xC1, 0⟩ (-1, 1) rfl
  dsimp only
  rw [hrun]
  exact ⟨(hdecides.inlineJcc 0x7).trans (by decide), (hdecides.inlineJcc 0xC).trans (by decide)⟩

/-! ## Numbers of many words -/

/-- Words make up a number below the range of as many bits. -/
theorem wordsValue_lt {w : ℕ} (words : List (BitVec w)) :
    wordsValue words < 2 ^ (w * words.length) := by
  induction words with
  | nil => exact Nat.one_pos
  | cons x words ih =>
    have hx := x.isLt
    show x.toNat + 2 ^ w * wordsValue words < 2 ^ (w * (words.length + 1))
    rw [Nat.mul_succ, Nat.add_comm (w * _), pow_add]
    calc x.toNat + 2 ^ w * wordsValue words
        < 2 ^ w * 1 + 2 ^ w * wordsValue words := by omega
      _ = 2 ^ w * (wordsValue words + 1) := by ring
      _ ≤ 2 ^ w * 2 ^ (w * words.length) := Nat.mul_le_mul_left _ ih

/-- A chain has a result for each pair of its words. -/
theorem Chain.length_eq {op : ArithmeticOp} {size : OperandWidth} {carry out : Bool}
    {operands : List (BitVec size.bits × BitVec size.bits)} {results : List (BitVec size.bits)}
    (h : Chain op size carry operands results out) : results.length = operands.length := by
  induction h with
  | nil carry => rfl
  | cons hexc rest ih => exact congrArg (· + 1) ih

/-- The order of two numbers by their high parts, when the low parts leave a borrow. -/
theorem highParts_lt {scale low low' : ℕ} {borrow : Bool} {rest : ℕ} (high high' : ℤ)
    (hrest : rest < scale) (hlow' : low' < scale)
    (hborrow : low + scale * borrow.toNat = rest + low') :
    high < high' + borrow.toNat ↔ low + scale * high < low' + scale * high' := by
  have hscale : (0 : ℤ) < scale := by omega
  -- the high parts weigh a whole scale, more than the low parts can differ by
  have hstep : ∀ a b : ℤ, a < b ↔ scale * a + scale ≤ scale * b := by
    intro a b
    rw [← mul_add_one, Int.mul_le_mul_left hscale]
    exact Iff.rfl
  cases borrow with
  | false =>
    have hle : low' ≤ low := by
      rw [Bool.toNat_false, Nat.mul_zero] at hborrow
      omega
    rw [Bool.toNat_false, Nat.cast_zero, add_zero, hstep]
    constructor
    · intro h
      omega
    · intro h
      by_contra hge
      have hge' := (not_congr (hstep high high')).mpr hge
      rw [not_lt] at hge'
      have hmul := Int.mul_le_mul_of_nonneg_left hge' hscale.le
      omega
  | true =>
    have hlt : low < low' := by
      rw [Bool.toNat_true, Nat.mul_one] at hborrow
      omega
    rw [Bool.toNat_true, Nat.cast_one, Int.lt_add_one_iff, ← Int.mul_le_mul_left hscale]
    constructor
    · intro h
      omega
    · intro h
      by_contra hgt
      have hgt' := (hstep high' high).mp (by
        by_contra hle
        exact hgt (Int.mul_le_mul_of_nonneg_left (not_lt.mp hle) hscale.le))
      omega

/-- The lowest words of two numbers are subtracted or compared. -/
inductive LowestWords (size : OperandWidth) (first : CpuContext) (dst src : BitVec size.bits) :
    CpuContext → Prop where
  | sub : LowestWords size first dst src (ArithmeticOp.sub.value size first dst src).2
  | cmp : LowestWords size first dst src
    (updateFlagsCompare size.bits first (dst.setWidth 64) (src.setWidth 64))

/-- A comparison leaves the flags of the difference. -/
theorem LowestWords.eq_sub {size : OperandWidth} {first lowest : CpuContext}
    {dst src : BitVec size.bits} (h : LowestWords size first dst src lowest) :
    lowest = (ArithmeticOp.sub.value size first dst src).2 := by
  have hwide : ∀ x : BitVec size.bits, (x.setWidth 64).setWidth size.bits = x := fun x => by
    rw [BitVec.setWidth_setWidth_of_le _ size.le_sixtyFour, BitVec.setWidth_eq]
  cases h with
  | sub => rfl
  | cmp =>
    unfold updateFlagsCompare
    rw [hwide, hwide]
    cases size <;> simp only [ArithmeticOp.value, subValue]

/-- **A chain of borrows orders numbers of many words.**  Behind a `CMP` or `SUB` of the lowest
words, `SBB` of any number of words above them and one more `SBB` of the highest words, the
conditions of an unsigned order compare the whole numbers, and those of a signed order the
numbers whose highest words have signs. -/
theorem borrow_chain_orders (size : OperandWidth) {first lowest last : CpuContext}
    (hfirst : first.hasException = false) (hlast : last.hasException = false)
    {dst src : BitVec size.bits} (hlowest : LowestWords size first dst src lowest)
    {operands : List (BitVec size.bits × BitVec size.bits)} {results : List (BitVec size.bits)}
    (hchain : Chain .sbb size (hasFlag lowest.rflags .cf) operands results
      (hasFlag last.rflags .cf))
    (high high' : BitVec size.bits) :
    let out := (ArithmeticOp.sbb.value size last high high').2
    let low := wordsValue (dst :: operands.map Prod.fst)
    let low' := wordsValue (src :: operands.map Prod.snd)
    let scale : ℕ := 2 ^ (size.bits * (operands.length + 1))
    evalCondition out 0x2 =
        decide (low + scale * (high.toNat : ℤ) < low' + scale * (high'.toNat : ℤ)) ∧
      evalCondition out 0x3 =
        decide (low' + scale * (high'.toNat : ℤ) ≤ low + scale * (high.toNat : ℤ)) ∧
      evalCondition out 0xC = decide (low + scale * high.toInt < low' + scale * high'.toInt) ∧
      evalCondition out 0xD = decide (low' + scale * high'.toInt ≤ low + scale * high.toInt) := by
  intro out low low' scale
  rw [hlowest.eq_sub] at hchain
  have hword := (value_exact .sub size hfirst dst src).difference (c := 0) (by decide)
    fun a b => (sub_zero _).symm
  have hborrow : low + scale * (hasFlag last.rflags .cf).toNat =
      wordsValue ((ArithmeticOp.sub.value size first dst src).1 :: results) + low' := by
    have hsum := wordsValue_sum hword hchain.difference
    rwa [← pow_add, add_comm size.bits, ← Nat.mul_succ] at hsum
  -- all the words of a chain are below the scale of the highest ones
  have hbelow : ∀ words : List (BitVec size.bits), words.length = operands.length + 1 →
      wordsValue words < scale := by
    intro words hlength
    have hlt := wordsValue_lt words
    rwa [hlength] at hlt
  have hrest := hbelow ((ArithmeticOp.sub.value size first dst src).1 :: results)
    (congrArg (· + 1) hchain.length_eq)
  have hlow' := hbelow (src :: operands.map Prod.snd)
    (congrArg (· + 1) (List.length_map Prod.snd))
  obtain ⟨rflags, hout, hflags⟩ := value_exact .sbb size hlast high high'
  have hrflags : out.rflags = rflags := congrArg CpuContext.rflags hout
  have hcf := hflags.cf_difference fun a b => rfl
  have hlt := hflags.sf_ne_of (by have := size.eight_le; omega) (Bool.toNat_le _) fun a b => rfl
  rw [← hrflags] at hcf hlt
  have hbelowHigh : hasFlag out.rflags .cf =
      decide (low + scale * (high.toNat : ℤ) < low' + scale * (high'.toNat : ℤ)) := by
    have horder := highParts_lt (high.toNat : ℤ) high'.toNat hrest hlow' hborrow
    rw [hcf, decide_eq_decide, ← Nat.cast_lt (α := ℤ)]
    push_cast at horder ⊢
    exact horder
  have hlessHigh : (hasFlag out.rflags .sf != hasFlag out.rflags .of) =
      decide (low + scale * high.toInt < low' + scale * high'.toInt) := by
    rw [hlt, decide_eq_decide]
    exact highParts_lt high.toInt high'.toInt hrest hlow' hborrow
  refine ⟨hbelowHigh, not_eq_decide hbelowHigh not_lt, hlessHigh, ?_⟩
  have hnot := not_eq_decide hlessHigh not_lt
  rwa [bne, Bool.not_not] at hnot

/-- 0x000000 and 0x000001 in three bytes, of which the lowest are compared: the borrow goes through
all of them. -/
theorem borrow_chain_orders_two :
    evalCondition (ArithmeticOp.sbb.value .byte
        { initCpuContext false with rflags := rflagsCf } 0x00 0x00).2 0x2 = true ∧
      evalCondition (ArithmeticOp.sbb.value .byte
        { initCpuContext false with rflags := rflagsCf } 0x00 0x00).2 0xC = true := by
  have hmiddle : Chain .sbb .byte true [(0x00, 0x00)] [0xFF] true := by
    have hcons := @Chain.cons .sbb .byte { initCpuContext false with rflags := rflagsCf } 0x00 0x00
      [] [] true rfl (.nil true)
    exact hcons
  have horder := @borrow_chain_orders .byte (initCpuContext false) _
    { initCpuContext false with rflags := rflagsCf } rfl rfl 0x00 0x01 .cmp _ _ hmiddle 0x00 0x00
  exact ⟨horder.1.trans (by decide), horder.2.2.1.trans (by decide)⟩

end Cpueaxh
