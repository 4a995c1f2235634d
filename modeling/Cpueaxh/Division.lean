/-
# DIV and IDIV

The instructions of `instructions/div.hpp` and `instructions/idiv.hpp` behind their decoders.
The divisions of 8 to 32 bits divide words of twice the size; those of 64 bits divide a pair
of words with `cpueaxh_udiv128`, for which a platform without a primitive of its own has
the loop of `cpueaxh_platform.hpp`.
-/
import Cpueaxh.RegisterOperands
import Cpueaxh.RestoringDivision

namespace Cpueaxh

/-! ## The division of a pair of words -/

/-- `cpueaxh_udiv128_fallback`: the quotient and the remainder. -/
def cpueaxhUdiv128Fallback (high low divisor : U64) : U64 × U64 :=
  RestoringDivision.loop low divisor 64 0 high

/-- The type of `cpueaxh_udiv128`, with the high word, the low word and the divisor. -/
abbrev Udiv128 : Type := U64 → U64 → U64 → U64 × U64

/-! ## The registers of a division -/

/-- The dividend of the divisions of 8 to 32 bits: `AX`, `DX:AX` and `EDX:EAX`. -/
def dividendOf (size : OperandWidth) (ctx : CpuContext) : BitVec (2 * size.bits) :=
  match size with
  | .byte => (getReg 16 ctx regRax).setWidth _
  | size =>
    ((getReg size.bits ctx regRdx).setWidth _ <<< size.bits)
      ||| (getReg size.bits ctx regRax).setWidth _

/-- Write a quotient and a remainder: to `AX`, or to the registers of the dividend. -/
def setQuotientRemainder (size : OperandWidth) (ctx : CpuContext) (quotient remainder : U64) :
    CpuContext :=
  match size with
  | .byte => setReg 16 ctx regRax ((remainder &&& 0xFF) <<< 8 ||| (quotient &&& 0xFF))
  | size => setReg size.bits (setReg size.bits ctx regRax quotient) regRdx remainder

/-- A division: the divisor is read, and then there are a quotient and a remainder to write,
or `#DE`. -/
def divideRm (size : OperandWidth) (op : RmOperand)
    (divide : CpuContext → U64 → Option (U64 × U64)) : CpuProgram Unit := do
  let divisor ← readRmOperand op size
  if ← cpuHasException then return ()
  let ctx ← getContext
  match divide ctx divisor with
  | none => cpuRaiseException .de 0
  | some (quotient, remainder) =>
    modifyContext fun ctx => setQuotientRemainder size ctx quotient remainder

/-! ## `DIV` -/

/-- `div_quotient_overflows`. -/
def divQuotientOverflows (quotient : U64) (bits : ℕ) : Bool :=
  if bits = 64 then false else decide ((1 : U64) <<< bits - 1 < quotient)

/-- The arithmetic of `div_rm8`, `div_rm16` and `div_rm32`. -/
def divideUnsigned {n : ℕ} (dividend : BitVec (2 * n)) (divisor : BitVec n) :
    Option (U64 × U64) :=
  if divisor = 0 then none
  else
    let quotient := dividend / divisor.setWidth (2 * n)
    let remainder := (dividend % divisor.setWidth (2 * n)).setWidth n
    if divQuotientOverflows (quotient.setWidth 64) n then none
    else some ((quotient.setWidth n).setWidth 64, remainder.setWidth 64)

/-- `div_rm8`. -/
def divRm8 (op : RmOperand) : CpuProgram Unit :=
  divideRm .byte op fun ctx divisor =>
    divideUnsigned (dividendOf .byte ctx) (divisor.setWidth OperandWidth.byte.bits)

/-- `div_rm16`. -/
def divRm16 (op : RmOperand) : CpuProgram Unit :=
  divideRm .word op fun ctx divisor =>
    divideUnsigned (dividendOf .word ctx) (divisor.setWidth OperandWidth.word.bits)

/-- `div_rm32`. -/
def divRm32 (op : RmOperand) : CpuProgram Unit :=
  divideRm .dword op fun ctx divisor =>
    divideUnsigned (dividendOf .dword ctx) (divisor.setWidth OperandWidth.dword.bits)

/-- The arithmetic of `div_rm64`. -/
def divideUnsigned64 (udiv128 : Udiv128) (dividendHigh dividendLow divisor : U64) :
    Option (U64 × U64) :=
  if divisor = 0 then none
  else if divisor ≤ dividendHigh then none
  else some (udiv128 dividendHigh dividendLow divisor)

/-- `div_rm64`. -/
def divRm64 (udiv128 : Udiv128) (op : RmOperand) : CpuProgram Unit :=
  divideRm .qword op fun ctx divisor =>
    divideUnsigned64 udiv128 (getReg 64 ctx regRdx) (getReg 64 ctx regRax) divisor

/-! ## `IDIV` -/

/-- `idiv_quotient_overflows`. -/
def idivQuotientOverflows (absQuotient : U64) (negative : Bool) (bits : ℕ) : Bool :=
  let maxNegative : U64 := if bits = 64 then 0x8000000000000000 else (1 : U64) <<< (bits - 1)
  let maxPositive := maxNegative - 1
  if negative then decide (maxNegative < absQuotient) else decide (maxPositive < absQuotient)

/-- `pack_signed_value`. -/
def packSignedValue (absValue : U64) (negative : Bool) (bits : ℕ) : U64 :=
  let mask : U64 := if bits = 64 then 0xFFFFFFFFFFFFFFFF else (1 : U64) <<< bits - 1
  if !negative || absValue == 0 then absValue &&& mask else (~~~absValue + 1) &&& mask

/-- `negate_u128`: the high and the low word. -/
def negateU128 (high low : U64) : U64 × U64 :=
  let negLow := ~~~low + 1
  (~~~high + if negLow = 0 then 1 else 0, negLow)

/-- The magnitude of a word. -/
def absBits {n : ℕ} (x : BitVec n) : BitVec n := if x.toInt < 0 then ~~~x + 1 else x

/-- The end of a signed division, from the magnitudes of its result. -/
def packQuotientRemainder (bits : ℕ) (dividendNegative divisorNegative : Bool)
    (absQuotient absRemainder : U64) : Option (U64 × U64) :=
  let quotientNegative := dividendNegative ^^ divisorNegative
  if idivQuotientOverflows absQuotient quotientNegative bits then none
  else some (packSignedValue absQuotient quotientNegative bits,
    packSignedValue absRemainder dividendNegative bits)

/-- The arithmetic of `idiv_rm8`, `idiv_rm16` and `idiv_rm32`. -/
def divideSigned {n : ℕ} (dividend : BitVec (2 * n)) (divisor : BitVec n) :
    Option (U64 × U64) :=
  if divisor = 0 then none
  else
    let absDividend := absBits dividend
    let absDivisor := absBits divisor
    let absQuotient := absDividend / absDivisor.setWidth (2 * n)
    let absRemainder := (absDividend % absDivisor.setWidth (2 * n)).setWidth n
    packQuotientRemainder n (decide (dividend.toInt < 0)) (decide (divisor.toInt < 0))
      (absQuotient.setWidth 64) (absRemainder.setWidth 64)

/-- `idiv_rm8`. -/
def idivRm8 (op : RmOperand) : CpuProgram Unit :=
  divideRm .byte op fun ctx divisor =>
    divideSigned (dividendOf .byte ctx) (divisor.setWidth OperandWidth.byte.bits)

/-- `idiv_rm16`. -/
def idivRm16 (op : RmOperand) : CpuProgram Unit :=
  divideRm .word op fun ctx divisor =>
    divideSigned (dividendOf .word ctx) (divisor.setWidth OperandWidth.word.bits)

/-- `idiv_rm32`. -/
def idivRm32 (op : RmOperand) : CpuProgram Unit :=
  divideRm .dword op fun ctx divisor =>
    divideSigned (dividendOf .dword ctx) (divisor.setWidth OperandWidth.dword.bits)

/-- The arithmetic of `idiv_rm64`. -/
def divideSigned64 (udiv128 : Udiv128) (dividendHigh dividendLow divisor : U64) :
    Option (U64 × U64) :=
  if divisor = 0 then none
  else
    let dividendNegative := decide (dividendHigh.toInt < 0)
    let absDividend :=
      if dividendNegative then negateU128 dividendHigh dividendLow else (dividendHigh, dividendLow)
    let absDivisor := absBits divisor
    if absDivisor ≤ absDividend.1 then none
    else
      let result := udiv128 absDividend.1 absDividend.2 absDivisor
      packQuotientRemainder 64 dividendNegative (decide (divisor.toInt < 0)) result.1 result.2

/-- `idiv_rm64`. -/
def idivRm64 (udiv128 : Udiv128) (op : RmOperand) : CpuProgram Unit :=
  divideRm .qword op fun ctx divisor =>
    divideSigned64 udiv128 (getReg 64 ctx regRdx) (getReg 64 ctx regRax) divisor

/-! ## The instructions -/

/-- `DIV` or `IDIV` at a size. -/
def executeDivision (udiv128 : Udiv128) (signed : Bool) (size : OperandWidth) (op : RmOperand) :
    CpuProgram Unit :=
  match signed, size with
  | false, .byte => divRm8 op
  | false, .word => divRm16 op
  | false, .dword => divRm32 op
  | false, .qword => divRm64 udiv128 op
  | true, .byte => idivRm8 op
  | true, .word => idivRm16 op
  | true, .dword => idivRm32 op
  | true, .qword => idivRm64 udiv128 op

/-- The size in `execute_div_with_decoded` and `execute_idiv_with_decoded`. -/
def divisionSize (ctx : CpuContext) (opcode : U8) : OperandWidth :=
  if opcode = 0xF6 then .byte
  else if ctx.prefixBits.rexW then .qword
  else if ctx.prefixBits.operandSizeOverride then .word
  else .dword

/-- `execute_div_with_decoded` and `execute_idiv_with_decoded`, whose opcode is `F6` or `F7`. -/
def executeDivisionWithDecoded (udiv128 : Udiv128) (signed : Bool) (opcode : U8)
    (op : RmOperand) : CpuProgram Unit := do
  let ctx ← getContext
  executeDivision udiv128 signed (divisionSize ctx opcode) op

end Cpueaxh
