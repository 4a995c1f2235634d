/-
# Masked and gathered accesses

The instructions that access the lanes of a vector under a mask: `VMASKMOVPS`, `VMASKMOVPD`
and `VPMASKMOV` of `instructions/avx_vex_execute.hpp`, `MASKMOVDQU` of
`instructions/sse2_misc.hpp`, and the gathers of `instructions/avx_vex_ops.hpp`, behind their
decoders.

The stores and the gathers go lane by lane.  The loads read the whole vector and choose the
lanes behind it.
-/
import Cpueaxh.EffectiveAddress
import Cpueaxh.FloatState
import Cpueaxh.Lanes
import Cpueaxh.SegmentLoad

namespace Cpueaxh

open ByteOrder

/-! ## Vector registers -/

/-- `AVXRegister256`. -/
structure AVXRegister256 where
  low : XMMRegister
  high : XMMRegister
  deriving DecidableEq, Repr

/-- `XMMRegister value = {}`. -/
def XMMRegister.zero : XMMRegister := { low := 0, high := 0 }

/-- `AVXRegister256 value = {}`. -/
def AVXRegister256.zero : AVXRegister256 := { low := .zero, high := .zero }

/-- `ZMMUpperRegister value = {}`. -/
def ZMMUpperRegister.zero : ZMMUpperRegister := { lower := .zero, upper := .zero }

namespace VectorRegisters

variable (vector : VectorRegisters)

/-- `set_xmm128`. -/
def setXmm128 (reg : Fin 16) (value : XMMRegister) : VectorRegisters :=
  { vector with xmm := Function.update vector.xmm reg value }

/-- `clear_ymm_upper128`. -/
def clearYmmUpper128 (reg : Fin 16) : VectorRegisters :=
  { vector with
    ymmUpper := Function.update vector.ymmUpper reg .zero
    zmmUpper := Function.update vector.zmmUpper reg .zero }

/-- `get_ymm256`. -/
def getYmm256 (reg : Fin 16) : AVXRegister256 :=
  { low := vector.xmm reg, high := vector.ymmUpper reg }

/-- `set_ymm256`. -/
def setYmm256 (reg : Fin 16) (value : AVXRegister256) : VectorRegisters :=
  { vector with
    xmm := Function.update vector.xmm reg value.low
    ymmUpper := Function.update vector.ymmUpper reg value.high
    zmmUpper := Function.update vector.zmmUpper reg .zero }

end VectorRegisters

/-! ## Lanes of vector registers -/

/-- The low half of a word, replaced. -/
def setLowHalf (value : U64) (bits : U32) : U64 :=
  (value &&& 0xFFFFFFFF00000000) ||| bits.setWidth 64

/-- The high half of a word, replaced. -/
def setHighHalf (value : U64) (bits : U32) : U64 :=
  (value &&& (0x00000000FFFFFFFF : U64)) ||| (bits.setWidth 64 <<< 32)

/-- `get_xmm_lane_bits`. -/
def getXmmLaneBits (value : XMMRegister) (lane : ℕ) : U32 :=
  match lane with
  | 0 => (value.low &&& 0xFFFFFFFF).setWidth 32
  | 1 => (value.low >>> 32).setWidth 32
  | 2 => (value.high &&& 0xFFFFFFFF).setWidth 32
  | _ => (value.high >>> 32).setWidth 32

/-- `set_xmm_lane_bits`. -/
def setXmmLaneBits (value : XMMRegister) (lane : ℕ) (bits : U32) : XMMRegister :=
  match lane with
  | 0 => { value with low := setLowHalf value.low bits }
  | 1 => { value with low := setHighHalf value.low bits }
  | 2 => { value with high := setLowHalf value.high bits }
  | _ => { value with high := setHighHalf value.high bits }

/-- `get_sse2_arith_pd_lane_bits`. -/
def getPdLaneBits (value : XMMRegister) (lane : ℕ) : U64 :=
  if lane = 0 then value.low else value.high

/-- `set_sse2_arith_pd_lane_bits`. -/
def setPdLaneBits (value : XMMRegister) (lane : ℕ) (bits : U64) : XMMRegister :=
  if lane = 0 then { value with low := bits } else { value with high := bits }

/-- The low half of a word. -/
theorem lowHalf_eq (value : U64) : (value &&& 0xFFFFFFFF).setWidth 32 = value.setWidth 32 := by
  rw [BitVec.setWidth_and, show (0xFFFFFFFF : U64).setWidth 32 = BitVec.allOnes 32 from rfl,
    BitVec.and_allOnes]

theorem setLowHalf_low (value : U64) (bits : U32) :
    (setLowHalf value bits).setWidth 32 = bits := by
  rw [setLowHalf, BitVec.setWidth_or, BitVec.setWidth_and,
    show (0xFFFFFFFF00000000 : U64).setWidth 32 = 0#32 from rfl, BitVec.and_zero, BitVec.zero_or,
    BitVec.setWidth_setWidth_of_le _ (by decide), BitVec.setWidth_eq]

theorem setLowHalf_high (value : U64) (bits : U32) :
    (setLowHalf value bits >>> 32).setWidth 32 = (value >>> 32).setWidth 32 := by
  have hbits : (bits.setWidth 64 >>> 32).setWidth 32 = 0#32 := by
    ext i hi
    simp
  rw [setLowHalf, BitVec.ushiftRight_or_distrib, BitVec.ushiftRight_and_distrib, BitVec.setWidth_or,
    BitVec.setWidth_and, hbits, BitVec.or_zero,
    show ((0xFFFFFFFF00000000 : U64) >>> 32).setWidth 32 = BitVec.allOnes 32 from rfl,
    BitVec.and_allOnes]

theorem setHighHalf_low (value : U64) (bits : U32) :
    (setHighHalf value bits).setWidth 32 = value.setWidth 32 := by
  have hbits : (bits.setWidth 64 <<< 32).setWidth 32 = 0#32 := by
    ext i hi
    simp
  rw [setHighHalf, BitVec.setWidth_or, BitVec.setWidth_and, hbits, BitVec.or_zero,
    show (0x00000000FFFFFFFF : U64).setWidth 32 = BitVec.allOnes 32 from rfl, BitVec.and_allOnes]

theorem setHighHalf_high (value : U64) (bits : U32) :
    (setHighHalf value bits >>> 32).setWidth 32 = bits := by
  have hbits : ((bits.setWidth 64 <<< 32) >>> 32).setWidth 32 = bits := by
    ext i hi
    simp [hi, show 32 + i < 64 by omega]
  rw [setHighHalf, BitVec.ushiftRight_or_distrib, BitVec.ushiftRight_and_distrib, BitVec.setWidth_or,
    BitVec.setWidth_and, hbits,
    show ((0x00000000FFFFFFFF : U64) >>> 32).setWidth 32 = 0#32 from rfl, BitVec.and_zero,
    BitVec.zero_or]

/-- The four lanes of an `XMM` register. -/
def xmmLanes : Lanes XMMRegister 32 where
  count := 4
  get := getXmmLaneBits
  set := setXmmLaneBits
  get_set v i j bits hi hj := by
    match i, j, hi, hj with
    | 0, 0, _, _ | 1, 0, _, _ | 2, 0, _, _ | 3, 0, _, _ | 0, 1, _, _ | 1, 1, _, _ | 2, 1, _, _
    | 3, 1, _, _ | 0, 2, _, _ | 1, 2, _, _ | 2, 2, _, _ | 3, 2, _, _ | 0, 3, _, _ | 1, 3, _, _
    | 2, 3, _, _ | 3, 3, _, _ =>
      simp only [getXmmLaneBits, setXmmLaneBits, lowHalf_eq, setLowHalf_low, setLowHalf_high,
        setHighHalf_low, setHighHalf_high, if_true, Nat.reduceEqDiff, OfNat.ofNat_ne_zero,
        OfNat.zero_ne_ofNat, zero_ne_one, one_ne_zero, OfNat.ofNat_ne_one, OfNat.one_ne_ofNat,
        if_false]

/-- The two lanes of an `XMM` register. -/
def xmmPdLanes : Lanes XMMRegister 64 where
  count := 2
  get := getPdLaneBits
  set := setPdLaneBits
  get_set v i j bits hi hj := by
    match i, j, hi, hj with
    | 0, 0, _, _ | 1, 0, _, _ | 0, 1, _, _ | 1, 1, _, _ => rfl

theorem XMMRegister.low_mk (low high : U64) : (XMMRegister.mk low high).low = low := rfl

theorem XMMRegister.high_mk (low high : U64) : (XMMRegister.mk low high).high = high := rfl

theorem AVXRegister256.low_mk (low high : XMMRegister) : (AVXRegister256.mk low high).low = low :=
  rfl

theorem AVXRegister256.high_mk (low high : XMMRegister) :
    (AVXRegister256.mk low high).high = high := rfl

/-- `get_ymm_lane_bits` and `set_ymm_lane_bits`. -/
def ymmLanes : Lanes AVXRegister256 32 :=
  xmmLanes.double AVXRegister256.low AVXRegister256.high AVXRegister256.mk
    AVXRegister256.low_mk AVXRegister256.high_mk

/-- `get_ymm_pd_lane_bits` and `set_ymm_pd_lane_bits`. -/
def ymmPdLanes : Lanes AVXRegister256 64 :=
  xmmPdLanes.double AVXRegister256.low AVXRegister256.high AVXRegister256.mk
    AVXRegister256.low_mk AVXRegister256.high_mk

/-! ## Masks -/

/-- `bits & 0x80000000U`. -/
def psSelected (bits : U32) : Bool := bits &&& 0x80000000 != 0

/-- `bits & 0x8000000000000000ULL`. -/
def pdSelected (bits : U64) : Bool := bits &&& 0x8000000000000000 != 0

/-- `bits >> 63`. -/
def pdTopBit (bits : U64) : Bool := bits >>> 63 != 0

/-- The mask bit of a lane is its top bit. -/
theorem psSelected_eq (bits : U32) : psSelected bits = bits.msb := by
  have hmask : bits &&& 0x80000000 = if bits.getLsbD 31 then BitVec.twoPow 32 31 else 0#32 :=
    BitVec.and_twoPow bits 31
  rw [psSelected, hmask, BitVec.msb_eq_getLsbD_last]
  cases bits.getLsbD 31 <;> rfl

theorem pdSelected_eq (bits : U64) : pdSelected bits = bits.msb := by
  have hmask : bits &&& 0x8000000000000000 =
      if bits.getLsbD 63 then BitVec.twoPow 64 63 else 0#64 := BitVec.and_twoPow bits 63
  rw [pdSelected, hmask, BitVec.msb_eq_getLsbD_last]
  cases bits.getLsbD 63 <;> rfl

theorem pdTopBit_eq (bits : U64) : pdTopBit bits = bits.msb := by
  have hshift : (bits >>> 63).toNat = if bits.msb then 1 else 0 := by
    rw [BitVec.toNat_ushiftRight, Nat.shiftRight_eq_div_pow, BitVec.msb_eq_decide]
    have := bits.isLt
    split_ifs with h <;> simp only [decide_eq_true_eq] at h <;> omega
  unfold pdTopBit
  cases hmsb : bits.msb with
  | false =>
    rw [hmsb] at hshift
    exact bne_eq_false_iff_eq.mpr (BitVec.eq_of_toNat_eq hshift)
  | true =>
    rw [hmsb] at hshift
    exact bne_iff_ne.mpr fun h => absurd (hshift.symm.trans (congrArg BitVec.toNat h)) (by decide)

/-! ## Loads under a mask -/

/-- `read_xmm_memory`. -/
def readXmmMemory (address : U64) : CpuProgram XMMRegister := do
  match ← readLinearBytes address 16 with
  | none => return .zero
  | some bytes =>
    notifyFields .memRead address bytes [(0, 8), (8, 8)]
    return { low := field 64 bytes 0, high := field 64 bytes 8 }

/-- `read_ymm_memory`. -/
def readYmmMemory (address : U64) : CpuProgram AVXRegister256 := do
  let low ← readXmmMemory address
  let high ← readXmmMemory (address + 16)
  return { low := low, high := high }

/-- The selected lanes of a source, and zeros. -/
def maskedLanes {V : Type} {w : ℕ} (lanes : Lanes V w) (selected : BitVec w → Bool)
    (zero mask source : V) : V :=
  lanes.fill (fun i => selected (lanes.get mask i)) (lanes.get source) lanes.count 0 zero

/-- `apply_avx_maskmov_load_ps128`. -/
def applyAvxMaskmovLoadPs128 (mask source : XMMRegister) : XMMRegister :=
  maskedLanes xmmLanes psSelected .zero mask source

/-- `apply_avx_maskmov_load_ps256`. -/
def applyAvxMaskmovLoadPs256 (mask source : AVXRegister256) : AVXRegister256 :=
  maskedLanes ymmLanes psSelected .zero mask source

/-- `apply_avx_maskmov_load_pd128`. -/
def applyAvxMaskmovLoadPd128 (mask source : XMMRegister) : XMMRegister where
  low := if pdSelected mask.low then source.low else 0
  high := if pdSelected mask.high then source.high else 0

/-- `apply_avx_maskmov_load_pd256`. -/
def applyAvxMaskmovLoadPd256 (mask source : AVXRegister256) : AVXRegister256 where
  low := applyAvxMaskmovLoadPd128 mask.low source.low
  high := applyAvxMaskmovLoadPd128 mask.high source.high

/-- `apply_avx2_pmaskmov_load128`. -/
def applyAvx2PmaskmovLoad128 (mask source : XMMRegister) (isQword : Bool) : XMMRegister :=
  if isQword then
    { low := if pdSelected mask.low then source.low else 0
      high := if pdSelected mask.high then source.high else 0 }
  else maskedLanes xmmLanes psSelected .zero mask source

/-- `apply_avx2_pmaskmov_load256`. -/
def applyAvx2PmaskmovLoad256 (mask source : AVXRegister256) (isQword : Bool) : AVXRegister256 :=
  if isQword then maskedLanes ymmPdLanes pdSelected .zero mask source
  else maskedLanes ymmLanes psSelected .zero mask source

/-! ## Stores under a mask -/

/-- `cpu_resolve_masked_write_element_ptrs`: the pointers to the bytes of the selected
elements, from the `i`-th element on. -/
def resolveMaskedElements (size : ℕ) (address : U64) :
    List (Bool × U64) → ℕ → CpuProgram (Option (List HostPtr))
  | [], _ => return some []
  | (selected, _) :: elements, i => do
    if selected then
      match ← resolveBytes true (address + BitVec.ofNat 64 (i * size)) size 0 with
      | none => return none
      | some ptrs =>
        match ← resolveMaskedElements size address elements (i + 1) with
        | none => return none
        | some rest => return some (ptrs ++ rest)
    else resolveMaskedElements size address elements (i + 1)

/-- The notifications of the selected elements. -/
def notifyMaskedElements (size : ℕ) (address : U64) : List (Bool × U64) → ℕ → CpuProgram Unit
  | [], _ => return ()
  | (selected, value) :: elements, i => do
    if selected then
      perform (.notify .memWrite (address + BitVec.ofNat 64 (i * size)) size value)
      notifyMaskedElements size address elements (i + 1)
    else notifyMaskedElements size address elements (i + 1)

/-- The bytes of the selected elements. -/
def maskedBytes (size : ℕ) (elements : List (Bool × U64)) : List U8 :=
  elements.flatMap fun e => if e.1 then littleEndianBytes size e.2 else []

/-- `avx_write_masked_dwords`, `avx_write_masked_qwords` and
`sse2_misc_write_maskmovdqu_bytes` for their sizes, with
`cpu_commit_masked_write_elements`. -/
def writeMaskedElements (size : ℕ) (address : U64) (elements : List (Bool × U64)) :
    CpuProgram Unit := do
  if ← cpuHasException then return ()
  match ← resolveMaskedElements size address elements 0 with
  | none => return ()
  | some ptrs =>
    notifyMaskedElements size address elements 0
    commitBytes ptrs (maskedBytes size elements)

/-- The elements of a vector under a mask. -/
def maskedElements {V : Type} {w : ℕ} (lanes : Lanes V w) (selected : BitVec w → Bool)
    (mask source : V) : List (Bool × U64) :=
  (List.range lanes.count).map fun i =>
    (selected (lanes.get mask i), (lanes.get source i).setWidth 64)

/-- `execute_avx_maskmov_store_ps128`. -/
def executeAvxMaskmovStorePs128 (address : U64) (mask source : XMMRegister) : CpuProgram Unit :=
  writeMaskedElements 4 address (maskedElements xmmLanes psSelected mask source)

/-- `execute_avx_maskmov_store_ps256`. -/
def executeAvxMaskmovStorePs256 (address : U64) (mask source : AVXRegister256) :
    CpuProgram Unit :=
  writeMaskedElements 4 address (maskedElements ymmLanes psSelected mask source)

/-- `execute_avx_maskmov_store_pd128`. -/
def executeAvxMaskmovStorePd128 (address : U64) (mask source : XMMRegister) : CpuProgram Unit :=
  writeMaskedElements 8 address
    [(pdSelected mask.low, source.low), (pdSelected mask.high, source.high)]

/-- `execute_avx_maskmov_store_pd256`. -/
def executeAvxMaskmovStorePd256 (address : U64) (mask source : AVXRegister256) :
    CpuProgram Unit :=
  writeMaskedElements 8 address
    [(pdSelected mask.low.low, source.low.low), (pdSelected mask.low.high, source.low.high),
      (pdSelected mask.high.low, source.high.low), (pdSelected mask.high.high, source.high.high)]

/-- `execute_avx2_pmaskmov_store128`. -/
def executeAvx2PmaskmovStore128 (address : U64) (mask source : XMMRegister) (isQword : Bool) :
    CpuProgram Unit :=
  if isQword then
    writeMaskedElements 8 address
      [(pdSelected mask.low, source.low), (pdSelected mask.high, source.high)]
  else writeMaskedElements 4 address (maskedElements xmmLanes psSelected mask source)

/-- `execute_avx2_pmaskmov_store256`. -/
def executeAvx2PmaskmovStore256 (address : U64) (mask source : AVXRegister256)
    (isQword : Bool) : CpuProgram Unit :=
  if isQword then writeMaskedElements 8 address (maskedElements ymmPdLanes pdSelected mask source)
  else writeMaskedElements 4 address (maskedElements ymmLanes psSelected mask source)

/-! ## The instructions -/

/-- Change the vector registers. -/
def modifyVector (f : VectorRegisters → VectorRegisters) : CpuProgram Unit :=
  modifyContext fun ctx => { ctx with vector := f ctx.vector }

/-- `VMASKMOVPS` and `VMASKMOVPD` in `execute_avx_vex`. -/
def executeVmaskmov (isPd is256 isStore : Bool) (reg maskReg : Fin 16) (address : U64) :
    CpuProgram Unit := do
  if !isStore then
    if is256 then
      let memoryValue ← readYmmMemory address
      modifyVector fun vector =>
        let mask := vector.getYmm256 maskReg
        vector.setYmm256 reg (if isPd then applyAvxMaskmovLoadPd256 mask memoryValue
          else applyAvxMaskmovLoadPs256 mask memoryValue)
    else
      let memoryValue ← readXmmMemory address
      modifyVector fun vector =>
        let mask := vector.xmm maskReg
        (vector.setXmm128 reg (if isPd then applyAvxMaskmovLoadPd128 mask memoryValue
          else applyAvxMaskmovLoadPs128 mask memoryValue)).clearYmmUpper128 reg
  else
    let ctx ← getContext
    if is256 then
      let mask := ctx.vector.getYmm256 maskReg
      let source := ctx.vector.getYmm256 reg
      if isPd then executeAvxMaskmovStorePd256 address mask source
      else executeAvxMaskmovStorePs256 address mask source
    else
      let mask := ctx.vector.xmm maskReg
      let source := ctx.vector.xmm reg
      if isPd then executeAvxMaskmovStorePd128 address mask source
      else executeAvxMaskmovStorePs128 address mask source

/-- `VPMASKMOVD` and `VPMASKMOVQ` in `execute_avx_vex`. -/
def executeVpmaskmov (isQword is256 isStore : Bool) (reg maskReg : Fin 16) (address : U64) :
    CpuProgram Unit := do
  let ctx ← getContext
  if !isStore then
    if is256 then
      let mask := ctx.vector.getYmm256 maskReg
      let memoryValue ← readYmmMemory address
      modifyVector fun vector =>
        vector.setYmm256 reg (applyAvx2PmaskmovLoad256 mask memoryValue isQword)
    else
      let mask := ctx.vector.xmm maskReg
      let memoryValue ← readXmmMemory address
      modifyVector fun vector =>
        (vector.setXmm128 reg
          (applyAvx2PmaskmovLoad128 mask memoryValue isQword)).clearYmmUpper128 reg
  else if is256 then
    executeAvx2PmaskmovStore256 address (ctx.vector.getYmm256 maskReg)
      (ctx.vector.getYmm256 reg) isQword
  else
    executeAvx2PmaskmovStore128 address (ctx.vector.xmm maskReg) (ctx.vector.xmm reg) isQword

/-- `get_sse2_misc_maskmovdqu_address`. -/
def maskmovdquAddress (ctx : CpuContext) (addressSize : ℕ) : U64 :=
  if addressSize = 16 then ctx.regs regRdi &&& 0xFFFF
  else if addressSize = 32 then ctx.regs regRdi &&& 0xFFFFFFFF
  else ctx.regs regRdi

/-- `sse2_misc_xmm_to_bytes`. -/
def xmmToBytes (value : XMMRegister) : List U8 :=
  littleEndianBytes 8 value.low ++ littleEndianBytes 8 value.high

/-- The elements of `sse2_misc_write_maskmovdqu_bytes`. -/
def maskmovdquElements (src mask : XMMRegister) : List (Bool × U64) :=
  List.zipWith (fun maskByte srcByte => (maskByte &&& 0x80 != 0, srcByte.setWidth 64))
    (xmmToBytes mask) (xmmToBytes src)

/-- `MASKMOVDQU` and `VMASKMOVDQU`. -/
def executeMaskmovdqu (src mask : Fin 16) (addressSize : ℕ) : CpuProgram Unit := do
  let ctx ← getContext
  writeMaskedElements 1 (maskmovdquAddress ctx addressSize)
    (maskmovdquElements (ctx.vector.xmm src) (ctx.vector.xmm mask))

/-! ## Gathers -/

/-- The index register of a SIB byte, as `avx_vsib_index_register` computes it. -/
def vsibIndex (ctx : CpuContext) (inst : MemOperand) : Fin 16 :=
  CpuContext.reg (if ctx.prefixBits.rexX && inst.addressSize == 64 then regField inst.sib ||| 0x08
    else regField inst.sib)

/-- `avx_vsib_base_address`, but for its checks. -/
def avxVsibBaseAddress (ctx : CpuContext) (inst : MemOperand) : U64 :=
  let mod := modField inst.modrm
  let base : U64 :=
    if mod = 0 ∧ rmField inst.sib = 5 then
      if inst.addressSize = 64 then inst.displacement.signExtend 64
      else inst.displacement.setWidth 64
    else
      let address := ctx.regs (CpuContext.reg
        (if ctx.prefixBits.rexB && inst.addressSize == 64 then rmField inst.sib ||| 0x08
          else rmField inst.sib))
      if inst.addressSize = 32 then address &&& 0xFFFFFFFF else address
  let address := base + CpuContext.displacementTerm mod inst.displacement
  if inst.addressSize = 32 then address &&& 0xFFFFFFFF else address

/-- `avx_vsib_element_address`. -/
def avxVsibElementAddress (base : U64) (sib : U8) (index : U64) (addressSize : ℕ) : U64 :=
  let address := base + (index <<< modField sib)
  if addressSize = 32 then address &&& 0xFFFFFFFF else address

/-- `avx_vex_dest_index`. -/
def avxVexDestIndex (ctx : CpuContext) (modrm : U8) : Fin 16 :=
  CpuContext.reg (if ctx.prefixBits.rexR then regField modrm ||| 0x08 else regField modrm)

/-- The operands of a gather that its checks let through. -/
def gatherLegal (ctx : CpuContext) (maskReg : Fin 16) (inst : MemOperand) : Bool :=
  let dest := avxVexDestIndex ctx inst.modrm
  let index := vsibIndex ctx inst
  !(modField inst.modrm == 3) && inst.hasSib &&
    !(dest == maskReg || dest == index || maskReg == index)

/-- `if (...) raise_ud_ctx(ctx);`. -/
def raiseUdIf (illegal : Bool) : CpuProgram Unit := if illegal then raiseUd else return ()

/-- `validate_avx_gather_operands`, and the checks that `avx_vsib_index_register` and
`avx_vsib_base_address` make again. -/
def validateAvxGatherOperands (maskReg : Fin 16) (inst : MemOperand) : CpuProgram Unit := do
  raiseUdIf (modField inst.modrm == 3 || !inst.hasSib)
  let ctx ← getContext
  let dest := avxVexDestIndex ctx inst.modrm
  let index := vsibIndex ctx inst
  raiseUdIf (dest == maskReg || dest == index || maskReg == index)

/-- The loop of a gather over the lanes. -/
def gatherLoop {V : Type} {w : ℕ} (lanes : Lanes V w) (size : ℕ) (selected : ℕ → Bool)
    (address : ℕ → U64) : ℕ → ℕ → V → CpuProgram V
  | 0, _, result => return result
  | left + 1, i, result => do
    if selected i then
      let value ← readMemory size (address i)
      gatherLoop lanes size selected address left (i + 1) (lanes.set result i (value.setWidth w))
    else gatherLoop lanes size selected address left (i + 1) result

/-- The registers behind a gather of 256 bits. -/
def gathered256 (vector : VectorRegisters) (dest maskReg : Fin 16) (result : AVXRegister256) :
    VectorRegisters :=
  (vector.setYmm256 dest result).setYmm256 maskReg .zero

/-- The registers behind a gather of 128 bits. -/
def gathered128 (vector : VectorRegisters) (dest maskReg : Fin 16) (result : XMMRegister) :
    VectorRegisters :=
  (((vector.setXmm128 dest result).clearYmmUpper128 dest).setXmm128 maskReg .zero).clearYmmUpper128
    maskReg

/-- The address of a lane with the index of that lane. -/
def gatherAddress (ctx : CpuContext) (inst : MemOperand) (index : ℕ → U64) (i : ℕ) : U64 :=
  avxVsibElementAddress (avxVsibBaseAddress ctx inst) inst.sib (index i) inst.addressSize

/-- `execute_avx_gather_dps`. -/
def executeAvxGatherDps (maskReg : Fin 16) (inst : MemOperand) (is256 : Bool) :
    CpuProgram Unit := do
  validateAvxGatherOperands maskReg inst
  let ctx ← getContext
  let dest := avxVexDestIndex ctx inst.modrm
  if is256 then
    let mask := ctx.vector.getYmm256 maskReg
    let indices := ctx.vector.getYmm256 (vsibIndex ctx inst)
    let result ← gatherLoop ymmLanes 4 (fun i => psSelected (ymmLanes.get mask i))
      (gatherAddress ctx inst fun i => (ymmLanes.get indices i).signExtend 64) 8 0
      (ctx.vector.getYmm256 dest)
    modifyVector fun vector => gathered256 vector dest maskReg result
  else
    let mask := ctx.vector.xmm maskReg
    let indices := ctx.vector.xmm (vsibIndex ctx inst)
    let result ← gatherLoop xmmLanes 4 (fun i => psSelected (xmmLanes.get mask i))
      (gatherAddress ctx inst fun i => (xmmLanes.get indices i).signExtend 64) 4 0
      (ctx.vector.xmm dest)
    modifyVector fun vector => gathered128 vector dest maskReg result

/-- `execute_avx_gather_dpd`. -/
def executeAvxGatherDpd (maskReg : Fin 16) (inst : MemOperand) (is256 : Bool) :
    CpuProgram Unit := do
  validateAvxGatherOperands maskReg inst
  let ctx ← getContext
  let dest := avxVexDestIndex ctx inst.modrm
  let indices := ctx.vector.xmm (vsibIndex ctx inst)
  if is256 then
    let mask := ctx.vector.getYmm256 maskReg
    let result ← gatherLoop ymmPdLanes 8 (fun i => pdTopBit (ymmPdLanes.get mask i))
      (gatherAddress ctx inst fun i => (xmmLanes.get indices i).signExtend 64) 4 0
      (ctx.vector.getYmm256 dest)
    modifyVector fun vector => gathered256 vector dest maskReg result
  else
    let mask := ctx.vector.xmm maskReg
    let result ← gatherLoop xmmPdLanes 8 (fun i => pdTopBit (xmmPdLanes.get mask i))
      (gatherAddress ctx inst fun i => (xmmLanes.get indices i).signExtend 64) 2 0
      (ctx.vector.xmm dest)
    modifyVector fun vector => gathered128 vector dest maskReg result

/-- `execute_avx_gather_qps`. -/
def executeAvxGatherQps (maskReg : Fin 16) (inst : MemOperand) (is256 : Bool) :
    CpuProgram Unit := do
  validateAvxGatherOperands maskReg inst
  let ctx ← getContext
  let dest := avxVexDestIndex ctx inst.modrm
  let mask := ctx.vector.xmm maskReg
  let old := ctx.vector.xmm dest
  if is256 then
    let indices := ctx.vector.getYmm256 (vsibIndex ctx inst)
    let result ← gatherLoop xmmLanes 4 (fun i => psSelected (xmmLanes.get mask i))
      (gatherAddress ctx inst fun i => ymmPdLanes.get indices i) 4 0 old
    modifyVector fun vector => gathered128 vector dest maskReg result
  else
    let indices := ctx.vector.xmm (vsibIndex ctx inst)
    let result ← gatherLoop xmmLanes 4 (fun i => psSelected (xmmLanes.get mask i))
      (gatherAddress ctx inst fun i => xmmPdLanes.get indices i) 2 0
      (setXmmLaneBits (setXmmLaneBits old 2 0) 3 0)
    modifyVector fun vector => gathered128 vector dest maskReg result

/-- `execute_avx_gather_qpd`. -/
def executeAvxGatherQpd (maskReg : Fin 16) (inst : MemOperand) (is256 : Bool) :
    CpuProgram Unit := do
  validateAvxGatherOperands maskReg inst
  let ctx ← getContext
  let dest := avxVexDestIndex ctx inst.modrm
  if is256 then
    let mask := ctx.vector.getYmm256 maskReg
    let indices := ctx.vector.getYmm256 (vsibIndex ctx inst)
    let result ← gatherLoop ymmPdLanes 8 (fun i => pdTopBit (ymmPdLanes.get mask i))
      (gatherAddress ctx inst fun i => ymmPdLanes.get indices i) 4 0 (ctx.vector.getYmm256 dest)
    modifyVector fun vector => gathered256 vector dest maskReg result
  else
    let mask := ctx.vector.xmm maskReg
    let indices := ctx.vector.xmm (vsibIndex ctx inst)
    let result ← gatherLoop xmmPdLanes 8 (fun i => pdTopBit (xmmPdLanes.get mask i))
      (gatherAddress ctx inst fun i => xmmPdLanes.get indices i) 2 0 (ctx.vector.xmm dest)
    modifyVector fun vector => gathered128 vector dest maskReg result

end Cpueaxh
