/-
# The law of bit tests

Which bit of memory a bit test with an offset in a register tests and changes, what else it
changes, and when the locked instruction ends as the plain one.
-/
import Cpueaxh.BitTest
import Cpueaxh.FlagWords
import Cpueaxh.StackTransfers

namespace Cpueaxh

open HostMemory SubtractionFlags

/-! ## Division that rounds down -/

theorem floorDivBtIndex_toInt {divisor : ℕ} (hdivisor : divisor = 16 ∨ divisor = 32 ∨ divisor = 64)
    (value : U64) : (floorDivBtIndex value divisor).toInt = value.toInt / divisor := by
  have hlt := value.isLt
  have hsmall : (BitVec.ofNat 64 divisor).toNat = divisor := by
    rw [BitVec.toNat_ofNat]
    omega
  have hint := BitVec.toInt_eq_toNat_cond value
  unfold floorDivBtIndex
  by_cases hneg : 0 ≤ value.toInt
  · rw [if_pos hneg]
    have hmsb : value.msb = false := by
      rw [BitVec.msb_eq_false_iff_two_mul_lt]
      by_contra hge
      rw [if_neg (by omega)] at hint
      omega
    have hdivisorMsb : (BitVec.ofNat 64 divisor).msb = false := by
      rw [BitVec.msb_eq_false_iff_two_mul_lt, hsmall]
      omega
    have hvalue : 2 * value.toNat < 2 ^ 64 := BitVec.msb_eq_false_iff_two_mul_lt.mp hmsb
    rw [if_pos hvalue] at hint
    rw [BitVec.sdiv_eq, hmsb, hdivisorMsb]
    show (value.udiv (BitVec.ofNat 64 divisor)).toInt = _
    rw [BitVec.toInt_eq_toNat_cond, BitVec.udiv_eq, BitVec.toNat_udiv, hsmall, hint]
    have hle : value.toNat / divisor ≤ value.toNat := Nat.div_le_self _ _
    rw [if_pos (by omega)]
    exact Int.natCast_ediv _ _
  · rw [if_neg hneg]
    have hvalue : ¬ 2 * value.toNat < 2 ^ 64 := by
      intro hpos
      rw [if_pos hpos] at hint
      omega
    rw [if_neg hvalue] at hint
    -- the magnitude is that of the value, up to 2 ^ 63
    have hmagnitude : (-(value + 1) + 1).toNat = 2 ^ 64 - value.toNat := by
      bv_omega
    have hsum : (-(value + 1) + 1 + BitVec.ofNat 64 divisor - 1).toNat =
        2 ^ 64 - value.toNat + divisor - 1 := by
      have hone : (1 : U64).toNat = 1 := rfl
      rw [BitVec.toNat_sub, BitVec.toNat_add, hmagnitude, hsmall, hone]
      omega
    dsimp only
    generalize hquotient : (-(value + 1) + 1 + BitVec.ofNat 64 divisor - 1) /
      BitVec.ofNat 64 divisor = quotient
    have hquotientNat : quotient.toNat = (2 ^ 64 - value.toNat + divisor - 1) / divisor := by
      rw [← hquotient, BitVec.toNat_udiv, hsum, hsmall]
    rw [BitVec.toInt_eq_toNat_cond, BitVec.toNat_neg, hint]
    rcases hdivisor with rfl | rfl | rfl <;> split_ifs <;> omega

theorem addBtSignedOffset_eq (base byteOffset : U64) :
    addBtSignedOffset base byteOffset = base + byteOffset := by
  unfold addBtSignedOffset
  split_ifs
  · rfl
  · rw [BitVec.sub_eq_add_neg, BitVec.neg_neg]

/-! ## Which bit -/

/-- The signed bit offset in the register. -/
def BitTestInst.bitOffset (inst : BitTestInst) (ctx : CpuContext) : ℤ :=
  ((ctx.regs (decodeRegIndex ctx inst.modrm)).setWidth inst.operandSize.bits).toInt

/-- The address of the byte with the bit that the code tests. -/
def BitTestInst.testedByte (inst : BitTestInst) (ctx : CpuContext) : U64 :=
  inst.targetAddress ctx +
    BitVec.ofNat 64 (btBitIndex (inst.rawIndex ctx) inst.operandSize / 8)

/-- The number of the bit in its byte. -/
def BitTestInst.testedBit (inst : BitTestInst) (ctx : CpuContext) : ℕ :=
  btBitIndex (inst.rawIndex ctx) inst.operandSize % 8

/-- A bit test of memory with the offset in a register. -/
structure BitTestInst.InMemory (inst : BitTestInst) : Prop where
  memory : inst.operand.isRegister = false
  register : inst.opcode ≠ 0xBA

/-- The address of the byte at a distance from the effective address, at the address size. -/
def byteAt (base offset : U64) (addressSize : ℕ) (distance : ℤ) : U64 :=
  base + truncateTo addressSize (offset + BitVec.ofInt 64 distance)

/-- The byte at a distance from an effective address is in reach of the address size. -/
def InReach (offset : U64) (addressSize : ℕ) (distance : ℤ) : Prop :=
  addressSize = 64 ∨
    (0 ≤ (offset.toNat : ℤ) + distance ∧ (offset.toNat : ℤ) + distance < 2 ^ addressSize)

variable {inst : BitTestInst} {ctx : CpuContext}

theorem BitTestInst.bits_cases (inst : BitTestInst) : inst.operandSize.bits = 16 ∨
    inst.operandSize.bits = 32 ∨ inst.operandSize.bits = 64 := by
  have hwide := inst.wide
  cases hsize : inst.operandSize with
  | byte => exact absurd hsize hwide
  | word => exact Or.inl rfl
  | dword => exact Or.inr (Or.inl rfl)
  | qword => exact Or.inr (Or.inr rfl)

theorem rawIndex_toInt (h : inst.InMemory) (ctx : CpuContext) :
    (inst.rawIndex ctx).toInt = inst.bitOffset ctx := by
  have hregister : (getRegister inst.operandSize ctx (decodeRegIndex ctx inst.modrm)).setWidth
      inst.operandSize.bits =
        (ctx.regs (decodeRegIndex ctx inst.modrm)).setWidth inst.operandSize.bits := by
    have hwide := inst.wide
    cases hsize : inst.operandSize with
    | byte => exact absurd hsize hwide
    | word =>
      apply BitVec.eq_of_getLsbD_eq
      intro i hi
      show ((ctx.regs _ &&& 0xFFFF).setWidth 16).getLsbD i = _
      rw [setWidth_mask _ _ (by decide)]
      rfl
    | dword =>
      show (ctx.regs _ &&& 0xFFFFFFFF).setWidth 32 = _
      rw [BitVec.setWidth_and]
      exact BitVec.and_allOnes
    | qword => rfl
  unfold BitTestInst.rawIndex
  rw [if_neg h.register, if_neg (by rw [h.memory]; decide)]
  unfold signExtendBtSource readBtSourceRegister BitTestInst.bitOffset
  rw [hregister, BitVec.toInt_signExtend_of_le inst.operandSize.le_sixtyFour]

theorem btBitIndex_eq (h : inst.InMemory) (ctx : CpuContext) :
    (btBitIndex (inst.rawIndex ctx) inst.operandSize : ℤ) =
      inst.bitOffset ctx % inst.operandSize.bits := by
  have hraw := rawIndex_toInt h ctx
  generalize inst.rawIndex ctx = raw at hraw
  have hlt := raw.isLt
  have hint := BitVec.toInt_eq_toNat_cond raw
  have hmask : btBitIndex raw inst.operandSize = raw.toNat % inst.operandSize.bits := by
    unfold btBitIndex
    rw [BitVec.toNat_and]
    rcases inst.bits_cases with hbits | hbits | hbits <;> rw [hbits]
    · exact Nat.and_two_pow_sub_one_eq_mod raw.toNat 4
    · exact Nat.and_two_pow_sub_one_eq_mod raw.toNat 5
    · exact Nat.and_two_pow_sub_one_eq_mod raw.toNat 6
  rw [hmask, ← hraw, hint]
  rcases inst.bits_cases with hbits | hbits | hbits <;> rw [hbits] <;> split_ifs <;> omega

/-- **The byte** that the code tests is at the rounded-down distance from the operand. -/
theorem testedByte_eq (h : inst.InMemory) (ctx : CpuContext) :
    inst.testedByte ctx = inst.memAddress + BitVec.ofInt 64 (inst.bitOffset ctx / 8) := by
  have hindex := btBitIndex_eq h ctx
  have helement : floorDivBtIndex (inst.rawIndex ctx) inst.operandSize.bits =
      BitVec.ofInt 64 (inst.bitOffset ctx / inst.operandSize.bits) := by
    rw [← rawIndex_toInt h ctx, ← floorDivBtIndex_toInt inst.bits_cases, BitVec.ofInt_toInt]
  unfold BitTestInst.testedByte BitTestInst.targetAddress
  rw [if_neg (by rw [h.memory]; simpa using h.register), addBtSignedOffset_eq, helement,
    BitVec.add_assoc]
  congr 1
  rw [← BitVec.ofInt_natCast, ← BitVec.ofInt_natCast, ← BitVec.ofInt_mul, ← BitVec.ofInt_add]
  congr 1
  push_cast
  rw [hindex]
  rcases inst.bits_cases with hbits | hbits | hbits <;> rw [hbits] <;> omega

theorem testedBit_eq (h : inst.InMemory) (ctx : CpuContext) :
    (inst.testedBit ctx : ℤ) = inst.bitOffset ctx % 8 := by
  have hindex := btBitIndex_eq h ctx
  unfold BitTestInst.testedBit
  push_cast
  rw [hindex]
  rcases inst.bits_cases with hbits | hbits | hbits <;> rw [hbits] <;> omega

/-- The bit offset is far smaller than an address. -/
theorem bitOffset_bounds (inst : BitTestInst) (ctx : CpuContext) :
    -2 ^ 63 ≤ inst.bitOffset ctx ∧ inst.bitOffset ctx < 2 ^ 63 := by
  unfold BitTestInst.bitOffset
  generalize ctx.regs (decodeRegIndex ctx inst.modrm) = value
  rcases inst.bits_cases with hbits | hbits | hbits <;> rw [hbits]
  · have hbounds := BitVec.toInt_lt (x := value.setWidth 16)
    have hlower := BitVec.le_toInt (value.setWidth 16)
    omega
  · have hbounds := BitVec.toInt_lt (x := value.setWidth 32)
    have hlower := BitVec.le_toInt (value.setWidth 32)
    omega
  · have hbounds := BitVec.toInt_lt (x := value.setWidth 64)
    have hlower := BitVec.le_toInt (value.setWidth 64)
    omega

/-- **The byte is the right one** exactly when it is in reach of the address size. -/
theorem testedByte_iff (h : inst.InMemory) (ctx : CpuContext) {base offset : U64}
    {addressSize : ℕ} (hsize : addressSize = 16 ∨ addressSize = 32 ∨ addressSize = 64)
    (haddress : inst.memAddress = base + offset) (hoffset : truncateTo addressSize offset = offset) :
    inst.testedByte ctx = byteAt base offset addressSize (inst.bitOffset ctx / 8) ↔
      InReach offset addressSize (inst.bitOffset ctx / 8) := by
  obtain ⟨hlower, hupper⟩ := bitOffset_bounds inst ctx
  rw [testedByte_eq h, haddress, BitVec.add_assoc]
  unfold byteAt InReach
  rw [BitVec.add_right_inj]
  generalize inst.bitOffset ctx = bitOffset at hlower hupper
  have hsum : ((offset + BitVec.ofInt 64 (bitOffset / 8)).toNat : ℤ) =
      ((offset.toNat : ℤ) + bitOffset / 8) % 2 ^ 64 := by
    rw [BitVec.toNat_add, BitVec.toNat_ofInt]
    omega
  rcases hsize with hsize | hsize | hsize
  · have hoffsetLt : offset.toNat < 2 ^ 16 := by
      rw [← hoffset, truncateTo_toNat (Or.inl hsize), hsize]
      exact Nat.mod_lt _ (by decide)
    rw [← BitVec.toNat_inj, truncateTo_toNat (Or.inl hsize), hsize]
    omega
  · have hoffsetLt : offset.toNat < 2 ^ 32 := by
      rw [← hoffset, truncateTo_toNat (Or.inr (Or.inl hsize)), hsize]
      exact Nat.mod_lt _ (by decide)
    rw [← BitVec.toNat_inj, truncateTo_toNat (Or.inr (Or.inl hsize)), hsize]
    omega
  · subst hsize
    exact iff_of_true rfl (Or.inl rfl)

/-! ## Bytes of a value -/

/-- A byte of a loaded value. -/
theorem byte_loadValue (host : HostMemory) (ptrs : List HostPtr) : ∀ {j : ℕ} {p : HostPtr},
    ptrs[j]? = some p → ptrs.length ≤ 8 →
      (loadValue host ptrs >>> (8 * j)).setWidth 8 = (host.read p).getD 0 := by
  induction ptrs with
  | nil =>
    intro j p hp
    cases hp
  | cons q rest ih =>
    intro j p hp hlength
    rw [List.length_cons] at hlength
    rw [loadValue]
    apply BitVec.eq_of_getLsbD_eq
    intro i hi
    rw [BitVec.getLsbD_setWidth, BitVec.getLsbD_ushiftRight, BitVec.getLsbD_or,
      BitVec.getLsbD_setWidth, BitVec.getLsbD_shiftLeft, decide_eq_true hi, Bool.true_and]
    rcases j with _ | j
    · obtain rfl : q = p := Option.some.inj hp
      rw [decide_eq_true (show 8 * 0 + i < 64 by omega),
        decide_eq_true (show 8 * 0 + i < 8 by omega)]
      simp
    · have hbyte := ih hp (by omega)
      have hbit := congrArg (fun byte : U8 => byte.getLsbD i) hbyte
      simp only [BitVec.getLsbD_setWidth, BitVec.getLsbD_ushiftRight, decide_eq_true hi,
        Bool.true_and] at hbit
      have hlow : ((host.read q).getD 0).getLsbD (8 * (j + 1) + i) = false :=
        BitVec.getLsbD_of_ge _ _ (by omega)
      rw [hlow, Bool.and_false, Bool.false_or, decide_eq_false (show ¬ 8 * (j + 1) + i < 8 by omega),
        Bool.not_false, Bool.and_true, show 8 * (j + 1) + i - 8 = 8 * j + i by omega, hbit]
      by_cases hfits : 8 * (j + 1) + i < 64
      · rw [decide_eq_true hfits, Bool.true_and]
      · -- the rest has too few bytes for the bit
        have hj : j < rest.length := by
          obtain ⟨hj, -⟩ := List.getElem?_eq_some_iff.mp hp
          simpa using hj
        omega

/-- The byte behind a pointer after a store is the last one that is stored through it. -/
theorem read_storeBytes_mem (ptrs : List HostPtr) : ∀ (host : HostMemory) (value : U64)
    {q : HostPtr}, q ∈ ptrs → ∃ j, ptrs[j]? = some q ∧ (∀ i, j < i → ptrs[i]? ≠ some q) ∧
      (storeBytes host ptrs value).read q =
        (host.read q).map fun _ => (value >>> (8 * j)).setWidth 8 := by
  induction ptrs with
  | nil =>
    intro host value q hq
    cases hq
  | cons p rest ih =>
    intro host value q hq
    rw [storeBytes]
    by_cases hrest : q ∈ rest
    · obtain ⟨j, hj, hlast, hread⟩ := ih (host.write p (value.setWidth 8)) (value >>> 8) hrest
      refine ⟨j + 1, hj, ?_, ?_⟩
      · intro i hi
        obtain ⟨i, rfl⟩ : ∃ k, i = k + 1 := ⟨i - 1, by omega⟩
        exact hlast i (by omega)
      · rw [hread, read_write, ← BitVec.shiftRight_add, show 8 + 8 * j = 8 * (j + 1) by omega]
        split_ifs with hqp
        · rw [hqp, Option.map_map]
          rfl
        · rfl
    · obtain rfl : q = p := by
        rcases List.mem_cons.mp hq with h | h
        · exact h
        · exact absurd h hrest
      refine ⟨0, rfl, ?_, ?_⟩
      · intro i hi hp
        obtain ⟨i, rfl⟩ : ∃ k, i = k + 1 := ⟨i - 1, by omega⟩
        exact hrest (List.mem_of_getElem? hp)
      · rw [read_storeBytes rest _ _ hrest, read_write, if_pos rfl]
        rfl

/-! ## The changed bit -/

/-- The bit behind an operation. -/
def BitTestOperation.bit : BitTestOperation → Bool → Bool
  | bt, old => old
  | bts, _ => true
  | btr, _ => false
  | btc, old => !old

/-- **An operation** changes one bit. -/
theorem getLsbD_apply (operation : BitTestOperation) {n : ℕ} (value : BitVec n) {bitIndex : ℕ}
    (hbit : bitIndex < n) (i : ℕ) : (operation.apply value bitIndex).getLsbD i =
      if i = bitIndex then operation.bit (value.getLsbD bitIndex) else value.getLsbD i := by
  have hmask : (1#n <<< bitIndex).getLsbD i = decide (i = bitIndex) := by
    have htwo : (BitVec.twoPow n bitIndex).getLsbD i = decide (i = bitIndex) := by
      rw [BitVec.getLsbD_twoPow, decide_eq_true hbit, Bool.true_and]
      exact decide_eq_decide.mpr eq_comm
    rwa [BitVec.twoPow] at htwo
  by_cases hi : i = bitIndex
  · subst hi
    rw [decide_eq_true rfl] at hmask
    rw [if_pos rfl]
    cases operation with
    | bt => rfl
    | bts =>
      show (value ||| 1#n <<< i).getLsbD i = true
      rw [BitVec.getLsbD_or, hmask, Bool.or_true]
    | btr =>
      show (value &&& ~~~(1#n <<< i)).getLsbD i = false
      rw [BitVec.getLsbD_and, BitVec.getLsbD_not, hmask]
      simp
    | btc =>
      show (value ^^^ 1#n <<< i).getLsbD i = !value.getLsbD i
      rw [BitVec.getLsbD_xor, hmask, Bool.xor_true]
  · rw [decide_eq_false hi] at hmask
    rw [if_neg hi]
    cases operation with
    | bt => rfl
    | bts =>
      show (value ||| 1#n <<< bitIndex).getLsbD i = _
      rw [BitVec.getLsbD_or, hmask, Bool.or_false]
    | btr =>
      show (value &&& ~~~(1#n <<< bitIndex)).getLsbD i = _
      rw [BitVec.getLsbD_and, BitVec.getLsbD_not, hmask]
      by_cases hlt : i < n
      · simp [hlt]
      · rw [BitVec.getLsbD_of_ge _ _ (not_lt.mp hlt), Bool.false_and]
    | btc =>
      show (value ^^^ 1#n <<< bitIndex).getLsbD i = _
      rw [BitVec.getLsbD_xor, hmask, Bool.xor_false]

/-- The changed bit is in one of the bytes. -/
theorem byte_apply (operation : BitTestOperation) (value : U64) {bitIndex : ℕ}
    (hbit : bitIndex < 64) (j : ℕ) :
    (operation.apply value bitIndex >>> (8 * j)).setWidth 8 =
      if j = bitIndex / 8 then
        operation.apply ((value >>> (8 * j)).setWidth 8) (bitIndex % 8)
      else (value >>> (8 * j)).setWidth 8 := by
  apply BitVec.eq_of_getLsbD_eq
  intro i hi
  have hbyte : ∀ x : U64, ((x >>> (8 * j)).setWidth 8).getLsbD i = x.getLsbD (8 * j + i) := by
    intro x
    rw [BitVec.getLsbD_setWidth, BitVec.getLsbD_ushiftRight, decide_eq_true hi, Bool.true_and]
  rw [hbyte, getLsbD_apply operation value hbit]
  by_cases hj : j = bitIndex / 8
  · rw [if_pos hj, getLsbD_apply operation _ (by omega : bitIndex % 8 < 8), hbyte]
    by_cases hi' : i = bitIndex % 8
    · rw [if_pos hi', if_pos (by omega), BitVec.getLsbD_setWidth, BitVec.getLsbD_ushiftRight,
        decide_eq_true (by omega : bitIndex % 8 < 8), Bool.true_and,
        show 8 * j + bitIndex % 8 = bitIndex by omega]
    · rw [if_neg hi', if_neg (by omega)]
  · rw [if_neg hj, if_neg (by omega), hbyte]

/-- The tested bit is in one of the bytes. -/
theorem testBit_eq (value : U64) (bitIndex : ℕ) :
    testBit value bitIndex =
      ((value >>> (8 * (bitIndex / 8))).setWidth 8).getLsbD (bitIndex % 8) := by
  have hone : (1 : U64) = BitVec.twoPow 64 0 := rfl
  unfold testBit
  rw [hone, and_twoPow_ne_zero _ (by decide), BitVec.getLsbD_ushiftRight,
    BitVec.getLsbD_setWidth, BitVec.getLsbD_ushiftRight,
    decide_eq_true (by omega : bitIndex % 8 < 8), Bool.true_and]
  congr 1
  omega

/-! ## Only that bit -/

/-- The memory of the host behind a change of one bit of a byte. -/
def OnlyBit (host host' : HostMemory) (p : HostPtr) (operation : BitTestOperation) (bit : ℕ) :
    Prop :=
  ∀ q, host'.read q =
    if q = p then (host.read p).map fun byte => operation.apply byte bit else host.read q

/-- The code stores the changed byte, and then a later byte of the operand with the same storage,
with its old value. -/
def Clobbered (host : HostMemory) (ptrs : List HostPtr) (operation : BitTestOperation)
    (bitIndex : ℕ) : Prop :=
  ∃ p byte, ptrs[bitIndex / 8]? = some p ∧ host.read p = some byte ∧
    operation.apply byte (bitIndex % 8) ≠ byte ∧ ∃ j, bitIndex / 8 < j ∧ ptrs[j]? = some p

/-- **Storing the operand** changes one bit, exactly when no later byte has its storage. -/
theorem onlyBit_iff (host : HostMemory) {ptrs : List HostPtr} (hlength : ptrs.length ≤ 8)
    (operation : BitTestOperation) {bitIndex : ℕ} {p : HostPtr}
    (hp : ptrs[bitIndex / 8]? = some p) :
    OnlyBit host
        (storeBytes host ptrs (operation.apply (loadValue host ptrs) bitIndex)) p operation
        (bitIndex % 8) ↔
      ¬ Clobbered host ptrs operation bitIndex := by
  have hk : bitIndex / 8 < ptrs.length := by
    obtain ⟨hk, -⟩ := List.getElem?_eq_some_iff.mp hp
    exact hk
  have hbit : bitIndex < 64 := by omega
  -- the stored byte behind each pointer
  have hstored : ∀ q ∈ ptrs, ∃ j, ptrs[j]? = some q ∧ (∀ i, j < i → ptrs[i]? ≠ some q) ∧
      (storeBytes host ptrs (operation.apply (loadValue host ptrs) bitIndex)).read q =
        if j = bitIndex / 8 then (host.read q).map fun byte =>
          operation.apply byte (bitIndex % 8) else host.read q := by
    intro q hq
    obtain ⟨j, hj, hlast, hread⟩ := read_storeBytes_mem ptrs host
      (operation.apply (loadValue host ptrs) bitIndex) hq
    refine ⟨j, hj, hlast, ?_⟩
    rw [hread, byte_apply operation _ hbit, byte_loadValue host ptrs hj hlength]
    rcases host.read q with _ | byte
    · split_ifs <;> rfl
    · split_ifs <;> rfl
  constructor
  · rintro honly ⟨p', byte, hp', hbyte, hchange, j, hj, hptr⟩
    obtain rfl : p = p' := Option.some.inj (hp.symm.trans hp')
    obtain ⟨k, -, hlast, hread⟩ := hstored p (List.mem_of_getElem? hp)
    have hkj : k ≠ bitIndex / 8 := by
      rintro rfl
      exact hlast j hj hptr
    rw [if_neg hkj, honly p, if_pos rfl, hbyte] at hread
    exact hchange (Option.some.inj hread)
  · intro hclobbered q
    by_cases hq : q ∈ ptrs
    · obtain ⟨k, hkq, hlast, hread⟩ := hstored q hq
      rw [hread]
      by_cases hqp : q = p
      · subst hqp
        rw [if_pos rfl]
        by_cases hkj : k = bitIndex / 8
        · rw [if_pos hkj]
        · rw [if_neg hkj]
          cases hbyte : host.read q with
          | none => rfl
          | some byte =>
            have hsame : operation.apply byte (bitIndex % 8) = byte := by
              by_contra hchange
              refine hclobbered ⟨q, byte, hp, hbyte, hchange, k, ?_, hkq⟩
              by_contra hle
              exact hlast (bitIndex / 8) (by omega) hp
            simp only [Option.map_some, hsame]
      · rw [if_neg hqp]
        have hkj : k ≠ bitIndex / 8 := by
          rintro rfl
          rw [hp] at hkq
          exact hqp (Option.some.inj hkq).symm
        rw [if_neg hkj]
    · rw [read_storeBytes ptrs _ _ hq, if_neg]
      rintro rfl
      exact hq (List.mem_of_getElem? hp)

/-! ## Runs -/

/-- The element that the instruction works on. -/
def BitTestInst.target (inst : BitTestInst) (ctx : CpuContext) : RmOperand :=
  ⟨inst.modrm, inst.targetAddress ctx⟩

/-- The bit of the element. -/
def BitTestInst.bitIndex (inst : BitTestInst) (ctx : CpuContext) : ℕ :=
  btBitIndex (inst.rawIndex ctx) inst.operandSize

/-- The CPU with a carry. -/
def Cpu.withCarry (cpu : Cpu) (carry : Bool) : Cpu :=
  cpu.edit fun ctx => setFlag ctx rflagsCf carry

/-- What a plain bit test does. -/
def Cpu.bitTested (cpu : Cpu) (inst : BitTestInst) (operation : BitTestOperation) :
    Except Cpu Cpu := do
  let value ← cpu.rmValue (inst.target cpu.context) inst.operandSize
  let flagged := cpu.withCarry (testBit value (inst.bitIndex cpu.context))
  if operation = .bt then return flagged
  else
    let changed := operation.apply value (inst.bitIndex cpu.context)
    flagged.rmStored (inst.target cpu.context) inst.operandSize changed

variable {cpu : Cpu}

theorem withCarry_hasException (hexc : cpu.context.hasException = false) (carry : Bool) :
    (cpu.withCarry carry).context.hasException = false := by
  show (setFlag cpu.context rflagsCf carry).hasException = false
  rw [setFlag_eq hexc]
  exact hexc

/-- The carry has no part in accesses. -/
theorem dataPtr_withCarry (hexc : cpu.context.hasException = false) (carry store : Bool)
    (address : U64) : (cpu.withCarry carry).dataPtr store address = cpu.dataPtr store address := by
  show grantedPtr (setFlag cpu.context rflagsCf carry).is64BitCode
    (setFlag cpu.context rflagsCf carry).isUser _ _ _ = _
  rw [setFlag_eq hexc]
  rfl

theorem operandPtrs_withCarry (hexc : cpu.context.hasException = false) (carry store : Bool)
    (address : U64) (n : ℕ) (offset : U64) :
    (cpu.withCarry carry).operandPtrs store address n offset =
      cpu.operandPtrs store address n offset :=
  operandPtrs_congr (dataPtr_withCarry hexc carry store) n offset

theorem btBitIndex_lt (inst : BitTestInst) (ctx : CpuContext) :
    inst.bitIndex ctx < inst.operandSize.bits := by
  unfold BitTestInst.bitIndex btBitIndex
  rw [BitVec.toNat_and]
  have hle : inst.operandSize.bits - 1 < 2 ^ 64 := by
    rcases inst.bits_cases with hbits | hbits | hbits <;> omega
  have hand := @Nat.and_le_right (inst.rawIndex ctx).toNat
    (BitVec.ofNat 64 (inst.operandSize.bits - 1)).toNat
  rw [BitVec.toNat_ofNat, Nat.mod_eq_of_lt hle] at hand ⊢
  rcases inst.bits_cases with hbits | hbits | hbits <;> omega

/-- The changed value has the bits of its size only. -/
theorem apply_lt (inst : BitTestInst) (ctx : CpuContext) (operation : BitTestOperation)
    {value : U64} (h : value.toNat < 2 ^ inst.operandSize.bits) :
    (operation.apply value (inst.bitIndex ctx)).toNat < 2 ^ inst.operandSize.bits := by
  have hindex := btBitIndex_lt inst ctx
  have hle := inst.operandSize.le_sixtyFour
  apply Nat.lt_pow_two_of_testBit
  intro i hi
  rw [BitVec.testBit_toNat, getLsbD_apply operation value (by omega : inst.bitIndex ctx < 64),
    if_neg (by omega), ← BitVec.testBit_toNat]
  exact Nat.testBit_lt_two_pow (lt_of_lt_of_le h (Nat.pow_le_pow_right (by decide) hi))

/-- The decoder of the operation, and the rest of the instruction. -/
theorem run_executeBtOperation (hm : ManagerOk cpu.memory)
    (hexc : cpu.context.hasException = false) (fuel : ℕ) {operation : BitTestOperation}
    (hdecode : decodeBtOperation inst.opcode inst.modrm = some operation) :
    (executeBtOperation fuel inst).run viewOp cpu =
      match cpu.rmValue (inst.target cpu.context) inst.operandSize with
      | .error c => (some (), c)
      | .ok value =>
        let flagged := cpu.withCarry (testBit value (inst.bitIndex cpu.context))
        if inst.hasLockPrefix && !(inst.target cpu.context).isRegister then
          (executeLockedBtMemory fuel operation (inst.targetAddress cpu.context) inst.operandSize
            (inst.bitIndex cpu.context)).run viewOp flagged
        else (some (), (transferred (if operation = .bt then .ok flagged
          else flagged.rmStored (inst.target cpu.context) inst.operandSize
            (operation.apply value (inst.bitIndex cpu.context)))).2) := by
  unfold executeBtOperation
  rw [hdecode]
  dsimp only
  rw [Program.run_bind, show (pure operation : CpuProgram BitTestOperation).run viewOp cpu =
    (operation, cpu) from rfl]
  dsimp only
  rw [Program.run_bind, run_getContext]
  dsimp only
  rw [Program.run_bind]
  have hread := run_readRmOperand hm hexc (inst.target cpu.context) inst.operandSize
  unfold BitTestInst.target at hread
  rw [hread]
  have hclean := clean_rmValue hexc (inst.target cpu.context) inst.operandSize
  unfold BitTestInst.target at hclean ⊢
  cases hvalue : cpu.rmValue ⟨inst.modrm, inst.targetAddress cpu.context⟩ inst.operandSize with
  | error c =>
    rw [hvalue] at hclean
    cases hclean with
    | error hfailed =>
      dsimp only
      rw [Program.run_bind, run_cpuHasException, hfailed.pending]
      rfl
  | ok value =>
    have hlt := rmValue_lt hvalue
    have hkeep : cpu.context.keepMode (setFlag cpu.context rflagsCf
        (testBit value (inst.bitIndex cpu.context))) = setFlag cpu.context rflagsCf
          (testBit value (inst.bitIndex cpu.context)) := keepMode_setFlag rfl _ _
    dsimp only
    rw [Program.run_bind, run_cpuHasException, hexc, and_operandMask hlt]
    simp only [Bool.false_eq_true, if_false]
    rw [Program.run_bind, run_modifyContext]
    unfold BitTestInst.bitIndex at hkeep ⊢
    rw [hkeep]
    dsimp only
    split_ifs
    · rfl
    · rfl
    · have hchanged := apply_lt inst cpu.context operation hlt
      unfold BitTestInst.bitIndex at hchanged
      have hclear := withCarry_hasException hexc
        (testBit value (btBitIndex (inst.rawIndex cpu.context) inst.operandSize))
      have hwrite := @run_writeRmOperand (cpu.withCarry
        (testBit value (btBitIndex (inst.rawIndex cpu.context) inst.operandSize))) hm hclear
        ⟨inst.modrm, inst.targetAddress cpu.context⟩ inst.operandSize
        (operation.apply value (btBitIndex (inst.rawIndex cpu.context) inst.operandSize))
      rw [and_operandMask hchanged, Program.run_bind]
      refine (congrArg (fun r : Unit × Cpu => (pure (some ()) : CpuProgram (Option Unit)).run viewOp
        r.2) hwrite).trans ?_
      rfl

/-- **A plain bit test.** -/
theorem run_plainBtOperation (hm : ManagerOk cpu.memory)
    (hexc : cpu.context.hasException = false) (fuel : ℕ) {operation : BitTestOperation}
    (hdecode : decodeBtOperation inst.opcode inst.modrm = some operation)
    (hplain : inst.hasLockPrefix = false) :
    (executeBtOperation fuel inst).run viewOp cpu =
      (some (), (transferred (cpu.bitTested inst operation)).2) := by
  rw [run_executeBtOperation hm hexc fuel hdecode, hplain, Bool.false_and]
  unfold Cpu.bitTested
  cases cpu.rmValue (inst.target cpu.context) inst.operandSize with
  | error c => rfl
  | ok value => rfl

/-- A carry that is written again. -/
theorem withCarry_withCarry (hexc : cpu.context.hasException = false) (carry : Bool)
    (host : HostMemory) :
    ((cpu.withCarry carry).setHost host).withCarry carry = (cpu.withCarry carry).setHost host := by
  have htwice : withFlag (withFlag cpu.context.rflags rflagsCf carry) rflagsCf carry =
      withFlag cpu.context.rflags rflagsCf carry := by
    apply BitVec.eq_of_getLsbD_eq
    intro i _
    have hflag := getLsbD_withFlag (withFlag cpu.context.rflags rflagsCf carry) .cf carry i
    have hflag' := getLsbD_withFlag cpu.context.rflags .cf carry i
    change (withFlag (withFlag cpu.context.rflags rflagsCf carry) rflagsCf carry).getLsbD i = _
      at hflag
    change (withFlag cpu.context.rflags rflagsCf carry).getLsbD i = _ at hflag'
    rw [hflag, hflag']
    split_ifs <;> rfl
  have hcontext : setFlag (setFlag cpu.context rflagsCf carry) rflagsCf carry =
      setFlag cpu.context rflagsCf carry := by
    rw [setFlag_eq hexc, setFlag_rflags hexc, htwice]
  show ({ cpu with
    context := setFlag (setFlag cpu.context rflagsCf carry) rflagsCf carry
    memory := cpu.memory.setHost host } : Cpu) = _
  rw [hcontext]
  rfl

/-! ## Locked instructions -/

section Locked

variable {operation : BitTestOperation} {address value : U64} {size : OperandWidth} {bitIndex : ℕ}

/-- The pointers behind a value that has been read, when they are asked for again for writing. -/
theorem loaded_ptrs (hload : cpu.loadAt (size.bits / 8) address = .ok value) {ptrs : List HostPtr}
    (hptrs : cpu.operandPtrs true address (size.bits / 8) 0 = .ok ptrs) :
    loadValue cpu.memory.host ptrs = value := by
  obtain ⟨read, hread, rfl⟩ := loadAt_ok_iff.mp hload
  rw [operandPtrs_alike (size.bits / 8) hread hptrs]

theorem storedAt_ok {size : ℕ} {ptrs : List HostPtr}
    (hptrs : cpu.operandPtrs true address size 0 = .ok ptrs) (value : U64) :
    cpu.storedAt size address value = .ok (cpu.setHost (storeBytes cpu.memory.host ptrs value)) := by
  unfold Cpu.storedAt
  rw [slotPtrs_ok_iff.mpr hptrs]
  rfl

theorem storedAt_error {size : ℕ} {a : U64}
    (hptrs : cpu.operandPtrs true address size 0 = .error a) (value : U64) :
    cpu.storedAt size address value = .error (cpu.refused true a) := by
  unfold Cpu.storedAt Cpu.slotPtrs
  rw [hptrs]
  rfl

/-- The interlocked functions on host memory. -/
theorem run_lockedBtPassthrough (hm : ManagerOk cpu.memory)
    (hexc : cpu.context.hasException = false) (hbt : operation ≠ .bt)
    (hload : cpu.loadAt (size.bits / 8) address = .ok value)
    (hcarry : ∀ host, (cpu.setHost host).withCarry (testBit value bitIndex) = cpu.setHost host)
    (hrun : cpu.OneRun true address (size.bits / 8)) (fuel : ℕ) :
    (lockedBtPassthrough (fuel + 1) operation address size bitIndex).run viewOp cpu =
      match cpu.operandPtrs true address (size.bits / 8) 0 with
      | .error a => (some true, cpu.refused true a)
      | .ok ptrs =>
        if size = .dword ∨ size = .qword then
          (some true, cpu.setHost (storeBytes cpu.memory.host ptrs
            (operation.apply value bitIndex)))
        else (some false, cpu) := by
  have hsize : 0 < size.bits / 8 := by
    have height := size.eight_le
    omega
  unfold lockedBtPassthrough getMemoryWritePtr
  rw [Program.run_bind]
  rcases run_getContiguousPtr hm hexc hsize hrun fuel with ⟨p, hptrs, hrun⟩ | ⟨a, hptrs, hrun⟩
  · rw [hrun, hptrs]
    dsimp only
    by_cases hwide : size = .dword ∨ size = .qword
    · rw [if_pos hwide, if_pos hwide, if_neg hbt, Program.run_bind, run_loadBytes,
        loaded_ptrs hload hptrs]
      dsimp only
      rw [Program.run_bind, run_storeValue]
      dsimp only
      rw [Program.run_bind, run_modifyContext, keepMode_setFlag rfl]
      have hdone := hcarry (storeBytes cpu.memory.host (consecutive p (size.bits / 8) 0)
        (operation.apply value bitIndex))
      exact congrArg (Prod.mk (some true)) hdone
    · rw [if_neg hwide, if_neg hwide]
      rfl
  · rw [hrun, hptrs]
    rfl

/-- The loop of compares and exchanges, of which the first one exchanges. -/
theorem run_lockedBtLoop (hm : ManagerOk cpu.memory) (hexc : cpu.context.hasException = false)
    (hbt : operation ≠ .bt) (hload : cpu.loadAt (size.bits / 8) address = .ok value)
    (hlt : value.toNat < 2 ^ size.bits)
    (hcarry : ∀ host, (cpu.setHost host).withCarry (testBit value bitIndex) = cpu.setHost host)
    (hrun : cpu.OneRun true address (size.bits / 8)) (fuel turns : ℕ) :
    (lockedBtLoop (fuel + 1) operation address size bitIndex (turns + 1) value).run viewOp cpu =
      match cpu.operandPtrs true address (size.bits / 8) 0 with
      | .error a => (some (), cpu.refused true a)
      | .ok ptrs => (some (), cpu.setHost (storeBytes cpu.memory.host ptrs
          (operation.apply value bitIndex))) := by
  unfold lockedBtLoop
  rw [if_neg hbt, Program.run_bind, run_atomicCompareExchange hm hexc hrun]
  cases hptrs : cpu.operandPtrs true address (size.bits / 8) 0 with
  | error a =>
    have hpending := refused_hasException hexc (operandPtrs_error _ hptrs)
    dsimp only
    rw [Program.run_bind, run_cpuHasException, hpending]
    rfl
  | ok ptrs =>
    dsimp only
    rw [loaded_ptrs hload hptrs, and_operandMask hlt, if_pos rfl]
    dsimp only
    rw [Program.run_bind, run_modifyContext, keepMode_setFlag rfl]
    exact congrArg (Prod.mk (some ())) (hcarry _)

/-- **In one run** a locked bit test stores as the plain one does. -/
theorem run_executeLockedBtMemory (hm : ManagerOk cpu.memory)
    (hexc : cpu.context.hasException = false) (hbt : operation ≠ .bt)
    (hload : cpu.loadAt (size.bits / 8) address = .ok value)
    (hcarry : ∀ host, (cpu.setHost host).withCarry (testBit value bitIndex) = cpu.setHost host)
    (hrun : cpu.OneRun true address (size.bits / 8)) (fuel : ℕ) :
    (executeLockedBtMemory (fuel + 1) operation address size bitIndex).run viewOp cpu =
      (some (), (transferred (cpu.storedAt (size.bits / 8) address
        (operation.apply value bitIndex))).2) := by
  have hlt : value.toNat < 2 ^ size.bits := by
    rw [← size.bits_eq_eight_mul]
    exact loadAt_lt hload
  have hloop : (do
      let value ← readMemoryOperand address size
      if ← cpuHasException then return some ()
      lockedBtLoop (fuel + 1) operation address size bitIndex (fuel + 1)
        (value &&& operandMask size) : CpuProgram (Option Unit)).run viewOp cpu =
      (some (), (transferred (cpu.storedAt (size.bits / 8) address
        (operation.apply value bitIndex))).2) := by
    have hread : (readMemoryOperand address size).run viewOp cpu = (value, cpu) := by
      have hvalue := run_readStringValue hm hexc size.eight_le address
      rw [hload] at hvalue
      exact hvalue
    rw [Program.run_bind, hread]
    dsimp only
    rw [Program.run_bind, run_cpuHasException, hexc, and_operandMask hlt]
    simp only [Bool.false_eq_true, if_false]
    rw [run_lockedBtLoop hm hexc hbt hload hlt hcarry hrun]
    cases hptrs : cpu.operandPtrs true address (size.bits / 8) 0 with
    | error a => rw [storedAt_error hptrs]; rfl
    | ok ptrs => rw [storedAt_ok hptrs]; rfl
  have hhost : (perform .isHostWritePassthrough).run viewOp cpu =
    (cpu.memory.hostWritePassthrough, cpu) := rfl
  unfold executeLockedBtMemory
  rw [Program.run_bind, hhost]
  cases cpu.memory.hostWritePassthrough with
  | false => exact hloop
  | true =>
    simp only [if_true]
    rw [Program.run_bind, run_lockedBtPassthrough hm hexc hbt hload hcarry hrun]
    cases hptrs : cpu.operandPtrs true address (size.bits / 8) 0 with
    | error a => rw [storedAt_error hptrs]; rfl
    | ok ptrs =>
      dsimp only
      by_cases hwide : size = .dword ∨ size = .qword
      · rw [if_pos hwide, storedAt_ok hptrs]
        rfl
      · rw [if_neg hwide]
        exact hloop

/-- A fault raised where no exception is pending is pending. -/
theorem pageFault_pending (hexc : cpu.context.hasException = false) (a : U64) (access : Access) :
    (cpuRaisePageFault cpu.context a access true).hasException = true := by
  have hclear : ({ cpu.context with
      controlRegs := Function.update cpu.context.controlRegs regCr2 a } : CpuContext).hasException =
        false := hexc
  unfold cpuRaisePageFault
  rw [raiseException_of_none hclear]
  rfl

/-- **Apart** a locked bit test does not end, or it faults at the byte that lies apart. -/
theorem run_executeLockedBtMemory_apart (hm : ManagerOk cpu.memory)
    (hexc : cpu.context.hasException = false) (hbt : operation ≠ .bt)
    (hload : cpu.loadAt (size.bits / 8) address = .ok value)
    (hapart : ¬ cpu.OneRun true address (size.bits / 8)) :
    ∃ j < size.bits / 8, (∀ i ≤ j, cpu.dataPtr true (address + BitVec.ofNat 64 i) ≠ none) ∧
      ∀ fuel, ((executeLockedBtMemory fuel operation address size bitIndex).run viewOp cpu).1 =
          none ∨
        ((executeLockedBtMemory fuel operation address size bitIndex).run viewOp cpu).2.context =
          cpuRaisePageFault cpu.context (address + BitVec.ofNat 64 j) .write true := by
  have hsize : 0 < size.bits / 8 := by
    have height := size.eight_le
    omega
  obtain ⟨j, hj, hgranted, hptr⟩ := run_getContiguousPtr_apart hm hexc hsize hapart
  refine ⟨j, hj, hgranted, fun fuel => ?_⟩
  have hfault := pageFault_pending hexc (address + BitVec.ofNat 64 j) .write
  let locked : CpuProgram (Option Unit) := do
    let value ← readMemoryOperand address size
    if ← cpuHasException then return some ()
    lockedBtLoop fuel operation address size bitIndex fuel (value &&& operandMask size)
  have hloop : (locked.run viewOp cpu).1 = none ∨ (locked.run viewOp cpu).2.context =
      cpuRaisePageFault cpu.context (address + BitVec.ofNat 64 j) .write true := by
    have hread : (readMemoryOperand address size).run viewOp cpu = (value, cpu) := by
      have hvalue := run_readStringValue hm hexc size.eight_le address
      rw [hload] at hvalue
      exact hvalue
    simp only [locked]
    rw [Program.run_bind, hread]
    dsimp only
    rw [Program.run_bind, run_cpuHasException, hexc]
    simp only [Bool.false_eq_true, if_false]
    cases fuel with
    | zero => exact Or.inl rfl
    | succ fuel =>
      unfold lockedBtLoop cpuAtomicCompareExchangeMemory getMemoryWritePtr
      rw [if_neg hbt, Program.run_bind, Program.run_bind]
      have hout := hptr (fuel + 1)
      generalize (cpuGetContiguousPtr address (size.bits / 8) true (fuel + 1)).run viewOp cpu = r
        at hout
      cases hout with
      | endless asked => exact Or.inl rfl
      | faulted asked =>
        right
        dsimp only
        rw [show ∀ c : Cpu, (pure (some (false, (0 : U64))) :
          CpuProgram (Option (Bool × U64))).run viewOp c = (some (false, 0), c) from fun _ => rfl]
        dsimp only
        rw [Program.run_bind, run_cpuHasException]
        dsimp only
        rw [show (cpuRaisePageFault cpu.context (address + BitVec.ofNat 64 j) (dataAccess true)
          true).hasException = true from hfault]
        rfl
  have hhost : (perform .isHostWritePassthrough).run viewOp cpu =
    (cpu.memory.hostWritePassthrough, cpu) := rfl
  unfold executeLockedBtMemory
  rw [Program.run_bind, hhost]
  cases cpu.memory.hostWritePassthrough with
  | false => exact hloop
  | true =>
    simp only [if_true]
    unfold lockedBtPassthrough getMemoryWritePtr
    rw [Program.run_bind, Program.run_bind]
    have hout := hptr fuel
    generalize (cpuGetContiguousPtr address (size.bits / 8) true fuel).run viewOp cpu = r at hout
    cases hout with
    | endless asked => exact Or.inl rfl
    | faulted asked => exact Or.inr rfl

end Locked

/-! ## The law -/

/-- The instruction without its `LOCK` prefix. -/
def BitTestInst.plain (inst : BitTestInst) : BitTestInst := { inst with hasLockPrefix := false }

/-- What a bit test should do: it tests a bit of a byte and changes this bit of memory only, or
it faults as a byte of the element cannot be accessed, with the memory as it was. -/
def BitTestEffect (cpu : Cpu) (inst : BitTestInst) (operation : BitTestOperation)
    (result : Option Unit × Cpu) : Prop :=
  result.1 = some () ∧
    ((result.2.context.hasException = true ∧ result.2.memory.host = cpu.memory.host ∧
        ∃ store, ∃ i < inst.operandSize.bits / 8,
          cpu.dataPtr store (inst.targetAddress cpu.context + BitVec.ofNat 64 i) = none) ∨
      ∃ p, cpu.dataPtr false (inst.testedByte cpu.context) = some p ∧
        result.2.context = setFlag cpu.context rflagsCf
          (((cpu.memory.host.read p).getD 0).getLsbD (inst.testedBit cpu.context)) ∧
        OnlyBit cpu.memory.host result.2.memory.host p operation (inst.testedBit cpu.context))

/-- A run ends in a state that the guest cannot tell from another one. -/
def EndsLike (result : Option Unit × Cpu) (cpu' : Cpu) : Prop :=
  result.1 = some () ∧ result.2.context = cpu'.context ∧
    result.2.memory.host = cpu'.memory.host

/-- A bit test of memory with the offset in a register does what it should, for an effective
address `offset` in a segment at `base`. -/
structure BitTestMeets (cpu : Cpu) (inst : BitTestInst) (operation : BitTestOperation)
    (base offset : U64) (addressSize : ℕ) : Prop where
  /-- The byte is at the effective address and the rounded-down offset, at the address size. -/
  byte : inst.testedByte cpu.context =
    byteAt base offset addressSize (inst.bitOffset cpu.context / 8)
  bit : (inst.testedBit cpu.context : ℤ) = inst.bitOffset cpu.context % 8
  /-- The bit of that byte is tested, and nothing else changes. -/
  effect : ∀ fuel,
    BitTestEffect cpu inst operation ((executeBtOperation fuel inst.plain).run cpuOp cpu)
  /-- The locked instruction ends as the plain one. -/
  locked : inst.hasLockPrefix = true → ∃ fuel,
    EndsLike ((executeBtOperation fuel inst).run cpuOp cpu)
      ((executeBtOperation 0 inst.plain).run cpuOp cpu).2

/-- No later byte of an element with the storage of the changed one. -/
def Unclobbered (cpu : Cpu) (inst : BitTestInst) (operation : BitTestOperation) : Prop :=
  ∀ ptrs,
    cpu.operandPtrs false (inst.targetAddress cpu.context) (inst.operandSize.bits / 8) 0 = .ok ptrs →
    cpu.operandPtrs true (inst.targetAddress cpu.context) (inst.operandSize.bits / 8) 0 = .ok ptrs →
    ¬ Clobbered cpu.memory.host ptrs operation (inst.bitIndex cpu.context)

/-- The bytes of an element that can be read lie behind one another. -/
def LockedInRun (cpu : Cpu) (inst : BitTestInst) : Prop :=
  (∃ value, cpu.loadAt (inst.operandSize.bits / 8) (inst.targetAddress cpu.context) = .ok value) →
    cpu.OneRun true (inst.targetAddress cpu.context) (inst.operandSize.bits / 8)

theorem rmValue_target (h : inst.InMemory) (cpu : Cpu) :
    cpu.rmValue (inst.target cpu.context) inst.operandSize =
      cpu.loadAt (inst.operandSize.bits / 8) (inst.targetAddress cpu.context) := by
  have hmemory := h.memory
  unfold BitTestInst.operand RmOperand.isRegister at hmemory
  unfold Cpu.rmValue BitTestInst.target RmOperand.isRegister
  rw [hmemory]
  rfl

theorem rmStored_target (h : inst.InMemory) (ctx : CpuContext) (cpu : Cpu) (value : U64) :
    cpu.rmStored (inst.target ctx) inst.operandSize value =
      cpu.storedAt (inst.operandSize.bits / 8) (inst.targetAddress ctx) value := by
  have hmemory := h.memory
  unfold BitTestInst.operand RmOperand.isRegister at hmemory
  unfold Cpu.rmStored BitTestInst.target RmOperand.isRegister
  rw [hmemory]
  rfl

/-- A refused operand has a byte that cannot be accessed. -/
theorem exists_refused {store : Bool} {address a : U64} {n : ℕ}
    (h : cpu.operandPtrs store address n 0 = .error a) :
    ∃ i < n, cpu.dataPtr store (address + BitVec.ofNat 64 i) = none := by
  by_contra hall
  push Not at hall
  obtain ⟨ptrs, hptrs⟩ := operandPtrs_iff.mpr hall
  rw [h] at hptrs
  cases hptrs

/-- The tested byte is one of the element. -/
theorem testedByte_ptr {store : Bool} {ptrs : List HostPtr}
    (hptrs : cpu.operandPtrs store (inst.targetAddress cpu.context) (inst.operandSize.bits / 8) 0 =
      .ok ptrs) :
    ∃ p, ptrs[inst.bitIndex cpu.context / 8]? = some p ∧
      cpu.dataPtr store (inst.testedByte cpu.context) = some p := by
  have hindex := btBitIndex_lt inst cpu.context
  have hk : inst.bitIndex cpu.context / 8 < inst.operandSize.bits / 8 := by
    rcases inst.bits_cases with hbits | hbits | hbits <;> omega
  have hbyte := operandPtrs_getElem _ hptrs _ hk
  have hlength := operandPtrs_length _ hptrs
  rw [List.getElem?_eq_getElem (by omega)] at hbyte ⊢
  refine ⟨_, rfl, ?_⟩
  rw [show (0 : U64) + BitVec.ofNat 64 (inst.bitIndex cpu.context / 8) =
    BitVec.ofNat 64 (inst.bitIndex cpu.context / 8) from BitVec.zero_add _] at hbyte
  exact hbyte

/-- **The effect** of a plain bit test is the right one, unless the byte is clobbered. -/
theorem bitTested_effect_iff (hexc : cpu.context.hasException = false) (h : inst.InMemory)
    (operation : BitTestOperation) :
    BitTestEffect cpu inst operation (some (), (transferred (cpu.bitTested inst operation)).2) ↔
      Unclobbered cpu inst operation := by
  have hlength : inst.operandSize.bits / 8 ≤ 8 := by
    have hle := inst.operandSize.le_sixtyFour
    omega
  unfold Cpu.bitTested Unclobbered
  rw [rmValue_target h]
  cases hread : cpu.operandPtrs false (inst.targetAddress cpu.context)
      (inst.operandSize.bits / 8) 0 with
  | error a =>
    have hload : cpu.loadAt (inst.operandSize.bits / 8) (inst.targetAddress cpu.context) =
        .error (cpu.refused false a) := by
      unfold Cpu.loadAt
      rw [hread]
    rw [hload]
    refine iff_of_true ⟨rfl, Or.inl ⟨?_, rfl, false, exists_refused hread⟩⟩ ?_
    · exact refused_hasException hexc (operandPtrs_error _ hread)
    · intro ptrs hptrs
      cases hptrs
  | ok ptrs =>
    obtain ⟨p, hp, hbyte⟩ := testedByte_ptr hread
    have hptrsLength := operandPtrs_length _ hread
    have hload : cpu.loadAt (inst.operandSize.bits / 8) (inst.targetAddress cpu.context) =
        .ok (loadValue cpu.memory.host ptrs) := loadAt_ok_iff.mpr ⟨ptrs, hread, rfl⟩
    -- the carry is the bit of the byte
    have hcarry : testBit (loadValue cpu.memory.host ptrs) (inst.bitIndex cpu.context) =
        ((cpu.memory.host.read p).getD 0).getLsbD (inst.testedBit cpu.context) := by
      rw [testBit_eq, byte_loadValue _ _ hp (by omega)]
      rfl
    rw [hload]
    show BitTestEffect cpu inst operation (some (), (transferred (if operation = .bt then .ok _
      else _)).2) ↔ _
    by_cases hbt : operation = .bt
    · subst hbt
      rw [if_pos rfl]
      refine iff_of_true ⟨rfl, Or.inr ⟨p, hbyte, ?_, ?_⟩⟩ ?_
      · rw [← hcarry]
        rfl
      · intro q
        show cpu.memory.host.read q = _
        split_ifs with hq
        · rw [hq]
          exact Option.map_id'.symm
        · rfl
      · rintro ptrs' - - ⟨_, byte, -, -, hchange, -⟩
        exact hchange rfl
    · rw [if_neg hbt, rmStored_target h]
      have hstore := operandPtrs_withCarry hexc
        (testBit (loadValue cpu.memory.host ptrs) (inst.bitIndex cpu.context)) true
        (inst.targetAddress cpu.context) (inst.operandSize.bits / 8) 0
      have hclear := withCarry_hasException hexc
        (testBit (loadValue cpu.memory.host ptrs) (inst.bitIndex cpu.context))
      -- a byte that may be read may still refuse the store
      cases hwrite : cpu.operandPtrs true (inst.targetAddress cpu.context)
          (inst.operandSize.bits / 8) 0 with
      | error a =>
        rw [hwrite] at hstore
        rw [storedAt_error hstore]
        refine iff_of_true ⟨rfl, Or.inl ⟨?_, rfl, true, exists_refused hwrite⟩⟩ ?_
        · exact refused_hasException hclear (operandPtrs_error _ hstore)
        · intro ptrs' _ hptrs'
          cases hptrs'
      | ok ptrs' =>
        obtain rfl := operandPtrs_alike _ hread hwrite
        rw [hwrite] at hstore
        rw [storedAt_ok hstore]
        have honly := onlyBit_iff cpu.memory.host (by omega : ptrs.length ≤ 8) operation hp
        constructor
        · rintro ⟨-, ⟨hpending, -⟩ | ⟨q, hq, -, hchanged⟩⟩
          · exact absurd hpending (Bool.eq_false_iff.mp hclear)
          · obtain rfl : q = p := Option.some.inj (hq.symm.trans hbyte)
            rintro ptrs' ⟨⟩ -
            exact honly.mp hchanged
        · intro hunclobbered
          refine ⟨rfl, Or.inr ⟨p, hbyte, ?_, honly.mpr (hunclobbered ptrs rfl rfl)⟩⟩
          rw [← hcarry]
          rfl

/-- The fault at a byte that lies apart is a page fault at its address. -/
theorem pageFault_code (hexc : cpu.context.hasException = false) (a : U64) (access : Access) :
    (cpuRaisePageFault cpu.context a access true).exception.code = cpuExceptionPf ∧
      (cpuRaisePageFault cpu.context a access true).controlRegs regCr2 = a := by
  have hclear : ({ cpu.context with
      controlRegs := Function.update cpu.context.controlRegs regCr2 a } : CpuContext).hasException =
        false := hexc
  unfold cpuRaisePageFault
  rw [raiseException_of_none hclear]
  exact ⟨rfl, Function.update_self regCr2 a cpu.context.controlRegs⟩

theorem oneRun_withCarry (hexc : cpu.context.hasException = false) (carry : Bool) (address : U64)
    (size : ℕ) : (cpu.withCarry carry).OneRun true address size ↔ cpu.OneRun true address size := by
  unfold Cpu.OneRun
  simp only [dataPtr_withCarry hexc]

/-- **The locked instruction** ends as the plain one exactly when the bytes of the element, if they
can be read, lie behind one another. -/
theorem locked_iff (hm : MemoryOk cpu.memory) (hexc : cpu.context.hasException = false)
    (h : inst.InMemory) {operation : BitTestOperation}
    (hdecode : decodeBtOperation inst.opcode inst.modrm = some operation)
    (hbt : operation ≠ .bt) (hlock : inst.hasLockPrefix = true) :
    (∃ fuel, EndsLike ((executeBtOperation fuel inst).run viewOp cpu)
      (transferred (cpu.bitTested inst operation)).2) ↔ LockedInRun cpu inst := by
  have hmemory : (inst.target cpu.context).isRegister = false := h.memory
  have hrun := fun fuel => run_executeBtOperation hm.manager hexc fuel hdecode
  unfold LockedInRun Cpu.bitTested
  rw [rmValue_target h] at hrun ⊢
  cases hload : cpu.loadAt (inst.operandSize.bits / 8) (inst.targetAddress cpu.context) with
  | error c =>
    rw [hload] at hrun
    refine iff_of_true ⟨0, ?_⟩ ?_
    · rw [hrun]
      exact ⟨rfl, rfl, rfl⟩
    · rintro ⟨value, hvalue⟩
      cases hvalue
  | ok value =>
    rw [hload] at hrun
    simp only [hlock, hmemory, Bool.not_false, Bool.and_self, if_true] at hrun
    have hclear := withCarry_hasException hexc (testBit value (inst.bitIndex cpu.context))
    have hreload : (cpu.withCarry (testBit value (inst.bitIndex cpu.context))).loadAt
        (inst.operandSize.bits / 8) (inst.targetAddress cpu.context) = .ok value := by
      obtain ⟨ptrs, hptrs, hvalue⟩ := loadAt_ok_iff.mp hload
      exact loadAt_ok_iff.mpr ⟨ptrs, (operandPtrs_withCarry hexc _ _ _ _ _).trans hptrs, hvalue⟩
    have hsame := oneRun_withCarry hexc (testBit value (inst.bitIndex cpu.context))
      (inst.targetAddress cpu.context) (inst.operandSize.bits / 8)
    show (∃ fuel, EndsLike _ (transferred (if operation = .bt then .ok _ else _)).2) ↔ _
    rw [if_neg hbt, rmStored_target h]
    constructor
    -- apart, the locked path does not end, or it faults at a byte that may be written
    · rintro ⟨fuel, hdone, hcontext, -⟩ -
      by_contra hapart
      obtain ⟨j, hj, hgranted, hout⟩ := @run_executeLockedBtMemory_apart
        (cpu.withCarry (testBit value (inst.bitIndex cpu.context))) operation _ value
        inst.operandSize (inst.bitIndex cpu.context) hm.manager hclear hbt hreload
        (mt hsame.mp hapart)
      rw [hrun] at hdone hcontext
      rcases hout fuel with hnone | hfault
      · rw [hnone] at hdone
        cases hdone
      obtain ⟨hcode, hcr2⟩ := pageFault_code hclear
        (inst.targetAddress cpu.context + BitVec.ofNat 64 j) .write
      rw [hfault] at hcontext
      cases hptrs : (cpu.withCarry (testBit value (inst.bitIndex cpu.context))).operandPtrs true
          (inst.targetAddress cpu.context) (inst.operandSize.bits / 8) 0 with
      | ok ptrs =>
        -- the plain instruction completes
        rw [storedAt_ok hptrs] at hcontext
        have hpending := pageFault_pending hclear
          (inst.targetAddress cpu.context + BitVec.ofNat 64 j) .write
        rw [hcontext] at hpending
        exact absurd hpending (Bool.eq_false_iff.mp hclear)
      | error a =>
        -- the plain instruction faults, but at another byte
        rw [storedAt_error hptrs] at hcontext
        have hrefused := operandPtrs_error _ hptrs
        have hkind := refused_fault hclear hrefused
        change _ = (Cpu.refused _ true a).context at hcontext
        rw [← hcontext, hcode, hcr2] at hkind
        split_ifs at hkind
        · exact absurd hkind.1 (by decide)
        · rw [← hkind.2] at hrefused
          exact hgranted j le_rfl hrefused
    · intro hone
      have hcarry : ∀ host, ((cpu.withCarry (testBit value (inst.bitIndex cpu.context))).setHost
          host).withCarry (testBit value (inst.bitIndex cpu.context)) =
            (cpu.withCarry (testBit value (inst.bitIndex cpu.context))).setHost host :=
        fun host => withCarry_withCarry hexc _ host
      refine ⟨1, ?_⟩
      have hlocked := @run_executeLockedBtMemory
        (cpu.withCarry (testBit value (inst.bitIndex cpu.context))) operation _ value
        inst.operandSize (inst.bitIndex cpu.context) hm.manager hclear hbt hreload hcarry
        (hsame.mpr (hone ⟨value, rfl⟩)) 0
      rw [hrun, hlocked]
      exact ⟨rfl, rfl, rfl⟩

/-- `BTS [RAX], ECX`, at the address that is given. -/
def btsInst (hasLockPrefix : Bool) (memAddress : U64) : BitTestInst where
  opcode := 0xAB
  modrm := 0x08
  operandSize := .dword
  memAddress := memAddress
  immediate := 0
  hasLockPrefix := hasLockPrefix
  wide := by decide

/-- `ECX` is -13, and the byte at 1002h is 80h. -/
def signedCpu : Cpu :=
  hostCpu { initCpuContext false with regs := fun reg => if reg = 1 then 0xFFFFFFF3 else 0 }
    fun address => if address = 0x1002 then 0x80 else 0

/-- `ECX` is -1, `EAX` is 0, and the last byte below 4 GiB is 80h. -/
def lastByteCpu : Cpu :=
  hostCpu { initCpuContext false with regs := fun reg => if reg = 1 then 0xFFFFFFFF else 0 }
    fun address => if address = 0xFFFFFFFF then 0x80 else 0

end Cpueaxh
