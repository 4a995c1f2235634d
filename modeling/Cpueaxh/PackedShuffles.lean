/-
# Shuffles and blends

The operations that rearrange the lanes of registers, or choose between those of two.
-/
import Cpueaxh.PackedFamilies
import Cpueaxh.SubtractionFlags

namespace Cpueaxh

open ByteOrder PackedLanes

variable {w m : ℕ}

/-! ## Controls -/

theorem shuffleSelector_eq (imm8 : U8) (i : ℕ) :
    shuffleSelector imm8 i = PackedStandard.chosen imm8.toNat i := by
  have hpow : (2 : ℕ) ^ (i * 2) = 4 ^ i := by rw [Nat.mul_comm, Nat.pow_mul]
  rw [shuffleSelector, toNat_and_mask (n := 2) _ _ rfl, BitVec.toNat_ushiftRight,
    Nat.shiftRight_eq_div_pow, hpow]
  rfl

theorem chosen_lt (control i : ℕ) : PackedStandard.chosen control i < 4 := Nat.mod_lt _ (by decide)

theorem useRhs_eq (imm8 : U8) {i : ℕ} (hi : i < 32) : useRhs imm8 i = imm8.toNat.testBit i := by
  have hbit : (1 : U32) <<< i = BitVec.twoPow 32 i := (BitVec.twoPow_eq 32 i).symm
  rw [useRhs, hbit, SubtractionFlags.and_twoPow_ne_zero _ hi, BitVec.getLsbD_setWidth,
    decide_eq_true hi, Bool.true_and]
  rfl

theorem signBit_eq (byte : U8) : (byte &&& 0x80 != 0) = byte.msb :=
  SubtractionFlags.and_intMin_ne_zero byte (by decide)

/-! ## Bytes -/

theorem returns_pshufb (x y : XMMRegister) :
    ReturnsXmm (some PackedStandard.pshufb) x y (some (applyAvx2Pshufb128 x y)) := by
  refine returns_elements Nat.one_pos rfl (rfl : 8 * 16 = 128) x y _ fun i hi => ?_
  have hselector := toNat_and_mask (n := 4) (lane 8 y.bits i) 0x0F rfl
  have hplace : (lane 8 y.bits i).toNat % 2 ^ 4 < 16 := Nat.mod_lt _ (by decide)
  rw [element_byte y hi]
  show (if (lane 8 y.bits i &&& 0x80 != 0) = true then 0
    else element 8 (xmmToBytes x) (lane 8 y.bits i &&& 0x0F).toNat) = _
  rw [signBit_eq, hselector, element_byte x hplace]
  rfl

theorem returns_palignr (imm8 : U8) (x y : XMMRegister) :
    ReturnsXmm (some (PackedStandard.palignr imm8.toNat)) x y
      (some (applyAvx2Palignr128 x y imm8)) := by
  have hlength : (xmmToBytes y).length = 16 := by rw [bytes_xmmToBytes, littleEndianBytes_length]
  refine returns_elements Nat.one_pos rfl (rfl : 8 * 16 = 128) x y _ fun i hi => ?_
  show _ = if imm8.toNat + i < 16 then lane 8 y.bits (imm8.toNat + i)
    else if imm8.toNat + i < 32 then lane 8 x.bits (imm8.toNat + i - 16) else 0
  by_cases hsecond : imm8.toNat + i < 16
  · rw [if_pos (by omega), if_pos hsecond, element_append_left (by rw [hlength]; omega),
      element_byte y hsecond]
  · rw [if_neg hsecond]
    split_ifs with hfirst
    · have hback : 16 + (imm8.toNat + i - 16) = imm8.toNat + i := by omega
      have hbehind := @element_append_right 8 (xmmToBytes y) (xmmToBytes x) (imm8.toNat + i - 16) 16
        hlength
      rw [hback] at hbehind
      rw [hbehind, element_byte x (by omega)]
    · rfl

/-! ## Doublewords, words and quadwords -/

theorem returns_pshufd (imm8 : U8) (x y : XMMRegister) :
    ReturnsXmm (some (PackedStandard.pshufd imm8.toNat)) x y (some (applyAvxPshufd128 y imm8)) := by
  refine (gives_fill_iff readsLanes_xmm _ _ _ .zero).mpr fun i _ => ?_
  rw [shuffleSelector_eq, readsLanes_xmm.get_eq y _ (chosen_lt _ _)]

theorem returns_pshufhw (imm8 : U8) (x y : XMMRegister) :
    ReturnsXmm (some (PackedStandard.pshufhw imm8.toNat)) x y
      (some (applySse2Pshufhw128 y imm8)) := by
  refine (gives_reads_iff readsLanes_xmmWord _ _ _).mpr fun i hi => ?_
  have hi' : i < 8 := hi
  have hchosen := chosen_lt imm8.toNat (i - 4)
  refine (xmmWordLanes.get_fill _ _ 4 4 _ (Nat.le_refl 8) hi).trans ?_
  by_cases hlow : i < 4
  · rw [if_neg (by omega), if_pos hlow, readsLanes_xmmWord.get_eq y i hi]
  · rw [if_pos ⟨by omega, rfl⟩, if_neg hlow, shuffleSelector_eq,
      readsLanes_xmmWord.get_eq y _ (show _ < 8 by omega)]

theorem returns_pshuflw (imm8 : U8) (x y : XMMRegister) :
    ReturnsXmm (some (PackedStandard.pshuflw imm8.toNat)) x y
      (some (applySse2Pshuflw128 y imm8)) := by
  refine (gives_reads_iff readsLanes_xmmWord _ _ _).mpr fun i hi => ?_
  have hchosen := chosen_lt imm8.toNat i
  have hcount : 0 + 4 ≤ xmmWordLanes.count := show 0 + 4 ≤ 8 by decide
  refine (xmmWordLanes.get_fill _ _ 4 0 _ hcount hi).trans ?_
  by_cases hlow : i < 4
  · rw [if_pos ⟨by omega, rfl⟩, if_pos hlow, shuffleSelector_eq,
      readsLanes_xmmWord.get_eq y _ (show _ < 8 by omega)]
  · rw [if_neg (by omega), if_neg hlow, readsLanes_xmmWord.get_eq y i hi]

/-! ## Blends -/

section Blend

variable {V : Type} {lanes : Lanes V w} {bits : V → BitVec m}

/-- A blend by a choice for each lane. -/
theorem gives_choice (h : ReadsLanes lanes bits) (x y zero : V) (choice : ℕ → Bool)
    (chosen : BitVec m → BitVec m → ℕ → BitVec w)
    (hchosen : ∀ i < lanes.count, chosen (bits x) (bits y) i =
      if choice i then lane w (bits y) i else lane w (bits x) i) :
    PackedStandard.LaneLaw.Gives ⟨w, chosen⟩ (bits x) (bits y) (bits (lanes.fill (fun _ => true)
      (fun i => if choice i then lanes.get y i else lanes.get x i) lanes.count 0 zero)) := by
  refine (gives_fill_iff h _ _ _ zero).mpr fun i hi => ?_
  rw [h.get_eq x i hi, h.get_eq y i hi, hchosen i hi]

end Blend

theorem returns_blendd128 (imm8 : U8) (x y : XMMRegister) :
    ReturnsXmm (some (PackedStandard.blend 32 imm8.toNat)) x y
      (some (applyAvxBlendPs128 x y imm8)) := by
  refine gives_choice readsLanes_xmm x y .zero (useRhs imm8) _ fun i hi => ?_
  have hi' : i < 4 := hi
  rw [useRhs_eq imm8 (by omega)]

theorem returns_blendd256 (imm8 : U8) (x y : AVXRegister256) :
    PackedStandard.Returns (some (PackedStandard.blend 32 imm8.toNat)) x.bits y.bits
      (some (applyAvxBlendPs256 x y imm8).bits) := by
  refine gives_choice readsLanes_ymm x y .zero (useRhs imm8) _ fun i hi => ?_
  have hi' : i < 8 := hi
  rw [useRhs_eq imm8 (by omega)]

theorem returns_blendw128 (imm8 : U8) (x y : XMMRegister) :
    ReturnsXmm (some (PackedStandard.blend 16 imm8.toNat)) x y
      (some (applyAvx2Blendw128 x y imm8)) := by
  refine gives_choice readsLanes_xmmWord x y .zero (useRhs imm8) _ fun i hi => ?_
  have hi' : i < 8 := hi
  rw [useRhs_eq imm8 (by omega)]

/-- The bits of the control choose in each half. -/
theorem returns_blendw256 (imm8 : U8) (x y : AVXRegister256) :
    PackedStandard.Returns (some (PackedStandard.halves (PackedStandard.blend 16 imm8.toNat)))
      x.bits y.bits (some (applyAvx2Blendw256 x y imm8).bits) := by
  refine gives_choice readsLanes_ymmWord x y .zero (fun i => useRhs imm8 (i &&& 0x07)) _ fun i hi => ?_
  have hi' : i < 16 := hi
  have hmod : i &&& 0x07 = i % 8 := Nat.and_two_pow_sub_one_eq_mod i 3
  have hlane : ∀ (z : BitVec 256) (k j : ℕ), j < 8 →
      lane 16 (lane 128 z k) j = lane 16 z (8 * k + j) :=
    fun z k j hj => lane_lane (show 16 * 8 = 128 from rfl) hj z k
  have hvalue := @halves_value (PackedStandard.blend 16 imm8.toNat) (Nat.succ_pos 15) 8 rfl
    x.bits y.bits
  rw [useRhs_eq imm8 (by omega), hmod]
  by_cases hlow : i < 8
  · refine ((hvalue i).1 hlow).trans ?_
    show (if imm8.toNat.testBit i then lane 16 (lane 128 y.bits 0) i
      else lane 16 (lane 128 x.bits 0) i) = _
    rw [hlane y.bits 0 i hlow, hlane x.bits 0 i hlow, Nat.mod_eq_of_lt hlow, Nat.mul_zero,
      Nat.zero_add]
  · obtain ⟨k, rfl⟩ : ∃ k, i = 8 + k := ⟨i - 8, by omega⟩
    have hrest : (8 + k) % 8 = k := by omega
    refine (hvalue k).2.trans ?_
    show (if imm8.toNat.testBit k then lane 16 (lane 128 y.bits 1) k
      else lane 16 (lane 128 x.bits 1) k) = _
    rw [hlane y.bits 1 k (by omega), hlane x.bits 1 k (by omega), Nat.mul_one, hrest]

theorem returns_blendvb128 (mask : AVXRegister256) (x y : XMMRegister) :
    ReturnsXmm (some (PackedStandard.blendVariable mask.low.bits)) x y
      (some (applyAvx2Blendvb128 x y mask.low)) := by
  refine gives_choice readsLanes_xmmByte x y .zero
    (fun i => xmmByteLanes.get mask.low i &&& 0x80 != 0) _ fun i hi => ?_
  rw [signBit_eq, readsLanes_xmmByte.get_eq mask.low i hi]

theorem returns_blendvb256 (mask x y : AVXRegister256) :
    PackedStandard.Returns (some (PackedStandard.blendVariable mask.bits)) x.bits y.bits
      (some (applyAvx2Blendvb256 x y mask).bits) := by
  refine gives_choice readsLanes_ymmByte x y .zero
    (fun i => ymmByteLanes.get mask i &&& 0x80 != 0) _ fun i hi => ?_
  rw [signBit_eq, readsLanes_ymmByte.get_eq mask i hi]

/-! ## Permutations -/

theorem returns_permd (x y : AVXRegister256) :
    PackedStandard.Returns (some PackedStandard.permd) x.bits y.bits
      (some (applyAvx2Perm32x8 y x).bits) := by
  refine (gives_fill_iff readsLanes_ymm _ _ _ .zero).mpr fun i hi => ?_
  have hplace : (lane 32 x.bits i).toNat % 2 ^ 3 < 8 := Nat.mod_lt _ (by decide)
  rw [readsLanes_ymm.get_eq x i hi, toNat_and_mask (n := 3) _ _ rfl,
    readsLanes_ymm.get_eq y _ hplace]
  rfl

theorem returns_permq (imm8 : U8) (x y : AVXRegister256) :
    PackedStandard.Returns (some (PackedStandard.permq imm8.toNat)) x.bits y.bits
      (some (applyAvx2Permq256 y imm8).bits) := by
  refine (gives_fill_iff readsLanes_ymmPd _ _ _ .zero).mpr fun i _ => ?_
  rw [shuffleSelector_eq, readsLanes_ymmPd.get_eq y _ (chosen_lt _ _)]

/-- A half that two bits of a control select. -/
theorem selectLane_eq (x y : AVXRegister256) {selector : U8} {control : ℕ}
    (hselector : selector.toNat = control % 4) : (selectLane x y selector).bits =
      if control.testBit 1 then lane 128 y.bits (control % 2)
      else lane 128 x.bits (control % 2) := by
  have hfield : (selector &&& 0x03).toNat = control % 4 := by
    rw [toNat_and_mask (n := 2) selector 0x03 rfl, hselector]
    exact Nat.mod_mod control 4
  have hbit : control.testBit 1 = decide (control / 2 % 2 = 1) := by
    rw [Nat.testBit_succ, Nat.testBit_zero]
  unfold selectLane
  rw [hfield, hbit]
  have hcases : control % 4 = 0 ∨ control % 4 = 1 ∨ control % 4 = 2 ∨ control % 4 = 3 := by omega
  rcases hcases with h | h | h | h
  · rw [h, show control % 2 = 0 by omega, show control / 2 % 2 = 0 by omega]
    exact (lane_low x).symm
  · rw [h, show control % 2 = 1 by omega, show control / 2 % 2 = 0 by omega]
    exact (lane_high x).symm
  · rw [h, show control % 2 = 0 by omega, show control / 2 % 2 = 1 by omega]
    exact (lane_low y).symm
  · rw [h, show control % 2 = 1 by omega, show control / 2 % 2 = 1 by omega]
    exact (lane_high y).symm

/-- A half of `VPERM2I128`, which a third bit clears. -/
theorem clearedLane_eq (x y : AVXRegister256) {clear : Bool} {selector : U8} {control : ℕ}
    (hclear : clear = control.testBit 3) (hselector : selector.toNat = control % 4) :
    (if clear then .zero else selectLane x y selector).bits =
      if control.testBit 3 then 0
      else if control.testBit 1 then lane 128 y.bits (control % 2)
      else lane 128 x.bits (control % 2) := by
  subst hclear
  by_cases h : control.testBit 3 = true
  · rw [if_pos h, if_pos h]
    rfl
  · rw [if_neg h, if_neg h]
    exact selectLane_eq x y hselector

theorem returns_perm2i128 (imm8 : U8) (x y : AVXRegister256) :
    PackedStandard.Returns (some (PackedStandard.perm2i128 imm8.toNat)) x.bits y.bits
      (some (applyAvxPerm2f128256 x y imm8).bits) := by
  refine (gives_lanes_iff (l := PackedStandard.perm2i128 imm8.toNat) (Nat.succ_pos 127)
    (show 128 * 2 = 256 from rfl) _ _ _).mpr fun i hi => ?_
  obtain rfl | rfl : i = 0 ∨ i = 1 := by omega
  · have hcontrol : imm8.toNat / 16 ^ 0 = imm8.toNat := Nat.div_one _
    have hclear : (imm8 &&& 0x08 != 0) = imm8.toNat.testBit 3 :=
      SubtractionFlags.and_twoPow_ne_zero imm8 (i := 3) (by decide)
    have hhalf := clearedLane_eq x y hclear (toNat_and_mask (n := 2) imm8 0x03 rfl)
    rw [← hcontrol] at hhalf
    exact (lane_low _).trans hhalf
  · have hcontrol : imm8.toNat / 16 ^ 1 = imm8.toNat / 2 ^ 4 := rfl
    have hclear : (imm8 &&& 0x80 != 0) = (imm8.toNat / 2 ^ 4).testBit 3 := by
      rw [Nat.testBit_div_two_pow]
      exact SubtractionFlags.and_twoPow_ne_zero imm8 (i := 7) (by decide)
    have hselector : (imm8 >>> 4 &&& 0x03).toNat = imm8.toNat / 2 ^ 4 % 4 := by
      refine (toNat_and_mask (n := 2) _ 0x03 rfl).trans ?_
      rw [BitVec.toNat_ushiftRight, Nat.shiftRight_eq_div_pow]
      rfl
    have hhalf := clearedLane_eq x y hclear hselector
    rw [← hcontrol] at hhalf
    exact (lane_high _).trans hhalf

/-! ## Broadcasts -/

/-- The lanes of a word in all quarters of a register. -/
theorem lane_fourWords (count : ℕ) (hcount : w * count = 64) {pattern : U64} {value : BitVec w}
    (hlanes : ∀ i < count, lane w pattern i = value) :
    ∀ i < count * 4, lane w (fourWords pattern).bits i = value := by
  intro i hi
  have hpos : 0 < count := by
    rcases Nat.eq_zero_or_pos count with rfl | hpos
    · omega
    · exact hpos
  have hquarter : i / count < 4 := Nat.div_lt_of_lt_mul hi
  have hplace : i % count < count := Nat.mod_lt _ hpos
  have hword : lane 64 (fourWords pattern).bits (i / count) = pattern := by
    rw [← readsLanes_ymmPd.get_eq (fourWords pattern) (i / count) hquarter]
    generalize i / count = k at hquarter
    obtain rfl | rfl | rfl | rfl : k = 0 ∨ k = 1 ∨ k = 2 ∨ k = 3 := by omega
    all_goals rfl
  have hlane := lane_lane hcount hplace (fourWords pattern).bits (i / count)
  rw [hword, hlanes _ hplace, Nat.div_add_mod] at hlane
  exact hlane.symm

/-- A byte in all bytes of a word. -/
theorem lane_byteWord : ∀ value : U8, ∀ i < 8,
    lane 8 ((0x0101010101010101 : U64) * value.setWidth 64) i = value := by decide +kernel

/-- Sixteen bits in all quarters of a word. -/
theorem lane_wordWord (value : U16) : ∀ i < 4, lane 16
    ((value.setWidth 64 ||| value.setWidth 64 <<< 16) |||
      (value.setWidth 64 ||| value.setWidth 64 <<< 16) <<< 32 : U64) i = value := by
  intro i hi
  apply BitVec.eq_of_getLsbD_eq
  intro j hj
  have hbeyond : ∀ k, 16 ≤ k → value.getLsbD k = false := fun k hk => BitVec.getLsbD_of_ge _ _ hk
  rw [lane, BitVec.getLsbD_extractLsb', decide_eq_true hj, Bool.true_and]
  simp only [BitVec.getLsbD_or, BitVec.getLsbD_shiftLeft, BitVec.getLsbD_setWidth]
  obtain rfl | rfl | rfl | rfl : i = 0 ∨ i = 1 ∨ i = 2 ∨ i = 3 := by omega
  all_goals grind

/-- The lowest lane of a register is in its low word. -/
theorem lane_lowest (hw : w ≤ 64) (src : XMMRegister) :
    lane w src.bits 0 = src.low.setWidth w := by
  apply BitVec.eq_of_getLsbD_eq
  intro j hj
  rw [lane, BitVec.getLsbD_extractLsb', decide_eq_true hj, Bool.true_and, Nat.mul_zero,
    Nat.zero_add, XMMRegister.bits, BitVec.getLsbD_append, if_pos (by omega),
    BitVec.getLsbD_setWidth, decide_eq_true hj, Bool.true_and]

/-- A broadcast has one lane of its source in all of its lanes. -/
theorem avx2Broadcast_cases (opcode : U8) (src : XMMRegister) :
    (avx2Broadcast opcode src = none ∧
      ∀ m, (PackedStandard.broadcast opcode.toNat : Option (PackedStandard.LaneLaw m)) = none) ∨
    ∃ r w count, avx2Broadcast opcode src = some r ∧ 0 < w ∧ w * count = 128 ∧
      (∀ m, (PackedStandard.broadcast opcode.toNat : Option (PackedStandard.LaneLaw m)) =
        some (PackedStandard.lowest w)) ∧
      ∀ i < count + count, lane w r.bits i = lane w src.bits 0 := by
  unfold avx2Broadcast
  generalize opcode.toNat = k
  split
  · refine Or.inr ⟨_, 32, 4, rfl, by decide, rfl, fun m => rfl, fun i hi => ?_⟩
    rw [← readsLanes_ymm.get_eq _ i hi, ← getXmmLaneBits_eq src (by decide)]
    exact get_filled ymmLanes _ _ i hi
  · refine Or.inr ⟨_, 64, 2, rfl, by decide, rfl, fun m => rfl, ?_⟩
    refine lane_fourWords 1 rfl fun i hi => ?_
    obtain rfl : i = 0 := by omega
    rw [(lane_word src).1]
    exact BitVec.extractLsb'_eq_self
  · refine Or.inr ⟨_, 8, 16, rfl, by decide, rfl, fun m => rfl, ?_⟩
    have hbyte : (src.low &&& 0xFF).setWidth 8 = lane 8 src.bits 0 := by
      rw [lane_lowest (by decide), BitVec.setWidth_and]
      exact BitVec.and_allOnes
    rw [← hbyte]
    exact lane_fourWords 8 rfl (lane_byteWord _)
  · refine Or.inr ⟨_, 16, 8, rfl, by decide, rfl, fun m => rfl, ?_⟩
    have hword : (src.low &&& 0xFFFF).setWidth 16 = lane 16 src.bits 0 := by
      rw [lane_lowest (by decide), BitVec.setWidth_and]
      exact BitVec.and_allOnes
    rw [← hword]
    exact lane_fourWords 4 rfl (lane_wordWord _)
  · refine Or.inl ⟨rfl, fun m => ?_⟩
    unfold PackedStandard.broadcast
    split
    all_goals first | contradiction | rfl

theorem returns_broadcast256 (opcode : U8) (x y : AVXRegister256) :
    PackedStandard.Returns (PackedStandard.broadcast opcode.toNat) x.bits y.bits
      ((avx2Broadcast opcode y.low).map AVXRegister256.bits) := by
  rcases avx2Broadcast_cases opcode y.low with ⟨hcode, hlaw⟩ |
    ⟨r, w, count, hcode, hpos, hcount, hlaw, hlanes⟩
  · rw [hcode, hlaw]
    trivial
  · rw [hcode, hlaw]
    have hfills : w * (count + count) = 256 := by rw [Nat.mul_add, hcount]
    have hcount' : 0 < count := by
      rcases Nat.eq_zero_or_pos count with rfl | h
      · omega
      · exact h
    refine (gives_lanes_iff (l := PackedStandard.lowest w) hpos hfills _ _ _).mpr fun i hi => ?_
    exact (hlanes i hi).trans (lane_of_low hcount hcount' y).symm

/-- The VEX.128 form leaves the low half. -/
theorem returns_broadcast128 (opcode : U8) (x y : XMMRegister) :
    ReturnsXmm (PackedStandard.broadcast opcode.toNat) x y
      ((avx2Broadcast opcode y).map AVXRegister256.low) := by
  rcases avx2Broadcast_cases opcode y with ⟨hcode, hlaw⟩ |
    ⟨r, w, count, hcode, hpos, hcount, hlaw, hlanes⟩
  · unfold ReturnsXmm
    rw [hcode, hlaw]
    trivial
  · unfold ReturnsXmm
    rw [hcode, hlaw]
    refine (gives_lanes_iff (l := PackedStandard.lowest w) hpos hcount _ _ _).mpr fun i hi => ?_
    exact (lane_of_low hcount hi r).symm.trans (hlanes i (by omega))

end Cpueaxh
