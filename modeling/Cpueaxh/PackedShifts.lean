/-
# Packed shifts

The shifts of all lanes by one count are those of the architecture.  The shifts of each lane by
a count of its own are so where the count is below the width of the lane, or where the masked
count shifts everything out as well.
-/
import Cpueaxh.PackedFamilies

namespace Cpueaxh

open ByteOrder PackedLanes

variable {w n : ℕ}

/-! ## By one count -/

section Shift

variable (x y : XMMRegister) (count : U64)

/-- A shift of the elements of one register. -/
theorem returns_shifted {c : ℕ} (hn : 0 < n) (hw : w = 8 * n) (hc : w * c = 128)
    (f g : BitVec w → BitVec w) (hfg : ∀ a, f a = g a) :
    ReturnsXmm (some (PackedStandard.eachFirst g)) x y
      (some (bytesToXmm (elements (128 / w) fun i => f (element w (xmmToBytes x) i)))) := by
  have hf : (fun a _ : BitVec w => f a) = fun a _ => g a := funext fun a => funext fun _ => hfg a
  have hbytes : elements (128 / w) (fun i => f (element w (xmmToBytes x) i)) =
      eachElement (fun a _ => f a) (xmmToBytes x) (xmmToBytes y) := rfl
  rw [hbytes]
  exact returns_each x y hn hw hc hf

theorem returns_shiftApply {c : ℕ} (hn : 0 < n) (hw : w = 8 * n) (hc : w * c = 128)
    (shifted : BitVec w → ℕ → BitVec w) (g : BitVec w → BitVec w)
    (hin : ∀ a, count.toNat < w → shifted a count.toNat = g a)
    (hout : ∀ a, ¬count.toNat < w → 0 = g a) :
    ReturnsXmm (some (PackedStandard.eachFirst g)) x y
      (some (bytesToXmm (sse2ShiftApply w shifted (xmmToBytes x) count))) := by
  have hlanes : 128 / w = c := Nat.div_eq_of_eq_mul_right (by omega) hc.symm
  have hsize : c * (w / 8) = 16 := by
    have hbytes : w / 8 = n := by omega
    rw [hw, Nat.mul_assoc] at hc
    rw [hbytes, Nat.mul_comm]
    omega
  unfold sse2ShiftApply
  by_cases hcut : w - 1 < count.toNat
  · have hzeros : List.replicate 16 0 = elements (128 / w) fun _ => (0 : BitVec w) := by
      rw [elements_zero, hlanes, hsize]
    rw [if_pos hcut, hzeros]
    exact returns_shifted x y hn hw hc (fun _ => 0) g fun a => hout a (by omega)
  · rw [if_neg hcut]
    exact returns_shifted x y hn hw hc (fun a => shifted a count.toNat) g fun a => hin a (by omega)

theorem returns_shiftLeft {c : ℕ} (hn : 0 < n) (hw : w = 8 * n) (hc : w * c = 128) :
    ReturnsXmm
      (some (PackedStandard.eachFirst fun a : BitVec w => PackedStandard.shiftLeft a count.toNat)) x y
      (some (bytesToXmm (sse2ShiftApply w (fun a k => a <<< k) (xmmToBytes x) count))) :=
  returns_shiftApply x y count hn hw hc _ _ (fun _ h => (if_pos h).symm) fun _ h => (if_neg h).symm

theorem returns_shiftRight {c : ℕ} (hn : 0 < n) (hw : w = 8 * n) (hc : w * c = 128) :
    ReturnsXmm
      (some (PackedStandard.eachFirst fun a : BitVec w => PackedStandard.shiftRight a count.toNat)) x y
      (some (bytesToXmm (sse2ShiftApply w (fun a k => a >>> k) (xmmToBytes x) count))) :=
  returns_shiftApply x y count hn hw hc _ _ (fun _ h => (if_pos h).symm) fun _ h => (if_neg h).symm

theorem returns_shiftSigned {c : ℕ} (hn : 0 < n) (hw : w = 8 * n) (hc : w * c = 128) :
    ReturnsXmm
      (some (PackedStandard.eachFirst fun a : BitVec w =>
        PackedStandard.shiftRightSigned a count.toNat)) x y
      (some (bytesToXmm (sse2ShiftApplySigned w (xmmToBytes x) count))) :=
  returns_shifted x y hn hw hc
    (fun a => a.sshiftRight (if w - 1 < count.toNat then w - 1 else count.toNat)) _
    fun a => sshiftRight_cutOff (by omega) a count.toNat

theorem element_eight (bytes : List U8) (i : ℕ) : element 8 bytes i = bytes.getD i 0 := by
  apply BitVec.eq_of_getLsbD_eq
  intro j hj
  have hdiv : i * (8 / 8) + j / 8 = i := by omega
  have hmod : j % 8 = j := by omega
  rw [element, getLsbD_field (n := 1) rfl, hdiv, hmod, decide_eq_true hj, Bool.true_and]

/-- A result whose bytes are known one by one. -/
theorem returns_byBytes (value : BitVec 128 → BitVec 128 → ℕ → U8) {bytes : List U8}
    (h : ∀ i < 16, bytes.getD i 0 = value x.bits y.bits i) :
    ReturnsXmm (some ⟨8, value⟩) x y (some (bytesToXmm bytes)) := by
  refine (gives_lanes_iff (Nat.succ_pos 7) (show 8 * 16 = 128 from rfl) _ _ _).mpr fun i hi => ?_
  rw [lane_bytesToXmm (n := 1) rfl bytes (by omega), element_eight, h i hi]

theorem getD_xmmToBytes {i : ℕ} (hi : i < 16) : (xmmToBytes x).getD i 0 = lane 8 x.bits i := by
  rw [← element_eight, element_byte x hi]

theorem returns_psrldq : ReturnsXmm (PackedStandard.shift 0x73 3 count.toNat) x y
    (some (bytesToXmm (sse2ShiftApplyPsrldq (xmmToBytes x) count))) := by
  refine returns_byBytes x y
    (fun x _ i => if i + count.toNat < 16 then lane 8 x (i + count.toNat) else 0) fun i hi => ?_
  have hlength : (xmmToBytes x).length = 16 := by rw [bytes_xmmToBytes, littleEndianBytes_length]
  unfold sse2ShiftApplyPsrldq
  split_ifs with hcut hinside hinside
  · omega
  · rw [List.getD_eq_getElem?_getD, List.getElem?_replicate, if_pos hi, Option.getD_some]
  · rw [List.getD_eq_getElem?_getD, List.getElem?_append_left (by rw [List.length_drop]; omega),
      List.getElem?_drop, ← List.getD_eq_getElem?_getD, getD_xmmToBytes x (by omega), Nat.add_comm]
  · rw [List.getD_eq_getElem?_getD, List.getElem?_append_right (by rw [List.length_drop]; omega),
      List.getElem?_replicate, List.length_drop, hlength]
    split_ifs <;> rfl

theorem returns_pslldq : ReturnsXmm (PackedStandard.shift 0x73 7 count.toNat) x y
    (some (bytesToXmm (sse2ShiftApplyPslldq (xmmToBytes x) count))) := by
  refine returns_byBytes x y
    (fun x _ i => if count.toNat ≤ i then lane 8 x (i - count.toNat) else 0) fun i hi => ?_
  have hlength : (xmmToBytes x).length = 16 := by rw [bytes_xmmToBytes, littleEndianBytes_length]
  unfold sse2ShiftApplyPslldq
  split_ifs with hcut hbehind hbehind
  · omega
  · rw [List.getD_eq_getElem?_getD, List.getElem?_replicate, if_pos hi, Option.getD_some]
  · rw [List.getD_eq_getElem?_getD, List.getElem?_append_right (by rw [List.length_replicate]; omega),
      List.length_replicate, List.getElem?_take_of_lt (by omega), ← List.getD_eq_getElem?_getD,
      getD_xmmToBytes x (by omega)]
  · rw [List.getD_eq_getElem?_getD, List.getElem?_append_left (by rw [List.length_replicate]; omega),
      List.getElem?_replicate]
    split_ifs <;> rfl

/-- **The shifts by one count** are those of the architecture for any count. -/
theorem returns_shift (opcode group : U8) :
    ReturnsXmm (PackedStandard.shift opcode.toNat group.toNat count.toNat) x y
      (applyAvxShift128 opcode group x count) := by
  unfold applyAvxShift128
  generalize opcode.toNat = k
  generalize group.toNat = g
  dsimp only
  split
  · split
    · exact returns_shiftRight x y count Nat.two_pos rfl (rfl : 16 * 8 = 128)
    · exact returns_shiftSigned x y count Nat.two_pos rfl (rfl : 16 * 8 = 128)
    · exact returns_shiftLeft x y count Nat.two_pos rfl (rfl : 16 * 8 = 128)
    · unfold PackedStandard.shift
      split
      all_goals first | contradiction | trivial
  · split
    · exact returns_shiftRight x y count (Nat.succ_pos 3) rfl (rfl : 32 * 4 = 128)
    · exact returns_shiftSigned x y count (Nat.succ_pos 3) rfl (rfl : 32 * 4 = 128)
    · exact returns_shiftLeft x y count (Nat.succ_pos 3) rfl (rfl : 32 * 4 = 128)
    · unfold PackedStandard.shift
      split
      all_goals first | contradiction | trivial
  · split
    · exact returns_shiftRight x y count (Nat.succ_pos 7) rfl (rfl : 64 * 2 = 128)
    · exact returns_psrldq x y count
    · exact returns_shiftLeft x y count (Nat.succ_pos 7) rfl (rfl : 64 * 2 = 128)
    · exact returns_pslldq x y count
    · unfold PackedStandard.shift
      split
      all_goals first | contradiction | trivial
  · exact returns_shiftRight x y count Nat.two_pos rfl (rfl : 16 * 8 = 128)
  · exact returns_shiftRight x y count (Nat.succ_pos 3) rfl (rfl : 32 * 4 = 128)
  · exact returns_shiftRight x y count (Nat.succ_pos 7) rfl (rfl : 64 * 2 = 128)
  · exact returns_shiftSigned x y count Nat.two_pos rfl (rfl : 16 * 8 = 128)
  · exact returns_shiftSigned x y count (Nat.succ_pos 3) rfl (rfl : 32 * 4 = 128)
  · exact returns_shiftLeft x y count Nat.two_pos rfl (rfl : 16 * 8 = 128)
  · exact returns_shiftLeft x y count (Nat.succ_pos 3) rfl (rfl : 32 * 4 = 128)
  · exact returns_shiftLeft x y count (Nat.succ_pos 7) rfl (rfl : 64 * 2 = 128)
  · unfold PackedStandard.shift
    split
    all_goals first | contradiction | trivial

end Shift

/-! ## By a count of its own -/

/-- A masked count leaves what the whole count leaves: it is the whole count, or it shifts the
value out as well. -/
def MaskKeeps (opcode : ℕ) (value count : BitVec w) : Prop :=
  count.toNat < w ∨
    match opcode with
    | 0x47 => 2 ^ (w - count.toNat % w) ∣ value.toNat
    | 0x45 => value.toNat < 2 ^ (count.toNat % w)
    | 0x46 => -2 ^ (count.toNat % w) ≤ value.toInt ∧ value.toInt < 2 ^ (count.toNat % w)
    | _ => True

/-- The three shifts of doublewords: each is that of the architecture where the mask keeps. -/
theorem shiftvarDword_spec (opcode : U8) :
    (∃ shifted g, shiftvarDword opcode = some shifted ∧
        (∀ m, PackedStandard.shiftVariableDword opcode.toNat =
          some (PackedStandard.each g : PackedStandard.LaneLaw m)) ∧
        ∀ value count, shifted value count = g value count ↔ MaskKeeps opcode.toNat value count) ∨
      shiftvarDword opcode = none ∧
        (∀ m, (PackedStandard.shiftVariableDword opcode.toNat : Option (PackedStandard.LaneLaw m)) =
          none) ∧
        ∀ value count : U32, MaskKeeps opcode.toNat value count := by
  unfold shiftvarDword
  generalize opcode.toNat = k
  split
  · refine Or.inl ⟨_, _, rfl, fun _ => rfl, fun value count => ?_⟩
    rw [toNat_and_mask (n := 5) count 0x1F rfl]
    exact shiftLeft_mod_iff (by decide) value count.toNat
  · refine Or.inl ⟨_, _, rfl, fun _ => rfl, fun value count => ?_⟩
    rw [toNat_and_mask (n := 5) count 0x1F rfl]
    exact shiftRight_mod_iff value count.toNat
  · refine Or.inl ⟨_, _, rfl, fun _ => rfl, fun value count => ?_⟩
    rw [toNat_and_mask (n := 5) count 0x1F rfl]
    exact shiftRightSigned_mod_iff (by decide) value count.toNat
  · refine Or.inr ⟨rfl, fun m => ?_, fun value count => Or.inr ?_⟩
    · unfold PackedStandard.shiftVariableDword
      split
      all_goals first | contradiction | rfl
    · split
      all_goals first | contradiction | trivial

theorem shiftvarQword_spec (opcode : U8) :
    (∃ shifted g, shiftvarQword opcode = some shifted ∧
        (∀ m, PackedStandard.shiftVariableQword opcode.toNat =
          some (PackedStandard.each g : PackedStandard.LaneLaw m)) ∧
        opcode.toNat ≠ 0x46 ∧
        ∀ value count, shifted value count = g value count ↔ MaskKeeps opcode.toNat value count) ∨
      shiftvarQword opcode = none ∧
        (∀ m, (PackedStandard.shiftVariableQword opcode.toNat : Option (PackedStandard.LaneLaw m)) =
          none) ∧
        (opcode.toNat ≠ 0x46 → ∀ value count : U64, MaskKeeps opcode.toNat value count) := by
  unfold shiftvarQword
  generalize opcode.toNat = k
  split
  · refine Or.inl ⟨_, _, rfl, fun _ => rfl, by decide, fun value count => ?_⟩
    rw [toNat_and_mask (n := 6) count 0x3F rfl]
    exact shiftLeft_mod_iff (by decide) value count.toNat
  · refine Or.inl ⟨_, _, rfl, fun _ => rfl, by decide, fun value count => ?_⟩
    rw [toNat_and_mask (n := 6) count 0x3F rfl]
    exact shiftRight_mod_iff value count.toNat
  · refine Or.inr ⟨rfl, fun m => ?_, fun h value count => Or.inr ?_⟩
    · unfold PackedStandard.shiftVariableQword
      split
      all_goals first | contradiction | rfl
    · split
      all_goals first | contradiction | trivial

/-- A register whose lanes were shifted. -/
theorem gives_shifted_iff {V : Type} {m : ℕ} {lanes : Lanes V w} {bits : V → BitVec m}
    (h : ReadsLanes lanes bits) {shifted g : BitVec w → BitVec w → BitVec w} {opcode : ℕ}
    (hkeeps : ∀ value count, shifted value count = g value count ↔ MaskKeeps opcode value count)
    (x y r : V) (hr : ∀ i < lanes.count, lanes.get r i = shifted (lanes.get x i) (lanes.get y i)) :
    (PackedStandard.each g).Gives (bits x) (bits y) (bits r) ↔
      ∀ i < lanes.count, MaskKeeps opcode (lane w (bits x) i) (lane w (bits y) i) := by
  refine (gives_reads_iff h (bits x) (bits y) r).trans ?_
  refine forall_congr' fun i => forall_congr' fun hi => ?_
  rw [hr i hi, h.get_eq x i hi, h.get_eq y i hi]
  exact hkeeps _ _

/-- **The shifts of doublewords by counts of their own**, in 128 bits. -/
theorem returns_shiftvarDword128_iff (opcode : U8) (x y : XMMRegister) :
    ReturnsXmm (PackedStandard.shiftVariableDword opcode.toNat) x y
        (applyAvx2ShiftvarDword128 opcode x y) ↔
      ∀ i < 4, MaskKeeps opcode.toNat (lane 32 x.bits i) (lane 32 y.bits i) := by
  unfold applyAvx2ShiftvarDword128
  rcases shiftvarDword_spec opcode with ⟨shifted, g, hcode, hlaw, hkeeps⟩ | ⟨hcode, hlaw, hkeeps⟩
  · rw [hcode, hlaw]
    exact gives_shifted_iff readsLanes_xmm hkeeps x y _ (get_filled xmmLanes _ .zero)
  · rw [hcode, hlaw]
    exact iff_of_true trivial fun i _ => hkeeps _ _

/-- In 256 bits. -/
theorem returns_shiftvarDword256_iff (opcode : U8) (x y : AVXRegister256) :
    PackedStandard.Returns (PackedStandard.shiftVariableDword opcode.toNat) x.bits y.bits
        ((applyAvx2ShiftvarDword256 opcode x y).map AVXRegister256.bits) ↔
      ∀ i < 8, MaskKeeps opcode.toNat (lane 32 x.bits i) (lane 32 y.bits i) := by
  unfold applyAvx2ShiftvarDword256
  rcases shiftvarDword_spec opcode with ⟨shifted, g, hcode, hlaw, hkeeps⟩ | ⟨hcode, hlaw, hkeeps⟩
  · rw [hcode, hlaw]
    exact gives_shifted_iff readsLanes_ymm hkeeps x y _ (get_filled ymmLanes _ .zero)
  · rw [hcode, hlaw]
    exact iff_of_true trivial fun i _ => hkeeps _ _

/-- **The shifts of quadwords by counts of their own**, in 128 bits; there is none with a sign. -/
theorem returns_shiftvarQword128_iff (opcode : U8) (x y : XMMRegister) :
    ReturnsXmm (PackedStandard.shiftVariableQword opcode.toNat) x y
        (applyAvx2ShiftvarQword128 opcode x y) ↔
      (opcode.toNat ≠ 0x46 →
        ∀ i < 2, MaskKeeps opcode.toNat (lane 64 x.bits i) (lane 64 y.bits i)) := by
  unfold applyAvx2ShiftvarQword128
  rcases shiftvarQword_spec opcode with ⟨shifted, g, hcode, hlaw, hne, hkeeps⟩ | ⟨hcode, hlaw, hkeeps⟩
  · rw [hcode, hlaw]
    refine (gives_shifted_iff readsLanes_xmmPd hkeeps x y _ fun i hi => ?_).trans ?_
    · match i, hi with
      | 0, _ => rfl
      | 1, _ => rfl
    · exact ⟨fun h _ => h, fun h => h hne⟩
  · rw [hcode, hlaw]
    exact iff_of_true trivial fun hne i _ => hkeeps hne _ _

/-- In 256 bits. -/
theorem returns_shiftvarQword256_iff (opcode : U8) (x y : AVXRegister256) :
    PackedStandard.Returns (PackedStandard.shiftVariableQword opcode.toNat) x.bits y.bits
        ((applyAvx2ShiftvarQword256 opcode x y).map AVXRegister256.bits) ↔
      (opcode.toNat ≠ 0x46 →
        ∀ i < 4, MaskKeeps opcode.toNat (lane 64 x.bits i) (lane 64 y.bits i)) := by
  unfold applyAvx2ShiftvarQword256
  rcases shiftvarQword_spec opcode with ⟨shifted, g, hcode, hlaw, hne, hkeeps⟩ | ⟨hcode, hlaw, hkeeps⟩
  · rw [hcode, hlaw]
    refine (gives_shifted_iff readsLanes_ymmPd hkeeps x y _ fun i hi => ?_).trans ?_
    · match i, hi with
      | 0, _ => rfl
      | 1, _ => rfl
      | 2, _ => rfl
      | 3, _ => rfl
    · exact ⟨fun h _ => h, fun h => h hne⟩
  · rw [hcode, hlaw]
    exact iff_of_true trivial fun hne i _ => hkeeps hne _ _

end Cpueaxh
