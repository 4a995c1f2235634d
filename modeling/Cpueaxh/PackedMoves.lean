/-
# Moves, distances and the least word

The operations whose lanes come from other places of a register: the moves that extend their
elements, the sums of differences, and the least word with its place.
-/
import Cpueaxh.PackedFamilies

namespace Cpueaxh

open ByteOrder PackedLanes

variable {w v n m : ℕ}

/-! ## Extending moves -/

/-- The first elements of a source are extended. -/
theorem gives_extend (hn : 0 < n) (hw : w = 8 * n) {count : ℕ} (hcount : w * count = m)
    (hv : v ≤ w) (zeroExtend : Bool) {bytes : List U8} {x y : BitVec m}
    (hsource : ∀ i < count, element v bytes i = lane v y i) :
    PackedStandard.LaneLaw.Gives ⟨w, fun _ y i =>
        if zeroExtend then BitVec.ofNat w (lane v y i).toNat else BitVec.ofInt w (lane v y i).toInt⟩
      x y (littleEndian m (extendElements v w count zeroExtend bytes)) := by
  refine (gives_littleEndian_iff hn hw hcount _ _ _).mpr fun i hi => ?_
  rw [hsource i hi, extend_zero, signExtend_eq_ofInt hv]

theorem returns_pmovx (opcode : U8) {size : ℕ} (hsize : size % 8 = 0) (hsmall : size ≤ 32)
    {bytes : List U8} {x y : BitVec (8 * size)}
    (hsource : ∀ v n c, 0 < v → v = 8 * n → v * c = 128 → ∀ i < c, element v bytes i = lane v y i) :
    PackedStandard.Returns (PackedStandard.pmovx opcode.toNat) x y
      ((pmovxBytes opcode size bytes).map (littleEndian (8 * size))) := by
  have hbytes : ∀ i < size / 2, element 8 bytes i = lane 8 y i :=
    fun i hi => hsource 8 1 16 (by decide) rfl rfl i (by omega)
  have hwords : ∀ i < size / 4, element 16 bytes i = lane 16 y i :=
    fun i hi => hsource 16 2 8 (by decide) rfl rfl i (by omega)
  have hdwords : ∀ i < size / 8, element 32 bytes i = lane 32 y i :=
    fun i hi => hsource 32 4 4 (by decide) rfl rfl i (by omega)
  have h16 : 16 * (size / 2) = 8 * size := by omega
  have h32 : 32 * (size / 4) = 8 * size := by omega
  have h64 : 64 * (size / 8) = 8 * size := by omega
  unfold pmovxBytes
  generalize opcode.toNat = k
  dsimp only
  split
  · exact gives_extend Nat.two_pos rfl h16 (by decide) false hbytes
  · exact gives_extend Nat.two_pos rfl h16 (by decide) true hbytes
  · exact gives_extend (Nat.succ_pos 3) rfl h32 (by decide) false fun i hi => hbytes i (by omega)
  · exact gives_extend (Nat.succ_pos 3) rfl h32 (by decide) true fun i hi => hbytes i (by omega)
  · exact gives_extend (Nat.succ_pos 7) rfl h64 (by decide) false fun i hi => hbytes i (by omega)
  · exact gives_extend (Nat.succ_pos 7) rfl h64 (by decide) true fun i hi => hbytes i (by omega)
  · exact gives_extend (Nat.succ_pos 3) rfl h32 (by decide) false hwords
  · exact gives_extend (Nat.succ_pos 3) rfl h32 (by decide) true hwords
  · exact gives_extend (Nat.succ_pos 7) rfl h64 (by decide) false fun i hi => hwords i (by omega)
  · exact gives_extend (Nat.succ_pos 7) rfl h64 (by decide) true fun i hi => hwords i (by omega)
  · exact gives_extend (Nat.succ_pos 7) rfl h64 (by decide) false hdwords
  · exact gives_extend (Nat.succ_pos 7) rfl h64 (by decide) true hdwords
  · unfold PackedStandard.pmovx
    split
    all_goals first | contradiction | trivial

theorem returns_pmovx128 (opcode : U8) (x y : XMMRegister) :
    ReturnsXmm (PackedStandard.pmovx opcode.toNat) x y (applyAvx2Pmovx128 opcode y) := by
  have hreturns := @returns_pmovx opcode 16 rfl (by decide) (xmmToBytes y) x.bits y.bits
    fun v n c hpos hv hc i hi => element_xmmToBytes hv y ((lane_index hpos hc).mpr hi)
  have hbits : XMMRegister.bits ∘ bytesToXmm = littleEndian 128 := funext bits_bytesToXmm
  unfold ReturnsXmm applyAvx2Pmovx128
  rw [Option.map_map, hbits]
  exact hreturns

/-- The `256` form has the lanes of the whole destination from the low half of its source. -/
theorem returns_pmovx256 (opcode : U8) (x y : AVXRegister256) :
    PackedStandard.Returns (PackedStandard.pmovx opcode.toNat) x.bits y.bits
      ((applyAvx2Pmovx256 opcode y.low).map AVXRegister256.bits) := by
  have hreturns := @returns_pmovx opcode 32 rfl (by decide) (xmmToBytes y.low) x.bits y.bits
    fun v n c hpos hv hc i hi => by
      rw [element_xmmToBytes hv y.low ((lane_index hpos hc).mpr hi), ← lane_low, lane_lane hc hi,
        Nat.mul_zero, Nat.zero_add]
  have hbits : AVXRegister256.bits ∘ bytesToYmm = littleEndian 256 := funext bits_bytesToYmm
  unfold applyAvx2Pmovx256
  rw [Option.map_map, hbits]
  exact hreturns

/-! ## Sums of differences -/

/-- The sums of one half, from two blocks of its bytes on. -/
theorem distanceSum_lanes {bytes other : List U8} {x y : BitVec 128} {start otherStart : ℕ}
    (hx : ∀ j < 16, element 8 bytes (start + j) = lane 8 x j)
    (hy : ∀ j < 16, element 8 other (otherStart + j) = lane 8 y j) {first second i : ℕ}
    (hfirst : first ≤ 1) (hsecond : second ≤ 3) (hi : i < 8) :
    distanceSum 16 4 (fun j => element 8 bytes (start + first * 4 + i + j))
        (fun j => element 8 other (otherStart + second * 4 + j)) =
      (PackedStandard.mpsadbw first second).value x y i := by
  have hdistances : (List.range 4).map (fun j => PackedStandard.distance
      (element 8 bytes (start + first * 4 + i + j)) (element 8 other (otherStart + second * 4 + j))) =
      (List.range 4).map fun j => PackedStandard.distance (lane 8 x (4 * first + i + j))
        (lane 8 y (4 * second + j)) := by
    refine List.map_congr_left fun j hj => ?_
    have hj' := List.mem_range.mp hj
    have hplace : start + first * 4 + i + j = start + (4 * first + i + j) := by omega
    have hother : otherStart + second * 4 + j = otherStart + (4 * second + j) := by omega
    rw [hplace, hother, hx _ (by omega), hy _ (by omega)]
  rw [distanceSum_eq, hdistances]
  rfl

theorem mask_le (value : U8) (mask : U8) : (value &&& mask).toNat ≤ mask.toNat := by
  rw [BitVec.toNat_and]
  exact Nat.and_le_right

/-- The blocks that an immediate chooses for the low half, and for the high half. -/
def mpsadbwBlocks (imm8 : U8) : (ℕ × ℕ) × (ℕ × ℕ) :=
  ((((imm8 >>> 2) &&& 0x01).toNat, (imm8 &&& 0x03).toNat),
    (((imm8 >>> 5) &&& 0x01).toNat, ((imm8 >>> 3) &&& 0x03).toNat))

theorem returns_mpsadbw128 (imm8 : U8) (x y : XMMRegister) :
    ReturnsXmm (some (PackedStandard.mpsadbw (mpsadbwBlocks imm8).1.1 (mpsadbwBlocks imm8).1.2)) x y
      (some (applyAvxMpsadbw128 x y imm8)) := by
  refine returns_elements Nat.two_pos rfl rfl x y _ fun i hi => ?_
  have hsums := @distanceSum_lanes (xmmToBytes x) (xmmToBytes y) x.bits y.bits 0 0
    (fun j hj => by rw [Nat.zero_add, element_byte x hj])
    (fun j hj => by rw [Nat.zero_add, element_byte y hj]) _ _ i
    (mask_le (imm8 >>> 2) 0x01) (mask_le imm8 0x03) hi
  simp only [Nat.zero_add] at hsums
  exact hsums

theorem returns_mpsadbw256 (imm8 : U8) (x y : AVXRegister256) :
    PackedStandard.Returns
      (some (PackedStandard.mpsadbwHalves (mpsadbwBlocks imm8).1 (mpsadbwBlocks imm8).2)) x.bits y.bits
      (some (applyAvxMpsadbw256 x y imm8).bits) := by
  have hlength : ∀ z : XMMRegister, (xmmToBytes z).length = 16 := by
    intro z
    rw [bytes_xmmToBytes, littleEndianBytes_length]
  have hlow : ∀ (z : AVXRegister256), ∀ j < 16,
      element 8 (xmmToBytes z.low ++ xmmToBytes z.high) (0 + j) = lane 8 (lane 128 z.bits 0) j := by
    intro z j hj
    rw [Nat.zero_add, element_append_left (by rw [hlength]; omega), element_byte z.low hj, lane_low]
  have hhigh : ∀ (z : AVXRegister256), ∀ j < 16,
      element 8 (xmmToBytes z.low ++ xmmToBytes z.high) (16 + j) = lane 8 (lane 128 z.bits 1) j := by
    intro z j hj
    rw [element_append_right (hlength _), element_byte z.high hj, lane_high]
  unfold applyAvxMpsadbw256 mpsadbwBytes
  rw [bits_bytesToYmm, elements_append]
  refine (gives_littleEndian_iff (l := PackedStandard.mpsadbwHalves _ _) Nat.two_pos rfl rfl _ _ _).mpr
    fun i hi => ?_
  by_cases hhalf : i < 8
  · have hsums := distanceSum_lanes (hlow x) (hlow y) (mask_le (imm8 >>> 2) 0x01)
      (mask_le imm8 0x03) hhalf
    simp only [Nat.zero_add] at hsums
    rw [if_pos hhalf, hsums]
    exact (if_pos hhalf).symm
  · have hsums := distanceSum_lanes (hhigh x) (hhigh y) (mask_le (imm8 >>> 5) 0x01)
      (mask_le (imm8 >>> 3) 0x03) (show i - 8 < 8 by change i < 16 at hi; omega)
    rw [if_neg hhalf, hsums]
    exact (if_neg hhalf).symm

/-! ## The least word -/

/-- A word is the first of the least ones so far. -/
structure LeastSoFar (y : BitVec 128) (index k : ℕ) : Prop where
  inside : k < index
  least : ∀ j < index, (lane 16 y k).toNat ≤ (lane 16 y j).toNat
  first : ∀ j < k, (lane 16 y k).toNat < (lane 16 y j).toNat

/-- The loop keeps the first of the least words, with its place. -/
theorem minposLoop_spec (y : XMMRegister) : ∀ (left index k : ℕ), index + left ≤ 8 →
    LeastSoFar y.bits index k →
    ∃ k', minposLoop (xmmToBytes y) left index (lane 16 y.bits k, BitVec.ofNat 16 k) =
        (lane 16 y.bits k', BitVec.ofNat 16 k') ∧ LeastSoFar y.bits (index + left) k'
  | 0, index, k, _, h => ⟨k, rfl, h⟩
  | left + 1, index, k, hcount, h => by
    have hinside := h.inside
    have hword := element_word y (show index < 8 by omega)
    have hnext : index + 1 + left = index + (left + 1) := by omega
    unfold minposLoop
    dsimp only
    rw [hword]
    split_ifs with hless
    all_goals rw [BitVec.lt_def] at hless
    · -- the new word is below all words so far
      have hleast : LeastSoFar y.bits (index + 1) index := by
        refine ⟨by omega, fun j hj => ?_, fun j hj => Nat.lt_of_lt_of_le hless (h.least j hj)⟩
        rcases Nat.lt_succ_iff_lt_or_eq.mp hj with hj | rfl
        · exact Nat.le_of_lt (Nat.lt_of_lt_of_le hless (h.least j hj))
        · exact Nat.le_refl _
      obtain ⟨k', hk', hbest⟩ := minposLoop_spec y left (index + 1) index (by omega) hleast
      rw [hnext] at hbest
      exact ⟨k', hk', hbest⟩
    · have hleast : LeastSoFar y.bits (index + 1) k := by
        refine ⟨by omega, fun j hj => ?_, h.first⟩
        rcases Nat.lt_succ_iff_lt_or_eq.mp hj with hj | rfl
        · exact h.least j hj
        · exact Nat.le_of_not_lt hless
      obtain ⟨k', hk', hbest⟩ := minposLoop_spec y left (index + 1) k (by omega) hleast
      rw [hnext] at hbest
      exact ⟨k', hk', hbest⟩

theorem leastWord_eq {y : BitVec 128} {k : ℕ} (h : LeastSoFar y 8 k) :
    PackedStandard.leastWord y = k := by
  have hfind : ((List.range 8).find? fun i => (List.range 8).all fun j =>
      decide ((lane 16 y i).toNat ≤ (lane 16 y j).toNat)) = some k := by
    refine List.find?_range_eq_some.mpr ⟨?_, List.mem_range.mpr h.inside, fun j hj => ?_⟩
    · refine List.all_eq_true.mpr fun j hj => decide_eq_true (h.least j (List.mem_range.mp hj))
    · rw [Bool.not_eq_true', List.all_eq_false]
      refine ⟨k, List.mem_range.mpr h.inside, ?_⟩
      rw [decide_eq_true_iff]
      exact Nat.not_le.mpr (h.first j hj)
  rw [PackedStandard.leastWord, hfind, Option.getD_some]

/-- The lanes of two words in the low bits of a register. -/
theorem lane_twoWords (a b : BitVec 16) (i : ℕ) :
    lane 16 (XMMRegister.bits { low := a.setWidth 64 ||| b.setWidth 64 <<< 16, high := 0 }) i =
      if i = 0 then a else if i = 1 then b else 0 := by
  apply BitVec.eq_of_getLsbD_eq
  intro j hj
  rw [lane, BitVec.getLsbD_extractLsb', decide_eq_true hj, Bool.true_and, XMMRegister.bits,
    BitVec.getLsbD_append, BitVec.getLsbD_or, BitVec.getLsbD_shiftLeft, BitVec.getLsbD_setWidth,
    BitVec.getLsbD_setWidth]
  rcases i with _ | _ | i
  · simp [hj, show j < 64 by omega]
  · simp [hj, show 16 + j < 64 by omega, show j < 64 by omega]
  · have ha : a.getLsbD (16 * (i + 2) + j) = false := BitVec.getLsbD_of_ge a _ (by omega)
    have hb : b.getLsbD (16 * (i + 2) + j - 16) = false := BitVec.getLsbD_of_ge b _ (by omega)
    simp [ha, hb]

/-- **The least word and its place** stand in the two lowest words. -/
theorem returns_phminposuw (x y : XMMRegister) :
    ReturnsXmm (some PackedStandard.phminposuw) x y (some (applyAvxPhminposuw128 y)) := by
  have hstart : LeastSoFar y.bits 1 0 := by
    refine ⟨Nat.one_pos, fun j hj => ?_, fun j hj => absurd hj (Nat.not_lt_zero j)⟩
    rw [Nat.lt_one_iff.mp hj]
  obtain ⟨k, hloop, hleast⟩ := minposLoop_spec y 7 1 0 (by decide) hstart
  have hresult : applyAvxPhminposuw128 y =
      { low := (lane 16 y.bits k).setWidth 64 ||| (BitVec.ofNat 16 k).setWidth 64 <<< 16, high := 0 } := by
    unfold applyAvxPhminposuw128
    dsimp only
    rw [element_word y (by decide), show (0 : BitVec 16) = BitVec.ofNat 16 0 from rfl, hloop]
  rw [hresult]
  refine (gives_lanes_iff (l := PackedStandard.phminposuw) (Nat.succ_pos 15)
    (show 16 * 8 = 128 from rfl) _ _ _).mpr fun i _ => ?_
  refine (lane_twoWords _ _ i).trans ?_
  rw [← leastWord_eq hleast]
  rfl

end Cpueaxh
