/-
# Packed lanes

A vector as lanes of one width, in its bits and in its bytes, and the integer arithmetic of a
lane: numbers that are clamped to the range of a width, and machine operations in more bits
than their operands have, where nothing is lost.
-/
import Cpueaxh.ByteOrder
import Mathlib.Algebra.Group.Int.Defs
import Mathlib.Algebra.GroupWithZero.Nat

namespace PackedLanes

open ByteOrder

variable {w v m n : ℕ}

/-! ## Lanes -/

/-- A lane of a vector. -/
def lane (w : ℕ) (x : BitVec m) (i : ℕ) : BitVec w := x.extractLsb' (w * i) w

/-- An element of the bytes of a vector. -/
def element (w : ℕ) (bytes : List (BitVec 8)) (i : ℕ) : BitVec w := field w bytes (i * (w / 8))

/-- The bytes of elements that are written one behind the other. -/
def elements (count : ℕ) (f : ℕ → BitVec w) : List (BitVec 8) :=
  (List.range count).flatMap fun i => littleEndianBytes (w / 8) (f i)

/-- The lanes of two halves. -/
theorem lane_append (high low : BitVec w) :
    lane w (high ++ low) 0 = low ∧ lane w (high ++ low) 1 = high := by
  constructor
  · apply BitVec.eq_of_getLsbD_eq
    intro j hj
    rw [lane, BitVec.getLsbD_extractLsb', BitVec.getLsbD_append, decide_eq_true hj, Nat.mul_zero,
      Nat.zero_add, if_pos hj, Bool.true_and]
  · apply BitVec.eq_of_getLsbD_eq
    intro j hj
    rw [lane, BitVec.getLsbD_extractLsb', BitVec.getLsbD_append, decide_eq_true hj, Nat.mul_one,
      if_neg (Nat.not_lt.mpr (Nat.le_add_right w j)), Nat.add_sub_cancel_left, Bool.true_and]

/-- A lane of a lane. -/
theorem lane_lane {count i : ℕ} (hcount : w * count = v) (hi : i < count) (x : BitVec m) (k : ℕ) :
    lane w (lane v x k) i = lane w x (count * k + i) := by
  have hinside : w * i + w ≤ v := by
    rw [← hcount, ← Nat.mul_succ]
    exact Nat.mul_le_mul_left w hi
  apply BitVec.eq_of_getLsbD_eq
  intro j hj
  have hbit : v * k + (w * i + j) = w * (count * k + i) + j := by
    rw [← hcount, Nat.mul_add, Nat.mul_assoc, Nat.add_assoc]
  rw [lane, lane, lane, BitVec.getLsbD_extractLsb', BitVec.getLsbD_extractLsb',
    BitVec.getLsbD_extractLsb', decide_eq_true hj, decide_eq_true (by omega : w * i + j < v), hbit,
    Bool.true_and, Bool.true_and]

/-- The lanes of a value are the elements of its bytes. -/
theorem lane_littleEndian (hw : w = 8 * n) (bytes : List (BitVec 8)) {i : ℕ}
    (hi : w * i + w ≤ v) : lane w (littleEndian v bytes) i = element w bytes i := by
  apply BitVec.eq_of_getLsbD_eq
  intro j hj
  have hsize : w / 8 = n := by omega
  have hstart : w * i = 8 * (i * n) := by rw [hw, Nat.mul_assoc, Nat.mul_comm n i]
  have hdiv : (w * i + j) / 8 = i * n + j / 8 := by omega
  have hmod : (w * i + j) % 8 = j % 8 := by omega
  have hinside : w * i + j < v := by omega
  rw [lane, BitVec.getLsbD_extractLsb', getLsbD_littleEndian, element, hsize, getLsbD_field hw,
    hdiv, hmod, decide_eq_true hj, decide_eq_true hinside, Bool.true_and, Bool.true_and]

theorem element_littleEndianBytes (hw : w = 8 * n) (x : BitVec m) {i : ℕ} (hm : m = 8 * v)
    (hi : w * i + w ≤ m) : element w (littleEndianBytes v x) i = lane w x i := by
  rw [← lane_littleEndian hw _ hi, littleEndian_bytes (Nat.le_of_eq hm)]

/-- **Elements that are written are read back.** -/
theorem element_elements (hw : w = 8 * n) {count i : ℕ} (f : ℕ → BitVec w) (hi : i < count) :
    element w (elements count f) i = f i := by
  have hsize : w / 8 = n := by omega
  have hvalues : elements count f =
      ((List.range count).map f).flatMap (littleEndianBytes (w / 8)) := by
    rw [elements, List.flatMap_map]
  rw [element, hvalues, hsize]
  refine field_array hw rfl ?_
  rw [List.getElem?_map, List.getElem?_range hi, Option.map_some]

theorem element_append_left {first second : List (BitVec 8)} {i : ℕ}
    (h : i * (w / 8) + w / 8 ≤ first.length) :
    element w (first ++ second) i = element w first i := (field_append first second _).1 h

theorem element_append_right {first second : List (BitVec 8)} {i k : ℕ}
    (h : first.length = k * (w / 8)) : element w (first ++ second) (k + i) = element w second i := by
  have hfield := (@field_append w first second (i * (w / 8))).2
  rwa [h, ← Nat.add_mul] at hfield

/-- Elements behind elements. -/
theorem elements_append (count more : ℕ) (f g : ℕ → BitVec w) :
    elements count f ++ elements more g =
      elements (count + more) fun i => if i < count then f i else g (i - count) := by
  unfold elements
  rw [List.range_add, List.flatMap_append, List.flatMap_map, List.flatMap_def, List.flatMap_def,
    List.flatMap_def, List.flatMap_def]
  congr 2
  · refine List.map_congr_left fun i hi => ?_
    simp only [List.mem_range.mp hi, if_true]
  · refine List.map_congr_left fun i _ => ?_
    simp only [Nat.not_lt.mpr (Nat.le_add_right count i), if_false, Nat.add_sub_cancel_left]

/-- Elements that are written in pairs. -/
theorem elements_pairs (count : ℕ) (f : ℕ → BitVec w) :
    ((List.range count).flatMap fun i =>
      littleEndianBytes (w / 8) (f (2 * i)) ++ littleEndianBytes (w / 8) (f (2 * i + 1))) =
      elements (2 * count) f := by
  induction count with
  | zero => rfl
  | succ count ih =>
    have hrange : List.range (2 * (count + 1)) = List.range (2 * count) ++ [2 * count, 2 * count + 1] := by
      rw [Nat.mul_succ, List.range_succ, List.range_succ, List.append_assoc]
      rfl
    rw [List.range_succ, List.flatMap_append, ih, elements, elements, hrange, List.flatMap_append]
    simp

theorem elements_zero (count : ℕ) :
    elements count (fun _ => (0 : BitVec w)) = List.replicate (count * (w / 8)) 0 := by
  have hbytes : ∀ n, littleEndianBytes n (0 : BitVec w) = List.replicate n 0 := by
    intro n
    induction n with
    | zero => rfl
    | succ n ih =>
      have hshift : (0 : BitVec w) >>> 8 = 0 := BitVec.zero_ushiftRight
      rw [littleEndianBytes, hshift, ih, List.replicate_succ]
      congr 1
      exact BitVec.setWidth_zero 8 w
  induction count with
  | zero => simp [elements]
  | succ count ih =>
    rw [elements, List.range_succ, List.flatMap_append, ← elements, ih, List.flatMap_singleton, hbytes,
      List.replicate_append_replicate, Nat.succ_mul]

/-- The bytes of an element. -/
theorem bytes_of_element (hw : w = 8 * n) {bytes : List (BitVec 8)} {i : ℕ}
    (h : i * n + n ≤ bytes.length) :
    (bytes.drop (i * n)).take n = littleEndianBytes n (element w bytes i) := by
  have hsize : w / 8 = n := by omega
  have hlength : ((bytes.drop (i * n)).take n).length = n := by
    rw [List.length_take, List.length_drop]
    omega
  have hback := @littleEndianBytes_littleEndian w ((bytes.drop (i * n)).take n)
    (Nat.le_of_eq (by rw [hlength, hw]))
  rw [hlength] at hback
  rw [element, field, hsize, hback]

/-! ## Integers in bits -/

/-- A number, clamped to the signed numbers of a width. -/
def saturateSigned (w : ℕ) (value : ℤ) : BitVec w :=
  BitVec.ofInt w (max (-2 ^ (w - 1)) (min (2 ^ (w - 1) - 1) value))

/-- A number, clamped to the unsigned numbers of a width. -/
def saturateUnsigned (w : ℕ) (value : ℤ) : BitVec w :=
  BitVec.ofInt w (max 0 (min (2 ^ w - 1) value))

/-- All bits of a lane, or none. -/
def laneFill (w : ℕ) (p : Bool) : BitVec w := if p then BitVec.allOnes w else 0

/-- The machine's clamp: a number in more bits is compared with the two ends of a range. -/
def clampTo (w : ℕ) (low high value : BitVec v) : BitVec w :=
  if high.slt value then high.setWidth w
  else if value.slt low then low.setWidth w
  else value.setWidth w

/-- The numbers that a width has. -/
def Fits (v : ℕ) (z : ℤ) : Prop := -2 ^ (v - 1) ≤ z ∧ z < 2 ^ (v - 1)

section Integers

variable {z lo hi : ℤ}

theorem signExtend_eq_ofInt (h : w ≤ v) (a : BitVec w) :
    a.signExtend v = BitVec.ofInt v a.toInt := by
  apply BitVec.eq_of_toInt_eq
  rw [BitVec.toInt_signExtend_of_le h, BitVec.toInt_ofInt, ← BitVec.toInt_signExtend_of_le h,
    BitVec.toInt_bmod_cancel]

theorem setWidth_eq_ofInt (a : BitVec w) :
    a.setWidth v = BitVec.ofInt v a.toNat := by
  apply BitVec.eq_of_toNat_eq
  rw [BitVec.toNat_setWidth, BitVec.ofInt_natCast, BitVec.toNat_ofNat]

theorem setWidth_ofInt (h : w ≤ v) (z : ℤ) : (BitVec.ofInt v z).setWidth w = BitVec.ofInt w z := by
  rw [← BitVec.signExtend_eq_setWidth_of_le _ h]
  apply BitVec.eq_of_toInt_eq
  rw [BitVec.toInt_signExtend, BitVec.toInt_ofInt, BitVec.toInt_ofInt, Nat.min_eq_left h,
    Int.bmod_bmod_of_dvd (by exact_mod_cast Nat.pow_dvd_pow 2 h)]

theorem toInt_ofInt (hv : 0 < v) (h : Fits v z) : (BitVec.ofInt v z).toInt = z :=
  BitVec.toInt_ofInt_eq_self hv h.1 h.2

/-- **The machine's clamp is the clamp** of the number. -/
theorem clampTo_ofInt (hw : w ≤ v) (hv : 0 < v) (hlo : Fits v lo) (hhi : Fits v hi) (hle : lo ≤ hi)
    (hz : Fits v z) :
    clampTo w (BitVec.ofInt v lo) (BitVec.ofInt v hi) (BitVec.ofInt v z) =
      BitVec.ofInt w (max lo (min hi z)) := by
  unfold clampTo
  rw [BitVec.slt_eq_decide, BitVec.slt_eq_decide, toInt_ofInt hv hlo, toInt_ofInt hv hhi,
    toInt_ofInt hv hz, setWidth_ofInt hw, setWidth_ofInt hw, setWidth_ofInt hw]
  simp only [decide_eq_true_eq]
  split_ifs with hhigh hlow
  · congr 1
    omega
  · congr 1
    omega
  · congr 1
    omega

/-! ### Clamps to a width -/

theorem Fits.mono (h : w ≤ v) (hz : Fits w z) : Fits v z := by
  have hpow : (2 : ℤ) ^ (w - 1) ≤ 2 ^ (v - 1) := by
    exact_mod_cast Nat.pow_le_pow_right (by decide) (Nat.sub_le_sub_right h 1)
  exact ⟨Int.le_trans (Int.neg_le_neg hpow) hz.1, Int.lt_of_lt_of_le hz.2 hpow⟩

theorem fits_toInt (hw : w ≤ v) (a : BitVec w) : Fits v a.toInt :=
  Fits.mono hw ⟨a.le_toInt, a.toInt_lt⟩

theorem clampTo_saturateSigned (hw : w ≤ v) (hv : 0 < v) (hz : Fits v z) :
    clampTo w (BitVec.ofInt v (-2 ^ (w - 1))) (BitVec.ofInt v (2 ^ (w - 1) - 1))
      (BitVec.ofInt v z) = saturateSigned w z := by
  have hpos : (0 : ℤ) < 2 ^ (w - 1) := by exact_mod_cast Nat.two_pow_pos (w - 1)
  refine clampTo_ofInt hw hv (Fits.mono hw ⟨Int.le_refl _, ?_⟩) (Fits.mono hw ⟨?_, ?_⟩) ?_ hz
  all_goals omega

theorem clampTo_saturateUnsigned (hw : w < v) (hz : Fits v z) :
    clampTo w (BitVec.ofInt v 0) (BitVec.ofInt v (2 ^ w - 1)) (BitVec.ofInt v z) =
      saturateUnsigned w z := by
  have hpos : (0 : ℤ) < 2 ^ w := by exact_mod_cast Nat.two_pow_pos w
  have hpow : (2 : ℤ) ^ w ≤ 2 ^ (v - 1) := by
    exact_mod_cast Nat.pow_le_pow_right (by decide) (Nat.le_sub_one_of_lt hw)
  refine clampTo_ofInt (Nat.le_of_lt hw) (Nat.zero_lt_of_lt hw) ⟨?_, ?_⟩ ⟨?_, ?_⟩ ?_ hz
  all_goals omega

end Integers

end PackedLanes
