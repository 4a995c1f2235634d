/-
# Bytes in order

Machine integers as bytes, the lowest first, and records whose fields have fixed offsets:
what stands at an offset is read back when the record is the bytes in front, the field and
the bytes behind it.
-/
import Mathlib.Tactic.Common

namespace ByteOrder

/-- The value of bytes, the lowest first. -/
def littleEndian (w : ℕ) (bytes : List (BitVec 8)) : BitVec w :=
  bytes.foldr (fun b value => b.setWidth w ||| (value <<< 8)) 0

/-- The bytes of a value, the lowest first. -/
def littleEndianBytes {w : ℕ} : ℕ → BitVec w → List (BitVec 8)
  | 0, _ => []
  | n + 1, value => value.setWidth 8 :: littleEndianBytes n (value >>> 8)

/-- The value in a record at an offset. -/
def field (w : ℕ) (bytes : List (BitVec 8)) (offset : ℕ) : BitVec w :=
  littleEndian w ((bytes.drop offset).take (w / 8))

variable {w n : ℕ}

@[simp] theorem littleEndianBytes_length (value : BitVec w) :
    (littleEndianBytes n value).length = n := by
  induction n generalizing value with
  | zero => rfl
  | succ n ih => rw [littleEndianBytes, List.length_cons, ih]

theorem littleEndian_setWidth {v : ℕ} (h : v ≤ w) (bytes : List (BitVec 8)) :
    (littleEndian w bytes).setWidth v = littleEndian v bytes := by
  induction bytes with
  | nil => simp [littleEndian]
  | cons b bytes ih =>
    simp only [littleEndian, List.foldr_cons] at ih ⊢
    rw [BitVec.setWidth_or, BitVec.setWidth_setWidth_of_le _ h, BitVec.setWidth_shiftLeft_of_le h,
      ih]

/-- The bits of the value of the bytes of a value. -/
theorem getLsbD_littleEndian_bytes {u : ℕ} (value : BitVec w) (i : ℕ) :
    (littleEndian u (littleEndianBytes n value)).getLsbD i =
      (decide (i < u) && (decide (i < 8 * n) && value.getLsbD i)) := by
  induction n generalizing value i with
  | zero => simp [littleEndian, littleEndianBytes]
  | succ n ih =>
    simp only [littleEndian, littleEndianBytes, List.foldr_cons] at ih ⊢
    rw [BitVec.getLsbD_or, BitVec.getLsbD_setWidth, BitVec.getLsbD_setWidth,
      BitVec.getLsbD_shiftLeft, ih, BitVec.getLsbD_ushiftRight]
    by_cases hu : i < u
    · by_cases hlow : i < 8
      · simp [hu, hlow, show i < 8 * (n + 1) by omega]
      · have hback : 8 + (i - 8) = i := by omega
        have hwide : i - 8 < u := by omega
        simp only [hu, hlow, hback, hwide, decide_true, decide_false, Bool.false_and, Bool.and_false,
          Bool.false_or, Bool.true_and, Bool.not_false]
        congr 1
        exact decide_eq_decide.mpr (by omega)
    · simp [hu]

/-- The bits of the value of some bytes. -/
theorem getLsbD_littleEndian (bytes : List (BitVec 8)) (i : ℕ) :
    (littleEndian w bytes).getLsbD i =
      (decide (i < w) && (bytes.getD (i / 8) 0).getLsbD (i % 8)) := by
  induction bytes generalizing i with
  | nil => simp [littleEndian]
  | cons b bytes ih =>
    simp only [littleEndian, List.foldr_cons] at ih ⊢
    rw [BitVec.getLsbD_or, BitVec.getLsbD_setWidth, BitVec.getLsbD_shiftLeft, ih]
    by_cases hlow : i < 8
    · simp [hlow, Nat.div_eq_of_lt hlow, Nat.mod_eq_of_lt hlow]
    · have hdiv : i / 8 = (i - 8) / 8 + 1 := by omega
      have hmod : (i - 8) % 8 = i % 8 := by omega
      rw [hdiv, List.getD_cons_succ, hmod, BitVec.getLsbD_of_ge b i (by omega)]
      by_cases hw : i < w
      · simp [hw, hlow, show i - 8 < w by omega]
      · simp [hw]

/-- A value is the value of its bytes. -/
theorem littleEndian_bytes (hn : w ≤ 8 * n) (value : BitVec w) :
    littleEndian w (littleEndianBytes n value) = value := by
  ext i hi
  rw [← BitVec.getLsbD_eq_getElem, getLsbD_littleEndian_bytes]
  simp [hi, show i < 8 * n by omega]

/-- The bits of a field. -/
theorem getLsbD_field (hw : w = 8 * n) (bytes : List (BitVec 8)) (offset i : ℕ) :
    (field w bytes offset).getLsbD i =
      (decide (i < w) && (bytes.getD (offset + i / 8) 0).getLsbD (i % 8)) := by
  rw [field, getLsbD_littleEndian]
  by_cases hi : i < w
  · have hbyte : i / 8 < w / 8 := by omega
    rw [List.getD_eq_getElem?_getD, List.getD_eq_getElem?_getD, List.getElem?_take_of_lt hbyte,
      List.getElem?_drop]
  · simp [hi]

/-- The value of some bytes in more bits. -/
theorem setWidth_littleEndian {v : ℕ} {bytes : List (BitVec 8)} (hv : 8 * bytes.length ≤ v) :
    (littleEndian v bytes).setWidth w = littleEndian w bytes := by
  ext i hi
  rw [BitVec.getElem_setWidth, getLsbD_littleEndian, ← BitVec.getLsbD_eq_getElem,
    getLsbD_littleEndian]
  by_cases hlow : i < v
  · simp [hlow, hi]
  · have hbyte : bytes.length ≤ i / 8 := by omega
    rw [List.getD_eq_getElem?_getD, List.getElem?_eq_none hbyte]
    simp

/-- The field of a record whose bytes from its offset on are known. -/
theorem field_of_drop {bytes rest : List (BitVec 8)} {offset : ℕ} (hw : w = 8 * n)
    {value : BitVec w} (h : bytes.drop offset = littleEndianBytes n value ++ rest) :
    field w bytes offset = value := by
  have hsize : w / 8 = n := by omega
  unfold field
  rw [h, hsize, List.take_left' (littleEndianBytes_length value), littleEndian_bytes (Nat.le_of_eq hw)]

/-- A field in the first or in the second part of a record. -/
theorem field_append (first second : List (BitVec 8)) (offset : ℕ) :
    (offset + w / 8 ≤ first.length → field w (first ++ second) offset = field w first offset) ∧
      field w (first ++ second) (first.length + offset) = field w second offset := by
  unfold field
  refine ⟨fun h => ?_, ?_⟩
  · rw [List.drop_append_of_le_length (by omega), List.take_append_of_le_length]
    rw [List.length_drop]
    omega
  · rw [List.drop_length_add_append]

/-- An element of an array in a record. -/
theorem drop_flatMap {α β : Type} {f : α → List β} {k : ℕ} (hf : ∀ a, (f a).length = k) :
    ∀ (l : List α) (i : ℕ) (hi : i < l.length),
      (l.flatMap f).drop (i * k) = f (l.get ⟨i, hi⟩) ++ (l.drop (i + 1)).flatMap f
  | a :: l, 0, _ => by simp
  | a :: l, i + 1, hi => by
    rw [List.flatMap_cons, Nat.succ_mul, Nat.add_comm (i * k) k, ← List.drop_drop,
      List.drop_left' (hf a), drop_flatMap hf l i (by simpa using hi)]
    rfl

/-- An element of an array is read back at its offset. -/
theorem field_array (hw : w = 8 * n) {values : List (BitVec w)} {i offset : ℕ} {value : BitVec w}
    (hoffset : offset = i * n) (h : values[i]? = some value) :
    field w (values.flatMap (littleEndianBytes n)) offset = value := by
  obtain ⟨hi, rfl⟩ := List.getElem?_eq_some_iff.mp h
  rw [hoffset]
  exact field_of_drop hw (drop_flatMap littleEndianBytes_length values i hi)


/-! ## Two values -/

/-- A byte of a value. -/
theorem getElem_littleEndianBytes (n : ℕ) : ∀ (value : BitVec w) (i : ℕ)
    (hi : i < (littleEndianBytes n value).length),
    (littleEndianBytes n value)[i] = (value >>> (8 * i)).setWidth 8 := by
  induction n with
  | zero =>
    intro value i hi
    rw [littleEndianBytes_length] at hi
    omega
  | succ n ih =>
    intro value i hi
    match i with
    | 0 => rfl
    | i + 1 =>
      rw [littleEndianBytes_length] at hi
      have hrest := ih (value >>> 8) i (by rw [littleEndianBytes_length]; omega)
      rw [← BitVec.shiftRight_add, show 8 + 8 * i = 8 * (i + 1) by omega] at hrest
      exact hrest

/-- Some bytes are the bytes of their value. -/
theorem littleEndianBytes_littleEndian {bytes : List (BitVec 8)} (h : 8 * bytes.length ≤ w) :
    littleEndianBytes bytes.length (littleEndian w bytes) = bytes := by
  apply List.ext_getElem
  · exact littleEndianBytes_length _
  · intro i hi hi'
    rw [getElem_littleEndianBytes]
    apply BitVec.eq_of_getLsbD_eq
    intro j hj
    have hdiv : (8 * i + j) / 8 = i := by omega
    have hmod : (8 * i + j) % 8 = j := by omega
    rw [BitVec.getLsbD_setWidth, BitVec.getLsbD_ushiftRight, getLsbD_littleEndian, hdiv, hmod,
      decide_eq_true hj, decide_eq_true (by omega : 8 * i + j < w), Bool.true_and, Bool.true_and,
      List.getD_eq_getElem?_getD, List.getElem?_eq_getElem hi', Option.getD_some]

/-- The bytes of two values, one behind the other. -/
theorem littleEndianBytes_append {v m : ℕ} (hw : w = 8 * n) (high : BitVec v) (low : BitVec w) :
    littleEndianBytes (n + m) (high ++ low) =
      littleEndianBytes n low ++ littleEndianBytes m high := by
  apply List.ext_getElem
  · rw [List.length_append, littleEndianBytes_length, littleEndianBytes_length,
      littleEndianBytes_length]
  · intro i hi hi'
    rw [getElem_littleEndianBytes, List.getElem_append]
    rw [littleEndianBytes_length] at hi
    split_ifs with hlow
    · rw [littleEndianBytes_length] at hlow
      rw [getElem_littleEndianBytes]
      apply BitVec.eq_of_getLsbD_eq
      intro j hj
      rw [BitVec.getLsbD_setWidth, BitVec.getLsbD_setWidth, BitVec.getLsbD_ushiftRight,
        BitVec.getLsbD_ushiftRight, BitVec.getLsbD_append, if_pos (by omega)]
    · rw [littleEndianBytes_length] at hlow
      rw [getElem_littleEndianBytes]
      apply BitVec.eq_of_getLsbD_eq
      intro j hj
      rw [BitVec.getLsbD_setWidth, BitVec.getLsbD_setWidth, BitVec.getLsbD_ushiftRight,
        BitVec.getLsbD_ushiftRight, BitVec.getLsbD_append, if_neg (by omega), littleEndianBytes_length]
      congr 2
      omega

/-- The value of some bytes is made of two fields. -/
theorem littleEndian_append {v m : ℕ} (hw : w = 8 * n) (hv : v = 8 * m) (bytes : List (BitVec 8)) :
    littleEndian (v + w) bytes = field v bytes n ++ field w bytes 0 := by
  apply BitVec.eq_of_getLsbD_eq
  intro i hi
  rw [getLsbD_littleEndian, BitVec.getLsbD_append, getLsbD_field hw, getLsbD_field hv]
  split_ifs with hlow
  · rw [decide_eq_true hi, decide_eq_true hlow, Nat.zero_add]
  · have hdiv : n + (i - w) / 8 = i / 8 := by omega
    have hmod : (i - w) % 8 = i % 8 := by omega
    rw [decide_eq_true hi, decide_eq_true (by omega : i - w < v), hdiv, hmod]

end ByteOrder
