/-
# The operations of 128 bits

Each operation of the VEX handler returns the lanes that the architecture has for its opcode.
-/
import Cpueaxh.PackedVectors

namespace Cpueaxh

open ByteOrder PackedLanes

variable {w v n : ℕ}

/-- What an operation returns is what the architecture has for its opcode. -/
def ReturnsXmm (law : Option (PackedStandard.LaneLaw 128)) (x y : XMMRegister)
    (result : Option XMMRegister) : Prop :=
  PackedStandard.Returns law x.bits y.bits (result.map XMMRegister.bits)

/-! ## Whole words -/

theorem lane_word (x : XMMRegister) : lane 64 x.bits 0 = x.low ∧ lane 64 x.bits 1 = x.high :=
  lane_append x.high x.low

theorem gives_words_iff (f : U64 → U64 → U64) (x y r : XMMRegister) :
    (PackedStandard.each f).Gives x.bits y.bits r.bits ↔
      r.low = f x.low y.low ∧ r.high = f x.high y.high := by
  refine (gives_lanes_iff (l := PackedStandard.each f) (Nat.succ_pos 63) (show 64 * 2 = 128 from rfl) _ _ _).trans ?_
  have hx := lane_word x
  have hy := lane_word y
  have hr := lane_word r
  constructor
  · intro h
    have h0 : lane 64 r.bits 0 = f (lane 64 x.bits 0) (lane 64 y.bits 0) := h 0 (by decide)
    have h1 : lane 64 r.bits 1 = f (lane 64 x.bits 1) (lane 64 y.bits 1) := h 1 (by decide)
    rw [hx.1, hy.1, hr.1] at h0
    rw [hx.2, hy.2, hr.2] at h1
    exact ⟨h0, h1⟩
  · rintro ⟨h0, h1⟩ i hi
    match i, hi with
    | 0, _ =>
      show lane 64 r.bits 0 = f (lane 64 x.bits 0) (lane 64 y.bits 0)
      rw [hx.1, hy.1, hr.1, h0]
    | 1, _ =>
      show lane 64 r.bits 1 = f (lane 64 x.bits 1) (lane 64 y.bits 1)
      rw [hx.2, hy.2, hr.2, h1]

theorem returns_logic (opcode : U8) (x y : XMMRegister) :
    ReturnsXmm (PackedStandard.logic opcode.toNat) x y (applyAvxIntLogic128 opcode x y) := by
  unfold applyAvxIntLogic128
  generalize opcode.toNat = k
  split
  · exact (gives_words_iff (fun a b => a &&& b) x y _).mpr ⟨rfl, rfl⟩
  · exact (gives_words_iff (fun a b => ~~~a &&& b) x y _).mpr ⟨rfl, rfl⟩
  · exact (gives_words_iff (fun a b => a ||| b) x y _).mpr ⟨rfl, rfl⟩
  · exact (gives_words_iff (fun a b => a ^^^ b) x y _).mpr ⟨rfl, rfl⟩
  · unfold PackedStandard.logic
    split
    all_goals first | contradiction | trivial

/-! ## Lane by lane -/

section Each

variable {f g : BitVec w → BitVec w → BitVec w} (x y : XMMRegister)

/-- An operation on the elements of two registers. -/
theorem returns_each {count : ℕ} (hn : 0 < n) (hw : w = 8 * n) (hcount : w * count = 128)
    (hfg : f = g) : ReturnsXmm (some (PackedStandard.each g)) x y
      (some (bytesToXmm (eachElement f (xmmToBytes x) (xmmToBytes y)))) :=
  gives_each hn hw hcount hfg x y

theorem returns_bytes {f g : BitVec 8 → BitVec 8 → BitVec 8} (hfg : f = g) :
    ReturnsXmm (some (PackedStandard.each g)) x y
      (some (bytesToXmm (eachElement f (xmmToBytes x) (xmmToBytes y)))) :=
  returns_each x y Nat.one_pos rfl (rfl : 8 * 16 = 128) hfg

theorem returns_words {f g : BitVec 16 → BitVec 16 → BitVec 16} (hfg : f = g) :
    ReturnsXmm (some (PackedStandard.each g)) x y
      (some (bytesToXmm (eachElement f (xmmToBytes x) (xmmToBytes y)))) :=
  returns_each x y Nat.two_pos rfl (rfl : 16 * 8 = 128) hfg

theorem returns_dwords {f g : BitVec 32 → BitVec 32 → BitVec 32} (hfg : f = g) :
    ReturnsXmm (some (PackedStandard.each g)) x y
      (some (bytesToXmm (eachElement f (xmmToBytes x) (xmmToBytes y)))) :=
  returns_each x y (Nat.succ_pos 3) rfl (rfl : 32 * 4 = 128) hfg

theorem returns_qwords {f g : BitVec 64 → BitVec 64 → BitVec 64} (hfg : f = g) :
    ReturnsXmm (some (PackedStandard.each g)) x y
      (some (bytesToXmm (eachElement f (xmmToBytes x) (xmmToBytes y)))) :=
  returns_each x y (Nat.succ_pos 7) rfl (rfl : 64 * 2 = 128) hfg

end Each

theorem returns_compare (opcode : U8) (x y : XMMRegister) :
    ReturnsXmm (PackedStandard.compare opcode.toNat) x y (applyAvxIntCmp128 opcode x y) := by
  unfold applyAvxIntCmp128
  generalize opcode.toNat = k
  dsimp only
  split
  · exact returns_bytes x y equalMask_eq
  · exact returns_words x y equalMask_eq
  · exact returns_dwords x y equalMask_eq
  · exact returns_qwords x y equalMask_eq
  · exact returns_qwords x y greaterMask_eq
  · exact returns_bytes x y greaterMask_eq
  · exact returns_words x y greaterMask_eq
  · exact returns_dwords x y greaterMask_eq
  · unfold PackedStandard.compare
    split
    all_goals first | contradiction | trivial

theorem returns_minMax (opcode : U8) (x y : XMMRegister) :
    ReturnsXmm (PackedStandard.minMax opcode.toNat) x y (applyAvxIntMinmax128 opcode x y) := by
  unfold applyAvxIntMinmax128
  generalize opcode.toNat = k
  dsimp only
  split
  · exact returns_bytes x y minElement_eq
  · exact returns_bytes x y maxElement_eq
  · exact returns_words x y minSignedElement_eq
  · exact returns_words x y maxSignedElement_eq
  · exact returns_bytes x y minSignedElement_eq
  · exact returns_dwords x y minSignedElement_eq
  · exact returns_words x y minElement_eq
  · exact returns_dwords x y minElement_eq
  · exact returns_bytes x y maxSignedElement_eq
  · exact returns_dwords x y maxSignedElement_eq
  · exact returns_words x y maxElement_eq
  · exact returns_dwords x y maxElement_eq
  · unfold PackedStandard.minMax
    split
    all_goals first | contradiction | trivial

theorem returns_sign (opcode : U8) (x y : XMMRegister) :
    ReturnsXmm (PackedStandard.sign opcode.toNat) x y (applyAvx2Sign128 opcode x y) := by
  unfold applyAvx2Sign128
  generalize opcode.toNat = k
  dsimp only
  split
  · exact returns_bytes x y signElement_eq
  · exact returns_words x y signElement_eq
  · exact returns_dwords x y signElement_eq
  · unfold PackedStandard.sign
    split
    all_goals first | contradiction | trivial

/-- An operation on the elements of one register. -/
theorem returns_absBytes {count : ℕ} (hn : 0 < n) (hw : w = 8 * n) (hcount : w * count = 128)
    (x y : XMMRegister) : ReturnsXmm (some (PackedStandard.eachOf (PackedStandard.magnitude (w := w)))) x y
      (some (bytesToXmm (absBytes w (xmmToBytes y)))) := by
  have hfg : (fun _ b : BitVec w => absElement w b) = fun _ b => PackedStandard.magnitude b := by
    rw [absElement_eq]
  have hbytes : absBytes w (xmmToBytes y) =
      eachElement (fun _ b => absElement w b) (xmmToBytes x) (xmmToBytes y) := rfl
  rw [hbytes]
  exact returns_each x y hn hw hcount hfg

theorem returns_abs (opcode : U8) (x y : XMMRegister) :
    ReturnsXmm (PackedStandard.abs opcode.toNat) x y (applyAvx2Abs128 opcode y) := by
  unfold applyAvx2Abs128
  generalize opcode.toNat = k
  dsimp only
  split
  · exact returns_absBytes Nat.one_pos rfl (rfl : 8 * 16 = 128) x y
  · exact returns_absBytes Nat.two_pos rfl (rfl : 16 * 8 = 128) x y
  · exact returns_absBytes (Nat.succ_pos 3) rfl (rfl : 32 * 4 = 128) x y
  · unfold PackedStandard.abs
    split
    all_goals first | contradiction | trivial

/-! ## Two vectors, one behind the other -/

/-- The elements from two registers, half of the lanes from each. -/
theorem returns_halves {l : PackedStandard.LaneLaw 128} {count : ℕ} (hn : 0 < n)
    (hw : l.width = 8 * n) (hcount : l.width * (count + count) = 128) (x y : XMMRegister)
    (f g : ℕ → BitVec l.width) (hf : ∀ i < count, f i = l.value x.bits y.bits i)
    (hg : ∀ i < count, g i = l.value x.bits y.bits (count + i)) :
    ReturnsXmm (some l) x y (some (bytesToXmm (elements count f ++ elements count g))) := by
  rw [elements_append]
  refine (gives_elements_iff hn hw hcount _ _ _).mpr fun i hi => ?_
  by_cases hhalf : i < count
  · rw [if_pos hhalf, hf i hhalf]
  · have hback : count + (i - count) = i := by omega
    rw [if_neg hhalf, hg _ (by omega), hback]

theorem returns_packed (hn : 0 < n) (hw : w = 8 * n) (hv : v = 2 * w) {count : ℕ}
    (hcount : v * count = 128) {narrow f : BitVec v → BitVec w} (hf : narrow = f) (x y : XMMRegister) :
    ReturnsXmm (some (PackedStandard.packed f)) x y
      (some (bytesToXmm (packElements narrow (xmmToBytes x) (xmmToBytes y)))) := by
  have hlanes : 128 / v = count := Nat.div_eq_of_eq_mul_right (by omega) hcount.symm
  have hv8 : v = 8 * (2 * n) := by omega
  have hwidth : w * (count + count) = 128 := by
    rw [← hcount, hv, Nat.mul_assoc, Nat.mul_add, Nat.two_mul]
  have hinside : ∀ i < count, v * i + v ≤ 128 := fun i hi => (lane_index (by omega) hcount).mpr hi
  unfold packElements
  rw [hf, hlanes]
  refine returns_halves (l := PackedStandard.packed f) hn hw hwidth x y _ _ ?_ ?_
  · intro i hi
    rw [element_xmmToBytes hv8 x (hinside i hi)]
    exact (if_pos (by rwa [hlanes])).symm
  · intro i hi
    have hbehind : ¬count + i < 128 / v := by omega
    rw [element_xmmToBytes hv8 y (hinside i hi)]
    refine Eq.symm ((if_neg hbehind).trans ?_)
    rw [hlanes, Nat.add_sub_cancel_left]

theorem returns_neighbours (hn : 0 < n) (hw : w = 8 * n) {count : ℕ}
    (hcount : w * (count + count) = 128) {f g : BitVec w → BitVec w → BitVec w} (hf : f = g)
    (x y : XMMRegister) : ReturnsXmm (some (PackedStandard.horizontal g)) x y
      (some (bytesToXmm (neighbourElements f (xmmToBytes x) (xmmToBytes y)))) := by
  have hlanes : 64 / w = count :=
    Nat.div_eq_of_eq_mul_right (by omega) (by rw [Nat.mul_add] at hcount; omega)
  have hinside : ∀ i < count + count, w * i + w ≤ 128 :=
    fun i hi => (lane_index (by omega) hcount).mpr hi
  unfold neighbourElements
  dsimp only
  rw [hf, hlanes]
  refine returns_halves (l := PackedStandard.horizontal g) hn hw hcount x y _ _ ?_ ?_
  · intro i hi
    rw [element_xmmToBytes hw x (hinside (2 * i) (by omega)),
      element_xmmToBytes hw x (hinside (2 * i + 1) (by omega))]
    exact (if_pos (by rwa [hlanes])).symm
  · intro i hi
    have hbehind : ¬count + i < 64 / w := by omega
    rw [element_xmmToBytes hw y (hinside (2 * i) (by omega)),
      element_xmmToBytes hw y (hinside (2 * i + 1) (by omega))]
    refine Eq.symm ((if_neg hbehind).trans ?_)
    rw [hlanes, Nat.add_sub_cancel_left]

theorem returns_horizontal (opcode : U8) (x y : XMMRegister) :
    ReturnsXmm (PackedStandard.pairwise opcode.toNat) x y (applyAvx2Horizontal128 opcode x y) := by
  unfold applyAvx2Horizontal128
  generalize opcode.toNat = k
  dsimp only
  split
  · exact returns_neighbours Nat.two_pos rfl (rfl : 16 * (4 + 4) = 128) horizontalWord_add x y
  · exact returns_neighbours Nat.two_pos rfl (rfl : 16 * (4 + 4) = 128) horizontalWord_sub x y
  · exact returns_neighbours Nat.two_pos rfl (rfl : 16 * (4 + 4) = 128) horizontalWord_addSaturated x y
  · exact returns_neighbours Nat.two_pos rfl (rfl : 16 * (4 + 4) = 128) horizontalWord_subSaturated x y
  · exact returns_neighbours (Nat.succ_pos 3) rfl (rfl : 32 * (2 + 2) = 128) rfl x y
  · exact returns_neighbours (Nat.succ_pos 3) rfl (rfl : 32 * (2 + 2) = 128) rfl x y
  · unfold PackedStandard.pairwise
    split
    all_goals first | contradiction | trivial

/-- The units of one half of each register, in turn. -/
theorem returns_interleave (hn : 0 < n) (hw : w = 8 * n) {count : ℕ} (hcount : n * count = 8)
    (high : Bool) (x y : XMMRegister) : ReturnsXmm (some (PackedStandard.interleaved w high)) x y
      (some (bytesToXmm (sse2PackInterleave (xmmToBytes x) (xmmToBytes y) n high))) := by
  have hunits : 8 / n = count := Nat.div_eq_of_eq_mul_right hn hcount.symm
  have hlanes : 64 / w = count := by
    refine Nat.div_eq_of_eq_mul_right (by omega) ?_
    rw [hw, Nat.mul_assoc, hcount]
  have hwidth : w * (2 * count) = 128 := by
    rw [hw, Nat.mul_left_comm, Nat.mul_assoc 8, hcount]
  have hsize : w / 8 = n := by omega
  have hstart : (if high then count else 0) ≤ count := by split_ifs <;> omega
  have hlength : ∀ z : XMMRegister, (xmmToBytes z).length = 16 := by
    intro z
    rw [bytes_xmmToBytes, littleEndianBytes_length]
  -- the bytes of a unit are those of an element
  have hunit : ∀ (z : XMMRegister) (i : ℕ), i < count →
      ((xmmToBytes z).drop (((if high then count else 0) + i) * n)).take n =
        littleEndianBytes (w / 8) (lane w z.bits ((if high then count else 0) + i)) := by
    intro z i hi
    have hinside := (lane_index (i := (if high then count else 0) + i) (by omega) hwidth).mpr (by omega)
    have hend : ((if high then count else 0) + i) * n + n ≤ (xmmToBytes z).length := by
      rw [hlength, ← Nat.succ_mul, show 16 = (2 * count) * n by rw [Nat.mul_assoc, Nat.mul_comm count, hcount]]
      exact Nat.mul_le_mul_right n (by omega)
    rw [bytes_of_element hw hend, hsize, element_xmmToBytes hw z hinside]
  have hbytes : sse2PackInterleave (xmmToBytes x) (xmmToBytes y) n high =
      elements (2 * count) ((PackedStandard.interleaved w high).value x.bits y.bits) := by
    rw [← elements_pairs]
    unfold sse2PackInterleave
    dsimp only
    rw [hunits, List.flatMap_def, List.flatMap_def]
    congr 1
    refine List.map_congr_left fun i hi => ?_
    have hi' := List.mem_range.mp hi
    have heven : 2 * i % 2 = 0 := by omega
    have hodd : ¬(2 * i + 1) % 2 = 0 := by omega
    have hhalf : (2 * i + 1) / 2 = i := by omega
    rw [hunit x i hi', hunit y i hi']
    simp only [PackedStandard.interleaved, hlanes, heven, hodd, hhalf, if_true, if_false,
      Nat.mul_div_cancel_left i Nat.two_pos]
  rw [hbytes]
  exact (gives_elements_iff (l := PackedStandard.interleaved w high) hn hw hwidth _ _ _).mpr
    fun _ _ => rfl

theorem returns_pack (opcode : U8) (x y : XMMRegister) :
    ReturnsXmm (PackedStandard.pack opcode.toNat) x y (applyAvxPack128 opcode x y) := by
  have hbytes := fun high => returns_interleave Nat.one_pos rfl (rfl : 1 * 8 = 8) high x y
  have hwords := fun high => returns_interleave Nat.two_pos rfl (rfl : 2 * 4 = 8) high x y
  have hdwords := fun high => returns_interleave (Nat.succ_pos 3) rfl (rfl : 4 * 2 = 8) high x y
  have hqwords := fun high => returns_interleave (Nat.succ_pos 7) rfl (rfl : 8 * 1 = 8) high x y
  unfold applyAvxPack128
  generalize opcode.toNat = k
  dsimp only
  split
  · exact hbytes false
  · exact hwords false
  · exact hdwords false
  · exact returns_packed Nat.one_pos rfl rfl (rfl : 16 * 8 = 128) packI16ToI8_eq x y
  · exact returns_packed Nat.one_pos rfl rfl (rfl : 16 * 8 = 128) packI16ToU8_eq x y
  · exact hbytes true
  · exact hwords true
  · exact hdwords true
  · exact returns_packed Nat.two_pos rfl rfl (rfl : 32 * 4 = 128) packI32ToI16_eq x y
  · exact returns_packed Nat.two_pos rfl rfl (rfl : 32 * 4 = 128) packI32ToU16_eq x y
  · exact hqwords false
  · exact hqwords true
  · unfold PackedStandard.pack
    split
    all_goals first | contradiction | trivial

/-! ## Arithmetic -/

theorem element_byte (x : XMMRegister) {i : ℕ} (hi : i < 16) :
    element 8 (xmmToBytes x) i = lane 8 x.bits i := element_xmmToBytes (n := 1) rfl x (by omega)

theorem element_word (x : XMMRegister) {i : ℕ} (hi : i < 8) :
    element 16 (xmmToBytes x) i = lane 16 x.bits i := element_xmmToBytes (n := 2) rfl x (by omega)

theorem element_dword (x : XMMRegister) {i : ℕ} (hi : i < 4) :
    element 32 (xmmToBytes x) i = lane 32 x.bits i := element_xmmToBytes (n := 4) rfl x (by omega)

/-- Elements that are computed from several elements of each register. -/
theorem returns_elements {law : PackedStandard.LaneLaw 128} {count : ℕ} (hn : 0 < n)
    (hw : law.width = 8 * n) (hcount : law.width * count = 128) (x y : XMMRegister)
    (f : ℕ → BitVec law.width) (hf : ∀ i < count, f i = law.value x.bits y.bits i) :
    ReturnsXmm (some law) x y (some (bytesToXmm (elements count f))) :=
  (gives_elements_iff hn hw hcount f _ _).mpr hf

theorem returns_maddBytes (x y : XMMRegister) : ReturnsXmm (PackedStandard.arith 0x04) x y
    (some (bytesToXmm (elements 8 fun i =>
      maddBytes (element 8 (xmmToBytes x) (2 * i)) (element 8 (xmmToBytes x) (2 * i + 1))
        (element 8 (xmmToBytes y) (2 * i)) (element 8 (xmmToBytes y) (2 * i + 1))))) := by
  refine returns_elements Nat.two_pos rfl rfl x y _ fun i hi => ?_
  rw [element_byte x (by omega), element_byte x (by omega), element_byte y (by omega),
    element_byte y (by omega), maddBytes_eq]
  rfl

theorem returns_maddWords (x y : XMMRegister) : ReturnsXmm (PackedStandard.arith 0xF5) x y
    (some (bytesToXmm (elements 4 fun i =>
      maddWords (element 16 (xmmToBytes x) (2 * i)) (element 16 (xmmToBytes x) (2 * i + 1))
        (element 16 (xmmToBytes y) (2 * i)) (element 16 (xmmToBytes y) (2 * i + 1))))) := by
  refine returns_elements (Nat.succ_pos 3) rfl rfl x y _ fun i hi => ?_
  rw [element_word x (by omega), element_word x (by omega), element_word y (by omega),
    element_word y (by omega), maddWords_eq]
  rfl

theorem returns_mulSigned (x y : XMMRegister) : ReturnsXmm (PackedStandard.arith 0x28) x y
    (some (bytesToXmm (elements 2 fun i =>
      mulSigned 32 64 (element 32 (xmmToBytes x) (2 * i)) (element 32 (xmmToBytes y) (2 * i))))) := by
  refine returns_elements (Nat.succ_pos 7) rfl rfl x y _ fun i hi => ?_
  rw [element_dword x (by omega), element_dword y (by omega), mulSigned_eq (by decide)]
  rfl

theorem returns_mulUnsigned (x y : XMMRegister) : ReturnsXmm (PackedStandard.arith 0xF4) x y
    (some (bytesToXmm (elements 2 fun i => (element 32 (xmmToBytes x) (2 * i)).setWidth 64 *
      (element 32 (xmmToBytes y) (2 * i)).setWidth 64))) := by
  refine returns_elements (Nat.succ_pos 7) rfl rfl x y _ fun i hi => ?_
  rw [element_dword x (by omega), element_dword y (by omega), setWidth_mul (by decide)]
  rfl

theorem returns_distances (x y : XMMRegister) : ReturnsXmm (PackedStandard.arith 0xF6) x y
    (some (bytesToXmm (elements 2 fun block => distanceSum 64 8
      (fun i => element 8 (xmmToBytes x) (8 * block + i))
      (fun i => element 8 (xmmToBytes y) (8 * block + i))))) := by
  refine returns_elements (Nat.succ_pos 7) rfl rfl x y _ fun block hblock => ?_
  have hdistances : (List.range 8).map (fun i => PackedStandard.distance
      (element 8 (xmmToBytes x) (8 * block + i)) (element 8 (xmmToBytes y) (8 * block + i))) =
      (List.range 8).map fun i => PackedStandard.distance (lane 8 x.bits (8 * block + i))
        (lane 8 y.bits (8 * block + i)) := by
    refine List.map_congr_left fun i hi => ?_
    have hi' := List.mem_range.mp hi
    rw [element_byte x (by omega), element_byte y (by omega)]
  rw [distanceSum_eq, hdistances]
  rfl

/-- **Arithmetic** but for the rounded product. -/
theorem returns_arith (opcode : U8) (h : opcode.toNat ≠ 0x0B) (x y : XMMRegister) :
    ReturnsXmm (PackedStandard.arith opcode.toNat) x y (applyAvxIntArith128 opcode x y) := by
  unfold applyAvxIntArith128
  generalize opcode.toNat = k at h ⊢
  dsimp only
  split
  · exact returns_bytes x y rfl
  · exact returns_words x y rfl
  · exact returns_dwords x y rfl
  · exact returns_qwords x y rfl
  · exact returns_bytes x y (addUnsignedElement_eq (Nat.succ_pos 7))
  · exact returns_words x y (addUnsignedElement_eq (Nat.succ_pos 15))
  · exact returns_bytes x y (average_eq (Nat.succ_pos 7))
  · exact returns_words x y (average_eq (Nat.succ_pos 15))
  · exact returns_bytes x y addSignedByte_eq
  · exact returns_words x y addSignedWord_eq
  · exact returns_bytes x y rfl
  · exact returns_words x y rfl
  · exact returns_dwords x y rfl
  · exact returns_qwords x y rfl
  · exact returns_bytes x y subUnsignedElement_eq
  · exact returns_words x y subUnsignedElement_eq
  · exact returns_bytes x y subSignedByte_eq
  · exact returns_words x y subSignedWord_eq
  · exact returns_maddBytes x y
  · exact absurd rfl h
  · exact returns_mulSigned x y
  · exact returns_dwords x y mulLow_eq
  · exact returns_words x y mulLow_eq
  · exact returns_words x y mulHighUnsignedWord_eq
  · exact returns_words x y mulHighWord_eq
  · exact returns_distances x y
  · exact returns_mulUnsigned x y
  · exact returns_maddWords x y
  · unfold PackedStandard.arith
    split
    all_goals first | contradiction | trivial

/-- **The rounded product** is that of the architecture when no lane has two least words. -/
theorem gives_mulRounded_iff (x y : XMMRegister) :
    (PackedStandard.each PackedStandard.mulRounded).Gives x.bits y.bits
        (bytesToXmm (eachElement mulRoundedWord (xmmToBytes x) (xmmToBytes y))).bits ↔
      ∀ i < 8, ¬(lane 16 x.bits i = 0x8000 ∧ lane 16 y.bits i = 0x8000) := by
  rw [gives_each_iff Nat.two_pos rfl (rfl : 16 * 8 = 128)]
  exact forall_congr' fun i => forall_congr' fun _ => mulRoundedWord_eq_iff _ _

theorem applyAvxIntArith128_mulRounded {opcode : U8} (h : opcode.toNat = 0x0B) (x y : XMMRegister) :
    applyAvxIntArith128 opcode x y =
      some (bytesToXmm (eachElement mulRoundedWord (xmmToBytes x) (xmmToBytes y))) := by
  unfold applyAvxIntArith128
  rw [h]
  rfl

end Cpueaxh
