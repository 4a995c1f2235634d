/-
# Vector registers as lanes

The bits of a vector register, and the lanes of a result that was put together from bytes.  A
law of lanes holds of a register with both halves when it holds of each.
-/
import Cpueaxh.PackedElements

namespace Cpueaxh

open ByteOrder PackedLanes PackedStandard

variable {w n : ℕ}

def XMMRegister.bits (x : XMMRegister) : BitVec 128 := x.high ++ x.low

def AVXRegister256.bits (x : AVXRegister256) : BitVec 256 := x.high.bits ++ x.low.bits

/-! ## Bytes -/

theorem bytes_xmmToBytes (x : XMMRegister) : xmmToBytes x = littleEndianBytes 16 x.bits :=
  (littleEndianBytes_append (n := 8) (m := 8) rfl x.high x.low).symm

theorem bits_bytesToXmm (bytes : List U8) : (bytesToXmm bytes).bits = littleEndian 128 bytes :=
  (littleEndian_append (n := 8) (m := 8) rfl rfl bytes).symm

theorem element_xmmToBytes (hw : w = 8 * n) (x : XMMRegister) {i : ℕ} (hi : w * i + w ≤ 128) :
    element w (xmmToBytes x) i = lane w x.bits i := by
  rw [bytes_xmmToBytes]
  exact element_littleEndianBytes hw x.bits rfl hi

theorem lane_bytesToXmm (hw : w = 8 * n) (bytes : List U8) {i : ℕ} (hi : w * i + w ≤ 128) :
    lane w (bytesToXmm bytes).bits i = element w bytes i := by
  rw [bits_bytesToXmm, lane_littleEndian hw bytes hi]

theorem bits_bytesFrom (bytes : List U8) (offset : ℕ) :
    (sse2PackBytesToXmm bytes offset).bits = field 128 bytes offset := by
  apply BitVec.eq_of_getLsbD_eq
  intro i hi
  unfold XMMRegister.bits sse2PackBytesToXmm
  rw [BitVec.getLsbD_append, getLsbD_field (n := 8) rfl, getLsbD_field (n := 8) rfl,
    getLsbD_field (n := 16) rfl, decide_eq_true hi]
  split_ifs with hlow
  · rw [decide_eq_true hlow]
  · have hdiv : offset + 8 + (i - 64) / 8 = offset + i / 8 := by omega
    have hmod : (i - 64) % 8 = i % 8 := by omega
    rw [decide_eq_true (by omega : i - 64 < 64), hdiv, hmod]

theorem bits_bytesToYmm (bytes : List U8) : (bytesToYmm bytes).bits = littleEndian 256 bytes := by
  rw [AVXRegister256.bits, bytesToYmm, bits_bytesFrom, bits_bytesFrom]
  exact (littleEndian_append (n := 16) (m := 16) rfl rfl bytes).symm

/-! ## Laws of lanes -/

/-- The number of a lane. -/
theorem lane_index {m count i : ℕ} (hw : 0 < w) (hcount : w * count = m) :
    w * i + w ≤ m ↔ i < count := by
  rw [← Nat.mul_succ, ← hcount, Nat.mul_le_mul_left_iff hw, Nat.succ_le_iff]

theorem gives_lanes_iff {m : ℕ} {l : LaneLaw m} {count : ℕ} (hpos : 0 < l.width)
    (hcount : l.width * count = m) (x y r : BitVec m) :
    l.Gives x y r ↔ ∀ i < count, lane l.width r i = l.value x y i := by
  constructor
  · intro h i hi
    exact h.lanes i ((lane_index hpos hcount).mpr hi)
  · intro h
    exact ⟨hpos, ⟨count, hcount.symm⟩, fun i hi => h i ((lane_index hpos hcount).mp hi)⟩

/-- **A result of elements** gives the lanes of a law when each element is the lane. -/
theorem gives_littleEndian_iff {m : ℕ} {l : LaneLaw m} {count : ℕ} (hn : 0 < n)
    (hw : l.width = 8 * n) (hcount : l.width * count = m) (f : ℕ → BitVec l.width)
    (x y : BitVec m) :
    l.Gives x y (littleEndian m (elements count f)) ↔ ∀ i < count, f i = l.value x y i := by
  have hpos : 0 < l.width := by omega
  rw [gives_lanes_iff hpos hcount]
  refine forall_congr' fun i => forall_congr' fun hi => ?_
  rw [lane_littleEndian hw _ ((lane_index hpos hcount).mpr hi), element_elements hw f hi]

theorem gives_elements_iff {l : LaneLaw 128} {count : ℕ} (hn : 0 < n) (hw : l.width = 8 * n)
    (hcount : l.width * count = 128) (f : ℕ → BitVec l.width) (x y : BitVec 128) :
    l.Gives x y (bytesToXmm (elements count f)).bits ↔ ∀ i < count, f i = l.value x y i := by
  rw [bits_bytesToXmm]
  exact gives_littleEndian_iff hn hw hcount f x y

/-- **A law that holds lane by lane.** -/
theorem gives_each_iff {count : ℕ} (hn : 0 < n) (hw : w = 8 * n) (hcount : w * count = 128)
    (f g : BitVec w → BitVec w → BitVec w) (x y : XMMRegister) :
    (each g).Gives x.bits y.bits (bytesToXmm (eachElement f (xmmToBytes x) (xmmToBytes y))).bits ↔
      ∀ i < count, f (lane w x.bits i) (lane w y.bits i) = g (lane w x.bits i) (lane w y.bits i) := by
  have hlanes : 128 / w = count := Nat.div_eq_of_eq_mul_right (by omega) hcount.symm
  rw [eachElement, hlanes]
  refine (gives_elements_iff (l := each g) hn hw hcount _ _ _).trans ?_
  refine forall_congr' fun i => forall_congr' fun hi => ?_
  have hinside := (lane_index (by omega) hcount).mpr hi
  rw [element_xmmToBytes hw x hinside, element_xmmToBytes hw y hinside]
  exact Iff.rfl

theorem gives_each {count : ℕ} (hn : 0 < n) (hw : w = 8 * n) (hcount : w * count = 128)
    {f g : BitVec w → BitVec w → BitVec w} (hfg : f = g) (x y : XMMRegister) :
    (each g).Gives x.bits y.bits (bytesToXmm (eachElement f (xmmToBytes x) (xmmToBytes y))).bits :=
  (gives_each_iff hn hw hcount f g x y).mpr fun _ _ => by rw [hfg]

/-! ## Registers that are read by lanes -/

/-- The lanes that are read are those of the bits. -/
structure ReadsLanes {V : Type} {m : ℕ} (lanes : Lanes V w) (bits : V → BitVec m) : Prop where
  pos : 0 < w
  size : w * lanes.count = m
  get_eq : ∀ v, ∀ i < lanes.count, lanes.get v i = lane w (bits v) i

section Reads

variable {V U : Type} {m : ℕ} {lanes : Lanes V w} {bits : V → BitVec m}

/-- The lanes of both halves of a value. -/
theorem ReadsLanes.double (h : ReadsLanes lanes bits) (low high : U → V) (make : V → V → U)
    (hlow : ∀ a b, low (make a b) = a) (hhigh : ∀ a b, high (make a b) = b) :
    ReadsLanes (lanes.double low high make hlow hhigh) fun u => bits (high u) ++ bits (low u) where
  pos := h.pos
  size := by
    rw [← h.size]
    exact Nat.mul_add w lanes.count lanes.count
  get_eq u i hi := by
    have hi' : i < lanes.count + lanes.count := hi
    have hhalves := lane_append (bits (high u)) (bits (low u))
    show (if i < lanes.count then lanes.get (low u) i else lanes.get (high u) (i - lanes.count)) = _
    split_ifs with hhalf
    · rw [h.get_eq _ i hhalf]
      conv_lhs => rw [← hhalves.1, lane_lane h.size hhalf, Nat.mul_zero, Nat.zero_add]
    · have hback : lanes.count * 1 + (i - lanes.count) = i := by omega
      rw [h.get_eq _ _ (by omega)]
      conv_lhs => rw [← hhalves.2, lane_lane h.size (by omega), hback]

/-- **A register that was written by lanes** gives a law when each lane is the lane of the law. -/
theorem gives_reads_iff (h : ReadsLanes lanes bits) {value : BitVec m → BitVec m → ℕ → BitVec w}
    (x y : BitVec m) (r : V) : LaneLaw.Gives ⟨w, value⟩ x y (bits r) ↔
      ∀ i < lanes.count, lanes.get r i = value x y i := by
  refine (gives_lanes_iff (l := ⟨w, value⟩) h.pos h.size _ _ _).trans ?_
  refine forall_congr' fun i => forall_congr' fun hi => ?_
  rw [h.get_eq r i hi]

/-- A value whose lanes were all written. -/
theorem get_filled (lanes : Lanes V w) (f : ℕ → BitVec w) (v : V) :
    ∀ i < lanes.count, lanes.get (lanes.fill (fun _ => true) f lanes.count 0 v) i = f i := by
  intro i hi
  have hcount : 0 + lanes.count ≤ lanes.count := Nat.le_of_eq (Nat.zero_add _)
  rw [lanes.get_fill _ _ _ 0 v hcount hi, if_pos ⟨⟨Nat.zero_le i, by omega⟩, rfl⟩]

theorem gives_fill_iff (h : ReadsLanes lanes bits) {value : BitVec m → BitVec m → ℕ → BitVec w}
    (x y : BitVec m) (f : ℕ → BitVec w) (v : V) :
    LaneLaw.Gives ⟨w, value⟩ x y (bits (lanes.fill (fun _ => true) f lanes.count 0 v)) ↔
      ∀ i < lanes.count, f i = value x y i := by
  rw [gives_reads_iff h]
  refine forall_congr' fun i => forall_congr' fun hi => ?_
  rw [get_filled lanes f v i hi]

end Reads

theorem getXmmLaneBits_eq (x : XMMRegister) {i : ℕ} (hi : i < 4) :
    getXmmLaneBits x i = lane 32 x.bits i := by
  have hlow : lane 64 x.bits 0 = x.low := (lane_append x.high x.low).1
  have hhigh : lane 64 x.bits 1 = x.high := (lane_append x.high x.low).2
  have hfirst : ∀ word : U64, (word &&& 0xFFFFFFFF).setWidth 32 = lane 32 word 0 := by
    intro word
    rw [lowHalf_eq, lane, Nat.mul_zero, ← BitVec.setWidth_ushiftRight_eq_extractLsb,
      BitVec.ushiftRight_zero]
  have hsecond : ∀ word : U64, (word >>> 32).setWidth 32 = lane 32 word 1 :=
    fun word => BitVec.setWidth_ushiftRight_eq_extractLsb
  have hlane : ∀ k i, i < 2 → lane 32 (lane 64 x.bits k) i = lane 32 x.bits (2 * k + i) :=
    fun k i hi => lane_lane (show 32 * 2 = 64 from rfl) hi x.bits k
  obtain rfl | rfl | rfl | rfl : i = 0 ∨ i = 1 ∨ i = 2 ∨ i = 3 := by omega
  · exact (hfirst x.low).trans (by rw [← hlow, hlane 0 0 (by decide)])
  · exact (hsecond x.low).trans (by rw [← hlow, hlane 0 1 (by decide)])
  · exact (hfirst x.high).trans (by rw [← hhigh, hlane 1 0 (by decide)])
  · exact (hsecond x.high).trans (by rw [← hhigh, hlane 1 1 (by decide)])

theorem readsLanes_xmm : ReadsLanes xmmLanes XMMRegister.bits where
  pos := by decide
  size := rfl
  get_eq x _ hi := getXmmLaneBits_eq x hi

theorem readsLanes_ymm : ReadsLanes ymmLanes AVXRegister256.bits :=
  readsLanes_xmm.double _ _ _ _ _

theorem readsLanes_xmmPd : ReadsLanes xmmPdLanes XMMRegister.bits where
  pos := by decide
  size := rfl
  get_eq x i hi := by
    have hlt : i < 2 := hi
    obtain rfl | rfl : i = 0 ∨ i = 1 := by omega
    · exact (lane_append x.high x.low).1.symm
    · exact (lane_append x.high x.low).2.symm

theorem readsLanes_ymmPd : ReadsLanes ymmPdLanes AVXRegister256.bits :=
  readsLanes_xmmPd.double _ _ _ _ _

/-- The elements of a word. -/
theorem readsLanes_word (hw : 0 < w) {count : ℕ} (hcount : w * count = 64) :
    ReadsLanes (wordElements w count hcount) id where
  pos := hw
  size := hcount
  get_eq word i _ := by
    show (word >>> (i * w)).setWidth w = lane w word i
    rw [BitVec.setWidth_ushiftRight_eq_extractLsb, lane, Nat.mul_comm]

theorem readsLanes_xmmWord : ReadsLanes xmmWordLanes XMMRegister.bits :=
  (readsLanes_word (by decide) rfl).double _ _ _ _ _

theorem readsLanes_ymmWord : ReadsLanes ymmWordLanes AVXRegister256.bits :=
  readsLanes_xmmWord.double _ _ _ _ _

theorem readsLanes_xmmByte : ReadsLanes xmmByteLanes XMMRegister.bits :=
  (readsLanes_word (by decide) rfl).double _ _ _ _ _

theorem readsLanes_ymmByte : ReadsLanes ymmByteLanes AVXRegister256.bits :=
  readsLanes_xmmByte.double _ _ _ _ _

/-! ## Laws of both halves -/

theorem lane_low (x : AVXRegister256) : lane 128 x.bits 0 = x.low.bits := (lane_append _ _).1

theorem lane_high (x : AVXRegister256) : lane 128 x.bits 1 = x.high.bits := (lane_append _ _).2

theorem lane_of_low {count i : ℕ} (hcount : w * count = 128) (hi : i < count) (x : AVXRegister256) :
    lane w x.bits i = lane w x.low.bits i := by
  rw [← lane_low, lane_lane hcount hi, Nat.mul_zero, Nat.zero_add]

theorem lane_of_high {count i : ℕ} (hcount : w * count = 128) (hi : i < count) (x : AVXRegister256) :
    lane w x.bits (count + i) = lane w x.high.bits i := by
  rw [← lane_high, lane_lane hcount hi, Nat.mul_one]

/-- What holds of all lanes holds of those of each half. -/
theorem forall_halves_iff {count : ℕ} {P : ℕ → Prop} :
    (∀ i < count + count, P i) ↔ (∀ i < count, P i) ∧ ∀ i < count, P (count + i) := by
  constructor
  · intro h
    exact ⟨fun i hi => h i (by omega), fun i hi => h (count + i) (by omega)⟩
  · rintro ⟨h0, h1⟩ i hi
    by_cases hhalf : i < count
    · exact h0 i hhalf
    · have hback : count + (i - count) = i := by omega
      have hlane := h1 (i - count) (by omega)
      rwa [hback] at hlane

/-- What holds of the pairs of lanes of two registers holds of the pairs of each half. -/
theorem forall_lanes_iff {count : ℕ} (hcount : w * count = 128) (x y : AVXRegister256)
    (P : BitVec w → BitVec w → Prop) :
    (∀ i < count + count, P (lane w x.bits i) (lane w y.bits i)) ↔
      (∀ i < count, P (lane w x.low.bits i) (lane w y.low.bits i)) ∧
        ∀ i < count, P (lane w x.high.bits i) (lane w y.high.bits i) := by
  rw [forall_halves_iff]
  refine and_congr (forall_congr' fun i => forall_congr' fun hi => ?_)
    (forall_congr' fun i => forall_congr' fun hi => ?_)
  · rw [lane_of_low hcount hi, lane_of_low hcount hi]
  · rw [lane_of_high hcount hi, lane_of_high hcount hi]

/-- The lanes of a law of both halves. -/
theorem halves_value {l : LaneLaw 128} (hpos : 0 < l.width) {count : ℕ}
    (hcount : l.width * count = 128) (x y : BitVec 256) (i : ℕ) :
    (i < count → (halves l).value x y i = l.value (lane 128 x 0) (lane 128 y 0) i) ∧
      (halves l).value x y (count + i) = l.value (lane 128 x 1) (lane 128 y 1) i := by
  have hdiv : 128 / l.width = count := Nat.div_eq_of_eq_mul_right hpos hcount.symm
  have hbehind : ¬count + i < 128 / l.width := by omega
  refine ⟨fun hi => if_pos (by rwa [hdiv]), (if_neg hbehind).trans ?_⟩
  rw [hdiv, Nat.add_sub_cancel_left]

/-- **A law of both halves** holds of a register when it holds of each half. -/
theorem gives_halves_iff {l : LaneLaw 128} (hpos : 0 < l.width) (hfills : l.width ∣ 128)
    (x y r : AVXRegister256) : (halves l).Gives x.bits y.bits r.bits ↔
      l.Gives x.low.bits y.low.bits r.low.bits ∧ l.Gives x.high.bits y.high.bits r.high.bits := by
  obtain ⟨count, hcount⟩ := hfills
  have hwhole : (halves l).width * (count + count) = 256 :=
    (Nat.mul_add l.width count count).trans (by rw [← hcount])
  have hvalue := halves_value hpos hcount.symm x.bits y.bits
  rw [lane_low, lane_low, lane_high, lane_high] at hvalue
  rw [gives_lanes_iff (l := halves l) hpos hwhole, gives_lanes_iff hpos hcount.symm,
    gives_lanes_iff hpos hcount.symm, forall_halves_iff]
  refine and_congr (forall_congr' fun i => forall_congr' fun hi => ?_)
    (forall_congr' fun i => forall_congr' fun hi => ?_)
  · rw [(hvalue i).1 hi, ← lane_of_low hcount.symm hi r]
    exact Iff.rfl
  · rw [(hvalue i).2, ← lane_of_high hcount.symm hi r]
    exact Iff.rfl

/-- **An operation that returns the lanes** of the architecture for each half returns those of
both halves. -/
theorem returns_bothHalves {law : Option (LaneLaw 128)}
    {apply : XMMRegister → XMMRegister → Option XMMRegister}
    (h : ∀ a b : XMMRegister, Returns law a.bits b.bits ((apply a b).map XMMRegister.bits))
    (x y : AVXRegister256) : Returns (law.map halves) x.bits y.bits
      ((PackedOp.bothHalves apply x y).map AVXRegister256.bits) := by
  have h0 := h x.low y.low
  have h1 := h x.high y.high
  unfold PackedOp.bothHalves
  revert h0 h1
  match law, apply x.low y.low, apply x.high y.high with
  | some law, some low, some high =>
    intro h0 h1
    exact (gives_halves_iff h0.pos h0.fills x y ⟨low, high⟩).mpr ⟨h0, h1⟩
  | none, none, _ => exact fun _ _ => trivial
  | some _, none, _ => exact fun h0 _ => h0.elim
  | some _, some _, none => exact fun _ h1 => h1.elim
  | none, some _, _ => exact fun h0 _ => h0.elim

end Cpueaxh
