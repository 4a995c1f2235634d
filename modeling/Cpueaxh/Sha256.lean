/-
# The SHA-256 instructions

`SHA256RNDS2`, `SHA256MSG1` and `SHA256MSG2` of `instructions/sha256.hpp`, with the packed
instructions that stand between them: `PADDD`, `PSHUFD` and `PALIGNR`.  Sixteen groups of them,
each of four rounds, compute the message schedule and the compression function.
-/
import Cpueaxh.Evex
import Cpueaxh.MaskedInstructions
import Cpueaxh.Sha256Standard

namespace Cpueaxh

open ByteOrder HostMemory Sha256Standard

/-! ## Words of a register -/

/-- `sha256_get_dword`, which is `get_sse2_shuffle_dword_lane`. -/
def sha256GetDword (value : XMMRegister) (lane : ℕ) : U32 := getXmmLaneBits value lane

/-- `sha256_set_dword`, which is `set_sse2_shuffle_dword_lane`. -/
def sha256SetDword (value : XMMRegister) (lane : ℕ) (dword : U32) : XMMRegister :=
  setXmmLaneBits value lane dword

/-- The results of the instructions: lane 3 is written first. -/
def sha256Result (lane3 lane2 lane1 lane0 : U32) : XMMRegister :=
  let result := sha256SetDword .zero 3 lane3
  let result := sha256SetDword result 2 lane2
  let result := sha256SetDword result 1 lane1
  sha256SetDword result 0 lane0

/-! ## The functions -/

/-- `sha256_rotr32`. -/
def sha256Rotr32 (value : U32) (shift : ℕ) : U32 := value >>> shift ||| value <<< (32 - shift)

/-- `sha256_big_sigma0`. -/
def sha256BigSigma0 (value : U32) : U32 :=
  sha256Rotr32 value 2 ^^^ sha256Rotr32 value 13 ^^^ sha256Rotr32 value 22

/-- `sha256_big_sigma1`. -/
def sha256BigSigma1 (value : U32) : U32 :=
  sha256Rotr32 value 6 ^^^ sha256Rotr32 value 11 ^^^ sha256Rotr32 value 25

/-- `sha256_small_sigma0`. -/
def sha256SmallSigma0 (value : U32) : U32 :=
  sha256Rotr32 value 7 ^^^ sha256Rotr32 value 18 ^^^ value >>> 3

/-- `sha256_small_sigma1`. -/
def sha256SmallSigma1 (value : U32) : U32 :=
  sha256Rotr32 value 17 ^^^ sha256Rotr32 value 19 ^^^ value >>> 10

/-- `sha256_choose`. -/
def sha256Choose (x y z : U32) : U32 := (x &&& y) ^^^ (~~~x &&& z)

/-- `sha256_majority`. -/
def sha256Majority (x y z : U32) : U32 := (x &&& y) ^^^ (x &&& z) ^^^ (y &&& z)

/-! ## The instructions -/

/-- A turn of the loop of `apply_sha256rnds2`. -/
def sha256Turn (s : Working) (roundWk : U32) : Working :=
  let t1 := s.h + sha256BigSigma1 s.e + sha256Choose s.e s.f s.g + roundWk
  let newA := t1 + sha256BigSigma0 s.a + sha256Majority s.a s.b s.c
  let newE := t1 + s.d
  ⟨newA, s.a, s.b, s.c, newE, s.e, s.f, s.g⟩

/-- `apply_sha256rnds2`. -/
def applySha256rnds2 (src1 src2 wk : XMMRegister) : XMMRegister :=
  let start : Working :=
    { a := sha256GetDword src2 3
      b := sha256GetDword src2 2
      c := sha256GetDword src1 3
      d := sha256GetDword src1 2
      e := sha256GetDword src2 1
      f := sha256GetDword src2 0
      g := sha256GetDword src1 1
      h := sha256GetDword src1 0 }
  let s := sha256Turn (sha256Turn start (sha256GetDword wk 0)) (sha256GetDword wk 1)
  sha256Result s.a s.b s.e s.f

/-- `apply_sha256msg1`. -/
def applySha256msg1 (src1 src2 : XMMRegister) : XMMRegister :=
  let w4 := sha256GetDword src2 0
  let w3 := sha256GetDword src1 3
  let w2 := sha256GetDword src1 2
  let w1 := sha256GetDword src1 1
  let w0 := sha256GetDword src1 0
  sha256Result (w3 + sha256SmallSigma0 w4) (w2 + sha256SmallSigma0 w3) (w1 + sha256SmallSigma0 w2)
    (w0 + sha256SmallSigma0 w1)

/-- `apply_sha256msg2`. -/
def applySha256msg2 (src1 src2 : XMMRegister) : XMMRegister :=
  let w14 := sha256GetDword src2 2
  let w15 := sha256GetDword src2 3
  let w16 := sha256GetDword src1 0 + sha256SmallSigma1 w14
  let w17 := sha256GetDword src1 1 + sha256SmallSigma1 w15
  let w18 := sha256GetDword src1 2 + sha256SmallSigma1 w16
  let w19 := sha256GetDword src1 3 + sha256SmallSigma1 w17
  sha256Result w19 w18 w17 w16

/-- `PADDD`: the case `0xFE` of `execute_sse2_int_arith_with_decoded`. -/
def applyPaddd (lhs rhs : XMMRegister) : XMMRegister :=
  let lhsBytes := xmmToBytes lhs
  let rhsBytes := xmmToBytes rhs
  let dwords := (List.range 4).map fun index =>
    field 32 lhsBytes (index * 4) + field 32 rhsBytes (index * 4)
  sse2PackBytesToXmm (dwords.flatMap (littleEndianBytes 4)) 0

/-- `apply_sse2_pshufd128`. -/
def applySse2Pshufd128 (src : XMMRegister) (imm8 : U8) : XMMRegister :=
  (List.range 4).foldl (fun result lane =>
    sha256SetDword result lane (sha256GetDword src (imm8 >>> (lane * 2) &&& 0x03).toNat)) .zero

/-! ## The standard sequence -/

/-- The registers of the sequence: four message words each in the first, and the working
variables in the last two. -/
structure Sha256Registers where
  msg0 : XMMRegister
  msg1 : XMMRegister
  msg2 : XMMRegister
  msg3 : XMMRegister
  abef : XMMRegister
  cdgh : XMMRegister

/-- The instructions of four rounds: the first `SHA256RNDS2` takes the sums of the words and the
constants from the low half, the second from the high half, and the next four words of the
schedule follow from the last sixteen. -/
def Sha256Registers.group (r : Sha256Registers) (k : XMMRegister) : Sha256Registers :=
  let wk := applyPaddd r.msg0 k
  let cdgh := applySha256rnds2 r.cdgh r.abef wk
  let abef := applySha256rnds2 r.abef cdgh (applySse2Pshufd128 wk 0x0E)
  let sum := applyPaddd (applySha256msg1 r.msg0 r.msg1) (applyPalignr128 r.msg3 r.msg2 4)
  ⟨r.msg1, r.msg2, r.msg3, applySha256msg2 sum r.msg3, abef, cdgh⟩

/-- Four words in a register, the first in the lowest lane. -/
def packWords (w : ℕ → U32) (t : ℕ) : XMMRegister :=
  sha256Result (w (t + 3)) (w (t + 2)) (w (t + 1)) (w t)

/-- The variables `a`, `b`, `e` and `f` in a register. -/
def packAbef (s : Working) : XMMRegister := sha256Result s.a s.b s.e s.f

/-- The variables `c`, `d`, `g` and `h` in a register. -/
def packCdgh (s : Working) : XMMRegister := sha256Result s.c s.d s.g s.h

/-- The registers behind some groups, for a block and a chaining state. -/
def sha256Registers (block : Fin 16 → U32) (s : Working) : ℕ → Sha256Registers
  | 0 =>
    let word (t : ℕ) : U32 := block (Fin.ofNat 16 t)
    { msg0 := packWords word 0
      msg1 := packWords word 4
      msg2 := packWords word 8
      msg3 := packWords word 12
      abef := packAbef s
      cdgh := packCdgh s }
  | n + 1 => (sha256Registers block s n).group (packWords constant (4 * n))

/-! ## Lanes -/

/-- Registers with the same lanes are the same. -/
theorem xmm_ext {x y : XMMRegister}
    (h : ∀ lane < 4, sha256GetDword x lane = sha256GetDword y lane) : x = y := by
  have hword : ∀ u v : U64, u.setWidth 32 = v.setWidth 32 →
      (u >>> 32).setWidth 32 = (v >>> 32).setWidth 32 → u = v := by
    intro u v hlow hhigh
    apply BitVec.eq_of_getLsbD_eq
    intro i hi
    by_cases hi32 : i < 32
    · have hbit := congrArg (fun z : U32 => z.getLsbD i) hlow
      simpa [hi32] using hbit
    · have hbit := congrArg (fun z : U32 => z.getLsbD (i - 32)) hhigh
      simpa [show i - 32 < 32 by omega, show 32 + (i - 32) = i by omega] using hbit
  have h0 := h 0 (by decide)
  have h1 := h 1 (by decide)
  have h2 := h 2 (by decide)
  have h3 := h 3 (by decide)
  simp only [sha256GetDword, getXmmLaneBits, lowHalf_eq] at h0 h1 h2 h3
  obtain ⟨xlow, xhigh⟩ := x
  obtain ⟨ylow, yhigh⟩ := y
  rw [hword xlow ylow h0 h1, hword xhigh yhigh h2 h3]

theorem sha256GetDword_set (value : XMMRegister) {i j : ℕ} (dword : U32) (hi : i < 4)
    (hj : j < 4) : sha256GetDword (sha256SetDword value i dword) j =
      if j = i then dword else sha256GetDword value j :=
  xmmLanes.get_set value i j dword hi hj

section Result

variable (lane3 lane2 lane1 lane0 : U32)

@[simp] theorem sha256GetDword_result_zero :
    sha256GetDword (sha256Result lane3 lane2 lane1 lane0) 0 = lane0 := by
  rw [sha256Result, sha256GetDword_set _ _ (by decide) (by decide), if_pos rfl]

@[simp] theorem sha256GetDword_result_one :
    sha256GetDword (sha256Result lane3 lane2 lane1 lane0) 1 = lane1 := by
  rw [sha256Result, sha256GetDword_set _ _ (by decide) (by decide), if_neg (by decide),
    sha256GetDword_set _ _ (by decide) (by decide), if_pos rfl]

@[simp] theorem sha256GetDword_result_two :
    sha256GetDword (sha256Result lane3 lane2 lane1 lane0) 2 = lane2 := by
  rw [sha256Result, sha256GetDword_set _ _ (by decide) (by decide), if_neg (by decide),
    sha256GetDword_set _ _ (by decide) (by decide), if_neg (by decide),
    sha256GetDword_set _ _ (by decide) (by decide), if_pos rfl]

@[simp] theorem sha256GetDword_result_three :
    sha256GetDword (sha256Result lane3 lane2 lane1 lane0) 3 = lane3 := by
  rw [sha256Result, sha256GetDword_set _ _ (by decide) (by decide), if_neg (by decide),
    sha256GetDword_set _ _ (by decide) (by decide), if_neg (by decide),
    sha256GetDword_set _ _ (by decide) (by decide), if_neg (by decide),
    sha256GetDword_set _ _ (by decide) (by decide), if_pos rfl]

end Result

/-- A register with known lanes. -/
theorem eq_sha256Result {value : XMMRegister} {lane3 lane2 lane1 lane0 : U32}
    (h0 : sha256GetDword value 0 = lane0) (h1 : sha256GetDword value 1 = lane1)
    (h2 : sha256GetDword value 2 = lane2) (h3 : sha256GetDword value 3 = lane3) :
    value = sha256Result lane3 lane2 lane1 lane0 := by
  apply xmm_ext
  intro lane hlane
  match lane, hlane with
  | 0, _ => simpa using h0
  | 1, _ => simpa using h1
  | 2, _ => simpa using h2
  | 3, _ => simpa using h3

/-! ## The packed instructions -/

theorem xmmOfBytes_toBytes (value : XMMRegister) : xmmOfBytes (xmmToBytes value) = value := by
  have hlow : field 64 (xmmToBytes value) 0 = value.low :=
    @field_of_drop 64 8 _ (littleEndianBytes 8 value.high) 0 rfl _ rfl
  have hhigh : field 64 (xmmToBytes value) 8 = value.high :=
    @field_of_drop 64 8 _ [] 8 rfl _ rfl
  rw [xmmOfBytes, hlow, hhigh]

/-- The lanes of a register in its bytes. -/
theorem field_xmmToBytes (value : XMMRegister) {lane : ℕ} (h : lane < 4) :
    field 32 (xmmToBytes value) (lane * 4) = sha256GetDword value lane := by
  have hlanes := xmmLanes_ofBytes (xmmToBytes value) h
  rw [xmmOfBytes_toBytes] at hlanes
  exact hlanes.symm

theorem sha256GetDword_pack (bytes : List U8) {lane : ℕ} (h : lane < 4) :
    sha256GetDword (sse2PackBytesToXmm bytes 0) lane = field 32 bytes (lane * 4) :=
  xmmLanes_ofBytes bytes h

@[simp] theorem sha256GetDword_paddd (lhs rhs : XMMRegister) {lane : ℕ} (h : lane < 4) :
    sha256GetDword (applyPaddd lhs rhs) lane =
      sha256GetDword lhs lane + sha256GetDword rhs lane := by
  unfold applyPaddd
  dsimp only
  rw [sha256GetDword_pack _ h]
  refine field_array (n := 4) rfl rfl ?_
  rw [List.getElem?_map, List.getElem?_range h, Option.map_some, field_xmmToBytes lhs h,
    field_xmmToBytes rhs h]

/-- `PALIGNR` by four bytes: the lanes of two registers behind one another, from the second on. -/
theorem palignr_four (src1 src2 : XMMRegister) :
    applyPalignr128 src1 src2 4 =
      sha256Result (sha256GetDword src1 0) (sha256GetDword src2 3) (sha256GetDword src2 2)
        (sha256GetDword src2 1) := by
  have hlength : (xmmToBytes src2).length = 16 := by
    rw [xmmToBytes, List.length_append, littleEndianBytes_length, littleEndianBytes_length]
  have hlane : ∀ lane < 4, sha256GetDword (applyPalignr128 src1 src2 4) lane =
      field 32 (xmmToBytes src2 ++ xmmToBytes src1) ((lane + 1) * 4) := by
    intro lane h
    unfold applyPalignr128
    dsimp only
    rw [sha256GetDword_pack _ h]
    apply BitVec.eq_of_getLsbD_eq
    intro i hi
    have hindex : lane * 4 + i / 8 < 16 := by omega
    have hbyte : (4 : U8).toNat + (lane * 4 + i / 8) = (lane + 1) * 4 + i / 8 := by
      show 4 + (lane * 4 + i / 8) = _
      omega
    rw [getLsbD_field (n := 4) rfl, getLsbD_field (n := 4) rfl, List.getD_eq_getElem?_getD,
      List.getElem?_map, List.getElem?_range hindex, Option.map_some, Option.getD_some, hbyte]
  have hfirst : ∀ lane < 3, sha256GetDword (applyPalignr128 src1 src2 4) lane =
      sha256GetDword src2 (lane + 1) := by
    intro lane h
    have hinside : (lane + 1) * 4 + 32 / 8 ≤ (xmmToBytes src2).length := by
      rw [hlength]
      omega
    rw [hlane lane (by omega), (field_append _ _ _).1 hinside, field_xmmToBytes _ (by omega)]
  have hlast : sha256GetDword (applyPalignr128 src1 src2 4) 3 = sha256GetDword src1 0 := by
    have hbehind := (@field_append 32 (xmmToBytes src2) (xmmToBytes src1) 0).2
    rw [hlength] at hbehind
    rw [hlane 3 (by decide)]
    exact hbehind.trans (@field_xmmToBytes src1 0 (by decide))
  exact eq_sha256Result (hfirst 0 (by decide)) (hfirst 1 (by decide)) (hfirst 2 (by decide)) hlast

/-- `PSHUFD` with the selector of the sequence brings the high half down. -/
theorem pshufd_high (src : XMMRegister) :
    applySse2Pshufd128 src 0x0E =
      sha256Result (sha256GetDword src 0) (sha256GetDword src 0) (sha256GetDword src 3)
        (sha256GetDword src 2) := by
  have hsets : applySse2Pshufd128 src 0x0E =
      sha256SetDword (sha256SetDword (sha256SetDword (sha256SetDword .zero 0 (sha256GetDword src 2))
        1 (sha256GetDword src 3)) 2 (sha256GetDword src 0)) 3 (sha256GetDword src 0) := rfl
  rw [hsets]
  apply eq_sha256Result
  all_goals
    simp only [sha256GetDword_set, Nat.reduceLT, Nat.reduceEqDiff, if_true, if_false, OfNat.ofNat_ne_zero,
      OfNat.zero_ne_ofNat, zero_ne_one, one_ne_zero, OfNat.ofNat_ne_one, OfNat.one_ne_ofNat]

/-! ## The code and the standard -/

theorem sha256Rotr32_eq (value : U32) {shift : ℕ} (h : shift < 32) :
    sha256Rotr32 value shift = value.rotateRight shift := by
  rw [BitVec.rotateRight_def, Nat.mod_eq_of_lt h, sha256Rotr32]

/-- The functions of the code are those of the standard. -/
@[simp] theorem sha256SmallSigma0_eq (value : U32) :
    sha256SmallSigma0 value = smallSigma0 value := by
  rw [sha256SmallSigma0, sha256Rotr32_eq _ (by decide), sha256Rotr32_eq _ (by decide), smallSigma0]

@[simp] theorem sha256SmallSigma1_eq (value : U32) :
    sha256SmallSigma1 value = smallSigma1 value := by
  rw [sha256SmallSigma1, sha256Rotr32_eq _ (by decide), sha256Rotr32_eq _ (by decide), smallSigma1]

theorem sha256BigSigma0_eq (value : U32) : sha256BigSigma0 value = bigSigma0 value := by
  rw [sha256BigSigma0, sha256Rotr32_eq _ (by decide), sha256Rotr32_eq _ (by decide),
    sha256Rotr32_eq _ (by decide), bigSigma0]

theorem sha256BigSigma1_eq (value : U32) : sha256BigSigma1 value = bigSigma1 value := by
  rw [sha256BigSigma1, sha256Rotr32_eq _ (by decide), sha256Rotr32_eq _ (by decide),
    sha256Rotr32_eq _ (by decide), bigSigma1]

/-- A turn of the loop is a round with the sum of the word and the constant. -/
theorem sha256Turn_eq (s : Working) (k w : U32) : sha256Turn s (w + k) = s.round k w := by
  unfold sha256Turn Working.round
  rw [sha256BigSigma0_eq, sha256BigSigma1_eq]
  have hsum : s.h + bigSigma1 s.e + sha256Choose s.e s.f s.g + (w + k) =
      s.h + bigSigma1 s.e + ch s.e s.f s.g + k + w := by
    rw [BitVec.add_comm w k, ← BitVec.add_assoc]
    rfl
  dsimp only
  rw [hsum, BitVec.add_assoc, BitVec.add_comm _ s.d]
  rfl

/-- **SHA256RNDS2** takes the variables two rounds on. -/
theorem applySha256rnds2_pack (s : Working) {wk : XMMRegister} {k0 k1 w0 w1 : U32}
    (h0 : sha256GetDword wk 0 = w0 + k0) (h1 : sha256GetDword wk 1 = w1 + k1) :
    applySha256rnds2 (packCdgh s) (packAbef s) wk = packAbef ((s.round k0 w0).round k1 w1) := by
  unfold applySha256rnds2 packCdgh packAbef
  simp only [sha256GetDword_result_zero, sha256GetDword_result_one, sha256GetDword_result_two,
    sha256GetDword_result_three]
  rw [h0, h1, sha256Turn_eq, sha256Turn_eq]

/-- Behind two rounds the old variables `a`, `b`, `e` and `f` are the new `c`, `d`, `g` and
`h`. -/
theorem packCdgh_round_round (s : Working) (k0 k1 w0 w1 : U32) :
    packCdgh ((s.round k0 w0).round k1 w1) = packAbef s := rfl

/-- **The message instructions** compute four words of the schedule from the last sixteen. -/
theorem message_step (block : Fin 16 → U32) (t : ℕ) :
    applySha256msg2 (applyPaddd (applySha256msg1 (packWords (schedule block) t)
      (packWords (schedule block) (t + 4))) (applyPalignr128 (packWords (schedule block) (t + 12))
        (packWords (schedule block) (t + 8)) 4)) (packWords (schedule block) (t + 12)) =
      packWords (schedule block) (t + 16) := by
  have hsum : ∀ j, smallSigma1 (schedule block (j + 14)) + schedule block (j + 9) +
      smallSigma0 (schedule block (j + 1)) + schedule block j =
      schedule block j + smallSigma0 (schedule block (j + 1)) + schedule block (j + 9) +
        smallSigma1 (schedule block (j + 14)) := by
    intro j
    ac_rfl
  have hword : ∀ j, schedule block j + smallSigma0 (schedule block (j + 1)) +
      schedule block (j + 9) + smallSigma1 (schedule block (j + 14)) = schedule block (j + 16) :=
    fun j => ((schedule_add block j).trans (hsum j)).symm
  rw [palignr_four]
  unfold applySha256msg2 applySha256msg1 packWords
  simp only [sha256GetDword_paddd _ _ (Nat.zero_lt_succ 3),
    sha256GetDword_paddd _ _ (by decide : 1 < 4), sha256GetDword_paddd _ _ (by decide : 2 < 4),
    sha256GetDword_paddd _ _ (by decide : 3 < 4), sha256GetDword_result_zero,
    sha256GetDword_result_one, sha256GetDword_result_two, sha256GetDword_result_three,
    sha256SmallSigma0_eq, sha256SmallSigma1_eq]
  -- the last two words take the first two, which are computed in the same step
  have h16 := hword t
  have h17 := hword (t + 1)
  have h18 := hword (t + 2)
  have h19 := hword (t + 3)
  rw [h16, h17, h18, h19]

/-! ## The sequence -/

theorem packWords_congr {w w' : ℕ → U32} {t : ℕ} (h : ∀ j < 4, w (t + j) = w' (t + j)) :
    packWords w t = packWords w' t := by
  unfold packWords
  rw [h 3 (by decide), h 2 (by decide), h 1 (by decide)]
  exact congrArg _ (h 0 (by decide))

/-- The sums of a group, as the second `SHA256RNDS2` of it finds them. -/
theorem group_sums (w : ℕ → U32) (t : ℕ) :
    let wk := applyPaddd (packWords w t) (packWords constant t)
    sha256GetDword wk 0 = w t + constant t ∧
      sha256GetDword wk 1 = w (t + 1) + constant (t + 1) ∧
      sha256GetDword (applySse2Pshufd128 wk 0x0E) 0 = w (t + 2) + constant (t + 2) ∧
      sha256GetDword (applySse2Pshufd128 wk 0x0E) 1 = w (t + 3) + constant (t + 3) := by
  intro wk
  have hlane : ∀ lane < 4, sha256GetDword wk lane =
      sha256GetDword (packWords w t) lane + sha256GetDword (packWords constant t) lane :=
    fun lane h => sha256GetDword_paddd _ _ h
  rw [pshufd_high, sha256GetDword_result_zero, sha256GetDword_result_one, hlane 0 (by decide),
    hlane 1 (by decide), hlane 2 (by decide), hlane 3 (by decide)]
  unfold packWords
  simp only [sha256GetDword_result_zero, sha256GetDword_result_one, sha256GetDword_result_two,
    sha256GetDword_result_three, and_self]

/-- The registers behind `n` groups. -/
theorem sha256Registers_eq (block : Fin 16 → U32) (s : Working) (n : ℕ) :
    sha256Registers block s n =
      { msg0 := packWords (schedule block) (4 * n)
        msg1 := packWords (schedule block) (4 * n + 4)
        msg2 := packWords (schedule block) (4 * n + 8)
        msg3 := packWords (schedule block) (4 * n + 12)
        abef := packAbef (s.rounds constant (schedule block) (4 * n))
        cdgh := packCdgh (s.rounds constant (schedule block) (4 * n)) } := by
  induction n with
  | zero =>
    have hword : ∀ t, t ≤ 12 → packWords (fun t => block (Fin.ofNat 16 t)) t =
        packWords (schedule block) t := by
      intro t ht
      refine packWords_congr fun j hj => ?_
      rw [schedule_of_lt block (by omega : t + j < 16)]
      exact congrArg block (Fin.ext (Nat.mod_eq_of_lt (by omega)))
    unfold sha256Registers
    dsimp only
    rw [hword 0 (by decide), hword 4 (by decide), hword 8 (by decide), hword 12 (by decide)]
    rfl
  | succ n ih =>
    obtain ⟨h0, h1, h2, h3⟩ := group_sums (schedule block) (4 * n)
    rw [sha256Registers, ih]
    unfold Sha256Registers.group
    dsimp only
    -- the second instruction finds the old variables where the new ones belong
    rw [applySha256rnds2_pack _ h0 h1,
      ← packCdgh_round_round _ (constant (4 * n)) (constant (4 * n + 1)) (schedule block (4 * n))
        (schedule block (4 * n + 1)),
      applySha256rnds2_pack _ h2 h3, message_step]
    rfl

/-- **The SHA-256 instructions compute the standard**: behind `n` groups the first register holds
the words `4 * n` to `4 * n + 3` of the message schedule, and behind sixteen groups, which are
32 times `SHA256RNDS2`, the sums with the chaining state are the compression of the block. -/
theorem sha256_instructions_law (block : Fin 16 → U32) (s : Working) :
    (∀ n < 16, ∀ lane < 4,
        sha256GetDword (sha256Registers block s n).msg0 lane = schedule block (4 * n + lane)) ∧
      applyPaddd (sha256Registers block s 16).abef (packAbef s) = packAbef (compress block s) ∧
      applyPaddd (sha256Registers block s 16).cdgh (packCdgh s) = packCdgh (compress block s) := by
  have hadd : ∀ x3 x2 x1 x0 y3 y2 y1 y0 : U32,
      applyPaddd (sha256Result x3 x2 x1 x0) (sha256Result y3 y2 y1 y0) =
        sha256Result (x3 + y3) (x2 + y2) (x1 + y1) (x0 + y0) := by
    intro x3 x2 x1 x0 y3 y2 y1 y0
    refine eq_sha256Result ?_ ?_ ?_ ?_
    · rw [sha256GetDword_paddd _ _ (by decide), sha256GetDword_result_zero,
        sha256GetDword_result_zero]
    · rw [sha256GetDword_paddd _ _ (by decide), sha256GetDword_result_one,
        sha256GetDword_result_one]
    · rw [sha256GetDword_paddd _ _ (by decide), sha256GetDword_result_two,
        sha256GetDword_result_two]
    · rw [sha256GetDword_paddd _ _ (by decide), sha256GetDword_result_three,
        sha256GetDword_result_three]
  refine ⟨?_, ?_, ?_⟩
  · intro n _ lane hlane
    rw [sha256Registers_eq]
    match lane, hlane with
    | 0, _ => exact sha256GetDword_result_zero _ _ _ _
    | 1, _ => exact sha256GetDword_result_one _ _ _ _
    | 2, _ => exact sha256GetDword_result_two _ _ _ _
    | 3, _ => exact sha256GetDword_result_three _ _ _ _
  · rw [sha256Registers_eq]
    exact hadd _ _ _ _ _ _ _ _
  · rw [sha256Registers_eq]
    exact hadd _ _ _ _ _ _ _ _

/-- The padded block of the message `abc`. -/
def abcBlock (t : Fin 16) : U32 := if t = 0 then 0x61626380 else if t = 15 then 24 else 0

/-- The initial chaining state. -/
def initialState : Working :=
  ⟨0x6a09e667, 0xbb67ae85, 0x3c6ef372, 0xa54ff53a, 0x510e527f, 0x9b05688c, 0x1f83d9ab, 0x5be0cd19⟩

/-- The sequence computes the digest of `abc`. -/
theorem sha256_instructions_law_example :
    packAbef (compress abcBlock initialState) =
        sha256Result 0xba7816bf 0x8f01cfea 0xb00361a3 0x96177a9c ∧
      packCdgh (compress abcBlock initialState) =
        sha256Result 0x414140de 0x5dae2223 0xb410ff61 0xf20015ad := by
  obtain ⟨-, habef, hcdgh⟩ := sha256_instructions_law abcBlock initialState
  rw [← habef, ← hcdgh]
  constructor <;> decide +kernel

end Cpueaxh
