/-
# The packed-integer instructions of the architecture

What each packed-integer instruction leaves in a lane of its destination, by the number of its
opcode.  The VEX.256 forms do the same in each half, but for the moves that extend their
elements, which fill the whole destination, and the sums of differences, whose halves are
controlled by bits of their own.
-/
import Cpueaxh.PackedLanes

namespace PackedStandard

open PackedLanes

/-- What an instruction leaves in the lanes of its destination, for two vectors of `m` bits. -/
structure LaneLaw (m : ℕ) where
  width : ℕ
  value : BitVec m → BitVec m → ℕ → BitVec width

variable {w m : ℕ}

/-- The lanes of a law fill a vector, and a result has them. -/
structure LaneLaw.Gives (law : LaneLaw m) (x y result : BitVec m) : Prop where
  pos : 0 < law.width
  fills : law.width ∣ m
  lanes : ∀ i, law.width * i + law.width ≤ m → lane law.width result i = law.value x y i

/-- An operation that the architecture has returns its lanes; any other returns nothing. -/
def Returns (law : Option (LaneLaw m)) (x y : BitVec m) (result : Option (BitVec m)) : Prop :=
  match law, result with
  | some law, some result => law.Gives x y result
  | none, none => True
  | _, _ => False

/-! ## Shapes -/

/-- Lane by lane. -/
def each (f : BitVec w → BitVec w → BitVec w) : LaneLaw m where
  width := w
  value x y i := f (lane w x i) (lane w y i)

/-- Lane by lane on the second vector. -/
def eachOf (f : BitVec w → BitVec w) : LaneLaw m := each fun _ b => f b

/-- Lane by lane on the first vector. -/
def eachFirst (f : BitVec w → BitVec w) : LaneLaw m := each fun a _ => f a

/-- The narrowed lanes of the first vector, and then those of the second. -/
def packed {v : ℕ} (f : BitVec v → BitVec w) : LaneLaw 128 where
  width := w
  value x y i := if i < 128 / v then f (lane v x i) else f (lane v y (i - 128 / v))

/-- The lanes of a half of each vector, in turn. -/
def interleaved (w : ℕ) (high : Bool) : LaneLaw 128 where
  width := w
  value x y i :=
    let start := if high then 64 / w else 0
    if i % 2 = 0 then lane w x (start + i / 2) else lane w y (start + i / 2)

/-- Two neighbours of the first vector to a lane, and then two of the second. -/
def horizontal (f : BitVec w → BitVec w → BitVec w) : LaneLaw 128 where
  width := w
  value x y i :=
    let pairs (z : BitVec 128) (i : ℕ) : BitVec w := f (lane w z (2 * i)) (lane w z (2 * i + 1))
    if i < 64 / w then pairs x i else pairs y (i - 64 / w)

/-- A lane from several elements, each a fraction of its width. -/
def sums (w v : ℕ) (f : (ℕ → BitVec v) → (ℕ → BitVec v) → BitVec w) : LaneLaw m where
  width := w
  value x y i := f (fun j => lane v x (w / v * i + j)) (fun j => lane v y (w / v * i + j))

/-- The same law in each half of a vector. -/
def halves (law : LaneLaw 128) : LaneLaw 256 where
  width := law.width
  value x y i :=
    if i < 128 / law.width then law.value (lane 128 x 0) (lane 128 y 0) i
    else law.value (lane 128 x 1) (lane 128 y 1) (i - 128 / law.width)

/-! ## Lanes -/

def addSaturated (a b : BitVec w) : BitVec w := saturateSigned w (a.toInt + b.toInt)

def subSaturated (a b : BitVec w) : BitVec w := saturateSigned w (a.toInt - b.toInt)

def addUnsignedSaturated (a b : BitVec w) : BitVec w := saturateUnsigned w (a.toNat + b.toNat)

def subUnsignedSaturated (a b : BitVec w) : BitVec w := saturateUnsigned w (a.toNat - b.toNat)

/-- The mean of two lanes, rounded up. -/
def average (a b : BitVec w) : BitVec w := BitVec.ofNat w ((a.toNat + b.toNat + 1) / 2)

/-- The high half of a signed product. -/
def mulHigh (a b : BitVec w) : BitVec w := BitVec.ofInt w (a.toInt * b.toInt / 2 ^ w)

def mulHighUnsigned (a b : BitVec w) : BitVec w := BitVec.ofNat w (a.toNat * b.toNat / 2 ^ w)

/-- The rounded product of two fractions: the low bits of the product with `0x4000` added,
shifted right by 15. -/
def mulRounded (a b : BitVec 16) : BitVec 16 :=
  BitVec.ofInt 16 ((a.toInt * b.toInt + 0x4000) / 2 ^ 15)

def minSigned (a b : BitVec w) : BitVec w := BitVec.ofInt w (min a.toInt b.toInt)

def maxSigned (a b : BitVec w) : BitVec w := BitVec.ofInt w (max a.toInt b.toInt)

def minUnsigned (a b : BitVec w) : BitVec w := BitVec.ofNat w (min a.toNat b.toNat)

def maxUnsigned (a b : BitVec w) : BitVec w := BitVec.ofNat w (max a.toNat b.toNat)

/-- A lane with the sign of another, or zero with it. -/
def withSign (a b : BitVec w) : BitVec w :=
  if b.toInt < 0 then BitVec.ofInt w (-a.toInt) else if b.toInt = 0 then 0 else a

def magnitude (a : BitVec w) : BitVec w := BitVec.ofNat w a.toInt.natAbs

def isEqual (a b : BitVec w) : BitVec w := laneFill w (a == b)

def isGreater (a b : BitVec w) : BitVec w := laneFill w (decide (b.toInt < a.toInt))

/-- Shifts by any unsigned count: from the width of a lane on, no bit is left. -/
def shiftLeft (a : BitVec w) (count : ℕ) : BitVec w := if count < w then a <<< count else 0

def shiftRight (a : BitVec w) (count : ℕ) : BitVec w := if count < w then a >>> count else 0

/-- From the width of a lane on, all bits are the sign. -/
def shiftRightSigned (a : BitVec w) (count : ℕ) : BitVec w :=
  if count < w then a.sshiftRight count else laneFill w a.msb

/-- The distance of two unsigned bytes. -/
def distance (a b : BitVec 8) : ℕ := (a.toNat - b.toNat) + (b.toNat - a.toNat)

/-! ## Instructions -/

/-- `VPAND`, `VPANDN`, `VPOR`, `VPXOR`. -/
def logic : ℕ → Option (LaneLaw 128)
  | 0xDB => some (each (w := 64) fun a b => a &&& b)
  | 0xDF => some (each (w := 64) fun a b => ~~~a &&& b)
  | 0xEB => some (each (w := 64) fun a b => a ||| b)
  | 0xEF => some (each (w := 64) fun a b => a ^^^ b)
  | _ => none

/-- `VPCMPEQ` and `VPCMPGT`. -/
def compare : ℕ → Option (LaneLaw 128)
  | 0x74 => some (each (isEqual (w := 8)))
  | 0x75 => some (each (isEqual (w := 16)))
  | 0x76 => some (each (isEqual (w := 32)))
  | 0x29 => some (each (isEqual (w := 64)))
  | 0x64 => some (each (isGreater (w := 8)))
  | 0x65 => some (each (isGreater (w := 16)))
  | 0x66 => some (each (isGreater (w := 32)))
  | 0x37 => some (each (isGreater (w := 64)))
  | _ => none

/-- `VPUNPCKL`, `VPUNPCKH`, `VPACKSS` and `VPACKUS`. -/
def pack : ℕ → Option (LaneLaw 128)
  | 0x60 => some (interleaved 8 false)
  | 0x61 => some (interleaved 16 false)
  | 0x62 => some (interleaved 32 false)
  | 0x6C => some (interleaved 64 false)
  | 0x68 => some (interleaved 8 true)
  | 0x69 => some (interleaved 16 true)
  | 0x6A => some (interleaved 32 true)
  | 0x6D => some (interleaved 64 true)
  | 0x63 => some (packed fun a : BitVec 16 => saturateSigned 8 a.toInt)
  | 0x67 => some (packed fun a : BitVec 16 => saturateUnsigned 8 a.toInt)
  | 0x6B => some (packed fun a : BitVec 32 => saturateSigned 16 a.toInt)
  | 0x2B => some (packed fun a : BitVec 32 => saturateUnsigned 16 a.toInt)
  | _ => none

/-- `VPMIN` and `VPMAX`. -/
def minMax : ℕ → Option (LaneLaw 128)
  | 0xDA => some (each (minUnsigned (w := 8)))
  | 0x3A => some (each (minUnsigned (w := 16)))
  | 0x3B => some (each (minUnsigned (w := 32)))
  | 0x38 => some (each (minSigned (w := 8)))
  | 0xEA => some (each (minSigned (w := 16)))
  | 0x39 => some (each (minSigned (w := 32)))
  | 0xDE => some (each (maxUnsigned (w := 8)))
  | 0x3E => some (each (maxUnsigned (w := 16)))
  | 0x3F => some (each (maxUnsigned (w := 32)))
  | 0x3C => some (each (maxSigned (w := 8)))
  | 0xEE => some (each (maxSigned (w := 16)))
  | 0x3D => some (each (maxSigned (w := 32)))
  | _ => none

/-- `VPSIGN`. -/
def sign : ℕ → Option (LaneLaw 128)
  | 0x08 => some (each (withSign (w := 8)))
  | 0x09 => some (each (withSign (w := 16)))
  | 0x0A => some (each (withSign (w := 32)))
  | _ => none

/-- `VPABS`. -/
def abs : ℕ → Option (LaneLaw 128)
  | 0x1C => some (eachOf (magnitude (w := 8)))
  | 0x1D => some (eachOf (magnitude (w := 16)))
  | 0x1E => some (eachOf (magnitude (w := 32)))
  | _ => none

/-- `VPMOVSX` and `VPMOVZX`: the first elements of the source, one to a lane. -/
def pmovx : ℕ → Option (LaneLaw m)
  | 0x20 => some ⟨16, fun _ y i => BitVec.ofInt 16 (lane 8 y i).toInt⟩
  | 0x21 => some ⟨32, fun _ y i => BitVec.ofInt 32 (lane 8 y i).toInt⟩
  | 0x22 => some ⟨64, fun _ y i => BitVec.ofInt 64 (lane 8 y i).toInt⟩
  | 0x23 => some ⟨32, fun _ y i => BitVec.ofInt 32 (lane 16 y i).toInt⟩
  | 0x24 => some ⟨64, fun _ y i => BitVec.ofInt 64 (lane 16 y i).toInt⟩
  | 0x25 => some ⟨64, fun _ y i => BitVec.ofInt 64 (lane 32 y i).toInt⟩
  | 0x30 => some ⟨16, fun _ y i => BitVec.ofNat 16 (lane 8 y i).toNat⟩
  | 0x31 => some ⟨32, fun _ y i => BitVec.ofNat 32 (lane 8 y i).toNat⟩
  | 0x32 => some ⟨64, fun _ y i => BitVec.ofNat 64 (lane 8 y i).toNat⟩
  | 0x33 => some ⟨32, fun _ y i => BitVec.ofNat 32 (lane 16 y i).toNat⟩
  | 0x34 => some ⟨64, fun _ y i => BitVec.ofNat 64 (lane 16 y i).toNat⟩
  | 0x35 => some ⟨64, fun _ y i => BitVec.ofNat 64 (lane 32 y i).toNat⟩
  | _ => none

/-- `VPHADD` and `VPHSUB`. -/
def pairwise : ℕ → Option (LaneLaw 128)
  | 0x01 => some (horizontal (w := 16) fun a b => a + b)
  | 0x02 => some (horizontal (w := 32) fun a b => a + b)
  | 0x03 => some (horizontal (addSaturated (w := 16)))
  | 0x05 => some (horizontal (w := 16) fun a b => a - b)
  | 0x06 => some (horizontal (w := 32) fun a b => a - b)
  | 0x07 => some (horizontal (subSaturated (w := 16)))
  | _ => none

/-- `VPADD`, `VPSUB`, `VPAVG`, `VPMUL`, `VPMADD` and `VPSADBW`. -/
def arith : ℕ → Option (LaneLaw 128)
  | 0xFC => some (each (w := 8) fun a b => a + b)
  | 0xFD => some (each (w := 16) fun a b => a + b)
  | 0xFE => some (each (w := 32) fun a b => a + b)
  | 0xD4 => some (each (w := 64) fun a b => a + b)
  | 0xDC => some (each (addUnsignedSaturated (w := 8)))
  | 0xDD => some (each (addUnsignedSaturated (w := 16)))
  | 0xE0 => some (each (average (w := 8)))
  | 0xE3 => some (each (average (w := 16)))
  | 0xEC => some (each (addSaturated (w := 8)))
  | 0xED => some (each (addSaturated (w := 16)))
  | 0xF8 => some (each (w := 8) fun a b => a - b)
  | 0xF9 => some (each (w := 16) fun a b => a - b)
  | 0xFA => some (each (w := 32) fun a b => a - b)
  | 0xFB => some (each (w := 64) fun a b => a - b)
  | 0xD8 => some (each (subUnsignedSaturated (w := 8)))
  | 0xD9 => some (each (subUnsignedSaturated (w := 16)))
  | 0xE8 => some (each (subSaturated (w := 8)))
  | 0xE9 => some (each (subSaturated (w := 16)))
  | 0x04 => some (sums 16 8 fun a b =>
      saturateSigned 16 ((a 0).toNat * (b 0).toInt + (a 1).toNat * (b 1).toInt))
  | 0x0B => some (each mulRounded)
  | 0x28 => some (sums 64 32 fun a b => BitVec.ofInt 64 ((a 0).toInt * (b 0).toInt))
  | 0x40 => some (each fun a b : BitVec 32 => BitVec.ofInt 32 (a.toInt * b.toInt))
  | 0xD5 => some (each fun a b : BitVec 16 => BitVec.ofInt 16 (a.toInt * b.toInt))
  | 0xE4 => some (each (mulHighUnsigned (w := 16)))
  | 0xE5 => some (each (mulHigh (w := 16)))
  | 0xF6 => some (sums 64 8 fun a b =>
      BitVec.ofNat 64 ((List.range 8).map fun j => distance (a j) (b j)).sum)
  | 0xF4 => some (sums 64 32 fun a b => BitVec.ofNat 64 ((a 0).toNat * (b 0).toNat))
  | 0xF5 => some (sums 32 16 fun a b =>
      BitVec.ofInt 32 ((a 0).toInt * (b 0).toInt + (a 1).toInt * (b 1).toInt))
  | _ => none

/-- `VMPSADBW`: sums of four distances, the first bytes moving on with the lanes. -/
def mpsadbw (firstBlock secondBlock : ℕ) : LaneLaw 128 where
  width := 16
  value x y i := BitVec.ofNat 16 ((List.range 4).map fun j =>
    distance (lane 8 x (4 * firstBlock + i + j)) (lane 8 y (4 * secondBlock + j))).sum

/-- The halves of `VMPSADBW` have controls of their own. -/
def mpsadbwHalves (low high : ℕ × ℕ) : LaneLaw 256 where
  width := 16
  value x y i :=
    if i < 8 then (mpsadbw low.1 low.2).value (lane 128 x 0) (lane 128 y 0) i
    else (mpsadbw high.1 high.2).value (lane 128 x 1) (lane 128 y 1) (i - 8)

/-- The place of the least word: the first that no other is below. -/
def leastWord (y : BitVec 128) : ℕ :=
  ((List.range 8).find? fun i => (List.range 8).all fun j =>
    decide ((lane 16 y i).toNat ≤ (lane 16 y j).toNat)).getD 0

/-- `VPHMINPOSUW`: the least word, its place, and zeros. -/
def phminposuw : LaneLaw 128 where
  width := 16
  value _ y i :=
    if i = 0 then lane 16 y (leastWord y) else if i = 1 then BitVec.ofNat 16 (leastWord y) else 0

/-- The shifts of all lanes by one count. -/
def shift (opcode group count : ℕ) : Option (LaneLaw 128) :=
  match opcode, group with
  | 0xD1, _ | 0x71, 2 => some (eachFirst fun a : BitVec 16 => shiftRight a count)
  | 0xD2, _ | 0x72, 2 => some (eachFirst fun a : BitVec 32 => shiftRight a count)
  | 0xD3, _ | 0x73, 2 => some (eachFirst fun a : BitVec 64 => shiftRight a count)
  | 0xE1, _ | 0x71, 4 => some (eachFirst fun a : BitVec 16 => shiftRightSigned a count)
  | 0xE2, _ | 0x72, 4 => some (eachFirst fun a : BitVec 32 => shiftRightSigned a count)
  | 0xF1, _ | 0x71, 6 => some (eachFirst fun a : BitVec 16 => shiftLeft a count)
  | 0xF2, _ | 0x72, 6 => some (eachFirst fun a : BitVec 32 => shiftLeft a count)
  | 0xF3, _ | 0x73, 6 => some (eachFirst fun a : BitVec 64 => shiftLeft a count)
  | 0x73, 3 => some ⟨8, fun x _ i => if i + count < 16 then lane 8 x (i + count) else 0⟩
  | 0x73, 7 => some ⟨8, fun x _ i => if count ≤ i then lane 8 x (i - count) else 0⟩
  | _, _ => none

/-- `VPSLLV`, `VPSRLV` and `VPSRAV`: each lane by its own unsigned count. -/
def shiftVariableDword : ℕ → Option (LaneLaw m)
  | 0x47 => some (each fun a count : BitVec 32 => shiftLeft a count.toNat)
  | 0x45 => some (each fun a count : BitVec 32 => shiftRight a count.toNat)
  | 0x46 => some (each fun a count : BitVec 32 => shiftRightSigned a count.toNat)
  | _ => none

def shiftVariableQword : ℕ → Option (LaneLaw m)
  | 0x47 => some (each fun a count : BitVec 64 => shiftLeft a count.toNat)
  | 0x45 => some (each fun a count : BitVec 64 => shiftRight a count.toNat)
  | _ => none

/-- `VPSHUFB`: a byte of the first vector, or zero, for each byte of the second. -/
def pshufb : LaneLaw 128 where
  width := 8
  value x y i :=
    if (lane 8 y i).msb then 0 else lane 8 x ((lane 8 y i).toNat % 16)

/-- `VPALIGNR`: the bytes of both vectors, the second in front, from a place on. -/
def palignr (start : ℕ) : LaneLaw 128 where
  width := 8
  value x y i :=
    if start + i < 16 then lane 8 y (start + i)
    else if start + i < 32 then lane 8 x (start + i - 16) else 0

/-- The field of two bits that chooses for a lane. -/
def chosen (control i : ℕ) : ℕ := control / 4 ^ i % 4

/-- `VPSHUFD`, `VPSHUFHW` and `VPSHUFLW`. -/
def pshufd (control : ℕ) : LaneLaw 128 where
  width := 32
  value _ y i := lane 32 y (chosen control i)

def pshufhw (control : ℕ) : LaneLaw 128 where
  width := 16
  value _ y i := if i < 4 then lane 16 y i else lane 16 y (4 + chosen control (i - 4))

def pshuflw (control : ℕ) : LaneLaw 128 where
  width := 16
  value _ y i := if i < 4 then lane 16 y (chosen control i) else lane 16 y i

/-- `VPBLENDD`, and `VPBLENDW` in each half: a bit of the control for each lane. -/
def blend (w control : ℕ) : LaneLaw m where
  width := w
  value x y i := if control.testBit i then lane w y i else lane w x i

/-- `VPBLENDVB`: the sign of a byte of the mask for each byte. -/
def blendVariable (mask : BitVec m) : LaneLaw m where
  width := 8
  value x y i := if (lane 8 mask i).msb then lane 8 y i else lane 8 x i

/-- `VPERMD`: a lane of the second vector for each lane of the first. -/
def permd : LaneLaw 256 where
  width := 32
  value x y i := lane 32 y ((lane 32 x i).toNat % 8)

/-- `VPERMQ`. -/
def permq (control : ℕ) : LaneLaw 256 where
  width := 64
  value _ y i := lane 64 y (chosen control i)

/-- `VPERM2I128`: a half of one of the vectors, or zero, for each half. -/
def perm2i128 (control : ℕ) : LaneLaw 256 where
  width := 128
  value x y i :=
    let field := control / 16 ^ i
    if field.testBit 3 then 0
    else if field.testBit 1 then lane 128 y (field % 2) else lane 128 x (field % 2)

/-- `VPBROADCASTB`, `VPBROADCASTW`, `VPBROADCASTD` and `VPBROADCASTQ`: the lowest lane in all. -/
def lowest (w : ℕ) : LaneLaw m where
  width := w
  value _ y _ := lane w y 0

def broadcast : ℕ → Option (LaneLaw m)
  | 0x78 => some (lowest 8)
  | 0x79 => some (lowest 16)
  | 0x58 => some (lowest 32)
  | 0x59 => some (lowest 64)
  | _ => none

/-- `VTESTPS`, `VTESTPD` and `VPTEST`: whether no lane has its sign bit in both vectors, and
whether none has it in the second only.  The lanes of `VPTEST` are single bits. -/
def testZero (w count : ℕ) (x y : BitVec m) : Bool :=
  (List.range count).all fun i => !((lane w x i).msb && (lane w y i).msb)

def testCarry (w count : ℕ) (x y : BitVec m) : Bool :=
  (List.range count).all fun i => !(!(lane w x i).msb && (lane w y i).msb)

end PackedStandard
