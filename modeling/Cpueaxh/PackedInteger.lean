/-
# Packed-integer operations

The operations of the VEX handler on the bytes and lanes of vector registers, by the opcode
that the handler switches on.  An opcode that an operation does not know raises `#UD`.
-/
import Cpueaxh.Evex
import Cpueaxh.PackedStandard

namespace Cpueaxh

open ByteOrder PackedLanes

/-! ## Bytes and elements -/

/-- The result of an operation whose bytes were filled. -/
def bytesToXmm (bytes : List U8) : XMMRegister := sse2PackBytesToXmm bytes 0

/-- Elements from each pair of elements of two byte arrays. -/
def eachElement {w : ℕ} (f : BitVec w → BitVec w → BitVec w) (lhs rhs : List U8) : List U8 :=
  elements (128 / w) fun i => f (element w lhs i) (element w rhs i)

def sse2IntArithSaturateI16ToI8 (value : BitVec 16) : U8 := clampTo 8 (-128) 127 value

def sse2IntArithSaturateI32ToI16 (value : BitVec 32) : BitVec 16 := clampTo 16 (-32768) 32767 value

def sse2PackSaturateI16ToI8 (value : BitVec 16) : U8 := clampTo 8 (-128) 127 value

def sse2PackSaturateI16ToU8 (value : BitVec 16) : U8 := clampTo 8 0 255 value

def sse2PackSaturateI32ToI16 (value : BitVec 32) : BitVec 16 := clampTo 16 (-32768) 32767 value

def avxPackSaturateI32ToU16 (value : BitVec 32) : BitVec 16 := clampTo 16 0 65535 value

/-- The mean in twice the bits, for bytes and for words. -/
def sse2IntArithAverage (w : ℕ) (lhs rhs : BitVec w) : BitVec w :=
  ((lhs.setWidth (2 * w) + rhs.setWidth (2 * w) + 1) >>> 1).setWidth w

/-! ## Logic and comparison -/

def applyAvxIntLogic128 (opcode : U8) (lhs rhs : XMMRegister) : Option XMMRegister :=
  match opcode.toNat with
  | 0xDB => some { low := lhs.low &&& rhs.low, high := lhs.high &&& rhs.high }
  | 0xDF => some { low := ~~~lhs.low &&& rhs.low, high := ~~~lhs.high &&& rhs.high }
  | 0xEB => some { low := lhs.low ||| rhs.low, high := lhs.high ||| rhs.high }
  | 0xEF => some { low := lhs.low ^^^ rhs.low, high := lhs.high ^^^ rhs.high }
  | _ => none

/-- All bits when two elements are equal. -/
def equalMask (w : ℕ) (a b : BitVec w) : BitVec w := if a = b then BitVec.allOnes w else 0

/-- All bits when the first element is greater, as a signed number. -/
def greaterMask (w : ℕ) (a b : BitVec w) : BitVec w := if b.slt a then BitVec.allOnes w else 0

def applyAvxIntCmp128 (opcode : U8) (lhs rhs : XMMRegister) : Option XMMRegister :=
  let lhsBytes := xmmToBytes lhs
  let rhsBytes := xmmToBytes rhs
  match opcode.toNat with
  | 0x74 => some (bytesToXmm (eachElement (equalMask 8) lhsBytes rhsBytes))
  | 0x75 => some (bytesToXmm (eachElement (equalMask 16) lhsBytes rhsBytes))
  | 0x76 => some (bytesToXmm (eachElement (equalMask 32) lhsBytes rhsBytes))
  | 0x29 => some (bytesToXmm (eachElement (equalMask 64) lhsBytes rhsBytes))
  | 0x37 => some (bytesToXmm (eachElement (greaterMask 64) lhsBytes rhsBytes))
  | 0x64 => some (bytesToXmm (eachElement (greaterMask 8) lhsBytes rhsBytes))
  | 0x65 => some (bytesToXmm (eachElement (greaterMask 16) lhsBytes rhsBytes))
  | 0x66 => some (bytesToXmm (eachElement (greaterMask 32) lhsBytes rhsBytes))
  | _ => none

/-! ## Packing -/

/-- Units of one half of each array, in turn. -/
def sse2PackInterleave (lhs rhs : List U8) (unitSize : ℕ) (high : Bool) : List U8 :=
  let selectedUnits := 8 / unitSize
  let start := if high then selectedUnits else 0
  (List.range selectedUnits).flatMap fun i =>
    (lhs.drop ((start + i) * unitSize)).take unitSize ++
      (rhs.drop ((start + i) * unitSize)).take unitSize

/-- The elements of the first array, narrowed, and behind them those of the second. -/
def packElements {v w : ℕ} (narrow : BitVec v → BitVec w) (lhs rhs : List U8) : List U8 :=
  elements (128 / v) (fun i => narrow (element v lhs i)) ++
    elements (128 / v) (fun i => narrow (element v rhs i))

def applyAvxPack128 (opcode : U8) (lhs rhs : XMMRegister) : Option XMMRegister :=
  let lhsBytes := xmmToBytes lhs
  let rhsBytes := xmmToBytes rhs
  match opcode.toNat with
  | 0x60 => some (bytesToXmm (sse2PackInterleave lhsBytes rhsBytes 1 false))
  | 0x61 => some (bytesToXmm (sse2PackInterleave lhsBytes rhsBytes 2 false))
  | 0x62 => some (bytesToXmm (sse2PackInterleave lhsBytes rhsBytes 4 false))
  | 0x63 => some (bytesToXmm (packElements sse2PackSaturateI16ToI8 lhsBytes rhsBytes))
  | 0x67 => some (bytesToXmm (packElements sse2PackSaturateI16ToU8 lhsBytes rhsBytes))
  | 0x68 => some (bytesToXmm (sse2PackInterleave lhsBytes rhsBytes 1 true))
  | 0x69 => some (bytesToXmm (sse2PackInterleave lhsBytes rhsBytes 2 true))
  | 0x6A => some (bytesToXmm (sse2PackInterleave lhsBytes rhsBytes 4 true))
  | 0x6B => some (bytesToXmm (packElements sse2PackSaturateI32ToI16 lhsBytes rhsBytes))
  | 0x2B => some (bytesToXmm (packElements avxPackSaturateI32ToU16 lhsBytes rhsBytes))
  | 0x6C => some (bytesToXmm (sse2PackInterleave lhsBytes rhsBytes 8 false))
  | 0x6D => some (bytesToXmm (sse2PackInterleave lhsBytes rhsBytes 8 true))
  | _ => none

/-! ## Minimum and maximum, sign and magnitude -/

def minElement (w : ℕ) (a b : BitVec w) : BitVec w := if a < b then a else b

def maxElement (w : ℕ) (a b : BitVec w) : BitVec w := if b < a then a else b

def minSignedElement (w : ℕ) (a b : BitVec w) : BitVec w := if a.slt b then a else b

def maxSignedElement (w : ℕ) (a b : BitVec w) : BitVec w := if b.slt a then a else b

def applyAvxIntMinmax128 (opcode : U8) (lhs rhs : XMMRegister) : Option XMMRegister :=
  let lhsBytes := xmmToBytes lhs
  let rhsBytes := xmmToBytes rhs
  match opcode.toNat with
  | 0xDA => some (bytesToXmm (eachElement (minElement 8) lhsBytes rhsBytes))
  | 0xDE => some (bytesToXmm (eachElement (maxElement 8) lhsBytes rhsBytes))
  | 0xEA => some (bytesToXmm (eachElement (minSignedElement 16) lhsBytes rhsBytes))
  | 0xEE => some (bytesToXmm (eachElement (maxSignedElement 16) lhsBytes rhsBytes))
  | 0x38 => some (bytesToXmm (eachElement (minSignedElement 8) lhsBytes rhsBytes))
  | 0x39 => some (bytesToXmm (eachElement (minSignedElement 32) lhsBytes rhsBytes))
  | 0x3A => some (bytesToXmm (eachElement (minElement 16) lhsBytes rhsBytes))
  | 0x3B => some (bytesToXmm (eachElement (minElement 32) lhsBytes rhsBytes))
  | 0x3C => some (bytesToXmm (eachElement (maxSignedElement 8) lhsBytes rhsBytes))
  | 0x3D => some (bytesToXmm (eachElement (maxSignedElement 32) lhsBytes rhsBytes))
  | 0x3E => some (bytesToXmm (eachElement (maxElement 16) lhsBytes rhsBytes))
  | 0x3F => some (bytesToXmm (eachElement (maxElement 32) lhsBytes rhsBytes))
  | _ => none

/-- The value with the sign of another element, or zero with it. -/
def signElement (w : ℕ) (value sign : BitVec w) : BitVec w :=
  if sign = 0 then 0 else if sign.slt 0 then -value else value

def applyAvx2Sign128 (opcode : U8) (lhs rhs : XMMRegister) : Option XMMRegister :=
  let lhsBytes := xmmToBytes lhs
  let rhsBytes := xmmToBytes rhs
  match opcode.toNat with
  | 0x08 => some (bytesToXmm (eachElement (signElement 8) lhsBytes rhsBytes))
  | 0x09 => some (bytesToXmm (eachElement (signElement 16) lhsBytes rhsBytes))
  | 0x0A => some (bytesToXmm (eachElement (signElement 32) lhsBytes rhsBytes))
  | _ => none

def absElement (w : ℕ) (element : BitVec w) : BitVec w :=
  if element.slt 0 then -element else element

def absBytes (w : ℕ) (bytes : List U8) : List U8 :=
  elements (128 / w) fun i => absElement w (element w bytes i)

def applyAvx2Abs128 (opcode : U8) (value : XMMRegister) : Option XMMRegister :=
  let srcBytes := xmmToBytes value
  match opcode.toNat with
  | 0x1C => some (bytesToXmm (absBytes 8 srcBytes))
  | 0x1D => some (bytesToXmm (absBytes 16 srcBytes))
  | 0x1E => some (bytesToXmm (absBytes 32 srcBytes))
  | _ => none

/-! ## Extending moves -/

/-- The first elements of an array, extended. -/
def extendElements (v w count : ℕ) (zeroExtend : Bool) (bytes : List U8) : List U8 :=
  elements count fun i =>
    if zeroExtend then (element v bytes i).setWidth w else (element v bytes i).signExtend w

/-- The bytes of a destination of `size` bytes. -/
def pmovxBytes (opcode : U8) (size : ℕ) (srcBytes : List U8) : Option (List U8) :=
  let zeroExtend := decide (0x30 ≤ opcode.toNat)
  match opcode.toNat with
  | 0x20 | 0x30 => some (extendElements 8 16 (size / 2) zeroExtend srcBytes)
  | 0x21 | 0x31 => some (extendElements 8 32 (size / 4) zeroExtend srcBytes)
  | 0x22 | 0x32 => some (extendElements 8 64 (size / 8) zeroExtend srcBytes)
  | 0x23 | 0x33 => some (extendElements 16 32 (size / 4) zeroExtend srcBytes)
  | 0x24 | 0x34 => some (extendElements 16 64 (size / 8) zeroExtend srcBytes)
  | 0x25 | 0x35 => some (extendElements 32 64 (size / 8) zeroExtend srcBytes)
  | _ => none

def applyAvx2Pmovx128 (opcode : U8) (source : XMMRegister) : Option XMMRegister :=
  (pmovxBytes opcode 16 (xmmToBytes source)).map bytesToXmm

/-- The result of an operation that fills the bytes of both halves. -/
def bytesToYmm (bytes : List U8) : AVXRegister256 :=
  { low := sse2PackBytesToXmm bytes 0, high := sse2PackBytesToXmm bytes 16 }

def applyAvx2Pmovx256 (opcode : U8) (source : XMMRegister) : Option AVXRegister256 :=
  (pmovxBytes opcode 32 (xmmToBytes source)).map bytesToYmm

/-! ## Neighbours -/

/-- The results for the pairs of neighbours of each array, one array behind the other. -/
def neighbourElements {w : ℕ} (f : BitVec w → BitVec w → BitVec w) (lhs rhs : List U8) : List U8 :=
  let pairs (bytes : List U8) : List U8 :=
    elements (64 / w) fun i => f (element w bytes (2 * i)) (element w bytes (2 * i + 1))
  pairs lhs ++ pairs rhs

def horizontalWord (opcode : ℕ) (first second : BitVec 16) : BitVec 16 :=
  let value : BitVec 32 :=
    if opcode = 0x05 ∨ opcode = 0x07 then first.signExtend 32 - second.signExtend 32
    else first.signExtend 32 + second.signExtend 32
  if opcode = 0x03 ∨ opcode = 0x07 then sse2PackSaturateI32ToI16 value else value.setWidth 16

def horizontalDword (opcode : ℕ) (first second : U32) : U32 :=
  if opcode = 0x06 then first - second else first + second

def applyAvx2Horizontal128 (opcode : U8) (lhs rhs : XMMRegister) : Option XMMRegister :=
  let lhsBytes := xmmToBytes lhs
  let rhsBytes := xmmToBytes rhs
  match opcode.toNat with
  | 0x01 => some (bytesToXmm (neighbourElements (horizontalWord 0x01) lhsBytes rhsBytes))
  | 0x05 => some (bytesToXmm (neighbourElements (horizontalWord 0x05) lhsBytes rhsBytes))
  | 0x03 => some (bytesToXmm (neighbourElements (horizontalWord 0x03) lhsBytes rhsBytes))
  | 0x07 => some (bytesToXmm (neighbourElements (horizontalWord 0x07) lhsBytes rhsBytes))
  | 0x02 => some (bytesToXmm (neighbourElements (horizontalDword 0x02) lhsBytes rhsBytes))
  | 0x06 => some (bytesToXmm (neighbourElements (horizontalDword 0x06) lhsBytes rhsBytes))
  | _ => none

/-! ## Arithmetic -/

/-- An unsigned sum in twice the bits, cut off at the greatest element. -/
def addUnsignedElement (w : ℕ) (a b : BitVec w) : BitVec w :=
  let sum := a.setWidth (2 * w) + b.setWidth (2 * w)
  if (BitVec.allOnes w).setWidth (2 * w) < sum then BitVec.allOnes w else sum.setWidth w

def subUnsignedElement (w : ℕ) (a b : BitVec w) : BitVec w := if a < b then 0 else a - b

def addSignedByte (a b : U8) : U8 := sse2IntArithSaturateI16ToI8 (a.signExtend 16 + b.signExtend 16)

def addSignedWord (a b : BitVec 16) : BitVec 16 :=
  sse2IntArithSaturateI32ToI16 (a.signExtend 32 + b.signExtend 32)

def subSignedByte (a b : U8) : U8 := sse2IntArithSaturateI16ToI8 (a.signExtend 16 - b.signExtend 16)

def subSignedWord (a b : BitVec 16) : BitVec 16 :=
  sse2IntArithSaturateI32ToI16 (a.signExtend 32 - b.signExtend 32)

/-- The sum of the products of two unsigned bytes with two signed bytes. -/
def maddBytes (a0 a1 b0 b1 : U8) : BitVec 16 :=
  sse2IntArithSaturateI32ToI16
    (a0.setWidth 32 * b0.signExtend 32 + a1.setWidth 32 * b1.signExtend 32)

/-- The product of two fractions, rounded and saturated. -/
def mulRoundedWord (a b : BitVec 16) : BitVec 16 :=
  let product : BitVec 32 := a.signExtend 32 * b.signExtend 32
  let rounded := (product + 0x4000).sshiftRight 15
  sse2IntArithSaturateI32ToI16 rounded

def mulSigned (w v : ℕ) (a b : BitVec w) : BitVec v := a.signExtend v * b.signExtend v

def mulLow (w : ℕ) (a b : BitVec w) : BitVec w := (mulSigned w (2 * w) a b).setWidth w

def mulHighWord (a b : BitVec 16) : BitVec 16 := ((mulSigned 16 32 a b).sshiftRight 16).setWidth 16

def mulHighUnsignedWord (a b : BitVec 16) : BitVec 16 :=
  ((a.setWidth 32 * b.setWidth 32) >>> 16).setWidth 16

/-- The distance of two bytes. -/
def byteDistance (a b : U8) : U8 := if b < a then a - b else b - a

/-- A sum of the distances of bytes, one after the other. -/
def distanceSum (w count : ℕ) (a b : ℕ → U8) : BitVec w :=
  (List.range count).foldl (fun sum i => sum + (byteDistance (a i) (b i)).setWidth w) 0

def maddWords (a0 a1 b0 b1 : BitVec 16) : U32 :=
  (mulSigned 16 64 a0 b0 + mulSigned 16 64 a1 b1).setWidth 32

def applyAvxIntArith128 (opcode : U8) (lhs rhs : XMMRegister) : Option XMMRegister :=
  let lhsBytes := xmmToBytes lhs
  let rhsBytes := xmmToBytes rhs
  match opcode.toNat with
  | 0xFC => some (bytesToXmm (eachElement (fun a b : BitVec 8 => a + b) lhsBytes rhsBytes))
  | 0xFD => some (bytesToXmm (eachElement (fun a b : BitVec 16 => a + b) lhsBytes rhsBytes))
  | 0xFE => some (bytesToXmm (eachElement (fun a b : BitVec 32 => a + b) lhsBytes rhsBytes))
  | 0xD4 => some (bytesToXmm (eachElement (fun a b : BitVec 64 => a + b) lhsBytes rhsBytes))
  | 0xDC => some (bytesToXmm (eachElement (addUnsignedElement 8) lhsBytes rhsBytes))
  | 0xDD => some (bytesToXmm (eachElement (addUnsignedElement 16) lhsBytes rhsBytes))
  | 0xE0 => some (bytesToXmm (eachElement (sse2IntArithAverage 8) lhsBytes rhsBytes))
  | 0xE3 => some (bytesToXmm (eachElement (sse2IntArithAverage 16) lhsBytes rhsBytes))
  | 0xEC => some (bytesToXmm (eachElement addSignedByte lhsBytes rhsBytes))
  | 0xED => some (bytesToXmm (eachElement addSignedWord lhsBytes rhsBytes))
  | 0xF8 => some (bytesToXmm (eachElement (fun a b : BitVec 8 => a - b) lhsBytes rhsBytes))
  | 0xF9 => some (bytesToXmm (eachElement (fun a b : BitVec 16 => a - b) lhsBytes rhsBytes))
  | 0xFA => some (bytesToXmm (eachElement (fun a b : BitVec 32 => a - b) lhsBytes rhsBytes))
  | 0xFB => some (bytesToXmm (eachElement (fun a b : BitVec 64 => a - b) lhsBytes rhsBytes))
  | 0xD8 => some (bytesToXmm (eachElement (subUnsignedElement 8) lhsBytes rhsBytes))
  | 0xD9 => some (bytesToXmm (eachElement (subUnsignedElement 16) lhsBytes rhsBytes))
  | 0xE8 => some (bytesToXmm (eachElement subSignedByte lhsBytes rhsBytes))
  | 0xE9 => some (bytesToXmm (eachElement subSignedWord lhsBytes rhsBytes))
  | 0x04 => some (bytesToXmm (elements 8 fun i =>
      maddBytes (element 8 lhsBytes (2 * i)) (element 8 lhsBytes (2 * i + 1))
        (element 8 rhsBytes (2 * i)) (element 8 rhsBytes (2 * i + 1))))
  | 0x0B => some (bytesToXmm (eachElement mulRoundedWord lhsBytes rhsBytes))
  | 0x28 => some (bytesToXmm (elements 2 fun i =>
      mulSigned 32 64 (element 32 lhsBytes (2 * i)) (element 32 rhsBytes (2 * i))))
  | 0x40 => some (bytesToXmm (eachElement (mulLow 32) lhsBytes rhsBytes))
  | 0xD5 => some (bytesToXmm (eachElement (mulLow 16) lhsBytes rhsBytes))
  | 0xE4 => some (bytesToXmm (eachElement mulHighUnsignedWord lhsBytes rhsBytes))
  | 0xE5 => some (bytesToXmm (eachElement mulHighWord lhsBytes rhsBytes))
  | 0xF6 => some (bytesToXmm (elements 2 fun block => distanceSum 64 8
      (fun i => element 8 lhsBytes (8 * block + i)) (fun i => element 8 rhsBytes (8 * block + i))))
  | 0xF4 => some (bytesToXmm (elements 2 fun i =>
      (element 32 lhsBytes (2 * i)).setWidth 64 * (element 32 rhsBytes (2 * i)).setWidth 64))
  | 0xF5 => some (bytesToXmm (elements 4 fun i =>
      maddWords (element 16 lhsBytes (2 * i)) (element 16 lhsBytes (2 * i + 1))
        (element 16 rhsBytes (2 * i)) (element 16 rhsBytes (2 * i + 1))))
  | _ => none

/-! ## Sums of differences, and the least word -/

/-- The eight sums for the bytes from two offsets on. -/
def mpsadbwBytes (lhs rhs : List U8) (lhsOffset rhsOffset : ℕ) : List U8 :=
  elements 8 fun i => distanceSum 16 4 (fun j => element 8 lhs (lhsOffset + i + j))
    (fun j => element 8 rhs (rhsOffset + j))

def applyAvxMpsadbw128 (lhs rhs : XMMRegister) (imm8 : U8) : XMMRegister :=
  let rhsOffset := (imm8 &&& 0x03).toNat * 4
  let lhsOffset := ((imm8 >>> 2) &&& 0x01).toNat * 4
  bytesToXmm (mpsadbwBytes (xmmToBytes lhs) (xmmToBytes rhs) lhsOffset rhsOffset)

def applyAvxMpsadbw256 (lhs rhs : AVXRegister256) (imm8 : U8) : AVXRegister256 :=
  let lhsBytes := xmmToBytes lhs.low ++ xmmToBytes lhs.high
  let rhsBytes := xmmToBytes rhs.low ++ xmmToBytes rhs.high
  let low := mpsadbwBytes lhsBytes rhsBytes (((imm8 >>> 2) &&& 0x01).toNat * 4)
    ((imm8 &&& 0x03).toNat * 4)
  let high := mpsadbwBytes lhsBytes rhsBytes (16 + ((imm8 >>> 5) &&& 0x01).toNat * 4)
    (16 + ((imm8 >>> 3) &&& 0x03).toNat * 4)
  bytesToYmm (low ++ high)

/-- The least word so far and its place, for the words from `index` on. -/
def minposLoop (bytes : List U8) : ℕ → ℕ → BitVec 16 × BitVec 16 → BitVec 16 × BitVec 16
  | 0, _, found => found
  | left + 1, index, (minimum, minimumIndex) =>
    let value := element 16 bytes index
    minposLoop bytes left (index + 1)
      (if value < minimum then (value, BitVec.ofNat 16 index) else (minimum, minimumIndex))

def applyAvxPhminposuw128 (source : XMMRegister) : XMMRegister :=
  let sourceBytes := xmmToBytes source
  let (minimum, minimumIndex) := minposLoop sourceBytes 7 1 (element 16 sourceBytes 0, 0)
  { low := minimum.setWidth 64 ||| minimumIndex.setWidth 64 <<< 16, high := 0 }

/-! ## Shifts by one count -/

/-- A logical shift of all elements; from the width of an element on, the result is zero. -/
def sse2ShiftApply (w : ℕ) (shifted : BitVec w → ℕ → BitVec w) (src : List U8) (count : U64) :
    List U8 :=
  if w - 1 < count.toNat then List.replicate 16 0
  else elements (128 / w) fun i => shifted (element w src i) count.toNat

def sse2ShiftApplyPsllw := sse2ShiftApply 16 fun a n => a <<< n

def sse2ShiftApplyPslld := sse2ShiftApply 32 fun a n => a <<< n

def sse2ShiftApplyPsllq := sse2ShiftApply 64 fun a n => a <<< n

def sse2ShiftApplyPsrlw := sse2ShiftApply 16 fun a n => a >>> n

def sse2ShiftApplyPsrld := sse2ShiftApply 32 fun a n => a >>> n

def sse2ShiftApplyPsrlq := sse2ShiftApply 64 fun a n => a >>> n

/-- A signed shift of all elements, by the width less one at most. -/
def sse2ShiftApplySigned (w : ℕ) (src : List U8) (count : U64) : List U8 :=
  let effective := if w - 1 < count.toNat then w - 1 else count.toNat
  elements (128 / w) fun i => (element w src i).sshiftRight effective

def sse2ShiftApplyPsraw := sse2ShiftApplySigned 16

def sse2ShiftApplyPsrad := sse2ShiftApplySigned 32

def sse2ShiftApplyPsrldq (src : List U8) (count : U64) : List U8 :=
  if 16 ≤ count.toNat then List.replicate 16 0
  else src.drop count.toNat ++ List.replicate count.toNat 0

def sse2ShiftApplyPslldq (src : List U8) (count : U64) : List U8 :=
  if 16 ≤ count.toNat then List.replicate 16 0
  else List.replicate count.toNat 0 ++ src.take (16 - count.toNat)

def applyAvxShift128 (opcode group : U8) (src : XMMRegister) (count : U64) : Option XMMRegister :=
  let srcBytes := xmmToBytes src
  let result : Option (List U8) :=
    match opcode.toNat with
    | 0x71 =>
      match group.toNat with
      | 2 => some (sse2ShiftApplyPsrlw srcBytes count)
      | 4 => some (sse2ShiftApplyPsraw srcBytes count)
      | 6 => some (sse2ShiftApplyPsllw srcBytes count)
      | _ => none
    | 0x72 =>
      match group.toNat with
      | 2 => some (sse2ShiftApplyPsrld srcBytes count)
      | 4 => some (sse2ShiftApplyPsrad srcBytes count)
      | 6 => some (sse2ShiftApplyPslld srcBytes count)
      | _ => none
    | 0x73 =>
      match group.toNat with
      | 2 => some (sse2ShiftApplyPsrlq srcBytes count)
      | 3 => some (sse2ShiftApplyPsrldq srcBytes count)
      | 6 => some (sse2ShiftApplyPsllq srcBytes count)
      | 7 => some (sse2ShiftApplyPslldq srcBytes count)
      | _ => none
    | 0xD1 => some (sse2ShiftApplyPsrlw srcBytes count)
    | 0xD2 => some (sse2ShiftApplyPsrld srcBytes count)
    | 0xD3 => some (sse2ShiftApplyPsrlq srcBytes count)
    | 0xE1 => some (sse2ShiftApplyPsraw srcBytes count)
    | 0xE2 => some (sse2ShiftApplyPsrad srcBytes count)
    | 0xF1 => some (sse2ShiftApplyPsllw srcBytes count)
    | 0xF2 => some (sse2ShiftApplyPslld srcBytes count)
    | 0xF3 => some (sse2ShiftApplyPsllq srcBytes count)
    | _ => none
  result.map bytesToXmm

/-! ## Shifts by a count of its own -/

/-- The shift of a doubleword: the count is masked first. -/
def shiftvarDword (opcode : U8) : Option (U32 → U32 → U32) :=
  match opcode.toNat with
  | 0x47 => some fun value count => value <<< (count &&& 0x1F).toNat
  | 0x45 => some fun value count => value >>> (count &&& 0x1F).toNat
  | 0x46 => some fun value count => value.sshiftRight (count &&& 0x1F).toNat
  | _ => none

def shiftvarQword (opcode : U8) : Option (U64 → U64 → U64) :=
  match opcode.toNat with
  | 0x47 => some fun value count => value <<< (count &&& 0x3F).toNat
  | 0x45 => some fun value count => value >>> (count &&& 0x3F).toNat
  | _ => none

def applyAvx2ShiftvarDword128 (opcode : U8) (src counts : XMMRegister) : Option XMMRegister :=
  (shiftvarDword opcode).map fun shifted => xmmLanes.fill (fun _ => true)
    (fun lane => shifted (getXmmLaneBits src lane) (getXmmLaneBits counts lane)) 4 0 .zero

def applyAvx2ShiftvarDword256 (opcode : U8) (src counts : AVXRegister256) :
    Option AVXRegister256 :=
  (shiftvarDword opcode).map fun shifted => ymmLanes.fill (fun _ => true)
    (fun lane => shifted (ymmLanes.get src lane) (ymmLanes.get counts lane)) 8 0 .zero

def applyAvx2ShiftvarQword128 (opcode : U8) (src counts : XMMRegister) : Option XMMRegister :=
  (shiftvarQword opcode).map fun shifted =>
    { low := shifted src.low counts.low, high := shifted src.high counts.high }

def applyAvx2ShiftvarQword256 (opcode : U8) (src counts : AVXRegister256) :
    Option AVXRegister256 :=
  (shiftvarQword opcode).map fun shifted =>
    { low := ⟨shifted src.low.low counts.low.low, shifted src.low.high counts.low.high⟩
      high := ⟨shifted src.high.low counts.high.low, shifted src.high.high counts.high.high⟩ }

/-! ## Rearranging -/

/-- The elements of a word, `get_xmm_byte` and `get_xmm_word` with `set_xmm_byte` and
`set_xmm_word` in one half. -/
def wordElements (w count : ℕ) (hcount : w * count = 64) : Lanes U64 w where
  count := count
  get word i := (word >>> (i * w)).setWidth w
  set word i bits :=
    (word &&& ~~~((BitVec.allOnes w).setWidth 64 <<< (i * w))) ||| (bits.setWidth 64 <<< (i * w))
  get_set word i j bits hi hj := by
    apply BitVec.eq_of_getLsbD_eq
    intro k hk
    have hinside : j * w + k < 64 := by
      have hend : (j + 1) * w ≤ 64 := by
        rw [← hcount, Nat.mul_comm w]
        exact Nat.mul_le_mul_right w hj
      rw [Nat.succ_mul] at hend
      omega
    simp only [BitVec.getLsbD_setWidth, BitVec.getLsbD_ushiftRight, BitVec.getLsbD_or,
      BitVec.getLsbD_and, BitVec.getLsbD_not, BitVec.getLsbD_shiftLeft, BitVec.getLsbD_allOnes, hk,
      hinside, decide_true, Bool.true_and]
    rcases Nat.lt_trichotomy j i with hji | rfl | hji
    · -- the bits of a lane below are not touched
      have hbelow : j * w + k < i * w := by
        have hnext : (j + 1) * w ≤ i * w := Nat.mul_le_mul_right w hji
        rw [Nat.succ_mul] at hnext
        omega
      simp [Nat.ne_of_lt hji, hbelow, hk, hinside]
    · have hself : ¬j * w + k < j * w := by omega
      simp [hself, hk, show k < 64 by omega]
    · -- nor are those of a lane above
      have habove : i * w + w ≤ j * w := by
        rw [← Nat.succ_mul]
        exact Nat.mul_le_mul_right w hji
      have hbits : bits.getLsbD (j * w + k - i * w) = false := BitVec.getLsbD_of_ge _ _ (by omega)
      have hones : ¬j * w + k - i * w < w := by omega
      simp [Nat.ne_of_gt hji, hbits, hones, hk, hinside]

/-- `get_xmm_word` and `set_xmm_word`. -/
def xmmWordLanes : Lanes XMMRegister 16 :=
  (wordElements 16 4 rfl).double XMMRegister.low XMMRegister.high XMMRegister.mk
    XMMRegister.low_mk XMMRegister.high_mk

/-- `get_xmm_byte` and `set_xmm_byte`. -/
def xmmByteLanes : Lanes XMMRegister 8 :=
  (wordElements 8 8 rfl).double XMMRegister.low XMMRegister.high XMMRegister.mk
    XMMRegister.low_mk XMMRegister.high_mk

/-- `get_ymm_word` and `set_ymm_word`. -/
def ymmWordLanes : Lanes AVXRegister256 16 :=
  xmmWordLanes.double AVXRegister256.low AVXRegister256.high AVXRegister256.mk
    AVXRegister256.low_mk AVXRegister256.high_mk

/-- `get_ymm_byte` and `set_ymm_byte`. -/
def ymmByteLanes : Lanes AVXRegister256 8 :=
  xmmByteLanes.double AVXRegister256.low AVXRegister256.high AVXRegister256.mk
    AVXRegister256.low_mk AVXRegister256.high_mk

def applyAvx2Pshufb128 (source control : XMMRegister) : XMMRegister :=
  let sourceBytes := xmmToBytes source
  let controlBytes := xmmToBytes control
  bytesToXmm (elements 16 fun index =>
    let selector : U8 := element 8 controlBytes index
    if selector &&& 0x80 != 0 then 0 else element 8 sourceBytes (selector &&& 0x0F).toNat)

def applyAvx2Palignr128 (src1 src2 : XMMRegister) (imm8 : U8) : XMMRegister :=
  let concatBytes := xmmToBytes src2 ++ xmmToBytes src1
  bytesToXmm (elements 16 fun index =>
    if imm8.toNat + index < 32 then element 8 concatBytes (imm8.toNat + index) else 0)

/-- `(imm8 >> (lane * 2)) & 0x03`. -/
def shuffleSelector (imm8 : U8) (lane : ℕ) : ℕ := ((imm8 >>> (lane * 2)) &&& 0x03).toNat

def applyAvxPshufd128 (src : XMMRegister) (imm8 : U8) : XMMRegister :=
  xmmLanes.fill (fun _ => true) (fun lane => xmmLanes.get src (shuffleSelector imm8 lane)) 4 0 .zero

def applySse2Pshufhw128 (src : XMMRegister) (imm8 : U8) : XMMRegister :=
  xmmWordLanes.fill (fun _ => true)
    (fun lane => xmmWordLanes.get src (4 + shuffleSelector imm8 (lane - 4))) 4 4 src

def applySse2Pshuflw128 (src : XMMRegister) (imm8 : U8) : XMMRegister :=
  xmmWordLanes.fill (fun _ => true)
    (fun lane => xmmWordLanes.get src (shuffleSelector imm8 lane)) 4 0 src

/-- `(imm8 & (1U << lane)) != 0`. -/
def useRhs (imm8 : U8) (lane : ℕ) : Bool := imm8.setWidth 32 &&& (1 : U32) <<< lane != 0

def applyAvxBlendPs128 (lhs rhs : XMMRegister) (imm8 : U8) : XMMRegister :=
  xmmLanes.fill (fun _ => true)
    (fun lane => if useRhs imm8 lane then xmmLanes.get rhs lane else xmmLanes.get lhs lane) 4 0 .zero

def applyAvxBlendPs256 (lhs rhs : AVXRegister256) (imm8 : U8) : AVXRegister256 :=
  ymmLanes.fill (fun _ => true)
    (fun lane => if useRhs imm8 lane then ymmLanes.get rhs lane else ymmLanes.get lhs lane) 8 0 .zero

def applyAvx2Blendw128 (lhs rhs : XMMRegister) (imm8 : U8) : XMMRegister :=
  xmmWordLanes.fill (fun _ => true)
    (fun lane => if useRhs imm8 lane then xmmWordLanes.get rhs lane else xmmWordLanes.get lhs lane)
    8 0 .zero

def applyAvx2Blendw256 (lhs rhs : AVXRegister256) (imm8 : U8) : AVXRegister256 :=
  ymmWordLanes.fill (fun _ => true)
    (fun lane => if useRhs imm8 (lane &&& 0x07) then ymmWordLanes.get rhs lane
      else ymmWordLanes.get lhs lane) 16 0 .zero

def applyAvx2Blendvb128 (lhs rhs mask : XMMRegister) : XMMRegister :=
  xmmByteLanes.fill (fun _ => true)
    (fun lane => if xmmByteLanes.get mask lane &&& 0x80 != 0 then xmmByteLanes.get rhs lane
      else xmmByteLanes.get lhs lane) 16 0 .zero

def applyAvx2Blendvb256 (lhs rhs mask : AVXRegister256) : AVXRegister256 :=
  ymmByteLanes.fill (fun _ => true)
    (fun lane => if ymmByteLanes.get mask lane &&& 0x80 != 0 then ymmByteLanes.get rhs lane
      else ymmByteLanes.get lhs lane) 32 0 .zero

def applyAvx2Perm32x8 (data control : AVXRegister256) : AVXRegister256 :=
  ymmLanes.fill (fun _ => true)
    (fun lane => ymmLanes.get data (ymmLanes.get control lane &&& 0x07).toNat) 8 0 .zero

def applyAvx2Permq256 (data : AVXRegister256) (imm8 : U8) : AVXRegister256 :=
  ymmPdLanes.fill (fun _ => true)
    (fun lane => ymmPdLanes.get data (shuffleSelector imm8 lane)) 4 0 .zero

/-- The `select_lane` of `apply_avx_perm2f128_256`. -/
def selectLane (src1 src2 : AVXRegister256) (selector : U8) : XMMRegister :=
  match (selector &&& 0x03).toNat with
  | 0x00 => src1.low
  | 0x01 => src1.high
  | 0x02 => src2.low
  | _ => src2.high

def applyAvxPerm2f128256 (src1 src2 : AVXRegister256) (imm8 : U8) : AVXRegister256 where
  low := if imm8 &&& 0x08 != 0 then .zero else selectLane src1 src2 (imm8 &&& 0x03)
  high := if imm8 &&& 0x80 != 0 then .zero else selectLane src1 src2 ((imm8 >>> 4) &&& 0x03)

/-- A word in all quarters of a register. -/
def fourWords (pattern : U64) : AVXRegister256 :=
  { low := { low := pattern, high := pattern }, high := { low := pattern, high := pattern } }

def broadcastAvx2Byte256 (value : U8) : AVXRegister256 :=
  fourWords (0x0101010101010101 * value.setWidth 64)

def broadcastAvx2Word256 (value : U16) : AVXRegister256 :=
  let pattern : U64 := value.setWidth 64
  let pattern := pattern ||| pattern <<< 16
  fourWords (pattern ||| pattern <<< 32)

def broadcastAvx2Dword256 (value : U32) : AVXRegister256 :=
  ymmLanes.fill (fun _ => true) (fun _ => value) 8 0 .zero

def broadcastAvx2Qword256 (value : U64) : AVXRegister256 := fourWords value

/-- The branch of `execute_avx_vex` for the broadcasts, behind its operand. -/
def avx2Broadcast (opcode : U8) (src : XMMRegister) : Option AVXRegister256 :=
  match opcode.toNat with
  | 0x58 => some (broadcastAvx2Dword256 (getXmmLaneBits src 0))
  | 0x59 => some (broadcastAvx2Qword256 src.low)
  | 0x78 => some (broadcastAvx2Byte256 ((src.low &&& 0xFF).setWidth 8))
  | 0x79 => some (broadcastAvx2Word256 ((src.low &&& 0xFFFF).setWidth 16))
  | _ => none

/-! ## Tests -/

def setAvxTestFlags (ctx : CpuContext) (zf cf : Bool) : CpuContext :=
  let ctx := setFlag ctx rflagsZf zf
  let ctx := setFlag ctx rflagsCf cf
  let ctx := setFlag ctx rflagsOf false
  let ctx := setFlag ctx rflagsSf false
  let ctx := setFlag ctx rflagsAf false
  setFlag ctx rflagsPf false

def computeAvxTestZf128 (lhs rhs : XMMRegister) : Bool :=
  lhs.low &&& rhs.low == 0 && lhs.high &&& rhs.high == 0

def computeAvxTestCf128 (lhs rhs : XMMRegister) : Bool :=
  ~~~lhs.low &&& rhs.low == 0 && ~~~lhs.high &&& rhs.high == 0

def computeAvxTestZf256 (lhs rhs : AVXRegister256) : Bool :=
  computeAvxTestZf128 lhs.low rhs.low && computeAvxTestZf128 lhs.high rhs.high

def computeAvxTestCf256 (lhs rhs : AVXRegister256) : Bool :=
  computeAvxTestCf128 lhs.low rhs.low && computeAvxTestCf128 lhs.high rhs.high

/-- The branch of `execute_avx_vex` for `VTESTPS`, `VTESTPD` and `VPTEST`, behind its operands;
the opcode chooses nothing in it. -/
def avxTest (is256 : Bool) (lhs rhs : AVXRegister256) (ctx : CpuContext) : CpuContext :=
  if is256 then setAvxTestFlags ctx (computeAvxTestZf256 lhs rhs) (computeAvxTestCf256 lhs rhs)
  else setAvxTestFlags ctx (computeAvxTestZf128 lhs.low rhs.low)
    (computeAvxTestCf128 lhs.low rhs.low)

/-! ## All operations -/

/-- The packed-integer operations, with the opcode and the immediates that they are called
with. -/
inductive PackedOp where
  | logic (opcode : U8)
  | compare (opcode : U8)
  | pack (opcode : U8)
  | minmax (opcode : U8)
  | sign (opcode : U8)
  | abs (opcode : U8)
  | pmovx (opcode : U8)
  | horizontal (opcode : U8)
  | arith (opcode : U8)
  | mpsadbw (imm8 : U8)
  | phminposuw
  | shift (opcode group : U8) (count : U64)
  | shiftvarDword (opcode : U8)
  | shiftvarQword (opcode : U8)
  | pshufb
  | palignr (imm8 : U8)
  | pshufd (imm8 : U8)
  | pshufhw (imm8 : U8)
  | pshuflw (imm8 : U8)
  | blendd (imm8 : U8)
  | blendw (imm8 : U8)
  | blendvb (mask : AVXRegister256)
  | permd
  | permq (imm8 : U8)
  | perm2i128 (imm8 : U8)
  | broadcast (opcode : U8)

namespace PackedOp

/-- The VEX.128 form; an operation on one vector takes the one that its operand is read into. -/
def apply128 : PackedOp → XMMRegister → XMMRegister → Option XMMRegister
  | logic opcode, lhs, rhs => applyAvxIntLogic128 opcode lhs rhs
  | compare opcode, lhs, rhs => applyAvxIntCmp128 opcode lhs rhs
  | pack opcode, lhs, rhs => applyAvxPack128 opcode lhs rhs
  | minmax opcode, lhs, rhs => applyAvxIntMinmax128 opcode lhs rhs
  | sign opcode, lhs, rhs => applyAvx2Sign128 opcode lhs rhs
  | abs opcode, _, rhs => applyAvx2Abs128 opcode rhs
  | pmovx opcode, _, rhs => applyAvx2Pmovx128 opcode rhs
  | horizontal opcode, lhs, rhs => applyAvx2Horizontal128 opcode lhs rhs
  | arith opcode, lhs, rhs => applyAvxIntArith128 opcode lhs rhs
  | mpsadbw imm8, lhs, rhs => some (applyAvxMpsadbw128 lhs rhs imm8)
  | phminposuw, _, rhs => some (applyAvxPhminposuw128 rhs)
  | shift opcode group count, lhs, _ => applyAvxShift128 opcode group lhs count
  | shiftvarDword opcode, lhs, rhs => applyAvx2ShiftvarDword128 opcode lhs rhs
  | shiftvarQword opcode, lhs, rhs => applyAvx2ShiftvarQword128 opcode lhs rhs
  | pshufb, lhs, rhs => some (applyAvx2Pshufb128 lhs rhs)
  | palignr imm8, lhs, rhs => some (applyAvx2Palignr128 lhs rhs imm8)
  | pshufd imm8, _, rhs => some (applyAvxPshufd128 rhs imm8)
  | pshufhw imm8, _, rhs => some (applySse2Pshufhw128 rhs imm8)
  | pshuflw imm8, _, rhs => some (applySse2Pshuflw128 rhs imm8)
  | blendd imm8, lhs, rhs => some (applyAvxBlendPs128 lhs rhs imm8)
  | blendw imm8, lhs, rhs => some (applyAvx2Blendw128 lhs rhs imm8)
  | blendvb mask, lhs, rhs => some (applyAvx2Blendvb128 lhs rhs mask.low)
  | permd, _, _ => none
  | permq _, _, _ => none
  | perm2i128 _, _, _ => none
  | broadcast opcode, _, rhs => (avx2Broadcast opcode rhs).map AVXRegister256.low

/-- The `256` form that applies the `128` form to each half. -/
def bothHalves (apply : XMMRegister → XMMRegister → Option XMMRegister) (lhs rhs : AVXRegister256) :
    Option AVXRegister256 := do
  let low ← apply lhs.low rhs.low
  let high ← apply lhs.high rhs.high
  return { low := low, high := high }

/-- The VEX.256 form; `VPHMINPOSUW` has none, and `VPERMD`, `VPERMQ` and `VPERM2I128` have no
other. -/
def apply256 : PackedOp → AVXRegister256 → AVXRegister256 → Option AVXRegister256
  | logic opcode, lhs, rhs => bothHalves (applyAvxIntLogic128 opcode) lhs rhs
  | compare opcode, lhs, rhs => bothHalves (applyAvxIntCmp128 opcode) lhs rhs
  | pack opcode, lhs, rhs => bothHalves (applyAvxPack128 opcode) lhs rhs
  | minmax opcode, lhs, rhs => bothHalves (applyAvxIntMinmax128 opcode) lhs rhs
  | sign opcode, lhs, rhs => bothHalves (applyAvx2Sign128 opcode) lhs rhs
  | abs opcode, lhs, rhs => bothHalves (fun _ rhs => applyAvx2Abs128 opcode rhs) lhs rhs
  | pmovx opcode, _, rhs => applyAvx2Pmovx256 opcode rhs.low
  | horizontal opcode, lhs, rhs => bothHalves (applyAvx2Horizontal128 opcode) lhs rhs
  | arith opcode, lhs, rhs => bothHalves (applyAvxIntArith128 opcode) lhs rhs
  | mpsadbw imm8, lhs, rhs => some (applyAvxMpsadbw256 lhs rhs imm8)
  | phminposuw, _, _ => none
  | shift opcode group count, lhs, rhs =>
    bothHalves (fun lhs _ => applyAvxShift128 opcode group lhs count) lhs rhs
  | shiftvarDword opcode, lhs, rhs => applyAvx2ShiftvarDword256 opcode lhs rhs
  | shiftvarQword opcode, lhs, rhs => applyAvx2ShiftvarQword256 opcode lhs rhs
  | pshufb, lhs, rhs => bothHalves (fun lhs rhs => some (applyAvx2Pshufb128 lhs rhs)) lhs rhs
  | palignr imm8, lhs, rhs =>
    bothHalves (fun lhs rhs => some (applyAvx2Palignr128 lhs rhs imm8)) lhs rhs
  | pshufd imm8, lhs, rhs => bothHalves (fun _ rhs => some (applyAvxPshufd128 rhs imm8)) lhs rhs
  | pshufhw imm8, lhs, rhs => bothHalves (fun _ rhs => some (applySse2Pshufhw128 rhs imm8)) lhs rhs
  | pshuflw imm8, lhs, rhs => bothHalves (fun _ rhs => some (applySse2Pshuflw128 rhs imm8)) lhs rhs
  | blendd imm8, lhs, rhs => some (applyAvxBlendPs256 lhs rhs imm8)
  | blendw imm8, lhs, rhs => some (applyAvx2Blendw256 lhs rhs imm8)
  | blendvb mask, lhs, rhs => some (applyAvx2Blendvb256 lhs rhs mask)
  | permd, lhs, rhs => some (applyAvx2Perm32x8 rhs lhs)
  | permq imm8, _, rhs => some (applyAvx2Permq256 rhs imm8)
  | perm2i128 imm8, lhs, rhs => some (applyAvxPerm2f128256 lhs rhs imm8)
  | broadcast opcode, _, rhs => avx2Broadcast opcode rhs.low

end PackedOp

end Cpueaxh
