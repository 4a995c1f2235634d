/-
# The SHA-256 compression function

The functions, the message schedule and the rounds of the standard, on words of 32 bits.
-/
import Mathlib.Tactic.Common

namespace Sha256Standard

/-- A word. -/
abbrev Word := BitVec 32

/-! ## Functions -/

/-- `Ch`. -/
def ch (x y z : Word) : Word := (x &&& y) ^^^ (~~~x &&& z)

/-- `Maj`. -/
def maj (x y z : Word) : Word := (x &&& y) ^^^ (x &&& z) ^^^ (y &&& z)

/-- `Σ₀`. -/
def bigSigma0 (x : Word) : Word := x.rotateRight 2 ^^^ x.rotateRight 13 ^^^ x.rotateRight 22

/-- `Σ₁`. -/
def bigSigma1 (x : Word) : Word := x.rotateRight 6 ^^^ x.rotateRight 11 ^^^ x.rotateRight 25

/-- `σ₀`. -/
def smallSigma0 (x : Word) : Word := x.rotateRight 7 ^^^ x.rotateRight 18 ^^^ x >>> 3

/-- `σ₁`. -/
def smallSigma1 (x : Word) : Word := x.rotateRight 17 ^^^ x.rotateRight 19 ^^^ x >>> 10

/-- The constants of the rounds. -/
def constants : List Word :=
  [0x428a2f98, 0x71374491, 0xb5c0fbcf, 0xe9b5dba5, 0x3956c25b, 0x59f111f1,
    0x923f82a4, 0xab1c5ed5, 0xd807aa98, 0x12835b01, 0x243185be, 0x550c7dc3,
    0x72be5d74, 0x80deb1fe, 0x9bdc06a7, 0xc19bf174, 0xe49b69c1, 0xefbe4786,
    0x0fc19dc6, 0x240ca1cc, 0x2de92c6f, 0x4a7484aa, 0x5cb0a9dc, 0x76f988da,
    0x983e5152, 0xa831c66d, 0xb00327c8, 0xbf597fc7, 0xc6e00bf3, 0xd5a79147,
    0x06ca6351, 0x14292967, 0x27b70a85, 0x2e1b2138, 0x4d2c6dfc, 0x53380d13,
    0x650a7354, 0x766a0abb, 0x81c2c92e, 0x92722c85, 0xa2bfe8a1, 0xa81a664b,
    0xc24b8b70, 0xc76c51a3, 0xd192e819, 0xd6990624, 0xf40e3585, 0x106aa070,
    0x19a4c116, 0x1e376c08, 0x2748774c, 0x34b0bcb5, 0x391c0cb3, 0x4ed8aa4a,
    0x5b9cca4f, 0x682e6ff3, 0x748f82ee, 0x78a5636f, 0x84c87814, 0x8cc70208,
    0x90befffa, 0xa4506ceb, 0xbef9a3f7, 0xc67178f2]

/-- The constant of a round. -/
def constant (t : ℕ) : Word := constants.getD t 0

/-! ## The compression -/

/-- The working variables. -/
structure Working where
  a : Word
  b : Word
  c : Word
  d : Word
  e : Word
  f : Word
  g : Word
  h : Word
  deriving DecidableEq, Repr

/-- The words of the message schedule. -/
def schedule (block : Fin 16 → Word) (t : ℕ) : Word :=
  if ht : t < 16 then block ⟨t, ht⟩
  else smallSigma1 (schedule block (t - 2)) + schedule block (t - 7) +
    smallSigma0 (schedule block (t - 15)) + schedule block (t - 16)

theorem schedule_of_lt (block : Fin 16 → Word) {t : ℕ} (ht : t < 16) :
    schedule block t = block ⟨t, ht⟩ := by
  rw [schedule, dif_pos ht]

theorem schedule_add (block : Fin 16 → Word) (t : ℕ) :
    schedule block (t + 16) =
      smallSigma1 (schedule block (t + 14)) + schedule block (t + 9) +
        smallSigma0 (schedule block (t + 1)) + schedule block t := by
  rw [schedule, dif_neg (by omega)]
  rfl

namespace Working

/-- One round. -/
def round (s : Working) (k w : Word) : Working :=
  let t1 := s.h + bigSigma1 s.e + ch s.e s.f s.g + k + w
  let t2 := bigSigma0 s.a + maj s.a s.b s.c
  ⟨t1 + t2, s.a, s.b, s.c, s.d + t1, s.e, s.f, s.g⟩

/-- The first rounds. -/
def rounds (k w : ℕ → Word) (s : Working) : ℕ → Working
  | 0 => s
  | t + 1 => (rounds k w s t).round (k t) (w t)

/-- The sums of the variables. -/
def add (s s' : Working) : Working :=
  ⟨s.a + s'.a, s.b + s'.b, s.c + s'.c, s.d + s'.d, s.e + s'.e, s.f + s'.f, s.g + s'.g, s.h + s'.h⟩

end Working

/-- The compression of a block. -/
def compress (block : Fin 16 → Word) (s : Working) : Working :=
  (s.rounds constant (schedule block) 64).add s

end Sha256Standard
