/-
# Reflected division over GF(2)

Words as polynomials over GF(2) whose highest coefficient is the lowest bit, and the shift
register that divides by a polynomial of this form: one turn of the register multiplies by `X`,
and what has been shifted into it is the remainder.
-/
import Mathlib.Algebra.Field.ZMod
import Mathlib.RingTheory.AdjoinRoot

namespace ReflectedDivision

open Polynomial

variable {v w : ℕ}

/-! ## Words as polynomials -/

/-- A bit as a coefficient. -/
def coefficient (b : Bool) : ZMod 2 := if b then 1 else 0

theorem coefficient_xor (a b : Bool) : coefficient (a ^^ b) = coefficient a + coefficient b := by
  cases a <;> cases b <;> decide

theorem coefficient_injective : Function.Injective coefficient := by
  intro a b
  cases a <;> cases b <;> decide

/-- The polynomial of a word: the highest bit is the constant coefficient. -/
noncomputable def reflected (x : BitVec w) : (ZMod 2)[X] :=
  ∑ i ∈ Finset.range w, monomial i (coefficient (x.getMsbD i))

/-- The polynomial of a message of words, the first with the highest coefficients. -/
noncomputable def message (words : List (BitVec v)) : (ZMod 2)[X] :=
  words.foldl (fun p x => X ^ v * p + reflected x) 0

@[simp] theorem coeff_reflected (x : BitVec w) (i : ℕ) :
    (reflected x).coeff i = coefficient (x.getMsbD i) := by
  unfold reflected
  rw [finsetSum_coeff]
  simp only [coeff_monomial, Finset.sum_ite_eq', Finset.mem_range]
  split_ifs with hi
  · rfl
  · rw [BitVec.getMsbD_of_ge x i (not_lt.mp hi)]
    rfl

theorem degree_reflected_lt (x : BitVec w) : (reflected x).degree < w := by
  rw [degree_lt_iff_coeff_zero]
  intro i hi
  rw [coeff_reflected, BitVec.getMsbD_of_ge x i hi]
  rfl

/-- A word is known from its polynomial. -/
theorem reflected_injective : Function.Injective (reflected : BitVec w → (ZMod 2)[X]) := by
  intro x y h
  apply BitVec.eq_of_getMsbD_eq
  intro i _
  apply coefficient_injective
  rw [← coeff_reflected, h, coeff_reflected]

theorem reflected_xor (x y : BitVec w) : reflected (x ^^^ y) = reflected x + reflected y := by
  ext i
  rw [coeff_add, coeff_reflected, coeff_reflected, coeff_reflected, BitVec.getMsbD_xor,
    coefficient_xor]

/-- The polynomial of a word by its bits. -/
theorem reflected_eq_sum (x : BitVec w) :
    reflected x = ∑ i ∈ (Finset.range w).filter fun i => x.getMsbD i = true, X ^ i := by
  unfold reflected
  rw [Finset.sum_filter]
  refine Finset.sum_congr rfl fun i _ => ?_
  rw [coefficient]
  split_ifs
  · exact monomial_one_right_eq_X_pow i
  · exact monomial_zero_right i

@[simp] theorem reflected_zero : reflected 0#w = 0 := by
  ext i
  rw [coeff_reflected, BitVec.getMsbD_zero]
  rfl

/-- A word in the low bits of a wider one has the high coefficients. -/
theorem reflected_setWidth (h : v ≤ w) (x : BitVec v) :
    reflected (x.setWidth w) = X ^ (w - v) * reflected x := by
  ext i
  rw [coeff_reflected, coeff_X_pow_mul', coeff_reflected, BitVec.getMsbD_setWidth]
  split_ifs with hi
  · rw [decide_eq_true hi, Bool.true_and, show i + v - w = i - (w - v) by omega]
  · rw [decide_eq_false hi, Bool.false_and]
    rfl

/-! ## The register -/

/-- One turn of the register. -/
def turn (generator x : BitVec w) : BitVec w :=
  x >>> 1 ^^^ if x.getLsbD 0 then generator else 0

/-- The polynomial that the register divides by. -/
noncomputable def modulus (generator : BitVec w) : (ZMod 2)[X] := X ^ w + reflected generator

theorem modulus_monic (generator : BitVec w) : (modulus generator).Monic :=
  monic_X_pow_add (degree_reflected_lt generator)

theorem degree_modulus (generator : BitVec w) : (modulus generator).degree = w := by
  have hlow : (reflected generator).degree < (X ^ w : (ZMod 2)[X]).degree := by
    rw [degree_X_pow]
    exact degree_reflected_lt generator
  rw [modulus, degree_add_eq_left_of_degree_lt hlow, degree_X_pow]

/-- A shift divides by the unit of the polynomial, but for the bit that falls out. -/
theorem X_mul_reflected (x : BitVec w) :
    X * reflected x = reflected (x >>> 1) + C (coefficient (x.getLsbD 0)) * X ^ w := by
  ext i
  rw [coeff_add, coeff_C_mul, coeff_X_pow, coeff_reflected, BitVec.getMsbD_ushiftRight]
  match i with
  | 0 =>
    rw [coeff_X_mul_zero]
    by_cases hw : 0 = w
    · subst hw
      simp [coefficient]
    · simp [hw, coefficient]
  | i + 1 =>
    rw [coeff_X_mul, coeff_reflected]
    rcases lt_trichotomy (i + 1) w with hlt | heq | hgt
    · simp [hlt, hlt.ne]
    · -- the bit that falls out is the highest coefficient
      subst heq
      simp [BitVec.getMsbD, coefficient]
    · rw [BitVec.getMsbD_of_ge x i (by omega)]
      simp [show ¬ i + 1 < w by omega, hgt.ne', coefficient]

/-- A turn of the register multiplies by `X`, up to a multiple of the modulus. -/
theorem X_mul_reflected_turn (generator x : BitVec w) :
    X * reflected x =
      reflected (turn generator x) + C (coefficient (x.getLsbD 0)) * modulus generator := by
  have htwo : reflected generator + reflected generator = 0 := by
    ext i
    rw [coeff_add, coeff_zero, CharTwo.add_self_eq_zero]
  rw [X_mul_reflected, turn, reflected_xor, modulus, mul_add, add_assoc]
  congr 1
  cases x.getLsbD 0 with
  | false => simp [coefficient]
  | true =>
    have hone : coefficient true = 1 := rfl
    rw [hone, C_1, one_mul, one_mul, if_pos rfl, add_comm (X ^ w), ← add_assoc, htwo, zero_add]

/-! ## The remainder -/

/-- The class of a polynomial under the modulus. -/
noncomputable def residue (generator : BitVec w) :
    (ZMod 2)[X] →+* AdjoinRoot (modulus generator) :=
  AdjoinRoot.mk (modulus generator)

section Residue

variable {generator : BitVec w}

theorem residue_turn (x : BitVec w) :
    residue generator (reflected (turn generator x)) = residue generator (X * reflected x) := by
  rw [X_mul_reflected_turn generator x, map_add, map_mul]
  have hself : residue generator (modulus generator) = 0 := AdjoinRoot.mk_self
  rw [hself, mul_zero, add_zero]

/-- Some turns of the register. -/
theorem residue_turns (n : ℕ) (x : BitVec w) :
    residue generator (reflected ((turn generator)^[n] x)) =
      residue generator (X ^ n * reflected x) := by
  induction n generalizing x with
  | zero => rw [Function.iterate_zero_apply, pow_zero, one_mul]
  | succ n ih =>
    rw [Function.iterate_succ_apply, ih, map_mul, residue_turn, map_mul, map_mul, pow_succ, map_mul,
      mul_assoc]

/-- A word of the message goes into the register. -/
def absorb (generator : BitVec w) (register : BitVec w) (x : BitVec v) : BitVec w :=
  (turn generator)^[v] (register ^^^ x.setWidth w)

theorem residue_absorb (h : v ≤ w) (register : BitVec w) (x : BitVec v) :
    residue generator (reflected (absorb generator register x)) =
      residue generator (X ^ v * reflected register + X ^ w * reflected x) := by
  rw [absorb, residue_turns, reflected_xor, reflected_setWidth h, mul_add, ← mul_assoc, ← pow_add,
    Nat.add_sub_cancel' h]

/-- A message goes into the register. -/
theorem residue_foldl_absorb (h : v ≤ w) (words : List (BitVec v)) (register : BitVec w) :
    residue generator (reflected (words.foldl (absorb generator) register)) =
      residue generator (X ^ (v * words.length) * reflected register + X ^ w * message words) := by
  induction words using List.reverseRecOn with
  | nil => simp [message]
  | append_singleton words x ih =>
    have hmessage : message (words ++ [x]) = X ^ v * message words + reflected x := by
      rw [message, List.foldl_append]
      rfl
    rw [List.foldl_append]
    show residue generator (reflected (absorb generator (words.foldl (absorb generator) register) x))
      = _
    rw [residue_absorb h, map_add, map_mul, ih, hmessage, List.length_append, List.length_singleton]
    simp only [map_add, map_mul, map_pow]
    ring

/-- **The register holds the remainder.** -/
theorem reflected_foldl_absorb (h : v ≤ w) (words : List (BitVec v)) (register : BitVec w) :
    reflected (words.foldl (absorb generator) register) =
      (X ^ (v * words.length) * reflected register + X ^ w * message words) %ₘ
        modulus generator := by
  have hresidue := @residue_foldl_absorb v w generator h words register
  have hclass := AdjoinRoot.mk_eq_mk.mp hresidue
  rw [← modByMonic_eq_of_dvd_sub (modulus_monic generator) hclass]
  have hdegree := degree_reflected_lt (words.foldl (absorb generator) register)
  rw [← degree_modulus generator] at hdegree
  exact ((modByMonic_eq_self_iff (modulus_monic generator)).mpr hdegree).symm

end Residue

end ReflectedDivision
