/-
# The set bits of a word

The positions of the set bits of a word in order, how the lowest one is isolated and cleared,
and the two ways in which a word and a mask go together: the bits at the set positions are
packed, or the low bits are spread over them.
-/
import Mathlib.Data.List.Perm.Subperm
import Mathlib.Algebra.Order.Group.Nat
import Mathlib.Tactic.Common

namespace SetBits

variable {w : ℕ}

/-! ## Positions -/

/-- The positions of the set bits, the lowest first. -/
def positions (m : BitVec w) : List ℕ := (List.range w).filter fun i => m.getLsbD i

/-- The number of set bits. -/
def popcount (m : BitVec w) : ℕ := (positions m).length

theorem mem_positions {m : BitVec w} {i : ℕ} : i ∈ positions m ↔ m.getLsbD i = true := by
  rw [positions, List.mem_filter, List.mem_range, and_iff_right_iff_imp]
  exact BitVec.lt_of_getLsbD

theorem positions_pairwise (m : BitVec w) : (positions m).Pairwise (· < ·) :=
  List.Pairwise.filter _ List.pairwise_lt_range

theorem positions_nodup (m : BitVec w) : (positions m).Nodup :=
  (positions_pairwise m).imp fun h => Nat.ne_of_lt h

theorem positions_eq_nil {m : BitVec w} : positions m = [] ↔ m = 0#w := by
  constructor
  · intro h
    apply BitVec.eq_of_getLsbD_eq
    intro i _
    rw [BitVec.getLsbD_zero, ← Bool.not_eq_true, ← mem_positions, h]
    exact List.not_mem_nil
  · rintro rfl
    rw [positions, List.filter_eq_nil_iff]
    intro i _
    rw [BitVec.getLsbD_zero]
    exact Bool.false_ne_true

/-- Words below a power of two have their set bits below its exponent. -/
theorem popcount_le {m : BitVec w} {k : ℕ} (h : ∀ i, m.getLsbD i = true → i < k) :
    popcount m ≤ k := by
  have hsub : positions m ⊆ List.range k := by
    intro i hi
    exact List.mem_range.mpr (h i (mem_positions.mp hi))
  have hle := (List.subperm_of_subset (positions_nodup m) hsub).length_le
  rwa [List.length_range] at hle

/-! ## The lowest set bit -/

/-- The word with its lowest set bit alone. -/
def isolateLowest (m : BitVec w) : BitVec w := m &&& (~~~m + 1#w)

/-- The word without its lowest set bit. -/
def clearLowest (m : BitVec w) : BitVec w := m &&& (m - 1#w)

theorem getLsbD_isolateLowest (m : BitVec w) (i : ℕ) :
    (isolateLowest m).getLsbD i = (m.getLsbD i && !decide (∃ j < i, m.getLsbD j = true)) := by
  rw [isolateLowest, ← BitVec.neg_eq_not_add, BitVec.getLsbD_and, BitVec.getLsbD_neg]
  by_cases hi : i < w
  · rw [decide_eq_true hi]
    cases m.getLsbD i <;> simp
  · rw [BitVec.getLsbD_of_ge m i (not_lt.mp hi)]
    rfl

theorem getLsbD_clearLowest (m : BitVec w) (i : ℕ) :
    (clearLowest m).getLsbD i = (m.getLsbD i && decide (∃ j < i, m.getLsbD j = true)) := by
  rw [clearLowest, ← BitVec.not_neg, BitVec.getLsbD_and, BitVec.getLsbD_not, BitVec.getLsbD_neg]
  by_cases hi : i < w
  · rw [decide_eq_true hi]
    cases m.getLsbD i <;> simp
  · rw [BitVec.getLsbD_of_ge m i (not_lt.mp hi)]
    rfl

section Peel

variable {m : BitVec w} {p : ℕ} {rest : List ℕ} (h : positions m = p :: rest)

include h

theorem getLsbD_lowest : m.getLsbD p = true :=
  mem_positions.mp (h ▸ List.mem_cons_self)

/-- There is a set bit below a set bit exactly if that one is not the first. -/
theorem exists_lower_iff {i : ℕ} (hi : m.getLsbD i = true) :
    (∃ j < i, m.getLsbD j = true) ↔ i ≠ p := by
  have hfirst : ∀ j, m.getLsbD j = true → p ≤ j := by
    intro j hj
    have hpairwise := positions_pairwise m
    rw [h, List.pairwise_cons] at hpairwise
    rw [← mem_positions, h, List.mem_cons] at hj
    rcases hj with rfl | hj
    · exact le_rfl
    · exact (hpairwise.1 j hj).le
  constructor
  · rintro ⟨j, hlt, hj⟩ rfl
    exact absurd (hfirst j hj) (not_le.mpr hlt)
  · intro hne
    exact ⟨p, lt_of_le_of_ne (hfirst i hi) (Ne.symm hne), getLsbD_lowest h⟩

theorem getLsbD_isolateLowest_of (i : ℕ) : (isolateLowest m).getLsbD i = decide (i = p) := by
  rw [getLsbD_isolateLowest]
  cases hi : m.getLsbD i with
  | false =>
    symm
    rw [Bool.false_and, decide_eq_false_iff_not]
    rintro rfl
    rw [getLsbD_lowest h] at hi
    cases hi
  | true => simp [exists_lower_iff h hi]

/-- The set bits without the lowest. -/
theorem positions_clearLowest : positions (clearLowest m) = rest := by
  have hbits : ∀ i, (clearLowest m).getLsbD i = (m.getLsbD i && decide (i ≠ p)) := by
    intro i
    rw [getLsbD_clearLowest]
    cases hi : m.getLsbD i with
    | false => rfl
    | true => simp [exists_lower_iff h hi]
  have hnodup := positions_nodup m
  rw [h, List.nodup_cons] at hnodup
  have hfilter : positions (clearLowest m) = (positions m).filter fun i => decide (i ≠ p) := by
    unfold positions
    rw [List.filter_filter]
    refine List.filter_congr fun i _ => ?_
    rw [hbits, Bool.and_comm]
  rw [hfilter, h, List.filter_cons_of_neg (by simp), List.filter_eq_self]
  intro i hi
  refine decide_eq_true ?_
  rintro rfl
  exact hnodup.1 hi

end Peel

/-- A turn of a loop over the set bits leaves fewer of them. -/
theorem popcount_clearLowest {m : BitVec w} (h : m ≠ 0#w) :
    popcount (clearLowest m) + 1 = popcount m := by
  unfold popcount
  cases hp : positions m with
  | nil => exact absurd (positions_eq_nil.mp hp) h
  | cons p rest => rw [positions_clearLowest hp, List.length_cons]

/-! ## Gather and scatter -/

/-- The bits of `x` at the set positions of `m`, packed. -/
def gatheredBit (x m : BitVec w) (i : ℕ) : Bool := ((positions m)[i]?).elim false x.getLsbD

/-- The low bits of `x`, spread over the set positions of `m`. -/
def scatteredBit (x m : BitVec w) (i : ℕ) : Bool :=
  m.getLsbD i && x.getLsbD ((positions m).idxOf i)

variable {x m r : BitVec w}

theorem gatheredBit_of_ge {i : ℕ} (h : popcount m ≤ i) : gatheredBit x m i = false := by
  rw [gatheredBit, List.getElem?_eq_none h]
  rfl

theorem gatheredBit_of_getElem? {i p : ℕ} (h : (positions m)[i]? = some p) :
    gatheredBit x m i = x.getLsbD p := by
  rw [gatheredBit, h]
  rfl

theorem scatteredBit_of_getElem? {i p : ℕ} (h : (positions m)[i]? = some p) :
    scatteredBit x m p = x.getLsbD i := by
  obtain ⟨hi, rfl⟩ := List.getElem?_eq_some_iff.mp h
  have hset : m.getLsbD (positions m)[i] = true := mem_positions.mp (List.getElem_mem hi)
  rw [scatteredBit, hset, Bool.true_and, (positions_nodup m).idxOf_getElem]

/-- Packing what has been spread gives the low bits back. -/
theorem gatheredBit_scatter (hr : ∀ i, r.getLsbD i = scatteredBit x m i) (i : ℕ) :
    gatheredBit r m i = (decide (i < popcount m) && x.getLsbD i) := by
  by_cases hi : i < popcount m
  · have hp := List.getElem?_eq_getElem hi
    rw [gatheredBit_of_getElem? hp, hr, scatteredBit_of_getElem? hp, decide_eq_true hi,
      Bool.true_and]
  · rw [gatheredBit_of_ge (not_lt.mp hi), decide_eq_false hi, Bool.false_and]

/-- Spreading what has been packed gives the selected bits back. -/
theorem scatteredBit_gather (hr : ∀ i, r.getLsbD i = gatheredBit x m i) (i : ℕ) :
    scatteredBit r m i = (x &&& m).getLsbD i := by
  rw [BitVec.getLsbD_and]
  cases hi : m.getLsbD i with
  | false => rw [scatteredBit, hi, Bool.and_false, Bool.false_and]
  | true =>
    obtain ⟨j, hj⟩ := List.mem_iff_getElem?.mp (mem_positions.mpr hi)
    rw [scatteredBit_of_getElem? hj, hr, gatheredBit_of_getElem? hj, Bool.and_true]

end SetBits
