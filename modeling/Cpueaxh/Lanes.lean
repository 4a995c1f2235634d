/-
# Lanes

Values that consist of lanes of the same width, with a way to read a lane and a way to write
it.  Filling some lanes one after the other leaves the others alone, and two values with
lanes make one with twice as many.
-/
import Mathlib.Tactic.Common

/-- Values of type `V` as lanes of `w` bits. -/
structure Lanes (V : Type) (w : ℕ) where
  count : ℕ
  get : V → ℕ → BitVec w
  set : V → ℕ → BitVec w → V
  get_set : ∀ (v : V) (i j : ℕ) (bits : BitVec w), i < count → j < count →
    get (set v i bits) j = if j = i then bits else get v j

namespace Lanes

variable {V U : Type} {w : ℕ} (lanes : Lanes V w)

/-- Write the selected lanes among `left` lanes from lane `i` on. -/
def fill (selected : ℕ → Bool) (value : ℕ → BitVec w) : ℕ → ℕ → V → V
  | 0, _, v => v
  | left + 1, i, v =>
    fill selected value left (i + 1) (if selected i then lanes.set v i (value i) else v)

/-- **A filled value** has the new lanes where they are selected. -/
theorem get_fill (selected : ℕ → Bool) (value : ℕ → BitVec w) (left : ℕ) : ∀ (i : ℕ) (v : V)
    {j : ℕ}, i + left ≤ lanes.count → j < lanes.count →
    lanes.get (lanes.fill selected value left i v) j =
      if (i ≤ j ∧ j < i + left) ∧ selected j = true then value j else lanes.get v j := by
  induction left with
  | zero =>
    intro i v j _ _
    rw [if_neg fun h => absurd h.1 (by omega)]
    rfl
  | succ left ih =>
    intro i v j hcount hj
    have hturn : lanes.get (if selected i then lanes.set v i (value i) else v) j =
        if j = i ∧ selected j = true then value j else lanes.get v j := by
      by_cases hsel : selected i = true
      · rw [if_pos hsel, lanes.get_set v i j _ (by omega) hj]
        by_cases hji : j = i
        · rw [if_pos hji, if_pos ⟨hji, hji ▸ hsel⟩, hji]
        · rw [if_neg hji, if_neg fun h => hji h.1]
      · rw [if_neg hsel, if_neg]
        rintro ⟨rfl, h⟩
        exact hsel h
    rw [fill, ih (i + 1) _ (by omega) hj, hturn]
    by_cases hsel : selected j = true
    · by_cases hji : j = i
      · subst hji
        rw [if_neg fun h => absurd h.1 (by omega), if_pos ⟨rfl, hsel⟩,
          if_pos ⟨by omega, hsel⟩]
      · by_cases hrange : i + 1 ≤ j ∧ j < i + 1 + left
        · rw [if_pos ⟨hrange, hsel⟩, if_pos ⟨by omega, hsel⟩]
        · rw [if_neg fun h => hrange h.1, if_neg fun h => hji h.1, if_neg]
          exact fun h => hrange (by omega)
    · rw [if_neg fun h => hsel h.2, if_neg fun h => hsel h.2, if_neg fun h => hsel h.2]

/-- The lanes of a value that consists of two halves. -/
def double (low high : U → V) (make : V → V → U) (hlow : ∀ a b, low (make a b) = a)
    (hhigh : ∀ a b, high (make a b) = b) : Lanes U w where
  count := lanes.count + lanes.count
  get u i := if i < lanes.count then lanes.get (low u) i else lanes.get (high u) (i - lanes.count)
  set u i bits :=
    if i < lanes.count then make (lanes.set (low u) i bits) (high u)
    else make (low u) (lanes.set (high u) (i - lanes.count) bits)
  get_set u i j bits hi hj := by
    by_cases hlane : i < lanes.count
    · simp only [hlane, if_true, hlow, hhigh]
      split_ifs with hj' heq heq
      · rw [lanes.get_set _ _ _ _ hlane hj', if_pos heq]
      · rw [lanes.get_set _ _ _ _ hlane hj', if_neg heq]
      · omega
      · rfl
    · simp only [hlane, if_false, hlow, hhigh]
      split_ifs with hj' heq heq
      · omega
      · rfl
      · rw [lanes.get_set _ _ _ _ (by omega) (by omega), if_pos (by omega)]
      · rw [lanes.get_set _ _ _ _ (by omega) (by omega), if_neg (by omega)]

end Lanes
