/-
# Bisection by a probe

Two searches over an index window `[left, right)`, stated for an arbitrary
probe of the indices, so that they can be reused for any sorted table:

* `search` follows a three-way probe and stops at an index that answers `eq`;
* `lowerBound` follows a two-way probe to the first index that answers `false`.

Both recurse on a fuel argument; the width of the window is always enough.
-/
import Mathlib.Order.Nat
import Mathlib.Tactic.Common

namespace ProbeSearch

/-! ## Three-way search -/

/-- Bisection of `[left, right)` by a three-way probe: `lt` keeps the indices
below the midpoint, `gt` those above it, and `eq` stops there. -/
def search (probe : ℕ → Ordering) : ℕ → ℕ → ℕ → Option ℕ
  | 0, _, _ => none
  | fuel + 1, left, right =>
    if left < right then
      let mid := left + (right - left) / 2
      match probe mid with
      | .lt => search probe fuel left mid
      | .gt => search probe fuel (mid + 1) right
      | .eq => some mid
    else none

/-- An index that is returned lies in the window and answers `eq`. -/
theorem search_sound (probe : ℕ → Ordering) (fuel : ℕ) :
    ∀ left right i, search probe fuel left right = some i →
      left ≤ i ∧ i < right ∧ probe i = .eq := by
  induction fuel with
  | zero => intro left right i h; simp [search] at h
  | succ fuel ih =>
    intro left right i h
    rw [search] at h
    split at h
    · rename_i hlt
      simp only at h
      split at h
      · obtain ⟨h1, h2, h3⟩ := ih _ _ _ h
        exact ⟨h1, by omega, h3⟩
      · obtain ⟨h1, h2, h3⟩ := ih _ _ _ h
        exact ⟨by omega, h2, h3⟩
      · rename_i heq
        obtain rfl := Option.some.inj h
        exact ⟨by omega, by omega, heq⟩
    · cases h

/-- If the probe points towards `k` from every other index of the window, the
search finds `k`. -/
theorem search_complete (probe : ℕ → Ordering) (fuel : ℕ) :
    ∀ left right k, left ≤ k → k < right → right - left ≤ fuel →
      probe k = .eq →
      (∀ i, left ≤ i → i < k → probe i = .gt) →
      (∀ i, k < i → i < right → probe i = .lt) →
      search probe fuel left right = some k := by
  induction fuel with
  | zero => intro left right k hl hr hf; omega
  | succ fuel ih =>
    intro left right k hl hr hf heq hbefore hafter
    rw [search, if_pos (by omega)]
    simp only
    rcases lt_trichotomy (left + (right - left) / 2) k with h | h | h
    · rw [hbefore _ (by omega) h]
      exact ih _ _ _ (by omega) hr (by omega) heq
        (fun i hi => hbefore i (by omega)) hafter
    · rw [h, heq]
    · rw [hafter _ h (by omega)]
      exact ih _ _ _ hl h (by omega) heq hbefore (fun i hi hi' => hafter i hi (by omega))

/-! ## Insertion point -/

/-- Bisection of `[left, right)` to the first index where `below` fails. -/
def lowerBound (below : ℕ → Bool) : ℕ → ℕ → ℕ → ℕ
  | 0, left, _ => left
  | fuel + 1, left, right =>
    if left < right then
      let mid := left + (right - left) / 2
      if below mid then lowerBound below fuel (mid + 1) right
      else lowerBound below fuel left mid
    else left

/-- For a probe that never returns to `true`, the insertion point separates the
indices below it, which answer `true`, from the others, which answer `false`. -/
theorem lowerBound_spec (below : ℕ → Bool) (fuel : ℕ) :
    ∀ left right, left ≤ right → right - left ≤ fuel →
      (∀ i j, left ≤ i → i ≤ j → j < right → below j = true → below i = true) →
      left ≤ lowerBound below fuel left right ∧ lowerBound below fuel left right ≤ right ∧
      (∀ i, left ≤ i → i < lowerBound below fuel left right → below i = true) ∧
      (∀ i, lowerBound below fuel left right ≤ i → i < right → below i = false) := by
  induction fuel with
  | zero =>
    intro left right hle hf _
    rw [lowerBound]
    exact ⟨le_rfl, hle, fun i hi hi' => by omega, fun i hi hi' => by omega⟩
  | succ fuel ih =>
    intro left right hle hf hmono
    rw [lowerBound]
    by_cases hlt : left < right
    · rw [if_pos hlt]
      simp only
      by_cases hmid : below (left + (right - left) / 2) = true
      · rw [if_pos hmid]
        obtain ⟨h1, h2, h3, h4⟩ := ih (left + (right - left) / 2 + 1) right (by omega) (by omega)
          (fun i j hi => hmono i j (by omega))
        refine ⟨by omega, h2, fun i hi hi' => ?_, h4⟩
        by_cases hcase : left + (right - left) / 2 + 1 ≤ i
        · exact h3 i hcase hi'
        · exact hmono i _ hi (by omega) (by omega) hmid
      · rw [if_neg hmid]
        obtain ⟨h1, h2, h3, h4⟩ := ih left (left + (right - left) / 2) (by omega) (by omega)
          (fun i j hi hij hj => hmono i j hi hij (by omega))
        refine ⟨h1, by omega, h3, fun i hi hi' => ?_⟩
        by_cases hcase : i < left + (right - left) / 2
        · exact h4 i hi hcase
        · by_contra hb
          exact hmid (hmono _ i (by omega) (by omega) hi' (by simpa using hb))
    · rw [if_neg hlt]
      exact ⟨le_rfl, hle, fun i hi hi' => by omega, fun i hi hi' => by omega⟩

end ProbeSearch
