/-
# Restoring division

The division of a double word by a word, one bit of the quotient after the other.  The
running remainder is kept in a single word, which is wide enough as long as it is below
half of the range before each shift; the division is exact if and only if it always is.
-/
import Mathlib.Tactic.Common
import Mathlib.Tactic.Ring
import Mathlib.Data.Nat.Bitwise

namespace RestoringDivision

variable {w : ℕ}

/-- The loop over the bits of the low word that are left, the highest first: the quotient
and the running remainder. -/
def loop (low divisor : BitVec w) : ℕ → BitVec w → BitVec w → BitVec w × BitVec w
  | 0, quotient, rem => (quotient, rem)
  | bit + 1, quotient, rem =>
    let rem := (rem <<< 1) ||| ((low >>> bit) &&& 1)
    if divisor ≤ rem then loop low divisor bit (quotient ||| (1 : BitVec w) <<< bit) (rem - divisor)
    else loop low divisor bit quotient rem

/-- A double word. -/
def pair (high low : BitVec w) : ℕ := high.toNat * 2 ^ w + low.toNat

/-- The remainder of the bits of `n` from `bit` on. -/
def running (n divisor bit : ℕ) : ℕ := n / 2 ^ bit % divisor

/-! ## One bit -/

/-- The next bit of a number. -/
theorem div_two_pow_succ (n bit : ℕ) : n / 2 ^ bit = 2 * (n / 2 ^ (bit + 1)) + n / 2 ^ bit % 2 := by
  rw [pow_succ, ← Nat.div_div_eq_div_mul]
  omega

/-- The low bits of a double word. -/
theorem pair_bit (high : BitVec w) {low : BitVec w} {bit : ℕ} (hbit : bit < w) :
    pair high low / 2 ^ bit % 2 = low.toNat / 2 ^ bit % 2 := by
  obtain ⟨k, rfl⟩ : ∃ k, w = bit + (k + 1) := ⟨w - bit - 1, by omega⟩
  have hsplit : high.toNat * 2 ^ (bit + (k + 1)) + low.toNat =
      low.toNat + 2 ^ bit * (2 * (high.toNat * 2 ^ k)) := by ring
  unfold pair
  rw [hsplit, Nat.add_mul_div_left _ _ (Nat.two_pow_pos bit), Nat.add_mul_mod_self_left]

theorem one_toNat (hw : 0 < w) : (1 : BitVec w).toNat = 1 := by
  show 1 % 2 ^ w = 1
  exact Nat.mod_eq_of_lt (Nat.one_lt_two_pow (by omega))

/-- The remainder with the next bit shifted in, as far as the word holds it. -/
theorem shiftIn_toNat (rem low : BitVec w) {bit : ℕ} (hbit : bit < w) :
    ((rem <<< 1) ||| ((low >>> bit) &&& 1)).toNat =
      (2 * rem.toNat + low.toNat / 2 ^ bit % 2) % 2 ^ w := by
  obtain ⟨k, rfl⟩ : ∃ k, w = k + 1 := ⟨w - 1, by omega⟩
  have hone : (1 : BitVec (k + 1)).toNat = 1 := one_toNat (by omega)
  have hlow : low.toNat / 2 ^ bit % 2 < 2 := Nat.mod_lt _ (by omega)
  have hshift : rem.toNat <<< 1 % 2 ^ (k + 1) = (rem.toNat % 2 ^ k) <<< 1 := by
    rw [Nat.shiftLeft_eq, Nat.shiftLeft_eq, pow_one, pow_succ, Nat.mul_mod_mul_right]
  rw [BitVec.toNat_or, BitVec.toNat_shiftLeft, BitVec.toNat_and, BitVec.toNat_ushiftRight, hone,
    Nat.and_one_is_mod, Nat.shiftRight_eq_div_pow, hshift,
    ← Nat.shiftLeft_add_eq_or_of_lt (by simpa using hlow), Nat.shiftLeft_eq, pow_one, pow_succ]
  generalize low.toNat / 2 ^ bit % 2 = b at hlow
  generalize rem.toNat = r
  have hdiv := Nat.div_add_mod r (2 ^ k)
  have hmod := Nat.mod_lt r (Nat.two_pow_pos k)
  have hsum : 2 * r + b = (r % 2 ^ k * 2 + b) + 2 ^ k * 2 * (r / 2 ^ k) := by
    conv_lhs => rw [← hdiv]
    ring
  rw [hsum, Nat.add_mul_mod_self_left]
  exact (Nat.mod_eq_of_lt (by omega)).symm

/-- A bit of the quotient. -/
theorem or_bit_toNat {quotient : BitVec w} {bit : ℕ} (hbit : bit < w)
    (hlow : quotient.toNat % 2 ^ (bit + 1) = 0) :
    (quotient ||| (1 : BitVec w) <<< bit).toNat = quotient.toNat + 2 ^ bit := by
  obtain ⟨k, hk⟩ := Nat.dvd_of_mod_eq_zero hlow
  have hone : ((1 : BitVec w) <<< bit).toNat = 2 ^ bit := by
    rw [BitVec.toNat_shiftLeft, one_toNat (by omega), Nat.shiftLeft_eq, one_mul]
    exact Nat.mod_eq_of_lt (Nat.pow_lt_pow_right (by omega) hbit)
  have hlt : 2 ^ bit < 2 ^ (bit + 1) := Nat.pow_lt_pow_right (by omega) (Nat.lt_succ_self bit)
  rw [BitVec.toNat_or, hone, hk, mul_comm, ← Nat.shiftLeft_eq, Nat.shiftLeft_add_eq_or_of_lt hlt]

/-- The bits of the quotient above those that are left stay. -/
theorem loop_quotient_div (low divisor : BitVec w) (left : ℕ) :
    ∀ (quotient rem : BitVec w), left ≤ w →
      (loop low divisor left quotient rem).1.toNat / 2 ^ left = quotient.toNat / 2 ^ left := by
  induction left with
  | zero =>
    intro quotient rem _
    rfl
  | succ bit ih =>
    intro quotient rem hleft
    have hkeep : ∀ q r : BitVec w, (loop low divisor bit q r).1.toNat / 2 ^ (bit + 1) =
        q.toNat / 2 ^ (bit + 1) := by
      intro q r
      rw [pow_succ, ← Nat.div_div_eq_div_mul, ← Nat.div_div_eq_div_mul, ih q r (by omega)]
    rw [loop]
    split_ifs
    · rw [hkeep, BitVec.toNat_or, ← Nat.shiftRight_eq_div_pow, Nat.shiftRight_or_distrib]
      have hone : ((1 : BitVec w) <<< bit).toNat >>> (bit + 1) = 0 := by
        rw [Nat.shiftRight_eq_div_pow]
        apply Nat.div_eq_of_lt
        calc ((1 : BitVec w) <<< bit).toNat
            ≤ 1 <<< bit := by
              rw [BitVec.toNat_shiftLeft, one_toNat (by omega)]
              exact Nat.mod_le _ _
          _ = 2 ^ bit := by rw [Nat.shiftLeft_eq, one_mul]
          _ < 2 ^ (bit + 1) := Nat.pow_lt_pow_right (by omega) (Nat.lt_succ_self bit)
      rw [hone, Nat.or_zero, Nat.shiftRight_eq_div_pow]
    · exact hkeep _ _

/-! ## The invariant -/

/-- The quotient and the remainder of the bits of `n` that the loop has passed. -/
structure Invariant (n : ℕ) (divisor : BitVec w) (left : ℕ) (quotient rem : BitVec w) : Prop where
  quotient_eq : quotient.toNat = n / 2 ^ left / divisor.toNat * 2 ^ left
  rem_eq : rem.toNat = running n divisor.toNat left

/-- The next remainder before the subtraction. -/
theorem running_succ (n d bit : ℕ) :
    n / 2 ^ bit / d = (2 * running n d (bit + 1) + n / 2 ^ bit % 2) / d
        + 2 * (n / 2 ^ (bit + 1) / d) ∧
      running n d bit = (2 * running n d (bit + 1) + n / 2 ^ bit % 2) % d := by
  have hstep := div_two_pow_succ n bit
  have hdiv := Nat.div_add_mod (n / 2 ^ (bit + 1)) d
  unfold running
  generalize n / 2 ^ (bit + 1) = a at *
  generalize n / 2 ^ bit % 2 = b at *
  have hsum : n / 2 ^ bit = (2 * (a % d) + b) + d * (2 * (a / d)) := by
    rw [hstep]
    conv_lhs => rw [← hdiv]
    ring
  rcases Nat.eq_zero_or_pos d with rfl | hd
  · simp only [Nat.div_zero, Nat.mod_zero, mul_zero, add_zero, true_and] at *
    omega
  · rw [hsum]
    exact ⟨Nat.add_mul_div_left _ _ hd, Nat.add_mul_mod_self_left _ _ _⟩

variable {high low divisor : BitVec w}

/-- **One bit.**  A remainder that fits keeps the invariant. -/
theorem Invariant.step {bit : ℕ} {quotient rem : BitVec w} (hbit : bit < w)
    (hd : 0 < divisor.toNat)
    (h : Invariant (pair high low) divisor (bit + 1) quotient rem)
    (hfits : running (pair high low) divisor.toNat (bit + 1) < 2 ^ (w - 1)) :
    let next := (rem <<< 1) ||| ((low >>> bit) &&& 1)
    if divisor ≤ next then
      Invariant (pair high low) divisor bit (quotient ||| (1 : BitVec w) <<< bit) (next - divisor)
    else Invariant (pair high low) divisor bit quotient next := by
  intro next
  obtain ⟨hquotient, hrunning⟩ := running_succ (pair high low) divisor.toNat bit
  have hb : pair high low / 2 ^ bit % 2 < 2 := Nat.mod_lt _ (by omega)
  have hr : running (pair high low) divisor.toNat (bit + 1) < divisor.toNat := Nat.mod_lt _ hd
  have hhalf : 2 ^ w = 2 * 2 ^ (w - 1) := by
    rw [← pow_succ']
    congr 1
    omega
  have hnext : next.toNat =
      2 * running (pair high low) divisor.toNat (bit + 1) + pair high low / 2 ^ bit % 2 := by
    rw [shiftIn_toNat rem low hbit, h.rem_eq, ← pair_bit high hbit]
    exact Nat.mod_eq_of_lt (by omega)
  have hlow : quotient.toNat % 2 ^ (bit + 1) = 0 := by
    rw [h.quotient_eq]
    exact Nat.mul_mod_left _ _
  rw [← hnext] at hquotient hrunning
  split_ifs with hle
  · have hle' : divisor.toNat ≤ next.toNat := BitVec.le_def.mp hle
    have hone : next.toNat / divisor.toNat = 1 := Nat.div_eq_of_lt_le (by omega) (by omega)
    have hmod : next.toNat % divisor.toNat = next.toNat - divisor.toNat := by
      rw [Nat.mod_eq_sub_mod hle']
      exact Nat.mod_eq_of_lt (by omega)
    constructor
    · rw [or_bit_toNat hbit hlow, h.quotient_eq, hquotient, hone, pow_succ]
      ring
    · rw [hrunning, hmod, BitVec.toNat_sub_of_le hle]
  · have hlt : next.toNat < divisor.toNat := by
      rw [← not_le]
      exact fun hge => hle (BitVec.le_def.mpr hge)
    constructor
    · rw [h.quotient_eq, hquotient, Nat.div_eq_of_lt hlt, pow_succ]
      ring
    · rw [hrunning, Nat.mod_eq_of_lt hlt]

/-- **The run.**  The loop ends with the quotient and the remainder when every remainder
on the way fits. -/
theorem Invariant.run (hd : 0 < divisor.toNat) (left : ℕ) :
    ∀ {quotient rem : BitVec w}, left ≤ w →
      Invariant (pair high low) divisor left quotient rem →
      (∀ bit < left, running (pair high low) divisor.toNat (bit + 1) < 2 ^ (w - 1)) →
      Invariant (pair high low) divisor 0 (loop low divisor left quotient rem).1
        (loop low divisor left quotient rem).2 := by
  induction left with
  | zero =>
    intro quotient rem _ h _
    exact h
  | succ bit ih =>
    intro quotient rem hleft h hfits
    have hstep := h.step (by omega) hd (hfits bit (Nat.lt_succ_self bit))
    rw [loop]
    simp only at hstep ⊢
    split_ifs at hstep ⊢ with hle
    · exact ih (by omega) hstep fun k hk => hfits k (by omega)
    · exact ih (by omega) hstep fun k hk => hfits k (by omega)

/-- **The lost bit.**  When a remainder does not fit, a bit of the quotient is missing. -/
theorem Invariant.lost {bit : ℕ} {quotient rem : BitVec w} (hbit : bit < w)
    (hd : 0 < divisor.toNat)
    (h : Invariant (pair high low) divisor (bit + 1) quotient rem)
    (hbig : 2 ^ (w - 1) ≤ running (pair high low) divisor.toNat (bit + 1)) :
    (loop low divisor (bit + 1) quotient rem).1.toNat ≠ pair high low / divisor.toNat := by
  obtain ⟨hquotient, -⟩ := running_succ (pair high low) divisor.toNat bit
  have hb : pair high low / 2 ^ bit % 2 < 2 := Nat.mod_lt _ (by omega)
  have hr : running (pair high low) divisor.toNat (bit + 1) < divisor.toNat := Nat.mod_lt _ hd
  have hlt := divisor.isLt
  have hhalf : 2 ^ w = 2 * 2 ^ (w - 1) := by
    rw [← pow_succ']
    congr 1
    omega
  -- the word holds the next remainder less 2 ^ w, which is below the divisor
  have hnext : ((rem <<< 1) ||| ((low >>> bit) &&& 1)).toNat =
      2 * running (pair high low) divisor.toNat (bit + 1) + pair high low / 2 ^ bit % 2 - 2 ^ w := by
    rw [shiftIn_toNat rem low hbit, h.rem_eq, ← pair_bit high hbit,
      Nat.mod_eq_sub_mod (by omega)]
    exact Nat.mod_eq_of_lt (by omega)
  have hnot : ¬ divisor ≤ (rem <<< 1) ||| ((low >>> bit) &&& 1) := by
    intro hle
    have := BitVec.le_def.mp hle
    omega
  have hone : (2 * running (pair high low) divisor.toNat (bit + 1) + pair high low / 2 ^ bit % 2)
      / divisor.toNat = 1 := Nat.div_eq_of_lt_le (by omega) (by omega)
  rw [hone] at hquotient
  intro heq
  have hkept := loop_quotient_div low divisor bit quotient
    ((rem <<< 1) ||| ((low >>> bit) &&& 1)) (by omega)
  rw [loop] at heq
  simp only [hnot, if_false] at heq
  have hshift : quotient.toNat / 2 ^ bit = 2 * (pair high low / 2 ^ (bit + 1) / divisor.toNat) := by
    rw [h.quotient_eq, pow_succ, mul_comm (2 ^ bit) 2, ← mul_assoc,
      Nat.mul_div_cancel _ (Nat.two_pow_pos bit)]
    ring
  rw [heq, Nat.div_div_eq_div_mul, mul_comm, ← Nat.div_div_eq_div_mul, hquotient, hshift] at hkept
  omega

/-! ## The division -/

/-- The remainders on the way fit in the lower half of a word. -/
def Fits (n divisor w : ℕ) : Prop := ∀ bit < w, running n divisor (bit + 1) < 2 ^ (w - 1)

theorem Invariant.start (hlt : high < divisor) :
    Invariant (pair high low) divisor w 0 high := by
  have hlt' := BitVec.lt_def.mp hlt
  have hdiv : pair high low / 2 ^ w = high.toNat := by
    unfold pair
    rw [mul_comm, Nat.mul_add_div (Nat.two_pow_pos w), Nat.div_eq_of_lt low.isLt, add_zero]
  constructor
  · rw [hdiv, Nat.div_eq_of_lt hlt', zero_mul]
    exact BitVec.toNat_zero
  · unfold running
    rw [hdiv, Nat.mod_eq_of_lt hlt']

/-- **The division** is exact if and only if the remainders fit. -/
theorem loop_exact_iff (hlt : high < divisor) :
    (loop low divisor w 0 high).1.toNat * divisor.toNat + (loop low divisor w 0 high).2.toNat =
          pair high low ∧ (loop low divisor w 0 high).2 < divisor ↔
      Fits (pair high low) divisor.toNat w := by
  have hd : 0 < divisor.toNat := lt_of_le_of_lt (Nat.zero_le _) (BitVec.lt_def.mp hlt)
  constructor
  · rintro ⟨heq, hrem⟩
    have hquot : (loop low divisor w 0 high).1.toNat = pair high low / divisor.toNat := by
      rw [← heq, mul_comm, Nat.mul_add_div hd, Nat.div_eq_of_lt (BitVec.lt_def.mp hrem), add_zero]
    -- the first remainder that does not fit, from the top
    have hall : ∀ left ≤ w, ∀ quotient rem : BitVec w,
        Invariant (pair high low) divisor left quotient rem →
        loop low divisor left quotient rem = loop low divisor w 0 high →
        ∀ bit < left, running (pair high low) divisor.toNat (bit + 1) < 2 ^ (w - 1) := by
      intro left
      induction left with
      | zero =>
        intro _ _ _ _ _ bit hbit
        omega
      | succ left ih =>
        intro hleft quotient rem hinv hloop
        by_cases hbig : running (pair high low) divisor.toNat (left + 1) < 2 ^ (w - 1)
        · have hstep := hinv.step (by omega) hd hbig
          intro bit hbit
          rcases Nat.lt_succ_iff_lt_or_eq.mp hbit with hbit | rfl
          · rw [loop] at hloop
            simp only at hstep hloop
            split_ifs at hstep hloop with hle
            · exact ih (by omega) _ _ hstep hloop bit hbit
            · exact ih (by omega) _ _ hstep hloop bit hbit
          · exact hbig
        · have hlost := hinv.lost (by omega) hd (not_lt.mp hbig)
          rw [hloop] at hlost
          exact absurd hquot hlost
    exact hall w le_rfl 0 high (.start hlt) rfl
  · intro hfits
    obtain ⟨hquot, hrem⟩ := Invariant.run hd w le_rfl (.start hlt) hfits
    rw [pow_zero, Nat.div_one, mul_one] at hquot
    unfold running at hrem
    rw [pow_zero, Nat.div_one] at hrem
    constructor
    · rw [hquot, hrem, mul_comm]
      exact Nat.div_add_mod _ _
    · rw [BitVec.lt_def, hrem]
      exact Nat.mod_lt _ hd

/-- A divisor in the lower half leaves only remainders that fit. -/
theorem fits_of_le (n : ℕ) {d : ℕ} (hpos : 0 < d) (hd : d ≤ 2 ^ (w - 1)) : Fits n d w :=
  fun _ _ => lt_of_lt_of_le (Nat.mod_lt _ hpos) hd

end RestoringDivision
