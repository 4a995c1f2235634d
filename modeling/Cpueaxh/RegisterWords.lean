/-
# Words under a size

The low 16, 32 or 64 bits of a word, as an address or a register of that size has them:
sums may be cut before or behind, and a write of a register leaves its low bits behind.
-/
import Cpueaxh.StringOps

namespace Cpueaxh

/-! ## Registers under a mask -/

/-- The masks of the sizes that an address can have. -/
theorem regMerge_cases {size : ℕ} (hsize : size = 16 ∨ size = 32 ∨ size = 64)
    {motive : (U64 → U64 → U64) → (U64 → U64) → Prop}
    (long : motive (fun _ value => value) id)
    (dword : motive (fun _ value => value &&& 0xFFFFFFFF) (· &&& 0xFFFFFFFF))
    (word : motive (fun old value => (old &&& ~~~0xFFFF) ||| (value &&& 0xFFFF)) (· &&& 0xFFFF)) :
    motive (regMerge size) (truncateTo size) := by
  rcases hsize with rfl | rfl | rfl
  · exact word
  · exact dword
  · exact long

theorem and_low_toNat (value : U64) (n : ℕ) (hn : n < 64) :
    (value &&& BitVec.ofNat 64 (2 ^ n - 1)).toNat = value.toNat % 2 ^ n := by
  have hlt : 2 ^ n - 1 < 2 ^ 64 := by
    have hle : 2 ^ n < 2 ^ 64 := Nat.pow_lt_pow_right (by decide) hn
    omega
  rw [BitVec.toNat_and, BitVec.toNat_ofNat, Nat.mod_eq_of_lt hlt, Nat.and_two_pow_sub_one_eq_mod]

/-- A sum under a mask does not see the bits that the mask cuts off. -/
theorem and_low_add (value delta : U64) (n : ℕ) (hn : n < 64) :
    ((value &&& BitVec.ofNat 64 (2 ^ n - 1)) + delta) &&& BitVec.ofNat 64 (2 ^ n - 1) =
      (value + delta) &&& BitVec.ofNat 64 (2 ^ n - 1) := by
  have hdvd : 2 ^ n ∣ 2 ^ 64 := Nat.pow_dvd_pow 2 (by omega)
  apply BitVec.eq_of_toNat_eq
  rw [and_low_toNat _ n hn, and_low_toNat _ n hn, BitVec.toNat_add, BitVec.toNat_add,
    and_low_toNat _ n hn, Nat.mod_mod_of_dvd _ hdvd, Nat.mod_mod_of_dvd _ hdvd, Nat.mod_add_mod]

/-! ## Sums under a size -/

section Sums

variable {size : ℕ} (hsize : size = 16 ∨ size = 32 ∨ size = 64)

include hsize

theorem truncateTo_toNat (value : U64) : (truncateTo size value).toNat = value.toNat % 2 ^ size := by
  rcases hsize with rfl | rfl | rfl
  · exact and_low_toNat value 16 (by decide)
  · exact and_low_toNat value 32 (by decide)
  · exact (Nat.mod_eq_of_lt value.isLt).symm

theorem truncateTo_eq (x : U64) : truncateTo size x = (x.setWidth size).setWidth 64 := by
  have hmask : ∀ n, n < 64 → x &&& BitVec.ofNat 64 (2 ^ n - 1) = (x.setWidth n).setWidth 64 := by
    intro n hn
    apply BitVec.eq_of_toNat_eq
    rw [and_low_toNat _ n hn, BitVec.toNat_setWidth, BitVec.toNat_setWidth]
    refine (Nat.mod_eq_of_lt ?_).symm
    exact (Nat.mod_lt _ (Nat.two_pow_pos n)).trans_le (Nat.pow_le_pow_right (by decide) hn.le)
  rcases hsize with rfl | rfl | rfl
  · exact hmask 16 (by decide)
  · exact hmask 32 (by decide)
  · simp [truncateTo]

/-- Two values agree under the address size exactly if they agree in its bits. -/
theorem truncateTo_eq_iff (x y : U64) :
    truncateTo size x = truncateTo size y ↔ x.setWidth size = y.setWidth size := by
  rw [truncateTo_eq hsize, truncateTo_eq hsize]
  refine ⟨fun h => ?_, fun h => by rw [h]⟩
  have hle : size ≤ 64 := by omega
  have hback := congrArg (BitVec.setWidth size) h
  rwa [BitVec.setWidth_setWidth_of_le _ hle, BitVec.setWidth_setWidth_of_le _ hle,
    BitVec.setWidth_eq, BitVec.setWidth_eq] at hback

theorem setWidth_truncateTo (x : U64) : (truncateTo size x).setWidth size = x.setWidth size := by
  rw [truncateTo_eq hsize, BitVec.setWidth_setWidth_of_le _ (by omega), BitVec.setWidth_eq]

/-- A sum may be cut before its last term. -/
theorem truncateTo_truncateTo_add (x y : U64) :
    truncateTo size (truncateTo size x + y) = truncateTo size (x + y) := by
  rw [truncateTo_eq_iff hsize, BitVec.setWidth_add _ _ (by omega), BitVec.setWidth_add _ _ (by omega),
    setWidth_truncateTo hsize]

/-- Two sums with one term in common. -/
theorem truncateTo_add_inj (x y z : U64) :
    truncateTo size (x + z) = truncateTo size (y + z) ↔ truncateTo size x = truncateTo size y := by
  rw [truncateTo_eq_iff hsize, truncateTo_eq_iff hsize, BitVec.setWidth_add _ _ (by omega),
    BitVec.setWidth_add _ _ (by omega), BitVec.add_left_inj]

end Sums

/-! ## Writes of registers -/

section Merge

variable {size : ℕ} (hsize : size = 16 ∨ size = 32 ∨ size = 64)

include hsize

theorem truncateTo_regMerge (old value : U64) :
    truncateTo size (regMerge size old value) = truncateTo size value := by
  have hmask : ∀ mask : U64, ((old &&& ~~~mask) ||| (value &&& mask)) &&& mask =
      value &&& mask := by
    intro mask
    ext i hi
    simp only [BitVec.getElem_and, BitVec.getElem_or, BitVec.getElem_not]
    cases mask[i] <;> simp
  refine @regMerge_cases size hsize (fun merge truncate =>
    truncate (merge old value) = truncate value) rfl ?_ (hmask _)
  simp only [BitVec.and_assoc]
  rfl

theorem regMerge_regMerge (old between value : U64) :
    regMerge size (regMerge size old between) value = regMerge size old value := by
  have hmask : ∀ mask : U64,
      ((((old &&& ~~~mask) ||| (between &&& mask)) &&& ~~~mask) ||| (value &&& mask)) =
        (old &&& ~~~mask) ||| (value &&& mask) := by
    intro mask
    ext i hi
    simp only [BitVec.getElem_and, BitVec.getElem_or, BitVec.getElem_not]
    cases mask[i] <;> simp
  exact @regMerge_cases size hsize (fun merge _ =>
    merge (merge old between) value = merge old value) rfl rfl (hmask _)

theorem regMerge_truncateTo_add (old value delta : U64) :
    regMerge size old (truncateTo size value + delta) = regMerge size old (value + delta) := by
  refine @regMerge_cases size hsize (fun merge truncate =>
    merge old (truncate value + delta) = merge old (value + delta)) rfl ?_ ?_
  · exact and_low_add value delta 32 (by decide)
  · exact congrArg ((old &&& ~~~0xFFFF) ||| ·) (and_low_add value delta 16 (by decide))

/-- The bits of a size behind a write of the size. -/
theorem setWidth_regMerge (old value : U64) :
    (regMerge size old value).setWidth size = value.setWidth size := by
  rw [← truncateTo_eq_iff hsize]
  exact truncateTo_regMerge hsize old value

end Merge

end Cpueaxh
