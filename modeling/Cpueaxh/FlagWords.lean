/-
# The status flags

Reading and writing single bits of the flags register.
-/
import Cpueaxh.StringElement

namespace Cpueaxh

/-- The status flags. -/
inductive StatusFlag where
  | cf | pf | af | zf | sf | of
  deriving DecidableEq, Repr

namespace StatusFlag

/-- The masks of the flags. -/
def mask : StatusFlag → U64
  | cf => rflagsCf
  | pf => rflagsPf
  | af => rflagsAf
  | zf => rflagsZf
  | sf => rflagsSf
  | of => rflagsOf

/-- The bits of the flags. -/
def index : StatusFlag → ℕ
  | cf => 0
  | pf => 2
  | af => 4
  | zf => 6
  | sf => 7
  | of => 11

theorem mask_eq (f : StatusFlag) : f.mask = BitVec.twoPow 64 f.index := by
  cases f <;> decide

theorem index_lt (f : StatusFlag) : f.index < 64 := by
  cases f <;> decide

theorem index_injective : ∀ {f g : StatusFlag}, f.index = g.index → f = g := by
  rintro (_ | _) (_ | _) <;> decide

end StatusFlag

/-- A flag is set. -/
def hasFlag (rflags : U64) (f : StatusFlag) : Bool := rflags &&& f.mask != 0

/-- Two flag registers differ in some flags at most. -/
def SameFlagsBut (flags : List StatusFlag) (rflags rflags' : U64) : Prop :=
  ∀ i, (∀ f ∈ flags, i ≠ f.index) → rflags'.getLsbD i = rflags.getLsbD i

theorem hasFlag_eq (rflags : U64) (f : StatusFlag) : hasFlag rflags f = rflags.getLsbD f.index := by
  unfold hasFlag
  rw [f.mask_eq, SubtractionFlags.and_twoPow_ne_zero _ f.index_lt]

/-- `set_flag` behind other writes of flags. -/
theorem setFlag_rflags {ctx : CpuContext} (hexc : ctx.hasException = false) (rflags flag : U64)
    (value : Bool) :
    setFlag { ctx with rflags := rflags } flag value =
      { ctx with rflags := withFlag rflags flag value } :=
  @setFlag_eq { ctx with rflags := rflags } hexc flag value

/-- `set_flag` does nothing under an exception. -/
theorem setFlag_pending {ctx : CpuContext} (hexc : ctx.hasException = true) (flag : U64)
    (value : Bool) : setFlag ctx flag value = ctx := by
  unfold setFlag
  rw [hexc, if_pos rfl]

/-- `set_flag` keeps the mode and the exception. -/
theorem keepMode_setFlag {ctx new : CpuContext} (h : ctx.keepMode new = new) (flag : U64)
    (value : Bool) : ctx.keepMode (setFlag new flag value) = setFlag new flag value := by
  unfold setFlag
  split_ifs
  · exact h
  · exact congrArg (fun c : CpuContext => { c with rflags := new.rflags ||| flag }) h
  · exact congrArg (fun c : CpuContext => { c with rflags := new.rflags &&& ~~~flag }) h

/-- The bits behind the write of a flag. -/
theorem getLsbD_withFlag (rflags : U64) (f : StatusFlag) (value : Bool) (i : ℕ) :
    (withFlag rflags f.mask value).getLsbD i =
      if i = f.index then value else rflags.getLsbD i := by
  unfold withFlag
  have hlt := f.index_lt
  by_cases hi : i = f.index
  · subst hi
    rw [if_pos rfl, f.mask_eq]
    cases value with
    | true =>
      rw [if_pos rfl, BitVec.getLsbD_or, BitVec.getLsbD_twoPow, decide_eq_true hlt,
        decide_eq_true rfl]
      simp
    | false =>
      rw [if_neg (by decide), BitVec.getLsbD_and, BitVec.getLsbD_not, BitVec.getLsbD_twoPow,
        decide_eq_true hlt, decide_eq_true rfl]
      simp
  · rw [if_neg hi, f.mask_eq]
    have hbit : (BitVec.twoPow 64 f.index).getLsbD i = false := by
      rw [BitVec.getLsbD_twoPow, decide_eq_false (Ne.symm hi), Bool.and_false]
    split_ifs
    · rw [BitVec.getLsbD_or, hbit, Bool.or_false]
    · rw [BitVec.getLsbD_and, BitVec.getLsbD_not, hbit]
      by_cases h64 : i < 64
      · simp [h64]
      · rw [BitVec.getLsbD_of_ge _ _ (not_lt.mp h64), Bool.false_and]

/-- A flag behind the write of a flag. -/
theorem hasFlag_withFlag (rflags : U64) (f g : StatusFlag) (value : Bool) :
    hasFlag (withFlag rflags f.mask value) g = if g = f then value else hasFlag rflags g := by
  rw [hasFlag_eq, hasFlag_eq, getLsbD_withFlag]
  by_cases h : g = f
  · rw [if_pos (congrArg _ h), if_pos h]
  · rw [if_neg (mt StatusFlag.index_injective h), if_neg h]

theorem SameFlagsBut.refl (flags : List StatusFlag) (rflags : U64) :
    SameFlagsBut flags rflags rflags := fun _ _ => rfl

theorem SameFlagsBut.withFlag {flags : List StatusFlag} {rflags rflags' : U64}
    (h : SameFlagsBut flags rflags rflags') {f : StatusFlag} (hf : f ∈ flags) (value : Bool) :
    SameFlagsBut flags rflags (withFlag rflags' f.mask value) := by
  intro i hi
  rw [getLsbD_withFlag, if_neg (hi f hf)]
  exact h i hi

/-- Writes of some flags, one behind another. -/
theorem SameFlagsBut.withFlags {flags : List StatusFlag} :
    ∀ (updates : List (StatusFlag × Bool)), (∀ update ∈ updates, update.1 ∈ flags) →
      ∀ {rflags rflags' : U64}, SameFlagsBut flags rflags rflags' →
        SameFlagsBut flags rflags (updates.foldl
          (fun rflags update => Cpueaxh.withFlag rflags update.1.mask update.2) rflags') := by
  intro updates
  induction updates with
  | nil => exact fun _ _ _ h => h
  | cons update updates ih =>
    intro hmem rflags rflags' h
    refine ih (fun u hu => hmem u (List.mem_cons_of_mem _ hu)) ?_
    exact h.withFlag (hmem update List.mem_cons_self) _

/-- The six status flags. -/
def statusFlags : List StatusFlag := [.cf, .pf, .af, .zf, .sf, .of]

theorem mem_statusFlags (f : StatusFlag) : f ∈ statusFlags := by
  cases f <;> decide

end Cpueaxh
