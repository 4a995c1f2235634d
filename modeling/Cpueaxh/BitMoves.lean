/-
# PEXT and PDEP

The opcode `F5` of `instructions/bmi.hpp` behind its decoder: `BZHI`, and the loops of
`bmi_pext` and `bmi_pdep`, which take the set bits of the mask from the lowest on while a
second bit moves up.  The loops end, `PEXT` packs and `PDEP` spreads, and each undoes the other
as far as the mask allows.
-/
import Cpueaxh.FlagWords
import Cpueaxh.RegisterOperands
import Cpueaxh.SegmentLoad
import Cpueaxh.SetBits

namespace Cpueaxh

open HostMemory SetBits

/-! ## The loops -/

/-- The variables of the loops: `mask`, `out_bit` or `in_bit`, and `result`. -/
structure BitMove where
  mask : U64
  bit : U64
  result : U64
  deriving DecidableEq, Repr

/-- The variables in front of a loop. -/
def BitMove.start (mask : U64) : BitMove := ⟨mask, 1, 0⟩

/-- A turn of the loop of `bmi_pext`. -/
def pextTurn (source : U64) (s : BitMove) : BitMove where
  mask := s.mask &&& (s.mask - 1)
  bit := s.bit <<< 1
  result :=
    let lowest := s.mask &&& (~~~s.mask + 1)
    if source &&& lowest != 0 then s.result ||| s.bit else s.result

/-- A turn of the loop of `bmi_pdep`. -/
def pdepTurn (source : U64) (s : BitMove) : BitMove where
  mask := s.mask &&& (s.mask - 1)
  bit := s.bit <<< 1
  result :=
    let lowest := s.mask &&& (~~~s.mask + 1)
    if source &&& s.bit != 0 then s.result ||| lowest else s.result

/-- A turn takes one bit from the mask. -/
theorem popcount_turn {mask : U64} (h : ¬ mask = 0) :
    popcount (mask &&& (mask - 1)) < popcount mask := by
  have hclear := popcount_clearLowest h
  unfold clearLowest at hclear
  change popcount (mask &&& (mask - 1)) + 1 = _ at hclear
  omega

/-- The loop of `bmi_pext`. -/
def bmiPextLoop (source : U64) (s : BitMove) : U64 :=
  if s.mask = 0 then s.result else bmiPextLoop source (pextTurn source s)
termination_by popcount s.mask
decreasing_by exact popcount_turn ‹_›

/-- The loop of `bmi_pdep`. -/
def bmiPdepLoop (source : U64) (s : BitMove) : U64 :=
  if s.mask = 0 then s.result else bmiPdepLoop source (pdepTurn source s)
termination_by popcount s.mask
decreasing_by exact popcount_turn ‹_›

/-- `bmi_pext`. -/
def bmiPext (source mask : U64) : U64 := bmiPextLoop source (.start mask)

/-- `bmi_pdep`. -/
def bmiPdep (source mask : U64) : U64 := bmiPdepLoop source (.start mask)

/-! ## The instructions -/

/-- `bmi_operand_size`. -/
def bmiOperandSize (ctx : CpuContext) : OperandWidth :=
  if ctx.cs.descriptor.longMode && ctx.prefixBits.rexW then .qword else .dword

/-- `bmi_operand_mask`. -/
def bmiOperandMask (size : OperandWidth) : U64 :=
  if size = .qword then 0xFFFFFFFFFFFFFFFF else 0xFFFFFFFF

/-- `bmi_bzhi`: the result and `out_cf`. -/
def bmiBzhi (source control : U64) (size : OperandWidth) : U64 × Bool :=
  let index := (control &&& 0xFF).toNat
  if size.bits ≤ index then (source &&& bmiOperandMask size, true)
  else if index = 0 then (0, false)
  else (source &&& (1 <<< index - 1), false)

/-- The instructions under the opcode `F5`, by the mandatory prefix. -/
inductive BitMoveOp where
  | bzhi | pext | pdep
  deriving DecidableEq, Repr

/-- What `PEXT` and `PDEP` leave in the destination. -/
def BitMoveOp.result (op : BitMoveOp) (size : OperandWidth) (vexValue rmValue : U64) : U64 :=
  match op with
  | bzhi => (bmiBzhi rmValue vexValue size).1
  | pext => bmiPext vexValue rmValue &&& bmiOperandMask size
  | pdep => bmiPdep vexValue rmValue &&& bmiOperandMask size

/-- The end of the opcode `F5`, behind the operand in memory. -/
def writeBitMove (op : BitMoveOp) (modrm : U8) (source1 : Fin 16) (rmValue : U64)
    (ctx : CpuContext) : CpuContext :=
  let size := bmiOperandSize ctx
  let vexValue := getRegister size ctx source1 &&& bmiOperandMask size
  let result := op.result size vexValue rmValue
  let written := setRegister size ctx (decodeRegIndex ctx modrm) result
  match op with
  | .bzhi =>
    let ctx := setFlag written rflagsZf (result &&& bmiOperandMask size == 0)
    let ctx := setFlag ctx rflagsCf (bmiBzhi rmValue vexValue size).2
    let ctx := setFlag ctx rflagsOf false
    let ctx := setFlag ctx rflagsSf false
    let ctx := setFlag ctx rflagsAf false
    setFlag ctx rflagsPf false
  | .pext => written
  | .pdep => written

/-- The opcode `F5` of `try_execute_bmi_vex`.  The answer of `bmi_has_bmi2_feature` is the
host's. -/
def executeBitMove (hasBmi2 is256 : Bool) (op : BitMoveOp) (operand : RmOperand)
    (source1 : Fin 16) : CpuProgram Unit := do
  if is256 || !hasBmi2 then raiseUd
  else
    let ctx ← getContext
    let size := bmiOperandSize ctx
    let value ← readRmOperand operand size
    if ← cpuHasException then return ()
    modifyContext (writeBitMove op operand.modrm source1 (value &&& bmiOperandMask size))

/-! ## What the loops do -/

@[simp] theorem pextTurn_mask (source : U64) (s : BitMove) :
    (pextTurn source s).mask = clearLowest s.mask := rfl

@[simp] theorem pdepTurn_mask (source : U64) (s : BitMove) :
    (pdepTurn source s).mask = clearLowest s.mask := rfl

/-- The bit that moves up: from the turn on at which it is shifted out it is zero. -/
theorem and_anyTwoPow_ne_zero (x : U64) (k : ℕ) : (x &&& BitVec.twoPow 64 k != 0) = x.getLsbD k := by
  by_cases hk : k < 64
  · exact SubtractionFlags.and_twoPow_ne_zero x hk
  · have hzero : BitVec.twoPow 64 k = 0#64 := BitVec.shiftLeft_eq_zero (not_lt.mp hk)
    rw [hzero, BitVec.getLsbD_of_ge x k (not_lt.mp hk), BitVec.and_zero]
    rfl

theorem twoPow_shiftLeft_one (k : ℕ) : BitVec.twoPow 64 k <<< 1 = BitVec.twoPow 64 (k + 1) :=
  (BitVec.shiftLeft_add 1#64 k 1).symm

theorem lowest_eq {m : U64} {p : ℕ} {rest : List ℕ} (h : positions m = p :: rest) :
    m &&& (~~~m + 1) = BitVec.twoPow 64 p := by
  apply BitVec.eq_of_getLsbD_eq
  intro i hi
  have hp := BitVec.lt_of_getLsbD (getLsbD_lowest h)
  show (isolateLowest m).getLsbD i = (BitVec.twoPow 64 p).getLsbD i
  rw [getLsbD_isolateLowest_of h, BitVec.getLsbD_twoPow, decide_eq_true hp, Bool.true_and]
  exact decide_eq_decide.mpr eq_comm

theorem mask_ne_zero {m : U64} {p : ℕ} {rest : List ℕ} (h : positions m = p :: rest) :
    ¬ m = 0 := by
  intro hzero
  rw [positions_eq_nil.mpr hzero] at h
  cases h

/-- The bit that a turn sets. -/
theorem getLsbD_ite_or (b : Bool) (x y : U64) (i : ℕ) :
    (if b then x ||| y else x).getLsbD i = (x.getLsbD i || (b && y.getLsbD i)) := by
  cases b with
  | false => rw [Bool.false_and, Bool.or_false, if_neg Bool.false_ne_true]
  | true => rw [Bool.true_and, if_pos rfl, BitVec.getLsbD_or]

/-- The bits behind the loop of `bmi_pext`, by the positions that are left. -/
theorem getLsbD_bmiPextLoop (source : U64) : ∀ (left : List ℕ) (s : BitMove) (k : ℕ),
    positions s.mask = left → s.bit = BitVec.twoPow 64 k → ∀ i, i < 64 →
    (bmiPextLoop source s).getLsbD i = (s.result.getLsbD i ||
      (decide (k ≤ i) && (left[i - k]?).elim false source.getLsbD)) := by
  intro left
  induction left with
  | nil =>
    intro s k hleft hbit i hi
    have hzero : s.mask = 0 := positions_eq_nil.mp hleft
    rw [bmiPextLoop, if_pos hzero, List.getElem?_nil, Option.elim_none, Bool.and_false,
      Bool.or_false]
  | cons p rest ih =>
    intro s k hleft hbit i hi
    have hnext : (pextTurn source s).bit = BitVec.twoPow 64 (k + 1) := by
      rw [← twoPow_shiftLeft_one, ← hbit]
      rfl
    have hresult : (pextTurn source s).result.getLsbD i =
        (s.result.getLsbD i || (source.getLsbD p && decide (k = i))) := by
      have hk : (BitVec.twoPow 64 k).getLsbD i = decide (k = i) := by
        rw [BitVec.getLsbD_twoPow]
        by_cases hki : k = i
        · rw [decide_eq_true hki, decide_eq_true (by omega : k < 64), Bool.true_and]
        · rw [decide_eq_false hki, Bool.and_false]
      unfold pextTurn
      dsimp only
      rw [lowest_eq hleft, and_anyTwoPow_ne_zero, getLsbD_ite_or, hbit, hk]
    rw [bmiPextLoop, if_neg (mask_ne_zero hleft),
      ih _ (k + 1) (positions_clearLowest hleft) hnext i hi, hresult, Bool.or_assoc]
    congr 1
    rcases lt_trichotomy k i with hlt | rfl | hgt
    · have hindex : i - k = i - (k + 1) + 1 := by omega
      rw [hindex, List.getElem?_cons_succ, decide_eq_false hlt.ne, Bool.and_false, Bool.false_or,
        decide_eq_true hlt.le, decide_eq_true (by omega : k + 1 ≤ i)]
    · rw [Nat.sub_self, List.getElem?_cons_zero, decide_eq_true rfl, decide_eq_true (le_refl k),
        decide_eq_false (by omega : ¬ k + 1 ≤ k), Bool.false_and, Bool.or_false, Bool.and_true,
        Bool.true_and, Option.elim_some]
    · rw [decide_eq_false hgt.ne', decide_eq_false (by omega : ¬ k ≤ i),
        decide_eq_false (by omega : ¬ k + 1 ≤ i), Bool.and_false, Bool.false_and, Bool.false_and,
        Bool.or_false]

/-- The bits behind the loop of `bmi_pdep`, by the positions that are left. -/
theorem getLsbD_bmiPdepLoop (source : U64) : ∀ (left : List ℕ) (s : BitMove) (k : ℕ),
    positions s.mask = left → s.bit = BitVec.twoPow 64 k → ∀ i,
    (bmiPdepLoop source s).getLsbD i = (s.result.getLsbD i ||
      (decide (i ∈ left) && source.getLsbD (k + left.idxOf i))) := by
  intro left
  induction left with
  | nil =>
    intro s k hleft hbit i
    have hzero : s.mask = 0 := positions_eq_nil.mp hleft
    rw [bmiPdepLoop, if_pos hzero, decide_eq_false List.not_mem_nil, Bool.false_and, Bool.or_false]
  | cons p rest ih =>
    intro s k hleft hbit i
    have hp := BitVec.lt_of_getLsbD (getLsbD_lowest hleft)
    have hnodup := positions_nodup s.mask
    rw [hleft, List.nodup_cons] at hnodup
    have hnext : (pdepTurn source s).bit = BitVec.twoPow 64 (k + 1) := by
      rw [← twoPow_shiftLeft_one, ← hbit]
      rfl
    have hresult : (pdepTurn source s).result.getLsbD i =
        (s.result.getLsbD i || (source.getLsbD k && decide (p = i))) := by
      unfold pdepTurn
      dsimp only
      rw [lowest_eq hleft, hbit, and_anyTwoPow_ne_zero, getLsbD_ite_or, BitVec.getLsbD_twoPow,
        decide_eq_true hp, Bool.true_and]
    rw [bmiPdepLoop, if_neg (mask_ne_zero hleft),
      ih _ (k + 1) (positions_clearLowest hleft) hnext, hresult, Bool.or_assoc]
    congr 1
    by_cases hpi : p = i
    · subst hpi
      rw [decide_eq_true rfl, decide_eq_false hnodup.1, decide_eq_true List.mem_cons_self,
        List.idxOf_cons_self, Bool.and_true, Bool.false_and, Bool.or_false, Bool.true_and,
        Nat.add_zero]
    · have hmem : (i ∈ p :: rest) ↔ i ∈ rest := by
        rw [List.mem_cons, or_iff_right (Ne.symm hpi)]
      rw [decide_eq_false hpi, Bool.and_false, Bool.false_or, decide_eq_decide.mpr hmem,
        List.idxOf_cons_ne rest hpi, Nat.succ_eq_add_one, Nat.add_assoc, Nat.add_comm 1]

/-- `PEXT` packs the bits at the set positions. -/
theorem getLsbD_bmiPext (source mask : U64) (i : ℕ) :
    (bmiPext source mask).getLsbD i = gatheredBit source mask i := by
  by_cases hi : i < 64
  · rw [bmiPext, getLsbD_bmiPextLoop source (positions mask) (.start mask) 0 rfl rfl i hi,
      gatheredBit, decide_eq_true (Nat.zero_le i), Nat.sub_zero, Bool.true_and]
    exact (congrArg (· || _) BitVec.getLsbD_zero).trans (Bool.false_or _)
  · have hcount : popcount mask ≤ 64 := popcount_le fun i h => BitVec.lt_of_getLsbD h
    rw [BitVec.getLsbD_of_ge _ i (not_lt.mp hi), gatheredBit_of_ge (by omega)]

/-- `PDEP` spreads the low bits over the set positions. -/
theorem getLsbD_bmiPdep (source mask : U64) (i : ℕ) :
    (bmiPdep source mask).getLsbD i = scatteredBit source mask i := by
  have hmem : decide (i ∈ positions mask) = mask.getLsbD i := by
    rw [← Bool.coe_iff_coe, decide_eq_true_iff]
    exact mem_positions
  rw [bmiPdep, getLsbD_bmiPdepLoop source (positions mask) (.start mask) 0 rfl rfl i, hmem,
    Nat.zero_add, scatteredBit]
  exact (congrArg (· || _) BitVec.getLsbD_zero).trans (Bool.false_or _)

/-- A loop whose turns clear the lowest set bit ends behind as many turns as bits are set. -/
theorem moveLoop_ends {turn : BitMove → BitMove} {loop : BitMove → U64}
    (hturn : ∀ s, (turn s).mask = clearLowest s.mask)
    (hloop : ∀ s, loop s = if s.mask = 0 then s.result else loop (turn s)) (s : BitMove) :
    (∀ k, (turn^[k] s).mask = 0 ↔ popcount s.mask ≤ k) ∧
      loop s = (turn^[popcount s.mask] s).result := by
  have hzero : ∀ m : U64, m = 0 ↔ popcount m = 0 := by
    intro m
    rw [popcount, List.length_eq_zero_iff]
    exact positions_eq_nil.symm
  generalize hn : popcount s.mask = n
  induction n generalizing s with
  | zero =>
    have hmask := (hzero s.mask).mpr hn
    have hclear : clearLowest (0 : U64) = 0 := by decide
    constructor
    · intro k
      refine iff_of_true ?_ (Nat.zero_le k)
      clear hn
      induction k generalizing s with
      | zero => exact hmask
      | succ k ih =>
        rw [Function.iterate_succ_apply]
        exact ih _ (by rw [hturn, hmask, hclear])
    · rw [hloop, if_pos hmask]
      rfl
  | succ n ih =>
    have hne : ¬ s.mask = 0 := by
      rw [hzero]
      omega
    have hcount := popcount_clearLowest hne
    obtain ⟨hends, hresult⟩ := ih (turn s) (by rw [hturn]; omega)
    constructor
    · intro k
      match k with
      | 0 => exact iff_of_false hne (by omega)
      | k + 1 =>
        rw [Function.iterate_succ_apply, hends, Nat.add_le_add_iff_right]
    · rw [hloop, if_neg hne, hresult, Function.iterate_succ_apply]

/-! ## The law -/

/-- What the loops should do with a source and a mask. -/
structure MovesLaw (x m : U64) : Prop where
  pextEnds : ∀ k, ((pextTurn x)^[k] (.start m)).mask = 0 ↔ popcount m ≤ k
  pextResult : bmiPext x m = ((pextTurn x)^[popcount m] (.start m)).result
  pdepEnds : ∀ k, ((pdepTurn x)^[k] (.start m)).mask = 0 ↔ popcount m ≤ k
  pdepResult : bmiPdep x m = ((pdepTurn x)^[popcount m] (.start m)).result
  packs : ∀ i, (bmiPext x m).getLsbD i = gatheredBit x m i
  spreads : ∀ i, (bmiPdep x m).getLsbD i = scatteredBit x m i
  pext_pdep : (bmiPext (bmiPdep x m) m).toNat = x.toNat % 2 ^ popcount m
  pdep_pext : bmiPdep (bmiPext x m) m = x &&& m

theorem movesLaw (x m : U64) : MovesLaw x m := by
  have hpext := moveLoop_ends (pextTurn_mask x) (fun s => bmiPextLoop.eq_1 x s) (.start m)
  have hpdep := moveLoop_ends (pdepTurn_mask x) (fun s => bmiPdepLoop.eq_1 x s) (.start m)
  refine ⟨hpext.1, hpext.2, hpdep.1, hpdep.2, getLsbD_bmiPext x m, getLsbD_bmiPdep x m, ?_, ?_⟩
  · apply Nat.eq_of_testBit_eq
    intro i
    rw [Nat.testBit_mod_two_pow]
    show (bmiPext (bmiPdep x m) m).getLsbD i = (decide (i < popcount m) && x.getLsbD i)
    rw [getLsbD_bmiPext, gatheredBit_scatter (getLsbD_bmiPdep x m)]
  · apply BitVec.eq_of_getLsbD_eq
    intro i _
    rw [getLsbD_bmiPdep, scatteredBit_gather (getLsbD_bmiPext x m)]

/-! ## The instructions at their sizes -/

variable {cpu : Cpu}

theorem bmiOperandSize_cases (ctx : CpuContext) :
    bmiOperandSize ctx = .dword ∨ bmiOperandSize ctx = .qword := by
  unfold bmiOperandSize
  split_ifs
  · exact Or.inr rfl
  · exact Or.inl rfl

theorem bmiOperandMask_eq {size : OperandWidth} (h : size = .dword ∨ size = .qword) :
    bmiOperandMask size = operandMask size := by
  rcases h with rfl | rfl
  · rfl
  · rfl

/-- What the loops leave has the bits of the operand size only. -/
theorem moved_lt {size : OperandWidth} {x m r : U64} (hm : m.toNat < 2 ^ size.bits)
    (hr : (∀ i, r.getLsbD i = gatheredBit x m i) ∨ ∀ i, r.getLsbD i = scatteredBit x m i) :
    r.toNat < 2 ^ size.bits := by
  have hbits : ∀ i, m.getLsbD i = true → i < size.bits := by
    intro i hi
    by_contra hge
    have hfalse := Nat.testBit_lt_two_pow (hm.trans_le (Nat.pow_le_pow_right (by decide)
      (not_lt.mp hge)))
    rw [BitVec.getLsbD, hfalse] at hi
    cases hi
  apply Nat.lt_pow_two_of_testBit
  intro i hi
  show r.getLsbD i = false
  rcases hr with hr | hr
  · rw [hr, gatheredBit_of_ge ((popcount_le hbits).trans hi)]
  · rw [hr, scatteredBit, Bool.and_eq_false_imp]
    intro hset
    exact absurd (hbits i hset) (not_lt.mpr hi)

/-- The CPU behind an instruction of the opcode `F5`, or behind its fault. -/
def Cpu.bitMoved (cpu : Cpu) (hasBmi2 is256 : Bool) (op : BitMoveOp) (operand : RmOperand)
    (source1 : Fin 16) : Except Cpu Cpu :=
  if is256 || !hasBmi2 then .error (cpu.raised .ud 0)
  else do
    let value ← cpu.rmValue operand (bmiOperandSize cpu.context)
    return cpu.edit (writeBitMove op operand.modrm source1 value)

theorem keepMode_writeBitMove (op : BitMoveOp) (modrm : U8) (source1 : Fin 16) (rmValue : U64)
    (ctx : CpuContext) : ctx.keepMode (writeBitMove op modrm source1 rmValue ctx) =
      writeBitMove op modrm source1 rmValue ctx := by
  have hwritten := keepMode_setRegister (bmiOperandSize ctx) ctx (decodeRegIndex ctx modrm)
  cases op with
  | bzhi =>
    unfold writeBitMove
    dsimp only
    iterate 6 refine keepMode_setFlag ?_ _ _
    exact hwritten _
  | pext => exact hwritten _
  | pdep => exact hwritten _

theorem run_executeBitMove (hm : ManagerOk cpu.memory) (hexc : cpu.context.hasException = false)
    (hasBmi2 is256 : Bool) (op : BitMoveOp) (operand : RmOperand) (source1 : Fin 16) :
    (executeBitMove hasBmi2 is256 op operand source1).run viewOp cpu =
      transferred (cpu.bitMoved hasBmi2 is256 op operand source1) := by
  unfold executeBitMove Cpu.bitMoved
  split_ifs
  · rfl
  · refine run_rmRead hm hexc operand _ fun value hvalue => ?_
    have hlow : value &&& bmiOperandMask (bmiOperandSize cpu.context) = value := by
      rw [bmiOperandMask_eq (bmiOperandSize_cases cpu.context)]
      exact and_operandMask (rmValue_lt hvalue)
    rw [run_modifyContext, keepMode_writeBitMove]
    exact congrArg (fun value => ((), cpu.edit (writeBitMove op operand.modrm source1 value))) hlow

/-- The destination of an instruction that completes. -/
theorem executeBitMove_destination (hm : MemoryOk cpu.memory)
    (hexc : cpu.context.hasException = false) (op : BitMoveOp) (operand : RmOperand)
    (source1 : Fin 16) {mask : U64}
    (hmask : cpu.rmValue operand (bmiOperandSize cpu.context) = .ok mask) {moved : U64}
    (hop : op = .pext ∧ moved = bmiPext (getRegister (bmiOperandSize cpu.context) cpu.context source1)
        mask ∨
      op = .pdep ∧ moved = bmiPdep (getRegister (bmiOperandSize cpu.context) cpu.context source1)
        mask) :
    getRegister (bmiOperandSize cpu.context)
      ((executeBitMove true false op operand source1).run cpuOp cpu).2.context
      (decodeRegIndex cpu.context operand.modrm) = moved := by
  have hends := endsIn hm (run_executeBitMove hm.manager hexc true false op operand source1)
  have hsize := bmiOperandSize_cases cpu.context
  have hlt := rmValue_lt hmask
  have hx := and_operandMask (getRegister_lt (bmiOperandSize cpu.context) cpu.context source1)
  have hmoved : moved.toNat < 2 ^ (bmiOperandSize cpu.context).bits := by
    rcases hop with ⟨-, rfl⟩ | ⟨-, rfl⟩
    · exact moved_lt hlt (Or.inl (getLsbD_bmiPext _ _))
    · exact moved_lt hlt (Or.inr (getLsbD_bmiPdep _ _))
  have hwritten : (writeBitMove op operand.modrm source1 mask cpu.context) =
      setRegister (bmiOperandSize cpu.context) cpu.context
        (decodeRegIndex cpu.context operand.modrm) moved := by
    rcases hop with ⟨rfl, heq⟩ | ⟨rfl, heq⟩
    · unfold writeBitMove BitMoveOp.result
      dsimp only
      rw [bmiOperandMask_eq hsize, hx, ← heq, and_operandMask hmoved]
    · unfold writeBitMove BitMoveOp.result
      dsimp only
      rw [bmiOperandMask_eq hsize, hx, ← heq, and_operandMask hmoved]
  rw [hends.context_eq, Cpu.bitMoved, hmask]
  show getRegister _ (writeBitMove op operand.modrm source1 mask cpu.context) _ = moved
  rw [hwritten, getRegister_written _ _ _ hmoved]

/-- **Bit gather and scatter**: the loops end, `PEXT` packs and `PDEP` spreads, and each undoes
the other as far as the mask allows; at both operand sizes the instructions leave just that in
their destination. -/
theorem pext_pdep_law :
    (∀ x m : U64, MovesLaw x m) ∧
      ∀ {cpu : Cpu}, MemoryOk cpu.memory → cpu.context.hasException = false →
        ∀ (operand : RmOperand) (source1 : Fin 16) (mask : U64),
        let size := bmiOperandSize cpu.context
        let x := getRegister size cpu.context source1
        let destination op := getRegister size
          ((executeBitMove true false op operand source1).run cpuOp cpu).2.context
          (decodeRegIndex cpu.context operand.modrm)
        cpu.rmValue operand size = .ok mask →
          destination .pext = bmiPext x mask ∧ destination .pdep = bmiPdep x mask := by
  refine ⟨movesLaw, fun hm hexc operand source1 mask => ?_⟩
  intro size x destination hmask
  constructor
  · exact executeBitMove_destination hm hexc .pext operand source1 hmask (Or.inl ⟨rfl, rfl⟩)
  · exact executeBitMove_destination hm hexc .pdep operand source1 hmask (Or.inr ⟨rfl, rfl⟩)

/-- A CPU with a source in `RBX` and a mask in `RCX`. -/
def bitMovesCpu : Cpu :=
  hostCpu { initCpuContext false with
    regs := fun reg => if reg = 3 then 0x1234ABCD else if reg = 1 then 0xF0F0 else 0 } fun _ => 0

/-- `PEXT EAX, EBX, ECX` and `PDEP EAX, EBX, ECX`. -/
theorem pext_pdep_law_example :
    let destination op := getRegister .dword
      ((executeBitMove true false op ⟨0xC1, 0⟩ 3).run cpuOp bitMovesCpu).2.context 0
    destination .pext = 0xAC ∧ destination .pdep = 0xC0D0 := by
  intro destination
  have hm : MemoryOk bitMovesCpu.memory := memoryOk_hostCpu _ _
  obtain ⟨hlaw, hruns⟩ := pext_pdep_law
  obtain ⟨hpext, hpdep⟩ := hruns hm rfl ⟨0xC1, 0⟩ 3 0xF0F0 rfl
  have hvalues := hlaw 0x1234ABCD 0xF0F0
  constructor
  · refine (hpext.trans hvalues.pextResult).trans ?_
    decide
  · refine (hpdep.trans hvalues.pdepResult).trans ?_
    decide

end Cpueaxh
