/-
# Transfers of several items to and from the stack

A push resolves every byte of its slots before it stores the first one, and a pop moves the
stack pointer behind its last load.  So each of them transfers all its items, exactly when every
byte of every slot may be accessed, or ends in one fault with the stack as it was.

The slots of the code are flat.  Those of the architecture begin at the base of the stack segment,
and outside 64-bit code this base need not be 0.
-/
import Cpueaxh.FarRoundTrip
import Cpueaxh.PopOutcome

namespace Cpueaxh

open HostMemory

/-! ## Slots -/

namespace Cpu

variable (cpu : Cpu)

/-- The address at which the code has a value on the stack, at a distance above the stack pointer.
It wraps at the stack width, and leaves out the base of the stack segment. -/
def stackSlot (distance : U64) : U64 :=
  truncateTo cpu.context.stackAddressSize (cpu.context.regs regRsp + distance)

/-- The slots of items that are pushed, in their order. -/
def pushSlots (size count : ℕ) : List U64 :=
  (List.range count).map fun index => cpu.stackSlot (-BitVec.ofNat 64 ((index + 1) * size))

/-- The slots of items that are popped, in their order. -/
def popSlots (size count : ℕ) : List U64 :=
  (List.range count).map fun index => cpu.stackSlot (BitVec.ofNat 64 (index * size))

/-- The CPU with a stack pointer that has moved, at the stack width. -/
def moveStack (distance : U64) : Cpu :=
  let rsp := cpu.context.regs regRsp
  { cpu with context := { cpu.context with
      regs := Function.update cpu.context.regs regRsp
        (stackWrite cpu.context.stackAddressSize rsp (rsp + distance)) } }

/-- The sizes of the items that the stack takes. -/
def takesItems (size : ℕ) : Prop :=
  (size = 2 ∨ size = 4 ∨ size = 8) ∧ ¬ (cpu.context.stackAddressSize = 16 ∧ size = 8)

/-- Every byte of the slots may be accessed, and nothing stands against the transfer. -/
structure StackReady (store : Bool) (size : ℕ) (slots : List U64) : Prop where
  clear : cpu.context.hasException = false
  takes : cpu.takesItems size
  allowed : ∀ address ∈ slots, ∀ i < size, cpu.dataPtr store (address + BitVec.ofNat 64 i) ≠ none

/-- The items of the slots, each at its pointers. -/
def SlotItems (size : ℕ) (slots values : List U64) : Prop :=
  List.Forall₂ (fun address value => ∃ ptrs, cpu.operandPtrs false address size 0 = .ok ptrs ∧
    value = loadValue cpu.memory.host ptrs) slots values

end Cpu

variable {cpu : Cpu}

/-! ## The stack width -/

theorem truncateTo_sub (size : ℕ) (hsize : size = 16 ∨ size = 32 ∨ size = 64) (x y : U64) :
    truncateTo size (truncateTo size x - y) = truncateTo size (x - y) := by
  rw [BitVec.sub_eq_add_neg, truncateTo_truncateTo_add hsize, ← BitVec.sub_eq_add_neg]

/-- A write of the stack pointer keeps the low bits of the value only. -/
theorem stackWrite_truncateTo (size : ℕ) (old value : U64) :
    stackWrite size old (truncateTo size value) = stackWrite size old value := by
  unfold stackWrite truncateTo
  split_ifs
  · rfl
  · rw [BitVec.and_assoc, BitVec.and_self]
  · rw [BitVec.and_assoc, BitVec.and_self]

theorem truncateTo_stackWrite (size : ℕ) (old value : U64) :
    truncateTo size (stackWrite size old value) = truncateTo size value := by
  have hmask : ∀ mask : U64, ((old &&& ~~~mask) ||| (value &&& mask)) &&& mask =
      value &&& mask := by
    intro mask
    ext i hi
    simp only [BitVec.getElem_and, BitVec.getElem_or, BitVec.getElem_not]
    cases mask[i] <;> simp
  unfold stackWrite truncateTo
  split_ifs
  · rfl
  · exact hmask _
  · exact hmask _

theorem belowStack_rsp (size : ℕ) :
    cpu.belowStack size (cpu.context.regs regRsp) = cpu.stackSlot (-BitVec.ofNat 64 size) := by
  unfold Cpu.belowStack Cpu.stackSlot
  rw [BitVec.sub_eq_add_neg]

theorem belowStack_slot (size : ℕ) (distance : U64) :
    cpu.belowStack size (cpu.stackSlot distance) =
      cpu.stackSlot (distance - BitVec.ofNat 64 size) := by
  unfold Cpu.belowStack Cpu.stackSlot
  rw [truncateTo_sub _ (stackAddressSize_cases _), BitVec.sub_eq_add_neg, BitVec.sub_eq_add_neg,
    BitVec.add_assoc]

theorem slot_of_base (distance : U64) :
    truncateTo cpu.context.stackAddressSize
        (truncateTo cpu.context.stackAddressSize (cpu.context.regs regRsp) + distance) =
      cpu.stackSlot distance :=
  truncateTo_truncateTo_add (stackAddressSize_cases _) _ _

/-- The stack pointer at a slot. -/
theorem setStack_slot (distance : U64) :
    cpu.setStack cpu.context.stackAddressSize (cpu.stackSlot distance) = cpu.moveStack distance := by
  unfold Cpu.setStack Cpu.moveStack Cpu.stackSlot
  rw [cpuSetStackPointerValue_eq]
  simp only
  rw [stackWrite_truncateTo]

theorem pushSlots_two (size : ℕ) : cpu.pushSlots size 2 =
    [cpu.belowStack size (cpu.context.regs regRsp),
      cpu.belowStack size (cpu.belowStack size (cpu.context.regs regRsp))] := by
  have hdouble : -BitVec.ofNat 64 ((1 + 1) * size) =
      -BitVec.ofNat 64 size - BitVec.ofNat 64 size := by
    rw [show (1 + 1) * size = size + size by omega, BitVec.ofNat_add]
    bv_omega
  have hsingle : (0 + 1) * size = size := by omega
  rw [belowStack_rsp, belowStack_slot, ← hdouble]
  show [cpu.stackSlot (-BitVec.ofNat 64 ((0 + 1) * size)), _] = _
  rw [hsingle]

/-! ## Items -/

/-- An operand may be accessed exactly when each of its bytes may be. -/
theorem operandPtrs_iff {store : Bool} {address : U64} {size : ℕ} :
    (∃ ptrs, cpu.operandPtrs store address size 0 = .ok ptrs) ↔
      ∀ i < size, cpu.dataPtr store (address + BitVec.ofNat 64 i) ≠ none := by
  constructor
  · rintro ⟨ptrs, hptrs⟩ i hi hnone
    have hbyte := operandPtrs_getElem size hptrs i hi
    have hzero : (0 : U64) + BitVec.ofNat 64 i = BitVec.ofNat 64 i := BitVec.zero_add _
    rw [hzero, hnone] at hbyte
    have hlength := operandPtrs_length size hptrs
    rw [List.getElem?_eq_getElem (by omega)] at hbyte
    cases hbyte
  · intro hall
    apply operandPtrs_all
    intro i hi
    have hzero : (0 : U64) + BitVec.ofNat 64 i = BitVec.ofNat 64 i := BitVec.zero_add _
    rw [hzero]
    exact hall i hi

theorem loadAt_ok_iff {size : ℕ} {address value : U64} :
    cpu.loadAt size address = .ok value ↔
      ∃ ptrs, cpu.operandPtrs false address size 0 = .ok ptrs ∧
        value = loadValue cpu.memory.host ptrs := by
  unfold Cpu.loadAt
  cases cpu.operandPtrs false address size 0 with
  | error a => simp only [reduceCtorEq, false_and, exists_false]
  | ok ptrs =>
    constructor
    · rintro ⟨⟩
      exact ⟨ptrs, rfl, rfl⟩
    · rintro ⟨_, ⟨⟩, rfl⟩
      rfl

theorem validStackSize_iff (size : ℕ) : cpu.validStackSize size = .ok () ↔ cpu.takesItems size := by
  unfold Cpu.validStackSize Cpu.takesItems
  split_ifs with hsize hnarrow
  · simp only [false_iff]
    omega
  · simp only [false_iff]
    tauto
  · simp only [true_iff]
    exact ⟨by omega, hnarrow⟩

/-- A loop of loads completes with the items of its slots, exactly when all of them may be
loaded. -/
theorem peekValues_ok_iff (size : ℕ) (left : ℕ) : ∀ {index : ℕ} {values : List U64},
    cpu.peekValues (truncateTo cpu.context.stackAddressSize (cpu.context.regs regRsp)) size left
        index = .ok values ↔
      cpu.SlotItems size ((List.range' index left).map fun i =>
        cpu.stackSlot (BitVec.ofNat 64 (i * size))) values := by
  induction left with
  | zero =>
    intro index values
    show Except.ok [] = Except.ok values ↔ List.Forall₂ _ [] values
    rw [List.forall₂_nil_left_iff]
    constructor
    · rintro ⟨⟩
      rfl
    · rintro rfl
      rfl
  | succ left ih =>
    intro index values
    unfold Cpu.peekValues
    rw [slot_of_base, List.range'_succ, List.map_cons]
    unfold Cpu.SlotItems
    rw [List.forall₂_cons_left_iff]
    simp only [ok_bind_iff, loadAt_ok_iff]
    constructor
    · rintro ⟨value, hvalue, rest, hrest, hcons⟩
      exact ⟨value, rest, hvalue, ih.mp hrest, (Except.ok.inj hcons).symm⟩
    · rintro ⟨value, rest, hvalue, hrest, rfl⟩
      exact ⟨value, hvalue, rest, ih.mpr hrest, rfl⟩

theorem exists_slotItems_iff {size : ℕ} {slots : List U64} :
    (∃ values, cpu.SlotItems size slots values) ↔
      ∀ address ∈ slots, ∀ i < size, cpu.dataPtr false (address + BitVec.ofNat 64 i) ≠ none := by
  induction slots with
  | nil => simp [Cpu.SlotItems]
  | cons address slots ih =>
    rw [List.forall_mem_cons, ← ih, ← operandPtrs_iff]
    unfold Cpu.SlotItems
    constructor
    · rintro ⟨values, hvalues⟩
      obtain ⟨value, rest, ⟨ptrs, hptrs, -⟩, hrest, -⟩ := List.forall₂_cons_left_iff.mp hvalues
      exact ⟨⟨ptrs, hptrs⟩, rest, hrest⟩
    · rintro ⟨⟨ptrs, hptrs⟩, rest, hrest⟩
      exact ⟨_, .cons ⟨ptrs, hptrs, rfl⟩ hrest⟩

/-! ## Outcomes -/

/-- The stores of items through the pointers to their slots, one item after the other. -/
def storeItems (host : HostMemory) : List (List HostPtr) → List U64 → HostMemory
  | ptrs :: slots, value :: values => storeItems (storeBytes host ptrs value) slots values
  | _, _ => host

namespace Cpu

variable (cpu : Cpu)

/-- Every item is in its slot, and the stack pointer has moved below all of them. -/
def Pushed (addresses : List U64) (size : ℕ) (items : List U64) (cpu' : Cpu) : Prop :=
  ∃ slots : List (List HostPtr),
    List.Forall₂ (fun address ptrs => cpu.operandPtrs true address size 0 = .ok ptrs)
      addresses slots ∧
    cpu' = (cpu.moveStack (-BitVec.ofNat 64 (items.length * size))).setHost
      (storeItems cpu.memory.host slots items)

/-- All the items are transferred, or none is and there is a fault. -/
def AllOrNothing (ready transferred : Prop) (cpu' : Cpu) : Prop :=
  (ready ∧ transferred) ∨ (¬ ready ∧ cpu.Failed cpu')

/-- The values of a peek, and the stack pointer that a pop of them commits. -/
def Peeked (addresses : List U64) (size count : ℕ) (result : Option (List U64 × U64)) : Prop :=
  ∃ values finalSp, result = some (values, finalSp) ∧
    cpu.SlotItems size addresses values ∧
    cpu.setStack cpu.context.stackAddressSize finalSp =
      cpu.moveStack (BitVec.ofNat 64 (count * size))

end Cpu

theorem failed_of_pending (hexc : cpu.context.hasException = true) : cpu.Failed cpu where
  pending := hexc
  same := ⟨cpu.context.exception, cpu.context.controlRegs regCr2, cpu.asked, by
    rw [Function.update_eq_self]⟩

/-- A part that completes exactly when it is ready is all or nothing. -/
theorem Cpu.Clean.allOrNothing {α : Type} {e : Except Cpu α} (h : cpu.Clean e)
    {ready done : Prop} {cpu' : Cpu} (hok : ∀ a, e = .ok a → ready ∧ done)
    (hready : ready → ∃ a, e = .ok a) (herror : ∀ c, e = .error c → cpu' = c) :
    cpu.AllOrNothing ready done cpu' := by
  cases h with
  | ok a => exact Or.inl (hok a rfl)
  | error hfailed =>
    right
    constructor
    · intro hr
      obtain ⟨a, ha⟩ := hready hr
      cases ha
    · rw [herror _ rfl]
      exact hfailed

theorem slotPtrs_ok_iff {address : U64} {size : ℕ} {ptrs : List HostPtr} :
    cpu.slotPtrs address size = .ok ptrs ↔ cpu.operandPtrs true address size 0 = .ok ptrs := by
  unfold Cpu.slotPtrs
  cases cpu.operandPtrs true address size 0 with
  | error a => simp only [reduceCtorEq]
  | ok slot => simp only [Except.ok.injEq]

/-- A part that completes, and what follows it. -/
theorem exists_ok_bind {ε α β : Type} {e : Except ε α} {f : α → Except ε β} {a : α}
    (h : e = .ok a) (hf : ∃ b, f a = .ok b) : ∃ b, (e >>= f) = .ok b := by
  rw [h]
  exact hf

/-- Two pushes complete exactly when both slots may be stored to. -/
theorem pushedTwo_allOrNothing (hexc : cpu.context.hasException = false) (first second : U64)
    (size : ℕ) :
    cpu.AllOrNothing (cpu.StackReady true size (cpu.pushSlots size 2))
      (cpu.Pushed (cpu.pushSlots size 2) size [first, second]
        (transferred (cpu.pushedTwo first second size)).2)
      (transferred (cpu.pushedTwo first second size)).2 := by
  apply (clean_pushedTwo hexc first second size).allOrNothing
  · intro c hpushed
    rw [hpushed]
    -- pushes that are done have found both slots
    obtain ⟨firstPtrs, secondPtrs, hfirst, hsecond, rfl⟩ := pushedTwo_ok hpushed
    unfold Cpu.pushedTwo at hpushed
    obtain ⟨_, hvalid, -⟩ := ok_bind_iff.mp hpushed
    constructor
    · refine ⟨hexc, (validStackSize_iff size).mp hvalid, ?_⟩
      rw [pushSlots_two, List.forall_mem_cons, List.forall_mem_singleton]
      exact ⟨operandPtrs_iff.mp ⟨_, hfirst⟩, operandPtrs_iff.mp ⟨_, hsecond⟩⟩
    · refine ⟨[firstPtrs, secondPtrs], ?_, ?_⟩
      · show List.Forall₂ _ (cpu.pushSlots size 2) _
        rw [pushSlots_two]
        exact .cons hfirst (.cons hsecond .nil)
      -- the second slot is two items below the stack pointer
      · have hslot : cpu.belowStack size (cpu.belowStack size (cpu.context.regs regRsp)) =
            cpu.stackSlot (-BitVec.ofNat 64 (2 * size)) := by
          have hslots := @pushSlots_two cpu size
          injection hslots with _ hslots
          injection hslots with hlast
          exact hlast.symm
        have hstack := @setStack_slot cpu (-BitVec.ofNat 64 (2 * size))
        rw [hslot]
        show _ = (cpu.moveStack (-BitVec.ofNat 64 (2 * size))).setHost _
        rw [← hstack]
        rfl
  -- both slots are resolved before the first store, so that nothing else can fail
  · rintro ⟨-, htakes, hallowed⟩
    rw [pushSlots_two, List.forall_mem_cons, List.forall_mem_singleton] at hallowed
    obtain ⟨firstPtrs, hfirst⟩ := operandPtrs_iff.mpr hallowed.1
    obtain ⟨secondPtrs, hsecond⟩ := operandPtrs_iff.mpr hallowed.2
    apply exists_ok_bind ((validStackSize_iff size).mpr htakes)
    apply exists_ok_bind (slotPtrs_ok_iff.mpr hfirst)
    apply exists_ok_bind (slotPtrs_ok_iff.mpr hsecond)
    exact ⟨_, rfl⟩
  · intro c hpushed
    rw [hpushed]
    rfl

/-- A peek completes exactly when all slots may be loaded from. -/
theorem peeked_allOrNothing (hexc : cpu.context.hasException = false) (size count : ℕ) :
    cpu.AllOrNothing (cpu.StackReady false size (cpu.popSlots size count))
      ((checked cpu (cpu.peeked size count)).2 = cpu ∧
        cpu.Peeked (cpu.popSlots size count) size count (checked cpu (cpu.peeked size count)).1)
      (checked cpu (cpu.peeked size count)).2 := by
  have hslots : cpu.popSlots size count = (List.range' 0 count).map fun i =>
      cpu.stackSlot (BitVec.ofNat 64 (i * size)) := by
    rw [← List.range_eq_range']
    rfl
  apply (clean_peeked hexc size count).allOrNothing
  · intro result hpeeked
    rw [hpeeked]
    unfold Cpu.peeked at hpeeked
    obtain ⟨_, hvalid, hpeeked⟩ := ok_bind_iff.mp hpeeked
    obtain ⟨values, hvalues, hresult⟩ := ok_bind_iff.mp hpeeked
    obtain rfl := Except.ok.inj hresult
    have hitems := (peekValues_ok_iff size count).mp hvalues
    rw [← hslots] at hitems
    constructor
    · exact ⟨hexc, (validStackSize_iff size).mp hvalid, exists_slotItems_iff.mp ⟨_, hitems⟩⟩
    · refine ⟨rfl, values, _, rfl, hitems, ?_⟩
      rw [slot_of_base]
      exact setStack_slot _
  · rintro ⟨-, htakes, hallowed⟩
    obtain ⟨values, hitems⟩ := exists_slotItems_iff.mpr hallowed
    rw [hslots] at hitems
    apply exists_ok_bind ((validStackSize_iff size).mpr htakes)
    apply exists_ok_bind ((peekValues_ok_iff size count).mpr hitems)
    exact ⟨_, rfl⟩
  · intro c hpeeked
    rw [hpeeked]
    rfl

/-! ## Single items -/

/-- The CPU behind a push of one item. -/
def Cpu.pushedOne (cpu : Cpu) (size : ℕ) (value : U64) : Except Cpu Cpu := do
  cpu.validStackSize size
  let ptrs ← cpu.slotPtrs (cpu.belowStack size (cpu.context.regs regRsp)) size
  return (cpu.moveStack (-BitVec.ofNat 64 size)).setHost
    (storeBytes cpu.memory.host ptrs value)

/-- The value of one popped item, with the CPU behind it. -/
def Cpu.poppedOne (cpu : Cpu) (size : ℕ) : Except Cpu (U64 × Cpu) := do
  cpu.validStackSize size
  let value ← cpu.loadAt size (cpu.stackSlot 0)
  return (value, cpu.moveStack (BitVec.ofNat 64 size))

theorem stackSlot_zero : cpu.stackSlot 0 =
    truncateTo cpu.context.stackAddressSize (cpu.context.regs regRsp) :=
  congrArg (truncateTo _) (BitVec.add_zero _)

/-- The check of the size, for the sizes that have a function. -/
theorem validStackSize_of_takes {size : ℕ} (hsize : size = 2 ∨ size = 4 ∨ size = 8) :
    cpu.validStackSize size =
      if cpu.context.stackAddressSize = 16 ∧ size = 8 then .error (cpu.raised .gp 0)
      else .ok () := by
  unfold Cpu.validStackSize
  rw [if_neg (by omega)]

theorem run_pushValue (hm : ManagerOk cpu.memory) (hexc : cpu.context.hasException = false)
    {size : ℕ} (hsize : size = 2 ∨ size = 4 ∨ size = 8) (value : U64) :
    (pushValue size value).run viewOp cpu = transferred (cpu.pushedOne size value) := by
  unfold pushValue Cpu.pushedOne Cpu.slotPtrs
  rw [Program.run_bind, run_cpuHasException, hexc, validStackSize_of_takes hsize]
  simp only [Bool.false_eq_true, if_false]
  rw [Program.run_bind, run_getContext]
  dsimp only
  by_cases hnarrow : cpu.context.stackAddressSize = 16 ∧ size = 8
  · rw [if_pos hnarrow, if_pos hnarrow]
    rfl
  rw [if_neg hnarrow, if_neg hnarrow, Program.run_bind,
    run_writeMemory hm hexc (by omega : 0 < size)]
  have hbelow : truncateTo cpu.context.stackAddressSize
      (cpu.context.regs regRsp - BitVec.ofNat 64 size) =
        cpu.belowStack size (cpu.context.regs regRsp) := rfl
  rw [hbelow]
  cases hptrs : cpu.operandPtrs true (cpu.belowStack size (cpu.context.regs regRsp)) size 0 with
  | error a =>
    have hpending := refused_hasException hexc (operandPtrs_error size hptrs)
    dsimp only
    rw [Program.run_bind, run_cpuHasException, hpending]
    rfl
  | ok ptrs =>
    have hclear : (cpu.setHost (storeBytes cpu.memory.host ptrs value)).context.hasException =
        false := hexc
    dsimp only
    rw [Program.run_bind, run_cpuHasException, hclear, belowStack_rsp]
    show _ = transferred (.ok _)
    rw [← setStack_slot]
    rfl

theorem run_popValue (hm : ManagerOk cpu.memory) (hexc : cpu.context.hasException = false)
    {size : ℕ} (hsize : size = 2 ∨ size = 4 ∨ size = 8) :
    (popValue size).run viewOp cpu =
      match cpu.poppedOne size with
      | .error c => (0, c)
      | .ok (value, c) => (value, c) := by
  have hclean := clean_loadAt hexc size (cpu.stackSlot 0)
  unfold popValue Cpu.poppedOne
  rw [Program.run_bind, run_getContext, validStackSize_of_takes hsize]
  dsimp only
  by_cases hnarrow : cpu.context.stackAddressSize = 16 ∧ size = 8
  · rw [if_pos hnarrow, if_pos hnarrow]
    rfl
  rw [if_neg hnarrow, if_neg hnarrow, Program.run_bind,
    run_readMemory_loadAt hm hexc (by omega : 0 < size), ← stackSlot_zero]
  cases hload : cpu.loadAt size (cpu.stackSlot 0) with
  | error c =>
    rw [hload] at hclean
    cases hclean with
    | error hfailed =>
      dsimp only
      rw [Program.run_bind, run_cpuHasException, hfailed.pending]
      rfl
  | ok value =>
    dsimp only
    rw [Program.run_bind, run_cpuHasException, hexc]
    have hmove : cpu.setStack cpu.context.stackAddressSize
        (cpu.stackSlot 0 + BitVec.ofNat 64 size) = cpu.moveStack (BitVec.ofNat 64 size) := by
      have hslot : cpu.stackSlot (BitVec.ofNat 64 size) =
          truncateTo cpu.context.stackAddressSize (cpu.stackSlot 0 + BitVec.ofNat 64 size) := by
        rw [stackSlot_zero, slot_of_base]
      rw [← setStack_slot, hslot]
      unfold Cpu.setStack
      rw [cpuSetStackPointerValue_eq, cpuSetStackPointerValue_eq, stackWrite_truncateTo]
    show _ = (value, cpu.moveStack (BitVec.ofNat 64 size))
    rw [← hmove]
    rfl

theorem pushSlots_one (size : ℕ) :
    cpu.pushSlots size 1 = [cpu.belowStack size (cpu.context.regs regRsp)] := by
  have hsingle : (0 + 1) * size = size := by omega
  rw [belowStack_rsp]
  show [cpu.stackSlot (-BitVec.ofNat 64 ((0 + 1) * size))] = _
  rw [hsingle]

theorem popSlots_one (size : ℕ) : cpu.popSlots size 1 = [cpu.stackSlot 0] := by
  have hnone : 0 * size = 0 := Nat.zero_mul size
  show [cpu.stackSlot (BitVec.ofNat 64 (0 * size))] = _
  rw [hnone]
  rfl

/-- What a push of one item that completes leaves behind. -/
theorem pushedOne_ok {size : ℕ} {value : U64} {c : Cpu} (h : cpu.pushedOne size value = .ok c) :
    cpu.takesItems size ∧ ∃ ptrs, cpu.operandPtrs true
        (cpu.belowStack size (cpu.context.regs regRsp)) size 0 = .ok ptrs ∧
      c = (cpu.moveStack (-BitVec.ofNat 64 size)).setHost
        (storeBytes cpu.memory.host ptrs value) := by
  unfold Cpu.pushedOne at h
  obtain ⟨_, hvalid, h⟩ := ok_bind_iff.mp h
  obtain ⟨ptrs, hptrs, h⟩ := ok_bind_iff.mp h
  exact ⟨(validStackSize_iff size).mp hvalid, ptrs, slotPtrs_ok_iff.mp hptrs,
    (Except.ok.inj h).symm⟩

theorem clean_pushedOne (hexc : cpu.context.hasException = false) (size : ℕ) (value : U64) :
    cpu.Clean (cpu.pushedOne size value) :=
  (clean_validStackSize hexc size).bind fun _ _ => (clean_slotPtrs hexc _ _).bind fun _ _ => .ok _

/-- One push completes exactly when its slot may be stored to. -/
theorem pushedOne_allOrNothing (hexc : cpu.context.hasException = false) (size : ℕ)
    (value : U64) :
    cpu.AllOrNothing (cpu.StackReady true size (cpu.pushSlots size 1))
      (cpu.Pushed (cpu.pushSlots size 1) size [value] (transferred (cpu.pushedOne size value)).2)
      (transferred (cpu.pushedOne size value)).2 := by
  rw [pushSlots_one]
  apply (clean_pushedOne hexc size value).allOrNothing
  · intro c hpushed
    rw [hpushed]
    obtain ⟨htakes, ptrs, hslot, rfl⟩ := pushedOne_ok hpushed
    constructor
    · refine ⟨hexc, htakes, ?_⟩
      rw [List.forall_mem_singleton]
      exact operandPtrs_iff.mp ⟨ptrs, hslot⟩
    · refine ⟨[ptrs], ?_, ?_⟩
      · exact .cons hslot .nil
      · show _ = (cpu.moveStack (-BitVec.ofNat 64 (1 * size))).setHost _
        rw [Nat.one_mul]
        rfl
  · rintro ⟨-, htakes, hallowed⟩
    rw [List.forall_mem_singleton] at hallowed
    obtain ⟨ptrs, hptrs⟩ := operandPtrs_iff.mpr hallowed
    apply exists_ok_bind ((validStackSize_iff size).mpr htakes)
    apply exists_ok_bind (slotPtrs_ok_iff.mpr hptrs)
    exact ⟨_, rfl⟩
  · intro c hpushed
    rw [hpushed]
    rfl

/-- One pop completes exactly when its slot may be loaded from. -/
theorem poppedOne_allOrNothing (hexc : cpu.context.hasException = false) (size : ℕ) :
    cpu.AllOrNothing (cpu.StackReady false size (cpu.popSlots size 1))
      (∃ value, cpu.poppedOne size = .ok (value, cpu.moveStack (BitVec.ofNat 64 size)) ∧
        cpu.SlotItems size (cpu.popSlots size 1) [value])
      (match cpu.poppedOne size with
        | .error c => c
        | .ok (_, c) => c) := by
  have hclean : cpu.Clean (cpu.poppedOne size) :=
    (clean_validStackSize hexc size).bind fun _ _ => (clean_loadAt hexc _ _).bind fun _ _ => .ok _
  rw [popSlots_one]
  apply hclean.allOrNothing
  · rintro ⟨value, c⟩ hpopped
    have hok := hpopped
    unfold Cpu.poppedOne at hpopped
    obtain ⟨_, hvalid, hpopped⟩ := ok_bind_iff.mp hpopped
    obtain ⟨loaded, hload, hresult⟩ := ok_bind_iff.mp hpopped
    obtain ⟨rfl, rfl⟩ := Prod.mk.inj (Except.ok.inj hresult)
    have hitem := loadAt_ok_iff.mp hload
    obtain ⟨ptrs, hptrs, -⟩ := id hitem
    constructor
    · refine ⟨hexc, (validStackSize_iff size).mp hvalid, ?_⟩
      rw [List.forall_mem_singleton]
      exact operandPtrs_iff.mp ⟨ptrs, hptrs⟩
    · exact ⟨loaded, hok, .cons hitem .nil⟩
  · rintro ⟨-, htakes, hallowed⟩
    rw [List.forall_mem_singleton] at hallowed
    obtain ⟨ptrs, hptrs⟩ := operandPtrs_iff.mpr hallowed
    apply exists_ok_bind ((validStackSize_iff size).mpr htakes)
    apply exists_ok_bind (loadAt_ok_iff.mpr ⟨ptrs, hptrs, rfl⟩)
    exact ⟨_, rfl⟩
  · intro c hpopped
    rw [hpopped]

/-! ## The law -/

/-- Under a pending exception the stack operations do nothing. -/
theorem allOrNothing_pending (hexc : cpu.context.hasException = true) {store : Bool} {size : ℕ}
    {slots : List U64} {done : Prop} :
    cpu.AllOrNothing (cpu.StackReady store size slots) done cpu := by
  right
  constructor
  · intro hready
    rw [hready.clear] at hexc
    cases hexc
  · exact failed_of_pending hexc

theorem run_popValue_pending (hexc : cpu.context.hasException = true) (size : ℕ) :
    (popValue size).run viewOp cpu = (0, cpu) := by
  unfold popValue
  rw [Program.run_bind, run_getContext]
  dsimp only
  by_cases hnarrow : cpu.context.stackAddressSize = 16 ∧ size = 8
  · rw [if_pos hnarrow, Program.run_bind, run_raiseGp, Cpu.raised, raiseException_of_pending hexc]
    rfl
  · rw [if_neg hnarrow, Program.run_bind, run_readMemory_pending hexc]
    dsimp only
    rw [Program.run_bind, run_cpuHasException, hexc]
    rfl

/-- What two pushes do in every state. -/
theorem pushTwo_allOrNothing (first second : U64) (size : ℕ) :
    let cpu' := ((pushTwoStackValues first second size).run viewOp cpu).2
    cpu.AllOrNothing (cpu.StackReady true size (cpu.pushSlots size 2))
      (cpu.Pushed (cpu.pushSlots size 2) size [first, second] cpu') cpu' := by
  intro cpu'
  by_cases hexc : cpu.context.hasException = true
  · have hsame : cpu' = cpu := by
      show ((pushTwoStackValues first second size).run viewOp cpu).2 = cpu
      unfold pushTwoStackValues
      rw [Program.run_bind, run_getContext]
      simp only [hexc, if_true]
      rfl
    rw [hsame]
    exact allOrNothing_pending hexc
  · have hclear : cpu.context.hasException = false := Bool.not_eq_true _ ▸ hexc
    have hsame : cpu' = (transferred (cpu.pushedTwo first second size)).2 :=
      congrArg Prod.snd (run_pushTwo hclear first second size)
    rw [hsame]
    exact pushedTwo_allOrNothing hclear first second size

/-- What a peek does in every state. -/
theorem peek_allOrNothing (hm : ManagerOk cpu.memory) (size count : ℕ) :
    let ran := (peekStackValues size count).run viewOp cpu
    cpu.AllOrNothing (cpu.StackReady false size (cpu.popSlots size count))
      (ran.2 = cpu ∧ cpu.Peeked (cpu.popSlots size count) size count ran.1) ran.2 := by
  intro ran
  by_cases hexc : cpu.context.hasException = true
  · have hsame : ran.2 = cpu := by
      show ((peekStackValues size count).run viewOp cpu).2 = cpu
      unfold peekStackValues
      rw [Program.run_bind, run_getContext]
      simp only [hexc, if_true]
      rfl
    rw [hsame]
    exact allOrNothing_pending hexc
  · have hclear : cpu.context.hasException = false := Bool.not_eq_true _ ▸ hexc
    have hsame : ran = checked cpu (cpu.peeked size count) :=
      run_peekStackValues hm hclear size count
    rw [hsame]
    exact peeked_allOrNothing hclear size count

/-- What a push of one item does in every state. -/
theorem pushValue_allOrNothing (hm : ManagerOk cpu.memory) {size : ℕ}
    (hsize : size = 2 ∨ size = 4 ∨ size = 8) (value : U64) :
    let cpu' := ((pushValue size value).run viewOp cpu).2
    cpu.AllOrNothing (cpu.StackReady true size (cpu.pushSlots size 1))
      (cpu.Pushed (cpu.pushSlots size 1) size [value] cpu') cpu' := by
  intro cpu'
  by_cases hexc : cpu.context.hasException = true
  · have hsame : cpu' = cpu := by
      show ((pushValue size value).run viewOp cpu).2 = cpu
      unfold pushValue
      rw [Program.run_bind, run_cpuHasException]
      simp only [hexc, if_true]
      rfl
    rw [hsame]
    exact allOrNothing_pending hexc
  · have hclear : cpu.context.hasException = false := Bool.not_eq_true _ ▸ hexc
    have hsame : cpu' = (transferred (cpu.pushedOne size value)).2 :=
      congrArg Prod.snd (run_pushValue hm hclear hsize value)
    rw [hsame]
    exact pushedOne_allOrNothing hclear size value

/-- What a pop of one item does in every state. -/
theorem popValue_allOrNothing (hm : ManagerOk cpu.memory) {size : ℕ}
    (hsize : size = 2 ∨ size = 4 ∨ size = 8) :
    let ran := (popValue size).run viewOp cpu
    cpu.AllOrNothing (cpu.StackReady false size (cpu.popSlots size 1))
      (ran.2 = cpu.moveStack (BitVec.ofNat 64 size) ∧
        cpu.SlotItems size (cpu.popSlots size 1) [ran.1]) ran.2 := by
  intro ran
  by_cases hexc : cpu.context.hasException = true
  · have hsame : ran.2 = cpu := congrArg Prod.snd (run_popValue_pending hexc size)
    rw [hsame]
    exact allOrNothing_pending hexc
  · have hclear : cpu.context.hasException = false := Bool.not_eq_true _ ▸ hexc
    have hrun : ran = _ := run_popValue hm hclear hsize
    rw [hrun]
    rcases poppedOne_allOrNothing hclear size with ⟨hready, value, hpopped, hitem⟩ | ⟨hnot, hfailed⟩
    · left
      rw [hpopped]
      exact ⟨hready, rfl, hitem⟩
    · right
      refine ⟨hnot, ?_⟩
      cases hpopped : cpu.poppedOne size with
      | error c =>
        rw [hpopped] at hfailed
        exact hfailed
      | ok popped =>
        rw [hpopped] at hfailed
        exact hfailed

namespace Cpu

variable (cpu : Cpu)

/-- Two pushes, a peek of any number of items, and the push and the pop of one item transfer every
item to or from its slot and move the stack pointer by the total size, exactly when the stack is
ready for all of them; otherwise there is a fault, and the registers and the memory are as they
were.  The slots are those of the stack pointer, from a base on. -/
structure TransfersAt (base : U64) (size : ℕ) : Prop where
  pushTwo : ∀ first second, ∃ cpu',
    UpToCache ((pushTwoStackValues first second size).run cpuOp cpu).2 cpu' ∧
      cpu.AllOrNothing (cpu.StackReady true size ((cpu.pushSlots size 2).map (base + ·)))
        (cpu.Pushed ((cpu.pushSlots size 2).map (base + ·)) size [first, second] cpu') cpu'
  peek : ∀ count, ∃ cpu', UpToCache ((peekStackValues size count).run cpuOp cpu).2 cpu' ∧
    cpu.AllOrNothing (cpu.StackReady false size ((cpu.popSlots size count).map (base + ·)))
      (cpu' = cpu ∧ cpu.Peeked ((cpu.popSlots size count).map (base + ·)) size count
        ((peekStackValues size count).run cpuOp cpu).1) cpu'
  push : size = 2 ∨ size = 4 ∨ size = 8 → ∀ value, ∃ cpu',
    UpToCache ((pushValue size value).run cpuOp cpu).2 cpu' ∧
      cpu.AllOrNothing (cpu.StackReady true size ((cpu.pushSlots size 1).map (base + ·)))
        (cpu.Pushed ((cpu.pushSlots size 1).map (base + ·)) size [value] cpu') cpu'
  pop : size = 2 ∨ size = 4 ∨ size = 8 → ∃ cpu',
    UpToCache ((popValue size).run cpuOp cpu).2 cpu' ∧
      cpu.AllOrNothing (cpu.StackReady false size ((cpu.popSlots size 1).map (base + ·)))
        (cpu' = cpu.moveStack (BitVec.ofNat 64 size) ∧
          cpu.SlotItems size ((cpu.popSlots size 1).map (base + ·))
            [((popValue size).run cpuOp cpu).1]) cpu'

/-- The base of the architectural slots: an operand in the stack segment has its address from
there on. -/
def stackBase : U64 := cpu.context.segmentBaseForAddressing .ss

end Cpu

theorem slots_from_zero (slots : List U64) : slots.map (0 + ·) = slots := by
  have hzero : (fun slot : U64 => 0 + slot) = id := funext BitVec.zero_add
  rw [hzero, List.map_id]

/-- **Stack transfers are all or nothing**, at the flat slots of the stack pointer. -/
theorem transfersAt_zero (hm : MemoryOk cpu.memory) (size : ℕ) : cpu.TransfersAt 0 size where
  pushTwo first second := by
    rw [slots_from_zero]
    exact ⟨_, (run_viewOp _ hm).2, pushTwo_allOrNothing first second size⟩
  peek count := by
    rw [slots_from_zero]
    obtain ⟨hvalue, hupTo⟩ := run_viewOp (peekStackValues size count) hm
    refine ⟨_, hupTo, ?_⟩
    rw [hvalue]
    exact peek_allOrNothing hm.manager size count
  push hsize value := by
    rw [slots_from_zero]
    exact ⟨_, (run_viewOp _ hm).2, pushValue_allOrNothing hm.manager hsize value⟩
  pop hsize := by
    rw [slots_from_zero]
    obtain ⟨hvalue, hupTo⟩ := run_viewOp (popValue size) hm
    refine ⟨_, hupTo, ?_⟩
    rw [hvalue]
    exact popValue_allOrNothing hm.manager hsize

/-! ## The base of the stack segment -/

theorem stackBase_eq : cpu.stackBase =
    if cpu.context.is64BitCode = true then 0 else cpu.context.ss.descriptor.base := by
  unfold Cpu.stackBase CpuContext.segmentBaseForAddressing
  simp only [ne_eq, reduceCtorEq, not_false_eq_true, and_true]
  rfl

/-! ### A stack segment with a base -/

section Based

variable (ctx : CpuContext)

/-- A CPU with a stack pointer in the host program, where every byte is 0. -/
def basedCpu : Cpu :=
  hostCpu { ctx with regs := Function.update ctx.regs regRsp 0x1000 } fun _ => 0

/-- A page of the host program that may be read, written and executed. -/
theorem pageEntry_hostCpu (bytes : U64 → U8) (address : U64) :
    pageEntry (hostCpu ctx bytes).memory address =
      some { pageBase := alignDownPage address, hostPage := .user (alignDownPage address)
             perms := mmProtRead ||| mmProtWrite ||| mmProtExec, cpuAttrs := mmCpuAttrUser
             valid := true } := by
  have hnone : mmFindRegion (hostCpu ctx bytes).memory address = none := rfl
  have hperms : mmHostPassthroughPerms (hostCpu ctx bytes).memory =
      mmProtRead ||| mmProtWrite ||| mmProtExec := rfl
  unfold pageEntry
  rw [hnone, hperms]
  rfl

theorem dataPtr_hostCpu (bytes : U64 → U8) (h64 : ctx.is64BitCode = false) (store : Bool)
    (address : U64) : (hostCpu ctx bytes).dataPtr store address = some (.user address) := by
  have hpage : alignDownPage address + (address - alignDownPage address) = address := by
    rw [BitVec.add_comm]
    exact BitVec.sub_add_cancel _ _
  have hall : ¬ (mmProtRead ||| mmProtWrite ||| mmProtExec) &&& (dataAccess store).perm = 0 := by
    cases store <;> decide
  have hview : ∀ user, judgeAccess user
      (accessView (hostCpu ctx bytes).memory address (dataAccess store).perm) =
        .ok (.user (alignDownPage address + (address - alignDownPage address))) := by
    intro user
    have huser : ¬ (user = true ∧ mmCpuAttrUser &&& mmCpuAttrUser = 0) :=
      fun h => absurd h.2 (by decide)
    unfold accessView checkInfo
    rw [pageEntry_hostCpu]
    dsimp only [Option.map_some, PageCacheEntry.info]
    rw [if_neg hall]
    exact if_neg huser
  have hmode : (hostCpu ctx bytes).context.is64BitCode = false := h64
  unfold Cpu.dataPtr grantedPtr
  rw [hmode, Bool.false_and, if_neg Bool.false_ne_true, hview, hpage]
  rfl

theorem wordPtrs_hostCpu (bytes : U64 → U8) (h64 : ctx.is64BitCode = false) (store : Bool)
    (address : U64) : (hostCpu ctx bytes).operandPtrs store address 2 0 =
      .ok [.user address, .user (address + 1)] := by
  have hzero : address + 0 = address := BitVec.add_zero _
  have hone : (0 : U64) + 1 = 1 := rfl
  unfold Cpu.operandPtrs
  rw [dataPtr_hostCpu ctx bytes h64]
  unfold Cpu.operandPtrs
  rw [dataPtr_hostCpu ctx bytes h64, hzero, hone]
  rfl

theorem pushSlots_basedCpu (h64 : ctx.is64BitCode = false) :
    (basedCpu ctx).pushSlots 2 2 = [0xFFE, 0xFFC] := by
  have hsize : (basedCpu ctx).context.stackAddressSize =
      if ctx.ss.descriptor.db = true then 32 else 16 := by
    show (if ctx.is64BitCode = true then 64 else _) = _
    rw [h64, if_neg Bool.false_ne_true]
    rfl
  have hrsp : (basedCpu ctx).context.regs regRsp = 0x1000 := by
    show Function.update ctx.regs regRsp 0x1000 regRsp = 0x1000
    rw [Function.update_self]
  unfold Cpu.pushSlots Cpu.stackSlot
  rw [hsize, hrsp]
  split_ifs <;> decide

/-- Two words that are stored one after the other: 1, and 0. -/
theorem storeItems_words (host : HostMemory) (a b : U64) :
    (storeItems host [[.user a, .user (a + 1)], [.user b, .user (b + 1)]] [1, 0]).user =
      Function.update (Function.update (Function.update (Function.update host.user a 1)
        (a + 1) 0) b 0) (b + 1) 0 := rfl

/-- Two words that are pushed to given addresses. -/
theorem pushed_basedCpu (h64 : ctx.is64BitCode = false) {a b : U64} {cpu' : Cpu}
    (h : (basedCpu ctx).Pushed [a, b] 2 [1, 0] cpu') :
    cpu'.memory.host.user = Function.update (Function.update (Function.update
      (Function.update (fun _ => 0) a 1) (a + 1) 0) b 0) (b + 1) 0 := by
  obtain ⟨slots, hslots, rfl⟩ := h
  obtain ⟨first, rest, hfirst, hrest, rfl⟩ := List.forall₂_cons_left_iff.mp hslots
  obtain ⟨second, rest, hsecond, hnil, rfl⟩ := List.forall₂_cons_left_iff.mp hrest
  obtain rfl := List.forall₂_nil_left_iff.mp hnil
  have hptrs := fun address => wordPtrs_hostCpu
    { ctx with regs := Function.update ctx.regs regRsp 0x1000 } (fun _ => 0) h64 true address
  obtain rfl := Except.ok.inj ((hptrs a).symm.trans hfirst)
  obtain rfl := Except.ok.inj ((hptrs b).symm.trans hsecond)
  exact storeItems_words _ a b

/-- With a base, two pushes do not reach the architectural slots. -/
theorem not_transfersAt_based (hexc : ctx.hasException = false) (h64 : ctx.is64BitCode = false)
    (hbase : ctx.ss.descriptor.base ≠ 0) :
    ¬ (basedCpu ctx).TransfersAt (basedCpu ctx).stackBase 2 := by
  intro htransfers
  have hm : MemoryOk (basedCpu ctx).memory := memoryOk_hostCpu _ _
  -- the two pushes would have to store at the flat slots and at the others
  obtain ⟨flat, hflat, hpushed⟩ := (@transfersAt_zero (basedCpu ctx) hm 2).pushTwo 1 0
  obtain ⟨based, hbased, hpushed'⟩ := htransfers.pushTwo 1 0
  have hhost : flat.memory.host = based.memory.host := hflat.host_eq.symm.trans hbased.host_eq
  -- every byte may be stored to, so that both words are pushed
  have hready : ∀ slots, (basedCpu ctx).StackReady true 2 slots := by
    intro slots
    refine ⟨hexc, ⟨Or.inl rfl, fun h => absurd h.2 (by decide)⟩, fun address _ i _ hnone => ?_⟩
    have hptr := dataPtr_hostCpu { ctx with regs := Function.update ctx.regs regRsp 0x1000 }
      (fun _ => 0) h64 true (address + BitVec.ofNat 64 i)
    cases hptr.symm.trans hnone
  have hdone : ∀ {slots : List U64} {done : Prop} {cpu' : Cpu},
      (basedCpu ctx).AllOrNothing ((basedCpu ctx).StackReady true 2 slots) done cpu' → done := by
    rintro slots done cpu' (⟨-, hdone⟩ | ⟨hnot, -⟩)
    · exact hdone
    · exact absurd (hready slots) hnot
  have hflatUser := hdone hpushed
  have hbasedUser := hdone hpushed'
  rw [pushSlots_basedCpu ctx h64] at hflatUser hbasedUser
  replace hflatUser := pushed_basedCpu ctx h64 hflatUser
  replace hbasedUser := pushed_basedCpu ctx h64 hbasedUser
  rw [hhost, hbasedUser] at hflatUser
  -- the byte of the first slot without the base
  have hbyte := congrFun hflatUser 0xFFE
  have hzero : (0 : U64) + 0xFFE = 0xFFE := rfl
  have hstack : (basedCpu ctx).stackBase ≠ 0 := by
    rw [stackBase_eq]
    have hmode : (basedCpu ctx).context.is64BitCode = false := h64
    rw [hmode, if_neg Bool.false_ne_true]
    exact hbase
  -- of all bytes that are stored only the first one is not 0
  have hother : (0xFFE : U64) ≠ (basedCpu ctx).stackBase + 0xFFE := by
    generalize (basedCpu ctx).stackBase = base at hstack
    bv_omega
  have hnew : ∀ {f : U64 → U8} {p : U64}, f 0xFFE = 0 → Function.update f p 0 0xFFE = 0 := by
    intro f p hf
    rw [Function.update_apply]
    split_ifs
    · rfl
    · exact hf
  have hleft : Function.update (fun _ : U64 => (0 : U8)) ((basedCpu ctx).stackBase + 0xFFE) 1
      0xFFE = 0 := Function.update_of_ne hother _ _
  have hcontra := (hnew (hnew (hnew hleft))).symm.trans hbyte
  exact absurd hcontra (by decide)

end Based

/-- **Stack transfers and the stack segment.**  All of them are all or nothing at the flat slots
of the stack pointer.  For every stack pointer and every memory they are so at the architectural
slots, under a context without an exception, exactly when the code is 64-bit code or the stack
segment has no base. -/
theorem stack_transfer_iff (ctx : CpuContext) (hexc : ctx.hasException = false) :
    (∀ (cpu : Cpu) (size : ℕ), MemoryOk cpu.memory → cpu.TransfersAt 0 size) ∧
    (∀ cpu : Cpu, (cpu.stackBase = 0 ↔
      cpu.context.is64BitCode = true ∨ cpu.context.ss.descriptor.base = 0)) ∧
    ((∀ (cpu : Cpu) (rsp : U64) (size : ℕ), MemoryOk cpu.memory →
        cpu.context = { ctx with regs := Function.update ctx.regs regRsp rsp } →
        cpu.TransfersAt cpu.stackBase size) ↔
      ctx.is64BitCode = true ∨ ctx.ss.descriptor.base = 0) := by
  have hbase : ∀ cpu : Cpu, (cpu.stackBase = 0 ↔
      cpu.context.is64BitCode = true ∨ cpu.context.ss.descriptor.base = 0) := by
    intro cpu
    rw [stackBase_eq]
    split_ifs with h64
    · exact iff_of_true rfl (Or.inl h64)
    · exact ⟨Or.inr, fun h => h.resolve_left h64⟩
  refine ⟨fun cpu size hm => transfersAt_zero hm size, hbase, ?_, ?_⟩
  · intro hall
    by_contra hcond
    rw [not_or, Bool.not_eq_true] at hcond
    exact not_transfersAt_based ctx hexc hcond.1 hcond.2
      (hall (basedCpu ctx) 0x1000 2 (memoryOk_hostCpu _ _) rfl)
  · intro hcond cpu rsp size hm hctx
    have hzero : cpu.stackBase = 0 := by
      rw [hbase cpu, hctx]
      exact hcond
    rw [hzero]
    exact transfersAt_zero hm size

/-- 32-bit code with a stack segment at 10000h. -/
def basedContext : CpuContext :=
  { initCpuContext true with ss := { initialDataSegment with
      descriptor := { initialDataSegment.descriptor with base := 0x10000 } } }

/-- The words 1 and 0, pushed below 1000h, should be at 10FFEh and 10FFCh, and are at FFEh and
FFCh. -/
theorem stack_slots_miss_base :
    ¬ ∀ (cpu : Cpu) (size : ℕ), MemoryOk cpu.memory → cpu.TransfersAt cpu.stackBase size := by
  intro hall
  exact not_transfersAt_based basedContext rfl rfl (by decide)
    (hall (basedCpu basedContext) 2 (memoryOk_hostCpu _ _))

/-- A far call's two pushes of 8 bytes, and the pushes of 32-bit code without a base. -/
theorem stack_transfer_iff_example :
    (hostCpu (initCpuContext false) fun _ => 0).TransfersAt 0 8 ∧
      (basedCpu (initCpuContext true)).TransfersAt (basedCpu (initCpuContext true)).stackBase 4 :=
  ⟨(stack_transfer_iff (initCpuContext false) rfl).1 _ 8
      (memoryOk_hostCpu (initCpuContext false) fun _ => 0),
    (stack_transfer_iff (initCpuContext true) rfl).2.2.mpr (Or.inr rfl) _ 0x1000 4
      (memoryOk_hostCpu _ _) rfl⟩

end Cpueaxh
