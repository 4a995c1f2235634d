/-
# Counters that several engines share

`INC`, `DEC` and `XADD` behind `LOCK` prefixes add to their operand.  Where several engines add to
one operand no addition is lost, and the values that `XADD` finds are the sums on the way: with
ones that are added these are tickets, which no two engines share.
-/
import Cpueaxh.SharedMemory
import Mathlib.Algebra.BigOperators.Group.Finset.Basic

namespace Cpueaxh

open HostMemory
open Program (Machine)

/-! ## What an instruction adds -/

variable {ι : Type} {host : HostMemory}

namespace LockedInst

/-- The value that an instruction adds to its operand, if it does nothing else with it. -/
def addend (inst : LockedInst host) : Option U64 :=
  let ctx := inst.engine.context
  match inst.op with
  | .inc => some 1
  | .dec => some (-1)
  | .xadd => some (getRegister inst.size ctx (decodeRegIndex ctx inst.operand.modrm))
  | _ => none

/-- The register that receives what `XADD` finds. -/
def found (inst : LockedInst host) (ctx : CpuContext) : U64 :=
  getRegister inst.size ctx (decodeRegIndex inst.engine.context inst.operand.modrm)

theorem stored_addend {inst : LockedInst host} {value : U64} (h : inst.addend = some value)
    (old : U64) : inst.change.stored old = some ((old + value) &&& operandMask inst.size) := by
  unfold addend at h
  unfold change
  generalize hop : inst.op = op at h
  cases op with
  | inc =>
    obtain rfl := Option.some.inj h
    rfl
  | dec =>
    obtain rfl := Option.some.inj h
    have hsub : old - 1 = old + -1 := BitVec.sub_eq_add_neg old 1
    show some ((old - 1) &&& operandMask inst.size) = _
    rw [hsub]
  | xadd =>
    obtain rfl := Option.some.inj h
    rfl
  | _ => cases h

/-- The pointers to an operand are those of different bytes. -/
theorem ptrs_nodup (inst : LockedInst host) :
    inst.ptrs.Nodup ∧ inst.ptrs.length = inst.size.bits / 8 := by
  have hm : ManagerOk (inst.engine.setHost host).memory := inst.memory.manager
  obtain ⟨p, hp, -⟩ := getMemoryWritePtr_inPlace hm inst.clear (inPlace_setHost inst.inPlace host)
    (oneRun_setHost inst.oneRun host) 0
  have hbits := inst.size.le_sixtyFour
  refine ⟨?_, inPlace_length inst.inPlace⟩
  rw [hp]
  exact consecutive_nodup p _ (by omega)

/-- **One addition**. -/
theorem alone_value {inst : LockedInst host} {value : U64} (h : inst.addend = some value)
    {s : HostMemory} (hs : MemoryOk (inst.engine.memory.setHost s))
    (hbacked : ∀ p ∈ inst.ptrs, (s.read p).isSome = true) :
    (loadValue (inst.alone s).memory.host inst.ptrs).toNat =
      ((loadValue s inst.ptrs).toNat + value.toNat) % 2 ^ inst.size.bits := by
  obtain ⟨hnodup, hlength⟩ := inst.ptrs_nodup
  have hbits := inst.size.bits_eq_eight_mul
  have hle := inst.size.le_sixtyFour
  have hhost : (inst.effect s).memory.host = storeBytes s inst.ptrs
      (loadValue s inst.ptrs + value) := by
    rw [inst.effect_host, stored_addend h, Option.map_some, Option.getD_some,
      storeBytes_operandMask hlength]
  rw [(inst.alone_effect hs).host_eq, hhost, loadValue_storeBytes _ _ _ hnodup hbacked (by omega),
    hlength, hbits, BitVec.toNat_add]
  exact Nat.mod_mod_of_dvd _ (Nat.pow_dvd_pow 2 hle)

/-- What `XADD` finds. -/
theorem alone_found {inst : LockedInst host} (hop : inst.op = .xadd) {s : HostMemory}
    (hs : MemoryOk (inst.engine.memory.setHost s)) :
    inst.found (inst.alone s).context = loadValue s inst.ptrs := by
  have hlt := loadValue_lt_bits inst.ptrs_nodup.2 s
  rw [(inst.alone_effect hs).context_eq]
  unfold effect change found
  rw [hop]
  exact getRegister_written inst.size _ _ hlt

end LockedInst

/-! ## The sums -/

/-- Instructions that add to one operand. -/
structure Counter (insts : ι → LockedInst host) where
  size : OperandWidth
  ptrs : List HostPtr
  addend : ι → U64
  size_eq : ∀ i, (insts i).size = size
  ptrs_eq : ∀ i, (insts i).ptrs = ptrs
  addend_eq : ∀ i, (insts i).addend = some (addend i)
  length_eq : ptrs.length = size.bits / 8
  backed : ∀ p ∈ ptrs, (host.read p).isSome = true

namespace Counter

variable {insts : ι → LockedInst host} (c : Counter insts)

/-- The counter behind some instructions. -/
def sum (order : List ι) : ℕ :=
  ((loadValue host c.ptrs).toNat + (order.map fun i => (c.addend i).toNat).sum) % 2 ^ c.size.bits

/-- The bytes of the counter remain, whatever is stored. -/
theorem isSome_storeBytes {q : HostPtr} (ptrs : List HostPtr) : ∀ {s : HostMemory} {value : U64},
    (s.read q).isSome = true → ((storeBytes s ptrs value).read q).isSome = true := by
  induction ptrs with
  | nil => exact fun h => h
  | cons p rest ih =>
    intro s value h
    apply ih
    rw [read_write]
    split_ifs with hq
    · subst hq
      rwa [Option.isSome_map]
    · exact h

theorem isSome_alone {i : ι} {s : HostMemory} (hs : BytesOk insts s) {q : HostPtr}
    (h : (s.read q).isSome = true) : (((insts i).alone s).memory.host.read q).isSome = true := by
  rw [((insts i).alone_effect (hs i)).host_eq, (insts i).effect_host]
  cases (insts i).change.stored (loadValue s (insts i).ptrs) with
  | some value => exact isSome_storeBytes _ h
  | none => exact h

/-- **The counter** behind some instructions, one after another. -/
theorem value_aloneInOrder (order : List ι) : ∀ {s : HostMemory}, BytesOk insts s →
    (∀ p ∈ c.ptrs, (s.read p).isSome = true) →
      (loadValue (aloneInOrder insts s order) c.ptrs).toNat =
        ((loadValue s c.ptrs).toNat + (order.map fun i => (c.addend i).toNat).sum) %
          2 ^ c.size.bits := by
  induction order with
  | nil =>
    intro s hs hbacked
    exact (Nat.mod_eq_of_lt (loadValue_lt_bits c.length_eq s)).symm
  | cons i order ih =>
    intro s hs hbacked
    have hi : BytesOk insts ((insts i).alone s).memory.host := by
      rw [((insts i).alone_effect (hs i)).host_eq]
      exact bytesOk_effect hs i
    have hvalue := LockedInst.alone_value (c.addend_eq i) (hs i) (by rwa [c.ptrs_eq i])
    rw [c.ptrs_eq i, c.size_eq i] at hvalue
    show (loadValue (aloneInOrder insts ((insts i).alone s).memory.host order) c.ptrs).toNat = _
    rw [ih hi fun p hp => isSome_alone hs (hbacked p hp), hvalue, Nat.mod_add_mod, List.map_cons,
      List.sum_cons, Nat.add_assoc]

/-- With ones the sums on the way are different, up to the size of the counter. -/
theorem sum_ne (hones : ∀ i, c.addend i = 1) {order : List ι}
    (hlength : order.length ≤ 2 ^ c.size.bits) {k l : ℕ} (hkl : k < l) (hl : l < order.length) :
    c.sum (order.take k) ≠ c.sum (order.take l) := by
  have hcount : ∀ n ≤ order.length,
      ((order.take n).map fun i => (c.addend i).toNat).sum = n := by
    intro n hn
    have hone : ∀ i ∈ order.take n, (c.addend i).toNat = 1 := fun i _ => by rw [hones]; rfl
    rw [List.map_congr_left hone, List.map_const', List.sum_replicate_nat, List.length_take,
      Nat.mul_one, Nat.min_eq_left hn]
  unfold sum
  rw [hcount k (by omega), hcount l (by omega)]
  intro hsame
  -- the difference of the two is less than the modulus
  have hdvd := (Nat.modEq_iff_dvd' (by omega)).mp hsame
  have hle := Nat.le_of_dvd (by omega) hdvd
  omega

end Counter

/-- **A counter** that several engines share loses no addition: whatever the turns are, it ends at
the sum of all of them, and each `XADD` finds the sum of those before it, in one order of the
engines.  Where all add one, no two of them find the same, up to the size of the counter. -/
theorem locked_counter [Fintype ι] [DecidableEq ι] {insts : ι → LockedInst host}
    (c : Counter insts) {fuel : ℕ} (hfuel : Fintype.card ι ≤ fuel) {schedule : List ι}
    (hended : ((engines cpuOp).steps (lockedSystem insts fuel) schedule).Ended) :
    (loadValue ((engines cpuOp).steps (lockedSystem insts fuel) schedule).shared c.ptrs).toNat =
        ((loadValue host c.ptrs).toNat + ∑ i, (c.addend i).toNat) % 2 ^ c.size.bits ∧
    (∃ order : List ι, order.Nodup ∧ (∀ i, i ∈ order) ∧
      ∀ k i, order[k]? = some i → (insts i).op = .xadd →
        ((insts i).found
          (((engines cpuOp).steps (lockedSystem insts fuel) schedule).thread i).2.context).toNat =
            c.sum (order.take k)) ∧
    ((∀ i, c.addend i = 1) → Fintype.card ι ≤ 2 ^ c.size.bits →
      ∀ i j, (insts i).op = .xadd → (insts j).op = .xadd → i ≠ j →
        (insts i).found
            (((engines cpuOp).steps (lockedSystem insts fuel) schedule).thread i).2.context ≠
          (insts j).found
            (((engines cpuOp).steps (lockedSystem insts fuel) schedule).thread j).2.context) := by
  have hbytes : BytesOk insts host := fun i => (insts i).memory
  obtain ⟨order, hnodup, hall, hshared, hthread⟩ := locked_order insts hfuel hended
  -- the order goes through all engines once
  have hlength : order.length = Fintype.card ι :=
    (List.toFinset_card_of_nodup hnodup).symm.trans
      ((congrArg Finset.card (Finset.eq_univ_iff_forall.mpr fun i =>
        List.mem_toFinset.mpr (hall i))).trans Finset.card_univ)
  have hsum : (order.map fun i => (c.addend i).toNat).sum = ∑ i, (c.addend i).toNat := by
    rw [← List.sum_toFinset _ hnodup]
    congr 1
    exact Finset.eq_univ_iff_forall.mpr fun i => List.mem_toFinset.mpr (hall i)
  -- each finds the counter as the engines before it have left it
  have hfound : ∀ k i, order[k]? = some i → (insts i).op = .xadd →
      ((insts i).found
        (((engines cpuOp).steps (lockedSystem insts fuel) schedule).thread i).2.context).toNat =
          c.sum (order.take k) := by
    intro k i hk hop
    have hbefore := (inOrder_alone (order.take k) hbytes).2
    rw [(hthread k i hk).2, LockedInst.alone_found hop (hbefore i), c.ptrs_eq i]
    exact c.value_aloneInOrder (order.take k) hbytes c.backed
  refine ⟨?_, ⟨order, hnodup, hall, hfound⟩, ?_⟩
  · rw [hshared, c.value_aloneInOrder order hbytes c.backed, hsum]
  · intro hones hcard i j hi hj hij hsame
    obtain ⟨k, hk⟩ := List.mem_iff_getElem?.mp (hall i)
    obtain ⟨l, hl⟩ := List.mem_iff_getElem?.mp (hall j)
    have hvalues := congrArg BitVec.toNat hsame
    rw [hfound k i hk hi, hfound l j hl hj] at hvalues
    -- the sums at two places of the order differ, as every engine between them adds one
    have hkl : k ≠ l := by
      rintro rfl
      rw [hk] at hl
      exact hij (Option.some.inj hl)
    have hk' := (List.getElem?_eq_some_iff.mp hk).1
    have hl' := (List.getElem?_eq_some_iff.mp hl).1
    rcases Nat.lt_or_gt_of_ne hkl with h | h
    · exact c.sum_ne hones (by omega) h hl' hvalues
    · exact c.sum_ne hones (by omega) h hk' hvalues.symm

/-- The counter of two engines. -/
def ticketCounter : Counter fun _ : Bool => ticketInst where
  size := .dword
  ptrs := ticketInst.ptrs
  addend _ := 1
  size_eq _ := rfl
  ptrs_eq _ := rfl
  addend_eq _ := rfl
  length_eq := rfl
  backed := by decide

/-- Two engines draw a ticket each. -/
theorem locked_counter_example : ∃ schedule : List Bool,
    (loadValue ((engines cpuOp).steps (lockedSystem (fun _ => ticketInst) 2) schedule).shared
      ticketInst.ptrs).toNat = 2 ∧
    ticketInst.found (((engines cpuOp).steps (lockedSystem (fun _ => ticketInst) 2)
        schedule).thread false).2.context ≠
      ticketInst.found (((engines cpuOp).steps (lockedSystem (fun _ => ticketInst) 2)
        schedule).thread true).2.context := by
  obtain ⟨schedule, hended⟩ := Machine.exists_schedule
    (lockedSystem (fun _ : Bool => ticketInst) 2) (m := engines cpuOp)
  have hcounter := locked_counter ticketCounter (by decide : Fintype.card Bool ≤ 2) hended
  refine ⟨schedule, hcounter.1.trans rfl, ?_⟩
  exact hcounter.2.2 (fun _ => rfl) (by decide) false true rfl rfl (by decide)

end Cpueaxh
