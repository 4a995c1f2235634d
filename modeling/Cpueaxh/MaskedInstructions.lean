/-
# The law of masked and gathered accesses

For each instruction the lanes that its operands name, what it leaves in its destination or in
memory, and when it keeps to the selected lanes.
-/
import Cpueaxh.MaskedLaw

namespace Cpueaxh

open ByteOrder HostMemory Program

/-! ## The instructions -/

/-- The masked and gathering instructions, behind their decoders. -/
inductive MaskedInst where
  | vmaskmov (isPd is256 isStore : Bool) (reg maskReg : Fin 16) (address : U64)
  | vpmaskmov (isQword is256 isStore : Bool) (reg maskReg : Fin 16) (address : U64)
  | maskmovdqu (src mask : Fin 16) (addressSize : ℕ)
  | gather (index64 isPd is256 : Bool) (maskReg : Fin 16) (inst : MemOperand)

/-- The mask bit of a lane: the top bit of its element. -/
def laneMask (wide : Bool) (value : AVXRegister256) (i : ℕ) : Bool :=
  if wide then (ymmPdLanes.get value i).msb else (ymmLanes.get value i).msb

/-- The element of a lane. -/
def laneValue (wide : Bool) (value : AVXRegister256) (i : ℕ) : U64 :=
  if wide then ymmPdLanes.get value i else (ymmLanes.get value i).setWidth 64

/-- The number of bytes of an element. -/
def laneSize (wide : Bool) : ℕ := if wide then 8 else 4

/-- The number of elements of a vector. -/
def laneCount (wide is256 : Bool) : ℕ := (if is256 then 2 else 1) * if wide then 2 else 4

/-- The bytes of an `XMM` register, by their index. -/
def xmmByte (value : XMMRegister) (i : ℕ) : U8 := (xmmToBytes value).getD i 0

namespace MaskedInst

/-- The code of an instruction. -/
def program : MaskedInst → CpuProgram Unit
  | vmaskmov isPd is256 isStore reg maskReg address =>
    executeVmaskmov isPd is256 isStore reg maskReg address
  | vpmaskmov isQword is256 isStore reg maskReg address =>
    executeVpmaskmov isQword is256 isStore reg maskReg address
  | maskmovdqu src mask addressSize => executeMaskmovdqu src mask addressSize
  | gather index64 isPd is256 maskReg inst =>
    if index64 then
      if isPd then executeAvxGatherQpd maskReg inst is256
      else executeAvxGatherQps maskReg inst is256
    else if isPd then executeAvxGatherDpd maskReg inst is256
    else executeAvxGatherDps maskReg inst is256

/-- The instruction stores. -/
def isStore : MaskedInst → Bool
  | vmaskmov _ _ isStore _ _ _ => isStore
  | vpmaskmov _ _ isStore _ _ _ => isStore
  | maskmovdqu _ _ _ => true
  | gather _ _ _ _ _ => false

/-- The size of an element. -/
def size : MaskedInst → ℕ
  | vmaskmov isPd _ _ _ _ _ => laneSize isPd
  | vpmaskmov isQword _ _ _ _ _ => laneSize isQword
  | maskmovdqu _ _ _ => 1
  | gather _ isPd _ _ _ => laneSize isPd

/-- The number of lanes. -/
def count : MaskedInst → ℕ
  | vmaskmov isPd is256 _ _ _ _ => laneCount isPd is256
  | vpmaskmov isQword is256 _ _ _ _ => laneCount isQword is256
  | maskmovdqu _ _ _ => 16
  | gather index64 isPd is256 _ _ => laneCount (index64 || isPd) is256

/-- The mask bits of the lanes. -/
def selected (ctx : CpuContext) : MaskedInst → ℕ → Bool
  | vmaskmov isPd _ _ _ maskReg _, i => laneMask isPd (ctx.vector.getYmm256 maskReg) i
  | vpmaskmov isQword _ _ _ maskReg _, i => laneMask isQword (ctx.vector.getYmm256 maskReg) i
  | maskmovdqu _ mask _, i => (xmmByte (ctx.vector.xmm mask) i).msb
  | gather _ isPd _ maskReg _, i => laneMask isPd (ctx.vector.getYmm256 maskReg) i

/-- The index of a lane of a gather, extended with its sign. -/
def index (ctx : CpuContext) (index64 : Bool) (inst : MemOperand) (i : ℕ) : U64 :=
  if index64 then ymmPdLanes.get (ctx.vector.getYmm256 (vsibIndex ctx inst)) i
  else (ymmLanes.get (ctx.vector.getYmm256 (vsibIndex ctx inst)) i).signExtend 64

/-- The addresses of the lanes. -/
def address (ctx : CpuContext) : MaskedInst → ℕ → U64
  | vmaskmov isPd _ _ _ _ address, i => address + BitVec.ofNat 64 (i * laneSize isPd)
  | vpmaskmov isQword _ _ _ _ address, i => address + BitVec.ofNat 64 (i * laneSize isQword)
  | maskmovdqu _ _ addressSize, i => maskmovdquAddress ctx addressSize + BitVec.ofNat 64 (i * 1)
  | gather index64 _ _ _ inst, i => gatherAddress ctx inst (index ctx index64 inst) i

/-- The lanes with their mask bits and addresses. -/
def lanes (ctx : CpuContext) (inst : MaskedInst) : List (Bool × U64) :=
  lanesFrom (inst.selected ctx) (inst.address ctx) inst.count 0

/-- The operands are not those of an undefined instruction. -/
def legal (ctx : CpuContext) : MaskedInst → Bool
  | gather _ _ _ maskReg inst => gatherLegal ctx maskReg inst
  | _ => true

/-- The elements that a store takes from its register. -/
def stored (ctx : CpuContext) : MaskedInst → ℕ → U64
  | vmaskmov isPd _ _ reg _ _, i => laneValue isPd (ctx.vector.getYmm256 reg) i
  | vpmaskmov isQword _ _ reg _ _, i => laneValue isQword (ctx.vector.getYmm256 reg) i
  | maskmovdqu src _ _, i => (xmmByte (ctx.vector.xmm src) i).setWidth 64
  | gather _ _ _ _ _, _ => 0

/-- The elements of the destination of a load. -/
def destination (ctx : CpuContext) (vector : VectorRegisters) : MaskedInst → ℕ → U64
  | vmaskmov isPd _ _ reg _ _, i => laneValue isPd (vector.getYmm256 reg) i
  | vpmaskmov isQword _ _ reg _ _, i => laneValue isQword (vector.getYmm256 reg) i
  | maskmovdqu _ _ _, _ => 0
  | gather _ isPd _ _ inst, i => laneValue isPd (vector.getYmm256 (avxVexDestIndex ctx inst.modrm)) i

/-- What a lane of the destination has without its mask bit: a gather keeps it. -/
def unselected (ctx : CpuContext) : MaskedInst → ℕ → U64
  | gather index64 isPd is256 maskReg inst, i =>
    (gather index64 isPd is256 maskReg inst).destination ctx ctx.vector i
  | _, _ => 0

/-- The instruction loads a vector under a mask. -/
def isMaskedLoad : MaskedInst → Bool
  | vmaskmov _ _ isStore _ _ _ => !isStore
  | vpmaskmov _ _ isStore _ _ _ => !isStore
  | _ => false

/-- The number of blocks of sixteen bytes of a vector. -/
def blocks : MaskedInst → ℕ
  | vmaskmov _ is256 _ _ _ _ => if is256 then 2 else 1
  | vpmaskmov _ is256 _ _ _ _ => if is256 then 2 else 1
  | _ => 1

/-- What an instruction does if none of the selected bytes is refused: a store leaves its
elements in the selected lanes and nothing else, and a load has the values of the selected
lanes in its destination. -/
def Done (inst : MaskedInst) (before after : Cpu) : Prop :=
  if inst.isStore then
    ∀ ptrs, before.lanePtrs true inst.size (inst.lanes before.context) = .ok ptrs →
      after.memory.host = commitHost before.memory.host ptrs
          (maskedBytes inst.size ((List.range inst.count).map fun i =>
            (inst.selected before.context i, inst.stored before.context i))) ∧
        ∀ p, p ∉ ptrs → after.memory.host.read p = before.memory.host.read p
  else
    after.memory.host = before.memory.host ∧
      ∀ i < inst.count, inst.destination before.context after.context.vector i =
        if inst.selected before.context i then
          before.loadedLane inst.size (inst.address before.context i)
        else inst.unselected before.context i

/-- **The law**: an instruction accesses the selected lanes and nothing else, and does with them
what it should; an undefined one accesses nothing. -/
structure Keeps (inst : MaskedInst) (cpu : Cpu) : Prop where
  access : inst.legal cpu.context = true →
    LaneAccess cpuOp cpu inst.isStore inst.size (inst.lanes cpu.context) inst.program
  done : inst.legal cpu.context = true → ∀ ptrs,
    cpu.lanePtrs inst.isStore inst.size (inst.lanes cpu.context) = .ok ptrs →
      inst.Done cpu (inst.program.run cpuOp cpu).2
  undefined : inst.legal cpu.context = false →
    (inst.program.run cpuOp cpu).2.context.hasException = true ∧
      QuietTrace (inst.program.calls cpuOp cpu) ∧
      inst.program.Along cpuOp (RefusedAt fun _ => False) cpu

/-- The condition: a masked load reads nothing but selected lanes. -/
def Covered (inst : MaskedInst) (cpu : Cpu) : Prop :=
  inst.isMaskedLoad = true →
    LoadCovered cpu (inst.address cpu.context 0) inst.blocks inst.size (inst.lanes cpu.context)

end MaskedInst

variable {cpu : Cpu} {store : Bool} {size : ℕ} {address : U64}

/-! ## Values of lanes -/

/-- A part of an operand. -/
theorem operandPtrs_part {whole : List HostPtr} {m n total : ℕ}
    (h : cpu.operandPtrs store address total 0 = .ok whole) (hle : m + n ≤ total) :
    cpu.operandPtrs store (address + BitVec.ofNat 64 m) n 0 = .ok ((whole.drop m).take n) := by
  obtain ⟨rest, rfl⟩ := Nat.exists_eq_add_of_le hle
  rw [Nat.add_assoc, operandPtrs_add] at h
  cases hfirst : cpu.operandPtrs store address m 0 with
  | error a => rw [hfirst] at h; cases h
  | ok first =>
    rw [hfirst, operandPtrs_add] at h
    cases hpart : cpu.operandPtrs store (address + BitVec.ofNat 64 m) n 0 with
    | error a => rw [hpart] at h; cases h
    | ok part =>
      rw [hpart] at h
      cases hrest : cpu.operandPtrs store (address + BitVec.ofNat 64 m + BitVec.ofNat 64 n) rest 0 with
      | error a => rw [hrest] at h; cases h
      | ok last =>
        rw [hrest] at h
        obtain rfl := Except.ok.inj h
        rw [List.drop_left' (operandPtrs_length m hfirst),
          List.take_left' (operandPtrs_length n hpart)]

/-- The value of a lane in a vector that can be read. -/
theorem loadedLane_vector {whole : List HostPtr} {m total : ℕ}
    (h : cpu.operandPtrs false address total 0 = .ok whole) (hle : m + size ≤ total) :
    cpu.loadedLane size (address + BitVec.ofNat 64 m) =
      (field (8 * size) (hostBytes cpu.memory.host whole) m).setWidth 64 := by
  have hlength := operandPtrs_length size (operandPtrs_part h hle)
  have hbytes : hostBytes cpu.memory.host ((whole.drop m).take size) =
      ((hostBytes cpu.memory.host whole).drop m).take size := by
    unfold hostBytes
    rw [List.map_take, List.map_drop]
  have hcount : 8 * (((hostBytes cpu.memory.host whole).drop m).take size).length ≤ 8 * size := by
    rw [← hbytes, hostBytes_length, hlength]
  rw [Cpu.loadedLane, operandPtrs_part h hle]
  simp only
  rw [loadValue_littleEndian, hbytes, field, Nat.mul_div_cancel_left size (by decide),
    setWidth_littleEndian hcount]

/-- The lanes of a block. -/
theorem xmmLanes_ofBytes (bytes : List U8) {i : ℕ} (hi : i < 4) :
    xmmLanes.get (xmmOfBytes bytes) i = field 32 bytes (i * 4) := by
  have hword : ∀ offset k, (field 64 bytes offset).getLsbD k =
      (decide (k < 64) && (bytes.getD (offset + k / 8) 0).getLsbD (k % 8)) :=
    fun offset k => getLsbD_field (n := 8) rfl bytes offset k
  have hlow : ∀ offset, (field 64 bytes offset).setWidth 32 = field 32 bytes offset := by
    intro offset
    ext k hk
    rw [BitVec.getElem_setWidth, hword, ← BitVec.getLsbD_eq_getElem, getLsbD_field (n := 4) rfl]
    simp [hk, show k < 64 by omega]
  have hhigh : ∀ offset, (field 64 bytes offset >>> 32).setWidth 32 = field 32 bytes (offset + 4) := by
    intro offset
    ext k hk
    have hbyte : offset + (32 + k) / 8 = offset + 4 + k / 8 := by omega
    have hbit : (32 + k) % 8 = k % 8 := by omega
    rw [BitVec.getElem_setWidth, BitVec.getLsbD_ushiftRight, hword, hbyte, hbit,
      ← BitVec.getLsbD_eq_getElem, getLsbD_field (n := 4) rfl]
    simp [hk, show 32 + k < 64 by omega]
  match i, hi with
  | 0, _ => exact (lowHalf_eq _).trans (hlow 0)
  | 1, _ => exact hhigh 0
  | 2, _ => exact (lowHalf_eq _).trans (hlow 8)
  | 3, _ => exact hhigh 8

theorem xmmPdLanes_ofBytes (bytes : List U8) {i : ℕ} (hi : i < 2) :
    xmmPdLanes.get (xmmOfBytes bytes) i = field 64 bytes (i * 8) := by
  match i, hi with
  | 0, _ => rfl
  | 1, _ => rfl

/-- The elements of a block. -/
theorem laneValue_block (wide : Bool) (bytes : List U8) (high : XMMRegister) {i : ℕ}
    (hi : i < laneCount wide false) : laneValue wide ⟨xmmOfBytes bytes, high⟩ i =
      (field (8 * laneSize wide) bytes (i * laneSize wide)).setWidth 64 := by
  cases wide with
  | false =>
    have hlane : i < 4 := hi
    show (ymmLanes.get ⟨xmmOfBytes bytes, high⟩ i).setWidth 64 = _
    have hget : ymmLanes.get ⟨xmmOfBytes bytes, high⟩ i = xmmLanes.get (xmmOfBytes bytes) i :=
      if_pos hlane
    rw [hget, xmmLanes_ofBytes bytes hlane]
    rfl
  | true =>
    have hlane : i < 2 := hi
    show ymmPdLanes.get ⟨xmmOfBytes bytes, high⟩ i = _
    have hget : ymmPdLanes.get ⟨xmmOfBytes bytes, high⟩ i = xmmPdLanes.get (xmmOfBytes bytes) i :=
      if_pos hlane
    rw [hget, xmmPdLanes_ofBytes bytes hlane]
    exact (BitVec.setWidth_eq _).symm

/-- The elements of two blocks. -/
theorem laneValue_blocks (wide : Bool) {first second : List U8} (hlength : first.length = 16) {i : ℕ}
    (hi : i < laneCount wide true) :
    laneValue wide ⟨xmmOfBytes first, xmmOfBytes second⟩ i =
      (field (8 * laneSize wide) (first ++ second) (i * laneSize wide)).setWidth 64 := by
  by_cases hlow : i < laneCount wide false
  · rw [laneValue_block wide first _ hlow, (field_append first second _).1]
    rw [hlength]
    cases wide <;> simp [laneCount, laneSize] at hlow ⊢ <;> omega
  · obtain ⟨k, rfl⟩ := Nat.exists_eq_add_of_le (Nat.le_of_not_lt hlow)
    have hk : k < laneCount wide false := by
      cases wide <;> simp [laneCount] at hi ⊢ <;> omega
    have hhigh : laneValue wide ⟨xmmOfBytes first, xmmOfBytes second⟩ (laneCount wide false + k) =
        laneValue wide ⟨xmmOfBytes second, .zero⟩ k := by
      cases wide with
      | false =>
        have hlane : k < 4 := hk
        show (ymmLanes.get _ (4 + k)).setWidth 64 = (ymmLanes.get _ k).setWidth 64
        unfold ymmLanes Lanes.double
        have hcount : xmmLanes.count = 4 := rfl
        simp only [hcount, hlane, if_true, show ¬4 + k < 4 by omega, if_false,
          Nat.add_sub_cancel_left]
      | true =>
        have hlane : k < 2 := hk
        show ymmPdLanes.get _ (2 + k) = ymmPdLanes.get _ k
        unfold ymmPdLanes Lanes.double
        have hcount : xmmPdLanes.count = 2 := rfl
        simp only [hcount, hlane, if_true, show ¬2 + k < 2 by omega, if_false,
          Nat.add_sub_cancel_left]
    have hoffset : (laneCount wide false + k) * laneSize wide =
        first.length + k * laneSize wide := by
      rw [hlength, Nat.add_mul]
      cases wide <;> rfl
    rw [hhigh, laneValue_block wide second _ hk, hoffset, (field_append first second _).2]

/-! ## Vectors in memory -/

theorem run_readYmmMemory (hm : ManagerOk cpu.memory) (hexc : cpu.context.hasException = false)
    {whole : List HostPtr} (h : cpu.operandPtrs false address 32 0 = .ok whole) :
    (readYmmMemory address).run viewOp cpu =
      (⟨xmmOfBytes ((hostBytes cpu.memory.host whole).take 16),
        xmmOfBytes ((hostBytes cpu.memory.host whole).drop 16)⟩, cpu) := by
  have htake : (whole.drop 0).take 16 = whole.take 16 := rfl
  have hzero : address + BitVec.ofNat 64 0 = address := BitVec.add_zero address
  have hfirst := operandPtrs_part (m := 0) (n := 16) h (by decide)
  have hsecond := operandPtrs_part (m := 16) (n := 16) h (by decide)
  have hrest : (whole.drop 16).take 16 = whole.drop 16 := by
    refine List.take_of_length_le ?_
    rw [List.length_drop, operandPtrs_length 32 h]
  rw [hzero, htake] at hfirst
  rw [hrest] at hsecond
  have hlow := run_readXmmMemory hm hexc address
  have hhigh := run_readXmmMemory hm hexc (address + BitVec.ofNat 64 16)
  rw [hfirst] at hlow
  rw [hsecond] at hhigh
  have hread : readYmmMemory address = (readXmmMemory address >>= fun low =>
    readXmmMemory (address + BitVec.ofNat 64 16) >>= fun high =>
      pure { low := low, high := high }) := rfl
  have htakeBytes : hostBytes cpu.memory.host (whole.take 16) =
      (hostBytes cpu.memory.host whole).take 16 := List.map_take
  have hdropBytes : hostBytes cpu.memory.host (whole.drop 16) =
      (hostBytes cpu.memory.host whole).drop 16 := List.map_drop
  rw [hread, Program.run_bind, hlow, Program.run_bind, hhigh, ← htakeBytes, ← hdropBytes]
  rfl

/-- The elements of 32 bytes that can be read. -/
theorem laneValue_ymmMemory (wide : Bool) {whole : List HostPtr}
    (h : cpu.operandPtrs false address 32 0 = .ok whole) {i : ℕ} (hi : i < laneCount wide true) :
    laneValue wide ⟨xmmOfBytes ((hostBytes cpu.memory.host whole).take 16),
        xmmOfBytes ((hostBytes cpu.memory.host whole).drop 16)⟩ i =
      cpu.loadedLane (laneSize wide) (address + BitVec.ofNat 64 (i * laneSize wide)) := by
  have hlength : ((hostBytes cpu.memory.host whole).take 16).length = 16 := by
    rw [List.length_take, hostBytes_length, operandPtrs_length 32 h]
    rfl
  have hle : i * laneSize wide + laneSize wide ≤ 32 := by
    cases wide <;> simp [laneCount, laneSize] at hi ⊢ <;> omega
  rw [laneValue_blocks wide hlength hi, List.take_append_drop, loadedLane_vector h hle]

/-- The elements of 16 bytes that can be read. -/
theorem laneValue_xmmMemory (wide : Bool) {whole : List HostPtr} (high : XMMRegister)
    (h : cpu.operandPtrs false address 16 0 = .ok whole) {i : ℕ} (hi : i < laneCount wide false) :
    laneValue wide ⟨xmmOfBytes (hostBytes cpu.memory.host whole), high⟩ i =
      cpu.loadedLane (laneSize wide) (address + BitVec.ofNat 64 (i * laneSize wide)) := by
  have hle : i * laneSize wide + laneSize wide ≤ 16 := by
    cases wide <;> simp [laneCount, laneSize] at hi ⊢ <;> omega
  rw [laneValue_block wide _ high hi, loadedLane_vector h hle]

/-! ## Choosing lanes -/

theorem maskedLanes_get {V : Type} {w : ℕ} (lanes : Lanes V w) (test : BitVec w → Bool)
    (zero mask source : V) {i : ℕ} (hi : i < lanes.count) :
    lanes.get (maskedLanes lanes test zero mask source) i =
      if test (lanes.get mask i) then lanes.get source i else lanes.get zero i := by
  rw [maskedLanes, lanes.get_fill _ _ _ _ _ (by omega) hi]
  simp [hi]

/-- The lanes of the lower half of a register. -/
theorem ymm_low (value : AVXRegister256) {i : ℕ} :
    (i < 4 → ymmLanes.get value i = xmmLanes.get value.low i) ∧
      (i < 2 → ymmPdLanes.get value i = xmmPdLanes.get value.low i) :=
  ⟨fun h => if_pos h, fun h => if_pos h⟩

theorem xmmLanes_zero (i : ℕ) : xmmLanes.get .zero i = 0 := by
  match i with
  | 0 | 1 | 2 | _ + 3 => rfl

theorem ymmLanes_zero (i : ℕ) : ymmLanes.get .zero i = 0 := by
  show (if i < 4 then xmmLanes.get .zero i else xmmLanes.get .zero (i - 4)) = 0
  rw [xmmLanes_zero, xmmLanes_zero, ite_self]

theorem ymmPdLanes_zero (i : ℕ) : ymmPdLanes.get .zero i = 0 := by
  have hzero : ∀ i, xmmPdLanes.get .zero i = 0 := fun i => ite_self _
  show (if i < 2 then xmmPdLanes.get .zero i else xmmPdLanes.get .zero (i - 2)) = 0
  rw [hzero, hzero, ite_self]

/-- A function that chooses the lanes of a 256-bit vector. -/
def Chooses256 (wide : Bool) (f : AVXRegister256 → AVXRegister256 → AVXRegister256) : Prop :=
  ∀ mask source, ∀ i < laneCount wide true,
    laneValue wide (f mask source) i = if laneMask wide mask i then laneValue wide source i else 0

/-- A function that chooses the lanes of a 128-bit vector. -/
def Chooses128 (wide : Bool) (f : XMMRegister → XMMRegister → XMMRegister) : Prop :=
  ∀ mask source : AVXRegister256, ∀ i < laneCount wide false,
    laneValue wide ⟨f mask.low source.low, .zero⟩ i =
      if laneMask wide mask i then laneValue wide source i else 0

theorem chooses256_lanes : Chooses256 false (maskedLanes ymmLanes psSelected .zero) := by
  intro mask source i hi
  have hget := maskedLanes_get ymmLanes psSelected .zero mask source (show i < 8 from hi)
  simp only [laneValue, laneMask, Bool.false_eq_true, if_false, hget, psSelected_eq, ymmLanes_zero]
  split_ifs <;> rfl

theorem chooses256_pdLanes : Chooses256 true (maskedLanes ymmPdLanes pdSelected .zero) := by
  intro mask source i hi
  have hget := maskedLanes_get ymmPdLanes pdSelected .zero mask source (show i < 4 from hi)
  simp only [laneValue, laneMask, if_true, hget, pdSelected_eq, ymmPdLanes_zero]

theorem chooses128_lanes : Chooses128 false (maskedLanes xmmLanes psSelected .zero) := by
  intro mask source i hi
  have hlane : i < 4 := hi
  have hget := maskedLanes_get xmmLanes psSelected .zero mask.low source.low (show i < 4 from hi)
  simp only [laneValue, laneMask, Bool.false_eq_true, if_false, (ymm_low _).1 hlane, hget,
    psSelected_eq, xmmLanes_zero]
  split_ifs <;> rfl

theorem chooses128_pd : Chooses128 true applyAvxMaskmovLoadPd128 := by
  intro mask source i hi
  have hlane : i < 2 := hi
  unfold applyAvxMaskmovLoadPd128
  simp only [laneValue, laneMask, if_true, (ymm_low _).2 hlane, pdSelected_eq]
  match i, hlane with
  | 0, _ => rfl
  | 1, _ => rfl

theorem chooses256_pd : Chooses256 true applyAvxMaskmovLoadPd256 := by
  intro mask source i hi
  have hlane : i < 4 := hi
  unfold applyAvxMaskmovLoadPd256 applyAvxMaskmovLoadPd128
  simp only [laneValue, laneMask, if_true, pdSelected_eq]
  match i, hlane with
  | 0, _ => rfl
  | 1, _ => rfl
  | 2, _ => rfl
  | 3, _ => rfl

theorem chooses256_vmaskmov (isPd : Bool) : Chooses256 isPd fun mask source =>
    if isPd then applyAvxMaskmovLoadPd256 mask source else applyAvxMaskmovLoadPs256 mask source := by
  cases isPd
  · exact chooses256_lanes
  · exact chooses256_pd

theorem chooses128_vmaskmov (isPd : Bool) : Chooses128 isPd fun mask source =>
    if isPd then applyAvxMaskmovLoadPd128 mask source else applyAvxMaskmovLoadPs128 mask source := by
  cases isPd
  · exact chooses128_lanes
  · exact chooses128_pd

theorem chooses256_vpmaskmov (isQword : Bool) : Chooses256 isQword fun mask source =>
    applyAvx2PmaskmovLoad256 mask source isQword := by
  cases isQword
  · exact chooses256_lanes
  · exact chooses256_pdLanes

theorem chooses128_vpmaskmov (isQword : Bool) : Chooses128 isQword fun mask source =>
    applyAvx2PmaskmovLoad128 mask source isQword := by
  cases isQword
  · exact chooses128_lanes
  · exact chooses128_pd

/-! ## Loads under a mask -/

theorem getYmm256_setYmm256 (vector : VectorRegisters) (reg : Fin 16) (value : AVXRegister256) :
    (vector.setYmm256 reg value).getYmm256 reg = value := by
  simp [VectorRegisters.setYmm256, VectorRegisters.getYmm256]

theorem getYmm256_setXmm128 (vector : VectorRegisters) (reg : Fin 16) (value : XMMRegister) :
    ((vector.setXmm128 reg value).clearYmmUpper128 reg).getYmm256 reg = ⟨value, .zero⟩ := by
  simp [VectorRegisters.setXmm128, VectorRegisters.clearYmmUpper128, VectorRegisters.getYmm256]

/-- A load of 256 bits under a mask. -/
theorem run_load256 {wide : Bool} {f : AVXRegister256 → AVXRegister256 → AVXRegister256}
    (hf : Chooses256 wide f) (hm : ManagerOk cpu.memory) (hexc : cpu.context.hasException = false)
    {whole : List HostPtr} (h : cpu.operandPtrs false address 32 0 = .ok whole)
    (reg maskReg : Fin 16) {g : AVXRegister256 → VectorRegisters → VectorRegisters}
    (hg : ∀ value, (g value cpu.context.vector).getYmm256 reg =
      f (cpu.context.vector.getYmm256 maskReg) value) {after : Cpu}
    (hafter : ((readYmmMemory address >>= fun value => modifyVector (g value)).run viewOp cpu).2 =
      after) :
    after.memory.host = cpu.memory.host ∧
      ∀ i < laneCount wide true, laneValue wide (after.context.vector.getYmm256 reg) i =
        if laneMask wide (cpu.context.vector.getYmm256 maskReg) i then
          cpu.loadedLane (laneSize wide) (address + BitVec.ofNat 64 (i * laneSize wide))
        else 0 := by
  rw [Program.run_bind, run_readYmmMemory hm hexc h, run_modifyVector] at hafter
  subst hafter
  refine ⟨rfl, fun i hi => ?_⟩
  rw [hg, hf _ _ i hi, laneValue_ymmMemory wide h hi]

/-- A load of 128 bits under a mask. -/
theorem run_load128 {wide : Bool} {f : XMMRegister → XMMRegister → XMMRegister}
    (hf : Chooses128 wide f) (hm : ManagerOk cpu.memory) (hexc : cpu.context.hasException = false)
    {whole : List HostPtr} (h : cpu.operandPtrs false address 16 0 = .ok whole)
    (reg maskReg : Fin 16) {g : XMMRegister → VectorRegisters → VectorRegisters}
    (hg : ∀ value, (g value cpu.context.vector).getYmm256 reg =
      ⟨f (cpu.context.vector.xmm maskReg) value, .zero⟩) {after : Cpu}
    (hafter : ((readXmmMemory address >>= fun value => modifyVector (g value)).run viewOp cpu).2 =
      after) :
    after.memory.host = cpu.memory.host ∧
      ∀ i < laneCount wide false, laneValue wide (after.context.vector.getYmm256 reg) i =
        if laneMask wide (cpu.context.vector.getYmm256 maskReg) i then
          cpu.loadedLane (laneSize wide) (address + BitVec.ofNat 64 (i * laneSize wide))
        else 0 := by
  have hread := run_readXmmMemory hm hexc address
  rw [h] at hread
  rw [Program.run_bind, hread, run_modifyVector] at hafter
  subst hafter
  refine ⟨rfl, fun i hi => ?_⟩
  have hchosen := hf (cpu.context.vector.getYmm256 maskReg)
    ⟨xmmOfBytes (hostBytes cpu.memory.host whole), .zero⟩ i hi
  rw [laneValue_xmmMemory wide _ h hi] at hchosen
  rw [hg]
  exact hchosen

/-- A covered load whose selected bytes are all granted reads the vector as a whole. -/
theorem whole_of_covered {n count : ℕ} {selected : ℕ → Bool} (hsize : 0 < size)
    (hcount : count * size = 16 * n) (hn : n < 2 ^ 32) {ptrs : List HostPtr}
    (hcovered : LoadCovered cpu address n size (vectorLanes size address selected count))
    (hptrs : cpu.lanePtrs false size (vectorLanes size address selected count) = .ok ptrs) :
    ∃ whole, cpu.operandPtrs false address (16 * n) 0 = .ok whole := by
  cases htotal : cpu.operandPtrs false address (16 * n) 0 with
  | ok whole => exact ⟨whole, rfl⟩
  | error b =>
    have hmem := ((loadCovered_iff hsize hcount hn).mp hcovered).1 b htotal
    exact absurd (operandPtrs_error_range htotal).2 (lanePtrs_ok_granted hptrs hmem)

namespace MaskedInst

/-- What an instruction leaves depends on the host memory and the registers. -/
theorem Done.congr {inst : MaskedInst} {before after after' : Cpu} (h : inst.Done before after)
    (hhost : after'.memory.host = after.memory.host)
    (hvector : after'.context.vector = after.context.vector) : inst.Done before after' := by
  unfold Done at h ⊢
  rw [hhost, hvector]
  exact h

/-- A legal instruction, past the page cache. -/
theorem keeps_of_viewOp {inst : MaskedInst} (hm : MemoryOk cpu.memory)
    (hlegal : inst.legal cpu.context = true)
    (haccess : LaneAccess viewOp cpu inst.isStore inst.size (inst.lanes cpu.context) inst.program)
    (hdone : ∀ ptrs, cpu.lanePtrs inst.isStore inst.size (inst.lanes cpu.context) = .ok ptrs →
      inst.Done cpu (inst.program.run viewOp cpu).2) : inst.Keeps cpu where
  access _ := (LaneAccess.iff_viewOp hm).mpr haccess
  done _ ptrs hptrs := (hdone ptrs hptrs).congr (run_viewOp inst.program hm).2.host_eq
    (congrArg CpuContext.vector (run_viewOp inst.program hm).2.context_eq)
  undefined h := absurd (hlegal.symm.trans h) (by decide)

/-- The lanes of a vector, from the address of its first lane. -/
theorem vectorLanes_first (size : ℕ) (a : U64) (selected : ℕ → Bool) (count : ℕ) :
    lanesFrom selected (fun i => a + BitVec.ofNat 64 (i * size)) count 0 =
      vectorLanes size (a + BitVec.ofNat 64 (0 * size)) selected count := by
  rw [Nat.zero_mul, show a + BitVec.ofNat 64 0 = a from BitVec.add_zero a]
  rfl

theorem quiet_getContext (cpu : Cpu) : QuietTrace (getContext.calls viewOp cpu) :=
  ⟨rfl, rfl, rfl, rfl⟩

theorem direct_getContext : getContext.Within CpuOp.Direct := within_perform trivial

/-- A load that reads the vector and then changes the registers, behind a part that touches
nothing. -/
theorem keeps_load_of {α β : Type} {inst : MaskedInst} {q : CpuProgram β} {b : β}
    {p : CpuProgram α} {g : β → α → VectorRegisters → VectorRegisters}
    (hm : MemoryOk cpu.memory) (hexc : cpu.context.hasException = false)
    (hload : inst.isMaskedLoad = true) (hlegal : inst.legal cpu.context = true)
    (hstore : inst.isStore = false)
    (hprogram : inst.program = (q >>= fun b => p >>= fun value => modifyVector (g b value)))
    (hrun : q.run viewOp cpu = (b, cpu)) (hquiet : QuietTrace (q.calls viewOp cpu))
    (hdirect : q.Within CpuOp.Direct)
    (hread : VectorRead cpu (inst.address cpu.context 0) inst.blocks p)
    (hlanes : inst.lanes cpu.context = vectorLanes inst.size (inst.address cpu.context 0)
      (inst.selected cpu.context) inst.count)
    (hsize : 0 < inst.size) (hcount : inst.count * inst.size = 16 * inst.blocks)
    (hblocks : inst.blocks < 2 ^ 32)
    (hdone : ∀ whole,
      cpu.operandPtrs false (inst.address cpu.context 0) (16 * inst.blocks) 0 = .ok whole →
      inst.Done cpu ((p >>= fun value => modifyVector (g b value)).run viewOp cpu).2) :
    inst.Keeps cpu ↔ inst.Covered cpu := by
  have haccess : LaneAccess viewOp cpu inst.isStore inst.size (inst.lanes cpu.context)
      inst.program ↔ LoadCovered cpu (inst.address cpu.context 0) inst.blocks inst.size
        (inst.lanes cpu.context) := by
    rw [hprogram, laneAccess_behind hrun hquiet hdirect, hstore, hlanes]
    exact laneAccess_load_iff hexc hread (g b) hsize hcount hblocks
  constructor
  · intro h _
    exact haccess.mp ((LaneAccess.iff_viewOp hm).mp (h.access hlegal))
  · intro h
    refine keeps_of_viewOp hm hlegal (haccess.mpr (h hload)) fun ptrs hptrs => ?_
    have hcovered := h hload
    rw [hlanes] at hcovered hptrs
    rw [hstore] at hptrs
    obtain ⟨whole, hwhole⟩ := whole_of_covered hsize hcount hblocks hcovered hptrs
    rw [hprogram, Program.run_bind, hrun]
    exact hdone whole hwhole

/-- **A load under a mask** keeps to the selected lanes exactly if it is covered. -/
theorem keeps_load {inst : MaskedInst} (hm : MemoryOk cpu.memory)
    (hexc : cpu.context.hasException = false) (hload : inst.isMaskedLoad = true) :
    inst.Keeps cpu ↔ inst.Covered cpu := by
  have hzero : ∀ (a : U64) (wide : Bool), a + BitVec.ofNat 64 (0 * laneSize wide) = a := by
    intro a wide
    rw [Nat.zero_mul]
    exact BitVec.add_zero a
  have hpositive : ∀ wide, 0 < laneSize wide := by decide
  have hwidth : ∀ wide is256, laneCount wide is256 * laneSize wide =
      16 * if is256 then 2 else 1 := by decide
  have hpure : (pure () : CpuProgram Unit).run viewOp cpu = ((), cpu) := rfl
  have hget : getContext.run viewOp cpu = (cpu.context, cpu) := rfl
  -- the two loads in both widths; they differ in how they choose the lanes
  cases inst with
  | vmaskmov isPd is256 isStore reg maskReg a =>
    obtain rfl : isStore = false := by simpa [isMaskedLoad] using hload
    have hlanes := vectorLanes_first (laneSize isPd) a
      ((vmaskmov isPd is256 false reg maskReg a).selected cpu.context) (laneCount isPd is256)
    cases is256 with
    | true =>
      refine keeps_load_of hm hexc hload rfl rfl (q := pure ()) (p := readYmmMemory a)
        (g := fun _ value vector => vector.setYmm256 reg (if isPd then
          applyAvxMaskmovLoadPd256 (vector.getYmm256 maskReg) value
          else applyAvxMaskmovLoadPs256 (vector.getYmm256 maskReg) value)) rfl hpure
        QuietTrace.nil (within_pure _) ?_ hlanes (hpositive isPd) (hwidth isPd true)
        (show 2 < 2 ^ 32 by decide) fun whole hwhole => ?_
      · show VectorRead cpu (a + BitVec.ofNat 64 (0 * laneSize isPd)) 2 _
        rw [hzero]
        exact vectorRead_ymm hm.manager hexc a
      · change cpu.operandPtrs false (a + BitVec.ofNat 64 (0 * laneSize isPd)) 32 0 = _ at hwhole
        rw [hzero] at hwhole
        exact run_load256 (chooses256_vmaskmov isPd) hm.manager hexc hwhole reg maskReg
          (fun value => getYmm256_setYmm256 _ _ _) rfl
    | false =>
      refine keeps_load_of hm hexc hload rfl rfl (q := pure ()) (p := readXmmMemory a)
        (g := fun _ value vector => (vector.setXmm128 reg (if isPd then
          applyAvxMaskmovLoadPd128 (vector.xmm maskReg) value
          else applyAvxMaskmovLoadPs128 (vector.xmm maskReg) value)).clearYmmUpper128 reg) rfl hpure
        QuietTrace.nil (within_pure _) ?_ hlanes (hpositive isPd) (hwidth isPd false)
        (show 1 < 2 ^ 32 by decide) fun whole hwhole => ?_
      · show VectorRead cpu (a + BitVec.ofNat 64 (0 * laneSize isPd)) 1 _
        rw [hzero]
        exact vectorRead_xmm hm.manager hexc a
      · change cpu.operandPtrs false (a + BitVec.ofNat 64 (0 * laneSize isPd)) 16 0 = _ at hwhole
        rw [hzero] at hwhole
        exact run_load128 (chooses128_vmaskmov isPd) hm.manager hexc hwhole reg maskReg
          (fun value => getYmm256_setXmm128 _ _ _) rfl
  | vpmaskmov isQword is256 isStore reg maskReg a =>
    obtain rfl : isStore = false := by simpa [isMaskedLoad] using hload
    have hlanes := vectorLanes_first (laneSize isQword) a
      ((vpmaskmov isQword is256 false reg maskReg a).selected cpu.context) (laneCount isQword is256)
    cases is256 with
    | true =>
      refine keeps_load_of hm hexc hload rfl rfl (q := getContext) (p := readYmmMemory a)
        (g := fun ctx value vector => vector.setYmm256 reg
          (applyAvx2PmaskmovLoad256 (ctx.vector.getYmm256 maskReg) value isQword)) rfl hget
        (quiet_getContext cpu) direct_getContext ?_ hlanes (hpositive isQword) (hwidth isQword true)
        (show 2 < 2 ^ 32 by decide) fun whole hwhole => ?_
      · show VectorRead cpu (a + BitVec.ofNat 64 (0 * laneSize isQword)) 2 _
        rw [hzero]
        exact vectorRead_ymm hm.manager hexc a
      · change cpu.operandPtrs false (a + BitVec.ofNat 64 (0 * laneSize isQword)) 32 0 = _ at hwhole
        rw [hzero] at hwhole
        exact run_load256 (chooses256_vpmaskmov isQword) hm.manager hexc hwhole reg maskReg
          (fun value => getYmm256_setYmm256 _ _ _) rfl
    | false =>
      refine keeps_load_of hm hexc hload rfl rfl (q := getContext) (p := readXmmMemory a)
        (g := fun ctx value vector => (vector.setXmm128 reg
          (applyAvx2PmaskmovLoad128 (ctx.vector.xmm maskReg) value isQword)).clearYmmUpper128 reg)
        rfl hget (quiet_getContext cpu) direct_getContext ?_ hlanes (hpositive isQword)
        (hwidth isQword false) (show 1 < 2 ^ 32 by decide) fun whole hwhole => ?_
      · show VectorRead cpu (a + BitVec.ofNat 64 (0 * laneSize isQword)) 1 _
        rw [hzero]
        exact vectorRead_xmm hm.manager hexc a
      · change cpu.operandPtrs false (a + BitVec.ofNat 64 (0 * laneSize isQword)) 16 0 = _ at hwhole
        rw [hzero] at hwhole
        exact run_load128 (chooses128_vpmaskmov isQword) hm.manager hexc hwhole reg maskReg
          (fun value => getYmm256_setXmm128 _ _ _) rfl
  | maskmovdqu src mask addressSize => cases hload
  | gather index64 isPd is256 maskReg inst => cases hload

/-! ## Stores under a mask -/

/-- The lanes of numbered elements. -/
theorem elementLanes_range (size : ℕ) (a : U64) (selected : ℕ → Bool) (value : ℕ → U64) (count : ℕ) :
    elementLanes size a ((List.range count).map fun i => (selected i, value i)) 0 =
      vectorLanes size a selected count := by
  have hfrom : ∀ left i, elementLanes size a ((List.range' i left).map fun i =>
      (selected i, value i)) i =
        lanesFrom selected (fun i => a + BitVec.ofNat 64 (i * size)) left i := by
    intro left
    induction left with
    | zero => exact fun _ => rfl
    | succ left ih => exact fun i => congrArg (_ :: ·) (ih (i + 1))
  rw [List.range_eq_range']
  exact hfrom count 0

/-- A store of the elements of a register. -/
theorem keeps_store_of {inst : MaskedInst} (hm : MemoryOk cpu.memory)
    (hexc : cpu.context.hasException = false) (hlegal : inst.legal cpu.context = true)
    (hstore : inst.isStore = true)
    (hrun : inst.program = (getContext >>= fun ctx => writeMaskedElements inst.size
      (inst.address ctx 0) ((List.range inst.count).map fun i =>
        (inst.selected ctx i, inst.stored ctx i))))
    (hlanes : inst.lanes cpu.context = vectorLanes inst.size (inst.address cpu.context 0)
      (inst.selected cpu.context) inst.count) : inst.Keeps cpu := by
  have hget : getContext.run viewOp cpu = (cpu.context, cpu) := rfl
  have helements := elementLanes_range inst.size (inst.address cpu.context 0)
    (inst.selected cpu.context) (inst.stored cpu.context) inst.count
  refine keeps_of_viewOp hm hlegal ?_ fun ptrs hptrs => ?_
  · rw [hrun, laneAccess_behind hget (quiet_getContext cpu) direct_getContext, hstore, hlanes,
      ← helements]
    exact laneAccess_writeMaskedElements hexc _ _ _
  · unfold Done
    rw [if_pos hstore, hrun, Program.run_bind, hget, run_writeMaskedElements hexc, helements,
      ← hlanes]
    rw [hstore] at hptrs
    intro ptrs' hptrs'
    obtain rfl := Except.ok.inj (hptrs.symm.trans hptrs')
    simp only [hptrs]
    exact ⟨rfl, fun p hp => read_commitHost ptrs _ _ hp⟩

end MaskedInst

/-- The elements of the registers of a store. -/
theorem maskedElements_ymm (mask source : AVXRegister256) :
    maskedElements ymmLanes psSelected mask source =
      (List.range 8).map fun i => (laneMask false mask i, laneValue false source i) := by
  unfold maskedElements laneMask laneValue
  simp only [psSelected_eq, Bool.false_eq_true, if_false]
  rfl

theorem maskedElements_ymmPd (mask source : AVXRegister256) :
    maskedElements ymmPdLanes pdSelected mask source =
      (List.range 4).map fun i => (laneMask true mask i, laneValue true source i) := by
  unfold maskedElements laneMask laneValue
  simp only [pdSelected_eq, if_true, BitVec.setWidth_eq]
  rfl

theorem maskedElements_xmm (mask source : AVXRegister256) :
    maskedElements xmmLanes psSelected mask.low source.low =
      (List.range 4).map fun i => (laneMask false mask i, laneValue false source i) := by
  unfold maskedElements laneMask laneValue
  simp only [psSelected_eq, Bool.false_eq_true, if_false]
  refine List.map_congr_left fun i hi => ?_
  have hlane : i < 4 := List.mem_range.mp hi
  rw [(ymm_low mask).1 hlane, (ymm_low source).1 hlane]

theorem maskedElements_pd128 (mask source : AVXRegister256) :
    [(pdSelected mask.low.low, source.low.low), (pdSelected mask.low.high, source.low.high)] =
      (List.range 2).map fun i => (laneMask true mask i, laneValue true source i) := by
  simp only [pdSelected_eq]
  rfl

theorem maskedElements_pd256 (mask source : AVXRegister256) :
    [(pdSelected mask.low.low, source.low.low), (pdSelected mask.low.high, source.low.high),
        (pdSelected mask.high.low, source.high.low), (pdSelected mask.high.high, source.high.high)] =
      (List.range 4).map fun i => (laneMask true mask i, laneValue true source i) := by
  simp only [pdSelected_eq]
  rfl

theorem maskmovdquElements_eq (src mask : XMMRegister) : maskmovdquElements src mask =
    (List.range 16).map fun i => ((xmmByte mask i).msb, (xmmByte src i).setWidth 64) := by
  have hlength : ∀ value, (xmmToBytes value).length = 16 := by
    intro value
    simp [xmmToBytes]
  have hmsb : ∀ byte : U8, (byte &&& 0x80 != 0) = byte.msb := by decide
  unfold maskmovdquElements
  simp only [hmsb]
  refine List.ext_getElem (by simp [hlength]) fun i hi hi' => ?_
  have hbound : i < 16 := by simpa [hlength] using hi
  simp [xmmByte, hlength, hbound]

namespace MaskedInst

/-- **A store under a mask** keeps to the selected lanes. -/
theorem keeps_store {inst : MaskedInst} (hm : MemoryOk cpu.memory)
    (hexc : cpu.context.hasException = false) (hstore : inst.isStore = true) : inst.Keeps cpu := by
  have hzero : ∀ (a : U64) (n : ℕ), a + BitVec.ofNat 64 (0 * n) = a := by
    intro a n
    rw [Nat.zero_mul]
    exact BitVec.add_zero a
  cases inst with
  | vmaskmov isPd is256 isStore reg maskReg a =>
    obtain rfl : isStore = true := hstore
    refine keeps_store_of hm hexc rfl rfl ?_ ?_
    · unfold program executeVmaskmov address
      simp only [Bool.not_true, Bool.false_eq_true, if_false, hzero]
      refine congrArg (getContext >>= ·) (funext fun ctx => ?_)
      cases is256 <;> cases isPd
      · exact congrArg (writeMaskedElements 4 a) (maskedElements_xmm (ctx.vector.getYmm256 maskReg)
          (ctx.vector.getYmm256 reg))
      · exact congrArg (writeMaskedElements 8 a) (maskedElements_pd128
          (ctx.vector.getYmm256 maskReg) (ctx.vector.getYmm256 reg))
      · exact congrArg (writeMaskedElements 4 a) (maskedElements_ymm (ctx.vector.getYmm256 maskReg)
          (ctx.vector.getYmm256 reg))
      · exact congrArg (writeMaskedElements 8 a) (maskedElements_pd256
          (ctx.vector.getYmm256 maskReg) (ctx.vector.getYmm256 reg))
    · exact vectorLanes_first _ _ _ _
  | vpmaskmov isQword is256 isStore reg maskReg a =>
    obtain rfl : isStore = true := hstore
    refine keeps_store_of hm hexc rfl rfl ?_ ?_
    · unfold program executeVpmaskmov address
      simp only [Bool.not_true, Bool.false_eq_true, if_false, hzero]
      refine congrArg (getContext >>= ·) (funext fun ctx => ?_)
      cases is256 <;> cases isQword
      · exact congrArg (writeMaskedElements 4 a) (maskedElements_xmm (ctx.vector.getYmm256 maskReg)
          (ctx.vector.getYmm256 reg))
      · exact congrArg (writeMaskedElements 8 a) (maskedElements_pd128
          (ctx.vector.getYmm256 maskReg) (ctx.vector.getYmm256 reg))
      · exact congrArg (writeMaskedElements 4 a) (maskedElements_ymm (ctx.vector.getYmm256 maskReg)
          (ctx.vector.getYmm256 reg))
      · exact congrArg (writeMaskedElements 8 a) (maskedElements_ymmPd
          (ctx.vector.getYmm256 maskReg) (ctx.vector.getYmm256 reg))
    · exact vectorLanes_first _ _ _ _
  | maskmovdqu src mask addressSize =>
    refine keeps_store_of hm hexc rfl rfl ?_ ?_
    · unfold program executeMaskmovdqu address
      simp only [hzero, maskmovdquElements_eq]
      rfl
    · exact vectorLanes_first _ _ _ _
  | gather index64 isPd is256 maskReg inst => cases hstore

end MaskedInst

/-! ## Gathers -/

theorem lanesFrom_congr {selected selected' : ℕ → Bool} {laneAddress laneAddress' : ℕ → U64}
    (left : ℕ) : ∀ {i : ℕ}, (∀ j < i + left, selected j = selected' j ∧
      laneAddress j = laneAddress' j) →
    lanesFrom selected laneAddress left i = lanesFrom selected' laneAddress' left i := by
  induction left with
  | zero => exact fun _ => rfl
  | succ left ih =>
    intro i h
    rw [lanesFrom, lanesFrom, (h i (by omega)).1, (h i (by omega)).2,
      ih fun j hj => h j (by omega)]

/-- A loaded value fits in its lane. -/
theorem loadedLane_setWidth (cpu : Cpu) (a : U64) {size w : ℕ} (hw : w = 8 * size) :
    ((cpu.loadedLane size a).setWidth w).setWidth 64 = cpu.loadedLane size a := by
  have hlt : (cpu.loadedLane size a).toNat < 2 ^ (8 * size) := by
    unfold Cpu.loadedLane
    cases hptrs : cpu.operandPtrs false a size 0 with
    | error b => exact Nat.two_pow_pos _
    | ok ptrs =>
      have hlength := loadValue_lt cpu.memory.host ptrs
      rwa [operandPtrs_length size hptrs] at hlength
  refine BitVec.eq_of_toNat_eq ?_
  rw [BitVec.toNat_setWidth, BitVec.toNat_setWidth, hw, Nat.mod_eq_of_lt hlt]
  exact Nat.mod_eq_of_lt (cpu.loadedLane size a).isLt

namespace MaskedInst

section Gather

variable {V : Type} {w : ℕ} {index64 isPd is256 : Bool} {maskReg : Fin 16} {operand : MemOperand}

/-- The code of a gather: its checks, the loop over the lanes, and the registers behind it. -/
structure GatherCode (V : Type) (w : ℕ) where
  lanes : Lanes V w
  selected : CpuContext → ℕ → Bool
  address : CpuContext → ℕ → U64
  start : CpuContext → V
  finish : CpuContext → V → VectorRegisters → VectorRegisters

/-- The program of a gather. -/
def GatherCode.program (code : GatherCode V w) (maskReg : Fin 16) (operand : MemOperand)
    (size count : ℕ) : CpuProgram Unit := do
  validateAvxGatherOperands maskReg operand
  let ctx ← getContext
  let result ← gatherLoop code.lanes size (code.selected ctx) (code.address ctx) count 0
    (code.start ctx)
  modifyVector (code.finish ctx result)

/-- The code fits the lanes of its instruction. -/
structure GatherCode.Fits (code : GatherCode V w) (index64 isPd is256 : Bool) (maskReg : Fin 16)
    (operand : MemOperand) (ctx : CpuContext) : Prop where
  width : w = 8 * laneSize isPd
  count_le : laneCount (index64 || isPd) is256 ≤ code.lanes.count
  selected_eq : ∀ i < laneCount (index64 || isPd) is256, code.selected ctx i =
    (gather index64 isPd is256 maskReg operand).selected ctx i
  address_eq : ∀ i < laneCount (index64 || isPd) is256, code.address ctx i =
    (gather index64 isPd is256 maskReg operand).address ctx i
  start_eq : ∀ i < laneCount (index64 || isPd) is256,
    (code.lanes.get (code.start ctx) i).setWidth 64 =
      (gather index64 isPd is256 maskReg operand).destination ctx ctx.vector i
  finish_eq : gatherLegal ctx maskReg operand = true → ∀ result,
    ∀ i < laneCount (index64 || isPd) is256,
      (gather index64 isPd is256 maskReg operand).destination ctx
        (code.finish ctx result ctx.vector) i = (code.lanes.get result i).setWidth 64

/-- A gather whose code fits keeps to the selected lanes. -/
theorem keeps_gather_of (code : GatherCode V w) (hm : MemoryOk cpu.memory)
    (hexc : cpu.context.hasException = false)
    (hprogram : (gather index64 isPd is256 maskReg operand).program =
      code.program maskReg operand (laneSize isPd) (laneCount (index64 || isPd) is256))
    (hfits : code.Fits index64 isPd is256 maskReg operand cpu.context) :
    (gather index64 isPd is256 maskReg operand).Keeps cpu := by
  have hget : ∀ c : Cpu, getContext.run viewOp c = (c.context, c) := fun _ => rfl
  have hsize : 0 < laneSize isPd := by cases isPd <;> decide
  obtain ⟨hquiet, hlegal, hillegal⟩ := run_validate hexc maskReg operand
  have hlanes : lanesFrom (code.selected cpu.context) (code.address cpu.context)
      (laneCount (index64 || isPd) is256) 0 =
        (gather index64 isPd is256 maskReg operand).lanes cpu.context :=
    lanesFrom_congr _ fun j hj =>
      ⟨hfits.selected_eq j (by omega), hfits.address_eq j (by omega)⟩
  cases hcheck : gatherLegal cpu.context maskReg operand with
  | true =>
    have hchecked := hlegal hcheck
    refine keeps_of_viewOp hm hcheck ?_ fun ptrs hptrs => ?_
    · rw [hprogram, GatherCode.program, laneAccess_behind hchecked hquiet (direct_validate _ _),
        laneAccess_behind (hget cpu) (quiet_getContext cpu) direct_getContext, ← hlanes]
      exact laneAccess_gather hm.manager hexc hsize code.lanes _ _ _ _ (code.finish cpu.context)
    · have hrun := run_gatherLoop code.lanes _ (code.selected cpu.context) (code.address cpu.context)
        hm.manager hexc hsize (laneCount (index64 || isPd) is256) 0 (code.start cpu.context)
      rw [hlanes] at hrun
      change cpu.lanePtrs false (laneSize isPd) _ = _ at hptrs
      rw [hptrs] at hrun
      rw [hprogram, GatherCode.program, Program.run_bind, hchecked, Program.run_bind, hget,
        Program.run_bind, hrun, run_modifyVector]
      refine ⟨rfl, fun i hi => ?_⟩
      have hi' : i < laneCount (index64 || isPd) is256 := hi
      show (gather index64 isPd is256 maskReg operand).destination cpu.context
        (code.finish cpu.context _ cpu.context.vector) i = _
      have hcount := hfits.count_le
      rw [hfits.finish_eq hcheck _ i hi', code.lanes.get_fill _ _ _ _ _ (by omega) (by omega)]
      have hrange : 0 ≤ i ∧ i < 0 + laneCount (index64 || isPd) is256 := ⟨Nat.zero_le i, by omega⟩
      simp only [hrange, true_and, and_self, hfits.selected_eq i hi', hfits.address_eq i hi']
      split_ifs with hsel
      · exact loadedLane_setWidth cpu _ hfits.width
      · exact hfits.start_eq i hi'
  | false =>
    have hpend := hillegal hcheck
    refine ⟨fun h => absurd (hcheck.symm.trans h) (by decide),
      fun h => absurd (hcheck.symm.trans h) (by decide), fun _ => ?_⟩
    have hcalls := calls_viewOp (fun _ => False)
      (gather index64 isPd is256 maskReg operand).program hm
    have hcontext := (run_viewOp (gather index64 isPd is256 maskReg operand).program hm).2.context_eq
    rw [hcalls.1, hcalls.2, hcontext, hprogram, GatherCode.program]
    -- behind the exception the loop runs on, but touches nothing
    generalize hchecked : (validateAvxGatherOperands maskReg operand).run viewOp cpu = checked at hpend
    obtain ⟨⟨v, hloop⟩, hloopQuiet⟩ := gatherLoop_pending code.lanes (laneSize isPd)
      (code.selected checked.2.context) (code.address checked.2.context) hpend
      (laneCount (index64 || isPd) is256) 0 (code.start checked.2.context)
    refine ⟨?_, ?_, ?_⟩
    · rw [Program.run_bind, hchecked, Program.run_bind, hget, Program.run_bind, hloop,
        run_modifyVector]
      exact hpend
    · rw [calls_bind, hchecked, calls_bind, hget, calls_bind, hloop]
      exact .behind hquiet (.behind (quiet_getContext _)
        (.behind hloopQuiet (quiet_modifyVector _ _)))
    · rw [along_bind, hchecked]
      exact ⟨along_of_direct (direct_validate _ _), along_pending _ hpend⟩

/-- A gather of 256 bits. -/
def gatherCode256 (lanes : Lanes AVXRegister256 w) (test : BitVec w → Bool)
    (index : CpuContext → ℕ → U64) (maskReg : Fin 16) (operand : MemOperand) :
    GatherCode AVXRegister256 w where
  lanes := lanes
  selected ctx i := test (lanes.get (ctx.vector.getYmm256 maskReg) i)
  address ctx := gatherAddress ctx operand (index ctx)
  start ctx := ctx.vector.getYmm256 (avxVexDestIndex ctx operand.modrm)
  finish ctx result vector :=
    gathered256 vector (avxVexDestIndex ctx operand.modrm) maskReg result

/-- A gather of 128 bits. -/
def gatherCode128 (lanes : Lanes XMMRegister w) (test : BitVec w → Bool)
    (index : CpuContext → ℕ → U64) (start : XMMRegister → XMMRegister) (maskReg : Fin 16)
    (operand : MemOperand) : GatherCode XMMRegister w where
  lanes := lanes
  selected ctx i := test (lanes.get (ctx.vector.xmm maskReg) i)
  address ctx := gatherAddress ctx operand (index ctx)
  start ctx := start (ctx.vector.xmm (avxVexDestIndex ctx operand.modrm))
  finish ctx result vector :=
    gathered128 vector (avxVexDestIndex ctx operand.modrm) maskReg result

/-- The destination of a legal gather is not its mask. -/
theorem dest_ne_mask {ctx : CpuContext} (h : gatherLegal ctx maskReg operand = true) :
    avxVexDestIndex ctx operand.modrm ≠ maskReg := by
  intro heq
  simp only [gatherLegal, heq, beq_self_eq_true, Bool.true_or, Bool.not_true, Bool.and_false] at h
  cases h

/-- The lanes of a 256-bit vector under a gather. -/
structure Reads256 (lanes : Lanes AVXRegister256 w) (test : BitVec w → Bool) (isPd : Bool) :
    Prop where
  width : w = 8 * laneSize isPd
  count_le : ∀ index64, laneCount (index64 || isPd) true ≤ lanes.count
  mask_eq : ∀ value i, test (lanes.get value i) = laneMask isPd value i
  value_eq : ∀ value i, (lanes.get value i).setWidth 64 = laneValue isPd value i

/-- The lanes of a 128-bit vector under a gather. -/
structure Reads128 (lanes : Lanes XMMRegister w) (test : BitVec w → Bool)
    (start : XMMRegister → XMMRegister) (isPd : Bool) (count : ℕ) : Prop where
  width : w = 8 * laneSize isPd
  count_le : count ≤ lanes.count
  mask_eq : ∀ (value : AVXRegister256), ∀ i < count,
    test (lanes.get value.low i) = laneMask isPd value i
  value_eq : ∀ (value : AVXRegister256), ∀ i < count,
    (lanes.get value.low i).setWidth 64 = laneValue isPd value i
  start_eq : ∀ value, ∀ i < count, lanes.get (start value) i = lanes.get value i

theorem fits256 {lanes : Lanes AVXRegister256 w} {test : BitVec w → Bool}
    {index : CpuContext → ℕ → U64} {ctx : CpuContext} (h : Reads256 lanes test isPd)
    (hindex : ∀ i < laneCount (index64 || isPd) true,
      index ctx i = MaskedInst.index ctx index64 operand i) :
    (gatherCode256 lanes test index maskReg operand).Fits index64 isPd true maskReg operand ctx where
  width := h.width
  count_le := h.count_le index64
  selected_eq i _ := h.mask_eq _ i
  address_eq i hi := by
    show gatherAddress ctx operand _ i = gatherAddress ctx operand _ i
    rw [gatherAddress, hindex i hi]
    rfl
  start_eq i _ := h.value_eq _ i
  finish_eq hlegal result i _ := by
    have hne := dest_ne_mask hlegal
    have hvalue : (gathered256 ctx.vector (avxVexDestIndex ctx operand.modrm) maskReg
        result).getYmm256 (avxVexDestIndex ctx operand.modrm) = result := by
      simp [gathered256, VectorRegisters.setYmm256, VectorRegisters.getYmm256, hne]
    show laneValue isPd ((gathered256 ctx.vector (avxVexDestIndex ctx operand.modrm) maskReg
      result).getYmm256 (avxVexDestIndex ctx operand.modrm)) i = _
    rw [hvalue]
    exact (h.value_eq _ i).symm

theorem fits128 {lanes : Lanes XMMRegister w} {test : BitVec w → Bool}
    {index : CpuContext → ℕ → U64} {start : XMMRegister → XMMRegister} {ctx : CpuContext}
    (h : Reads128 lanes test start isPd (laneCount (index64 || isPd) is256))
    (hindex : ∀ i < laneCount (index64 || isPd) is256,
      index ctx i = MaskedInst.index ctx index64 operand i) :
    (gatherCode128 lanes test index start maskReg operand).Fits index64 isPd is256 maskReg operand
      ctx where
  width := h.width
  count_le := h.count_le
  selected_eq i hi := h.mask_eq (ctx.vector.getYmm256 maskReg) i hi
  address_eq i hi := by
    show gatherAddress ctx operand _ i = gatherAddress ctx operand _ i
    rw [gatherAddress, hindex i hi]
    rfl
  start_eq i hi := by
    show (lanes.get (start _) i).setWidth 64 = _
    rw [h.start_eq _ i hi]
    exact h.value_eq (ctx.vector.getYmm256 (avxVexDestIndex ctx operand.modrm)) i hi
  finish_eq hlegal result i hi := by
    have hne := dest_ne_mask hlegal
    have hvalue : (gathered128 ctx.vector (avxVexDestIndex ctx operand.modrm) maskReg
        result).getYmm256 (avxVexDestIndex ctx operand.modrm) = ⟨result, .zero⟩ := by
      simp [gathered128, VectorRegisters.setXmm128, VectorRegisters.clearYmmUpper128,
        VectorRegisters.getYmm256, hne]
    show laneValue isPd ((gathered128 ctx.vector (avxVexDestIndex ctx operand.modrm) maskReg
      result).getYmm256 (avxVexDestIndex ctx operand.modrm)) i = _
    rw [hvalue]
    exact (h.value_eq ⟨result, .zero⟩ i hi).symm

end Gather

theorem reads256_ps : Reads256 ymmLanes psSelected false where
  width := rfl
  count_le index64 := by cases index64 <;> decide
  mask_eq value i := psSelected_eq _
  value_eq value i := rfl

theorem reads256_pd : Reads256 ymmPdLanes pdTopBit true where
  width := rfl
  count_le index64 := by cases index64 <;> decide
  mask_eq value i := pdTopBit_eq _
  value_eq value i := BitVec.setWidth_eq _

theorem reads128_ps {start : XMMRegister → XMMRegister} {count : ℕ} (hcount : count ≤ 4)
    (hstart : ∀ value, ∀ i < count, xmmLanes.get (start value) i = xmmLanes.get value i) :
    Reads128 xmmLanes psSelected start false count where
  width := rfl
  count_le := hcount
  mask_eq value i hi := by
    have hlane : i < 4 := by omega
    simp only [laneMask, Bool.false_eq_true, if_false, (ymm_low value).1 hlane, psSelected_eq]
  value_eq value i hi := by
    have hlane : i < 4 := by omega
    simp only [laneValue, Bool.false_eq_true, if_false, (ymm_low value).1 hlane]
  start_eq := hstart

theorem reads128_pd : Reads128 xmmPdLanes pdTopBit id true 2 where
  width := rfl
  count_le := le_refl 2
  mask_eq value i hi := by
    simp only [laneMask, if_true, (ymm_low value).2 hi, pdTopBit_eq]
  value_eq value i hi := by
    simp only [laneValue, if_true, (ymm_low value).2 hi, BitVec.setWidth_eq]
  start_eq value i _ := rfl

/-- **A gather** keeps to the selected lanes. -/
theorem keeps_gather (hm : MemoryOk cpu.memory) (hexc : cpu.context.hasException = false)
    (index64 isPd is256 : Bool) (maskReg : Fin 16) (operand : MemOperand) :
    (gather index64 isPd is256 maskReg operand).Keeps cpu := by
  have hps : ∀ (ctx : CpuContext) (i : ℕ), i < 4 →
      xmmLanes.get (ctx.vector.xmm (vsibIndex ctx operand)) i =
        ymmLanes.get (ctx.vector.getYmm256 (vsibIndex ctx operand)) i :=
    fun ctx i hi => ((ymm_low (ctx.vector.getYmm256 (vsibIndex ctx operand))).1 hi).symm
  have hpd : ∀ (ctx : CpuContext) (i : ℕ), i < 2 →
      xmmPdLanes.get (ctx.vector.xmm (vsibIndex ctx operand)) i =
        ymmPdLanes.get (ctx.vector.getYmm256 (vsibIndex ctx operand)) i :=
    fun ctx i hi => ((ymm_low (ctx.vector.getYmm256 (vsibIndex ctx operand))).2 hi).symm
  -- two lanes of the old destination stay
  have hcleared : ∀ (value : XMMRegister) (i : ℕ), i < 2 →
      xmmLanes.get (setXmmLaneBits (setXmmLaneBits value 2 0) 3 0) i = xmmLanes.get value i := by
    intro value i hi
    match i, hi with
    | 0, _ => rfl
    | 1, _ => rfl
  -- the index of a lane, from the lower half or from both halves of its register
  have hindex32 : ∀ i < 4, (xmmLanes.get (cpu.context.vector.xmm
      (vsibIndex cpu.context operand)) i).signExtend 64 = index cpu.context false operand i :=
    fun i hi => congrArg (BitVec.signExtend 64) (hps cpu.context i hi)
  have hindex64 : ∀ i < 2, xmmPdLanes.get (cpu.context.vector.xmm
      (vsibIndex cpu.context operand)) i = index cpu.context true operand i :=
    fun i hi => hpd cpu.context i hi
  cases index64 <;> cases isPd <;> cases is256
  · exact keeps_gather_of (gatherCode128 xmmLanes psSelected (fun ctx i => (xmmLanes.get
      (ctx.vector.xmm (vsibIndex ctx operand)) i).signExtend 64) id maskReg operand) hm hexc rfl
      (fits128 (reads128_ps (by decide) fun _ _ _ => rfl) hindex32)
  · exact keeps_gather_of (gatherCode256 ymmLanes psSelected (fun ctx i => (ymmLanes.get
      (ctx.vector.getYmm256 (vsibIndex ctx operand)) i).signExtend 64) maskReg operand) hm hexc rfl
      (fits256 reads256_ps fun _ _ => rfl)
  · exact keeps_gather_of (gatherCode128 xmmPdLanes pdTopBit (fun ctx i => (xmmLanes.get
      (ctx.vector.xmm (vsibIndex ctx operand)) i).signExtend 64) id maskReg operand) hm hexc rfl
      (fits128 reads128_pd fun i (hi : i < 2) => hindex32 i (by omega))
  · exact keeps_gather_of (gatherCode256 ymmPdLanes pdTopBit (fun ctx i => (xmmLanes.get
      (ctx.vector.xmm (vsibIndex ctx operand)) i).signExtend 64) maskReg operand) hm hexc rfl
      (fits256 reads256_pd hindex32)
  · exact keeps_gather_of (gatherCode128 xmmLanes psSelected (fun ctx i => xmmPdLanes.get
      (ctx.vector.xmm (vsibIndex ctx operand)) i)
      (fun old => setXmmLaneBits (setXmmLaneBits old 2 0) 3 0) maskReg operand) hm hexc rfl
      (fits128 (reads128_ps (by decide) hcleared) hindex64)
  · exact keeps_gather_of (gatherCode128 xmmLanes psSelected (fun ctx i => ymmPdLanes.get
      (ctx.vector.getYmm256 (vsibIndex ctx operand)) i) id maskReg operand) hm hexc rfl
      (fits128 (reads128_ps (by decide) fun _ _ _ => rfl) fun _ _ => rfl)
  · exact keeps_gather_of (gatherCode128 xmmPdLanes pdTopBit (fun ctx i => xmmPdLanes.get
      (ctx.vector.xmm (vsibIndex ctx operand)) i) id maskReg operand) hm hexc rfl
      (fits128 reads128_pd hindex64)
  · exact keeps_gather_of (gatherCode256 ymmPdLanes pdTopBit (fun ctx i => ymmPdLanes.get
      (ctx.vector.getYmm256 (vsibIndex ctx operand)) i) maskReg operand) hm hexc rfl
      (fits256 reads256_pd fun _ _ => rfl)

end MaskedInst

/-! ## The law -/

/-- A context whose vector registers select the first and the last of four lanes. -/
def partialContext : CpuContext :=
  { initCpuContext false with vector := { (initCpuContext false).vector with
    xmm := fun _ => { low := 0x1234567887654321, high := 0x800000007FFFFFFF } } }

/-- A CPU without memory. -/
def unmappedCpu (ctx : CpuContext) : Cpu where
  context := ctx
  memory := mmInit (.initial (fun _ => 0) fun _ => false)
  hooks := .none
  asked := 0

/-- `[RAX + xmm2]`. -/
def vsibOperand : MemOperand := ⟨64, true, 0x04, true, 0x10, 0⟩

/-- A CPU without memory, all of whose vector registers are zero. -/
def emptyCpu : Cpu := unmappedCpu (initCpuContext false)

end Cpueaxh
