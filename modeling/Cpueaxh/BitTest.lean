/-
# BT, BTS, BTR and BTC

The instructions of `instructions/bt.hpp` behind their decoder.  A bit offset in a register
selects an element of the operand size beside the operand in memory, by a division that rounds
down, and a bit of that element.
-/
import Cpueaxh.AtomicAccess

namespace Cpueaxh

/-! ## Decoded instructions -/

/-- `BitTestOperation`. -/
inductive BitTestOperation where
  | bt | bts | btr | btc
  deriving DecidableEq, Repr

/-- What the execution reads of the decoded instruction.  The decoder gives operand sizes of 16,
32 and 64 bits only, so the default branches of the switches on the size are not reached. -/
structure BitTestInst where
  opcode : U8
  modrm : U8
  operandSize : OperandWidth
  memAddress : U64
  immediate : U64
  hasLockPrefix : Bool
  wide : operandSize ≠ .byte

/-- The operand of the instruction. -/
def BitTestInst.operand (inst : BitTestInst) : RmOperand := ⟨inst.modrm, inst.memAddress⟩

/-- `decode_bt_operation`; `none` raises `#UD`. -/
def decodeBtOperation (opcode modrm : U8) : Option BitTestOperation :=
  if opcode = 0xA3 then some .bt
  else if opcode = 0xAB then some .bts
  else if opcode = 0xB3 then some .btr
  else if opcode = 0xBB then some .btc
  else if opcode = 0xBA then
    if regField modrm = 4 then some .bt
    else if regField modrm = 5 then some .bts
    else if regField modrm = 6 then some .btr
    else if regField modrm = 7 then some .btc
    else none
  else none

/-- `bt_operation_allows_lock`. -/
def btOperationAllowsLock (operation : BitTestOperation) (modrm : U8) : Bool :=
  if operation = .bt then false else modField modrm != 3

/-! ## Offsets -/

/-- `sign_extend_bt_source`. -/
def signExtendBtSource (value : U64) (size : OperandWidth) : U64 :=
  (value.setWidth size.bits).signExtend 64

/-- `floor_div_bt_index`, on `int64_t`. -/
def floorDivBtIndex (value : U64) (divisor : ℕ) : U64 :=
  if 0 ≤ value.toInt then value.sdiv (BitVec.ofNat 64 divisor)
  else
    let magnitude := -(value + 1) + 1;
    -((magnitude + BitVec.ofNat 64 divisor - 1) / BitVec.ofNat 64 divisor)

/-- `add_bt_signed_offset`. -/
def addBtSignedOffset (base byteOffset : U64) : U64 :=
  if 0 ≤ byteOffset.toInt then base + byteOffset else base - -byteOffset

/-- `read_bt_source_register`. -/
def readBtSourceRegister (ctx : CpuContext) (modrm : U8) (size : OperandWidth) : U64 :=
  getRegister size ctx (decodeRegIndex ctx modrm)

/-- `bit_index`: the low bits of a raw index. -/
def btBitIndex (rawIndex : U64) (size : OperandWidth) : ℕ :=
  (rawIndex &&& BitVec.ofNat 64 (size.bits - 1)).toNat

/-! ## The bit -/

/-- The bit of a value that an instruction tests. -/
def testBit (value : U64) (bitIndex : ℕ) : Bool := (value >>> bitIndex) &&& 1 != 0

/-- The value with the bit set, reset or complemented; the code works on 64 bits. -/
def BitTestOperation.apply (operation : BitTestOperation) {n : ℕ} (value : BitVec n)
    (bitIndex : ℕ) : BitVec n :=
  let bitMask := 1#n <<< bitIndex
  match operation with
  | bt => value
  | bts => value ||| bitMask
  | btr => value &&& ~~~bitMask
  | btc => value ^^^ bitMask

/-! ## Locked instructions -/

/-- The part of `execute_locked_bt_memory` for host memory, with the interlocked functions of 32
and 64 bits; `some false` goes on to the loop, as 16 bits do. -/
def lockedBtPassthrough (fuel : ℕ) (operation : BitTestOperation) (address : U64)
    (size : OperandWidth) (bitIndex : ℕ) : CpuProgram (Option Bool) := do
  match ← getMemoryWritePtr address (size.bits / 8) fuel with
  | none => return none
  | some none => return some true
  | some (some p) =>
    if size = .dword ∨ size = .qword then
      if operation = .bt then
        cpuRaiseException .ud 0
        return some true
      let oldValue ← loadBytes p (size.bits / 8) 0
      storeValue (consecutive p (size.bits / 8) 0) (operation.apply oldValue bitIndex)
      modifyContext fun ctx => setFlag ctx rflagsCf (testBit oldValue bitIndex)
      return some true
    else return some false

/-- The loop of `execute_locked_bt_memory`; `none` stands for turns that are still to come. -/
def lockedBtLoop (fuel : ℕ) (operation : BitTestOperation) (address : U64) (size : OperandWidth)
    (bitIndex : ℕ) : ℕ → U64 → CpuProgram (Option Unit)
  | 0, _ => return none
  | turns + 1, currentValue => do
    if operation = .bt then
      cpuRaiseException .ud 0
      return some ()
    match ← cpuAtomicCompareExchangeMemory fuel address size currentValue
        (operation.apply currentValue bitIndex) with
    | none => return none
    | some (false, observedValue) =>
      if ← cpuHasException then return some ()
      lockedBtLoop fuel operation address size bitIndex turns (observedValue &&& operandMask size)
    | some (true, _) =>
      modifyContext fun ctx => setFlag ctx rflagsCf (testBit currentValue bitIndex)
      return some ()

/-- `execute_locked_bt_memory`. -/
def executeLockedBtMemory (fuel : ℕ) (operation : BitTestOperation) (address : U64)
    (size : OperandWidth) (bitIndex : ℕ) : CpuProgram (Option Unit) := do
  let host ← perform .isHostWritePassthrough
  let early ← if host then lockedBtPassthrough fuel operation address size bitIndex
    else pure (some false)
  match early with
  | none => return none
  | some true => return some ()
  | some false =>
    let value ← readMemoryOperand address size
    if ← cpuHasException then return some ()
    lockedBtLoop fuel operation address size bitIndex fuel (value &&& operandMask size)

/-! ## Execution -/

/-- The raw index of an instruction: the immediate, or the register with its sign. -/
def BitTestInst.rawIndex (inst : BitTestInst) (ctx : CpuContext) : U64 :=
  if inst.opcode = 0xBA then inst.immediate &&& 0xFF
  else if inst.operand.isRegister then readBtSourceRegister ctx inst.modrm inst.operandSize
  else signExtendBtSource (readBtSourceRegister ctx inst.modrm inst.operandSize) inst.operandSize

/-- `target_address`: the element that a bit offset in a register selects in memory. -/
def BitTestInst.targetAddress (inst : BitTestInst) (ctx : CpuContext) : U64 :=
  if inst.operand.isRegister ∨ inst.opcode = 0xBA then inst.memAddress
  else
    let elementIndex := floorDivBtIndex (inst.rawIndex ctx) inst.operandSize.bits
    addBtSignedOffset inst.memAddress (elementIndex * BitVec.ofNat 64 (inst.operandSize.bits / 8))

/-- `execute_bt_operation`. -/
def executeBtOperation (fuel : ℕ) (inst : BitTestInst) : CpuProgram (Option Unit) := do
  let operation ← match decodeBtOperation inst.opcode inst.modrm with
    | some operation => pure operation
    | none => do
      cpuRaiseException .ud 0
      pure BitTestOperation.bt
  let size := inst.operandSize
  let ctx ← getContext
  let bitIndex := btBitIndex (inst.rawIndex ctx) size
  let target : RmOperand := ⟨inst.modrm, inst.targetAddress ctx⟩
  let value ← readRmOperand target size
  let targetValue := value &&& operandMask size
  if ← cpuHasException then return some ()
  modifyContext fun ctx => setFlag ctx rflagsCf (testBit targetValue bitIndex)
  if inst.hasLockPrefix && !target.isRegister then
    executeLockedBtMemory fuel operation target.memAddress size bitIndex
  else
    if operation = .bt then return some ()
    else
      writeRmOperand target size (operation.apply targetValue bitIndex &&& operandMask size)
      return some ()

/-- `execute_bt_with_decoded`. -/
def executeBtWithDecoded : ℕ → BitTestInst → CpuProgram (Option Unit) := executeBtOperation

end Cpueaxh
