/-
# Programs of the CPU

What the code of an instruction can do: read and write the context, raise an exception,
resolve an address for reading or writing, load and store through the pointers that it
gets, and call the observers of memory accesses.  The code of an instruction never
writes the mode of the CPU, its privilege level or the control registers this way (the
moves to control registers are left to escapes), so `setContext` keeps them; the far
transfers, which load a new code segment, have operations of their own.

The second half is the part of `cpu/memory.hpp` and `cpu/helper.hpp` that reads memory
and moves values between memory and the stack.
-/
import Cpueaxh.CpuAccess

namespace Cpueaxh

/-! ## Operations -/

/-- The context `new` with the mode, the privilege level, the control registers, the
exception and the cached key of `old`. -/
def CpuContext.keepMode (old new : CpuContext) : CpuContext :=
  { new with
    longModeActive := old.longModeActive
    cs := old.cs
    cpl := old.cpl
    controlRegs := old.controlRegs
    exception := old.exception
    cachedModeKeyBits := old.cachedModeKeyBits
    cachedModeKeyValid := old.cachedModeKeyValid }

/-- The access of a load or of a store. -/
def dataAccess (store : Bool) : Access := if store then .write else .read

/-- The exceptions that the code of an instruction raises itself; page faults come from
accesses only. -/
inductive RaisedFault where
  | de | gp | ss | np | ud | ac | bp | db | of | nm | mf
  deriving DecidableEq, Repr

/-- The exception code. -/
def RaisedFault.code : RaisedFault → U32
  | .de => cpuExceptionDe
  | .gp => cpuExceptionGp
  | .ss => cpuExceptionSs
  | .np => cpuExceptionNp
  | .ud => cpuExceptionUd
  | .ac => cpuExceptionAc
  | .bp => cpuExceptionBp
  | .db => cpuExceptionDb
  | .of => cpuExceptionOf
  | .nm => cpuExceptionNm
  | .mf => cpuExceptionMf

/-- An operation on the CPU. -/
inductive CpuOp where
  | context
  | setContext (ctx : CpuContext)
  | raise (fault : RaisedFault) (errorCode : U32)
  | resolve (address : U64) (store : Bool)
  | load (p : HostPtr)
  | store (p : HostPtr) (value : U8)
  | notify (type : HookType) (address : U64) (size : ℕ) (value : U64)
  | tryHandleInvalid (store : Bool)
  | raisePageFault (address : U64) (store : Bool)
  | canUsePageFastPath
  | isHostWritePassthrough

/-- What an operation answers. -/
abbrev CpuOp.Reply : CpuOp → Type
  | .context => CpuContext
  | .setContext _ => Unit
  | .raise _ _ => Unit
  | .resolve _ _ => Option HostPtr
  | .load _ => U8
  | .store _ _ => Unit
  | .notify _ _ _ _ => Unit
  | .tryHandleInvalid _ => Bool
  | .raisePageFault _ _ => Unit
  | .canUsePageFastPath => Bool
  | .isHostWritePassthrough => Bool

/-- The effect of an operation.  The callback of an observer leaves the engine alone.
The callback for an invalid access is asked, and a page fault is raised, only where an
access has just succeeded, so never over another exception. -/
def cpuOp : Program.Interpreter Cpu CpuOp CpuOp.Reply
  | .context, cpu => (cpu.context, cpu)
  | .setContext ctx, cpu => ((), { cpu with context := cpu.context.keepMode ctx })
  | .raise fault errorCode, cpu =>
    ((), { cpu with context := cpu.context.raiseException fault.code errorCode })
  | .resolve address store, cpu => cpu.resolveMemoryAccess address (dataAccess store)
  | .load p, cpu => ((cpu.memory.host.read p).getD 0, cpu)
  | .store p value, cpu =>
    ((), { cpu with memory := cpu.memory.setHost (cpu.memory.host.write p value) })
  | .notify _ _ _ _, cpu => ((), cpu)
  | .tryHandleInvalid store, cpu =>
    if cpu.context.hasException then (false, cpu)
    else cpu.tryHandleInvalidMemoryAccess (dataAccess store) true
  | .raisePageFault address store, cpu =>
    ((), if cpu.context.hasException then cpu
      else cpu.raisePageFault address (dataAccess store) true)
  | .canUsePageFastPath, cpu => (cpu.memory.patches.length == 0, cpu)
  | .isHostWritePassthrough, cpu => (cpu.memory.hostWritePassthrough, cpu)

/-- A program over these operations. -/
abbrev CpuProgram := Program CpuOp CpuOp.Reply

/-! ## Single operations as programs -/

/-- The program that performs one operation. -/
def perform (o : CpuOp) : CpuProgram o.Reply := Program.perform o

/-- Read the context. -/
def getContext : CpuProgram CpuContext := perform .context

/-- Change the context, the mode and the privilege level excepted. -/
def modifyContext (f : CpuContext → CpuContext) : CpuProgram Unit := do
  let ctx ← getContext
  perform (.setContext (f ctx))

/-- `cpu_has_exception`. -/
def cpuHasException : CpuProgram Bool := do
  let ctx ← getContext
  return ctx.hasException

/-- `cpu_raise_exception`. -/
def cpuRaiseException (fault : RaisedFault) (errorCode : U32) : CpuProgram Unit :=
  perform (.raise fault errorCode)

/-- `raise_gp_ctx`. -/
def raiseGp (errorCode : U32) : CpuProgram Unit := cpuRaiseException .gp errorCode

/-- `raise_np_ctx`. -/
def raiseNp (errorCode : U32) : CpuProgram Unit := cpuRaiseException .np errorCode

/-- `cpu_resolve_memory_access` for a load or a store. -/
def cpuResolve (address : U64) (store : Bool) : CpuProgram (Option HostPtr) :=
  perform (.resolve address store)

/-! ## Reading memory -/

/-- `cpu_page_bytes_remaining`. -/
def cpuPageBytesRemaining (address : U64) : ℕ := 4096 - (address.toNat % 4096)

/-- The page loop of `cpu_get_contiguous_ptr_impl`.  Each turn moves `offset` forward,
so the size of the access is fuel enough. -/
def contiguousPages (address : U64) (size : ℕ) (store : Bool) :
    ℕ → ℕ → Option HostPtr → CpuProgram (Option HostPtr)
  | 0, _, base => return base
  | fuel + 1, offset, base => do
    if offset < size then
      let current := address + BitVec.ofNat 64 offset
      match ← cpuResolve current store with
      | none => return none
      | some page =>
        let chunk := cpuPageBytesRemaining current
        let next := offset + if chunk < size - offset then chunk else size - offset
        match base with
        | none => contiguousPages address size store fuel next (some page)
        | some base =>
          if page = base.add (BitVec.ofNat 64 offset) then
            contiguousPages address size store fuel next (some base)
          else return none
    else return base

/-- The byte loop of `cpu_get_contiguous_ptr_impl`. -/
def contiguousBytes (address : U64) (store : Bool) (base : HostPtr) :
    ℕ → U64 → CpuProgram (Option HostPtr)
  | 0, _ => return some base
  | left + 1, offset => do
    match ← cpuResolve (address + offset) store with
    | none => return none
    | some next =>
      if next = base.add offset then contiguousBytes address store base left (offset + 1)
      else return none

/-- `cpu_try_get_contiguous_ptr`. -/
def cpuTryGetContiguousPtr (address : U64) (size : ℕ) (store : Bool) :
    CpuProgram (Option HostPtr) := do
  if size = 0 || (← cpuHasException) then return none
  if ← perform .canUsePageFastPath then
    if size ≤ cpuPageBytesRemaining address then cpuResolve address store
    else contiguousPages address size store size 0 none
  else
    match ← cpuResolve address store with
    | none => return none
    | some base => contiguousBytes address store base (size - 1) 1

/-- The bytes behind a pointer, the lowest first. -/
def loadBytes (p : HostPtr) : ℕ → U64 → CpuProgram U64
  | 0, _ => return 0
  | left + 1, offset => do
    let low : U8 ← perform (.load (p.add offset))
    let high ← loadBytes p left (offset + 1)
    return low.setWidth 64 ||| high <<< 8

/-- The bytes at an address, each resolved on its own. -/
def readBytes (address : U64) : ℕ → U64 → CpuProgram (Option U64)
  | 0, _ => return some 0
  | left + 1, offset => do
    match ← cpuResolve (address + offset) false with
    | none => return none
    | some p =>
      let low : U8 ← perform (.load p)
      match ← readBytes address left (offset + 1) with
      | none => return none
      | some high => return some (low.setWidth 64 ||| high <<< 8)

/-- `read_memory_word`, `read_memory_dword` and `read_memory_qword` for their sizes. -/
def readMemory (size : ℕ) (address : U64) : CpuProgram U64 := do
  if ← cpuHasException then return 0
  match ← cpuTryGetContiguousPtr address size false with
  | some p =>
    let value ← loadBytes p size 0
    perform (.notify .memRead address size value)
    return value
  | none =>
    match ← readBytes address size 0 with
    | none => return 0
    | some value =>
      perform (.notify .memRead address size value)
      return value

/-- `read_memory_word`. -/
def readMemoryWord (address : U64) : CpuProgram U64 := readMemory 2 address

/-- `read_memory_dword`. -/
def readMemoryDword (address : U64) : CpuProgram U64 := readMemory 4 address

/-- `read_memory_qword`. -/
def readMemoryQword (address : U64) : CpuProgram U64 := readMemory 8 address

/-- `read_memory_byte`. -/
def readMemoryByte (address : U64) : CpuProgram U8 := do
  match ← cpuResolve address false with
  | none => return 0
  | some p =>
    let value : U8 ← perform (.load p)
    perform (.notify .memRead address 1 (value.setWidth 64))
    return value

/-- `write_memory_byte`. -/
def writeMemoryByte (address : U64) (value : U8) : CpuProgram Unit := do
  match ← cpuResolve address true with
  | none => return ()
  | some p =>
    perform (.notify .memWrite address 1 (value.setWidth 64))
    perform (.store p value)

/-! ## The stack -/

/-- The low bits of a word that a 32-bit or 16-bit address keeps. -/
def truncateTo (addrSize : ℕ) (value : U64) : U64 :=
  if addrSize = 64 then value
  else if addrSize = 32 then value &&& 0xFFFFFFFF
  else value &&& 0xFFFF

/-- `cpu_set_stack_pointer_value`. -/
def cpuSetStackPointerValue (ctx : CpuContext) (stackAddrSize : ℕ) (value : U64) : CpuContext :=
  let old := ctx.regs regRsp
  let rsp :=
    if stackAddrSize = 64 then value
    else if stackAddrSize = 32 then (old &&& ~~~0xFFFFFFFF) ||| (value &&& 0xFFFFFFFF)
    else (old &&& ~~~0xFFFF) ||| (value &&& 0xFFFF)
  { ctx with regs := Function.update ctx.regs regRsp rsp }

/-- `cpu_resolve_stack_slot_write`. -/
def cpuResolveStackSlotWrite (address : U64) : ℕ → U64 → CpuProgram (Option (List HostPtr))
  | 0, _ => return some []
  | left + 1, offset => do
    match ← cpuResolve (address + offset) true with
    | none => return none
    | some p =>
      match ← cpuResolveStackSlotWrite address left (offset + 1) with
      | none => return none
      | some rest => return some (p :: rest)

/-- The stores of `cpu_commit_stack_slot_write`. -/
def storeValue : List HostPtr → U64 → CpuProgram Unit
  | [], _ => return ()
  | p :: rest, value => do
    perform (.store p (value.setWidth 8))
    storeValue rest (value >>> 8)

/-- `cpu_commit_stack_slot_write`. -/
def cpuCommitStackSlotWrite (address : U64) (size : ℕ) (value : U64) (ptrs : List HostPtr) :
    CpuProgram Unit := do
  perform (.notify .memWrite address size value)
  storeValue ptrs value

/-- `push_two_stack_values`; the values are sizes 2, 4 and 8. -/
def pushTwoStackValues (firstValue secondValue : U64) (valueSize : ℕ) : CpuProgram Unit := do
  let ctx ← getContext
  if ctx.hasException then return ()
  if valueSize ≠ 2 ∧ valueSize ≠ 4 ∧ valueSize ≠ 8 then
    raiseGp 0
    return ()
  let stackAddrSize := ctx.stackAddressSize
  if stackAddrSize = 16 ∧ valueSize = 8 then
    raiseGp 0
    return ()
  let firstAddress := truncateTo stackAddrSize (ctx.regs regRsp - BitVec.ofNat 64 valueSize)
  let secondAddress := truncateTo stackAddrSize (firstAddress - BitVec.ofNat 64 valueSize)
  match ← cpuResolveStackSlotWrite firstAddress valueSize 0 with
  | none => return ()
  | some firstPtrs =>
    match ← cpuResolveStackSlotWrite secondAddress valueSize 0 with
    | none => return ()
    | some secondPtrs =>
      cpuCommitStackSlotWrite firstAddress valueSize firstValue firstPtrs
      cpuCommitStackSlotWrite secondAddress valueSize secondValue secondPtrs
      modifyContext fun ctx => cpuSetStackPointerValue ctx stackAddrSize secondAddress

/-- The loop of `peek_stack_values`. -/
def peekLoop (stackAddrSize : ℕ) (baseSp : U64) (valueSize : ℕ) :
    ℕ → ℕ → CpuProgram (Option (List U64))
  | 0, _ => return some []
  | left + 1, index => do
    let value ← readMemory valueSize
      (truncateTo stackAddrSize (baseSp + BitVec.ofNat 64 (index * valueSize)))
    if ← cpuHasException then return none
    match ← peekLoop stackAddrSize baseSp valueSize left (index + 1) with
    | none => return none
    | some rest => return some (value :: rest)

/-- `peek_stack_values`: the values and the stack pointer behind them. -/
def peekStackValues (valueSize count : ℕ) : CpuProgram (Option (List U64 × U64)) := do
  let ctx ← getContext
  if ctx.hasException then return none
  if valueSize ≠ 2 ∧ valueSize ≠ 4 ∧ valueSize ≠ 8 then
    raiseGp 0
    return none
  let stackAddrSize := ctx.stackAddressSize
  if stackAddrSize = 16 ∧ valueSize = 8 then
    raiseGp 0
    return none
  let baseSp := truncateTo stackAddrSize (ctx.regs regRsp)
  match ← peekLoop stackAddrSize baseSp valueSize count 0 with
  | none => return none
  | some values =>
    return some (values, truncateTo stackAddrSize (baseSp + BitVec.ofNat 64 (count * valueSize)))

end Cpueaxh
