/-
# Escape instructions

The instructions that the host program may take over with `cpueaxh_escape_add`: system
calls, interrupts, port accesses and the like.  `cpueaxh_emu_start` looks for one of them
in the bytes that it has fetched, before the bytes are executed; if the host program has
a callback for it, the callback runs, and otherwise the instruction raises an exception.

A callback here gets the context and the bytes and returns an error or a new context.
-/
import Cpueaxh.CpuContext

namespace Cpueaxh

/-! ## Prefixes -/

/-- The legacy prefixes that `peek_opcode` skips. -/
def isLegacyPrefix (b : U8) : Bool :=
  b == 0x26 || b == 0x2E || b == 0x36 || b == 0x3E || b == 0x64 || b == 0x65 || b == 0x66
    || b == 0x67 || b == 0xF0 || b == 0xF2 || b == 0xF3

/-- The REX prefixes. -/
def isRexPrefix (b : U8) : Bool := decide (0x40 ≤ b) && decide (b ≤ 0x4F)

/-- The prefixes of an instruction; `allowsRex` tells whether REX bytes are prefixes. -/
def instructionPrefixes (allowsRex : Bool) (bytes : List U8) : List U8 :=
  bytes.takeWhile fun b => isLegacyPrefix b || (allowsRex && isRexPrefix b)

/-- The bytes behind the prefixes. -/
def afterPrefixes (allowsRex : Bool) (bytes : List U8) : List U8 :=
  bytes.drop (instructionPrefixes allowsRex bytes).length

/-- `peek_opcode`: the opcode and the number of prefixes; `none` is `0xFFFF`. -/
def peekOpcode (ctx : CpuContext) (bytes : List U8) : Option (U16 × ℕ) :=
  let prefixLen := (instructionPrefixes ctx.is64BitCode bytes).length
  match afterPrefixes ctx.is64BitCode bytes with
  | [] => none
  | [b] => some (b.setWidth 16, prefixLen)
  | b :: b' :: _ =>
    some (if b = 0x0F then 0x0F00 ||| b'.setWidth 16 else b.setWidth 16, prefixLen)

/-- The `reg` field of a ModRM byte of the register form. -/
def registerFormReg (modrm : U8) : Option U8 :=
  if modrm >>> 6 = 3 then some ((modrm >>> 3) &&& 0x07) else none

/-- `is_rdrand_instruction`. -/
def isRdrandInstruction (bytes : List U8) : Bool :=
  match afterPrefixes true bytes with
  | b :: b' :: modrm :: _ => b == 0x0F && b' == 0xC7 && registerFormReg modrm == some 6
  | _ => false

/-- `is_rdssp_instruction`: whether it is the 64-bit form, and the size. -/
def isRdsspInstruction (bytes : List U8) : Option (Bool × ℕ) :=
  let prefixes := instructionPrefixes true bytes
  match afterPrefixes true bytes with
  | b :: b' :: modrm :: _ =>
    if !prefixes.contains 0xF0 && prefixes.contains 0xF3 && b == 0x0F && b' == 0x1E
        && registerFormReg modrm == some 1 then
      some (match (prefixes.filter isRexPrefix).getLast? with
        | some rex => (rex >>> 3) &&& 1 == 1
        | none => false, prefixes.length + 3)
    else none
  | _ => none

/-! ## Classification -/

/-- `cpueaxh_escape_insn_id`, but for `CPUEAXH_ESCAPE_INSN_NONE`. -/
inductive EscapeInsnId where
  | syscall | sysenter | int | int3 | cpuid | xgetbv | rdtsc | rdtscp | rdrand | hlt
  | inPort | outPort | writecrx | readcrx | rdsspd | rdsspq | ins | int1 | ud2
  deriving DecidableEq, Repr

/-- `cpueaxh_classify_escape_instruction`: the instruction and its size. -/
def classifyEscapeInstruction (ctx : CpuContext) (bytes : List U8) : Option (EscapeInsnId × ℕ) :=
  match peekOpcode ctx bytes with
  | none => none
  | some (opc, prefixLen) =>
    let fetched := bytes.length
    let third := bytes[prefixLen + 2]?
    if opc = 0x00CC then some (.int3, prefixLen + 1)
    else if opc = 0x00F1 then some (.int1, prefixLen + 1)
    else if opc = 0x00CD ∧ prefixLen + 2 ≤ fetched then some (.int, prefixLen + 2)
    else if opc = 0x0F0B then some (.ud2, prefixLen + 2)
    else if opc = 0x00F4 then some (.hlt, prefixLen + 1)
    else if opc = 0x00E4 ∨ opc = 0x00E5 then
      if prefixLen + 2 ≤ fetched then some (.inPort, prefixLen + 2) else none
    else if opc = 0x00EC ∨ opc = 0x00ED then some (.inPort, prefixLen + 1)
    else if opc = 0x006C ∨ opc = 0x006D then some (.ins, prefixLen + 1)
    else if opc = 0x00E6 ∨ opc = 0x00E7 then
      if prefixLen + 2 ≤ fetched then some (.outPort, prefixLen + 2) else none
    else if opc = 0x00EE ∨ opc = 0x00EF then some (.outPort, prefixLen + 1)
    else if opc = 0x0F05 then some (.syscall, prefixLen + 2)
    else if opc = 0x0F34 then some (.sysenter, prefixLen + 2)
    else if opc = 0x0FA2 then some (.cpuid, prefixLen + 2)
    else if opc = 0x0F31 then some (.rdtsc, prefixLen + 2)
    else if opc = 0x0F01 ∧ third = some 0xD0 then some (.xgetbv, prefixLen + 3)
    else if opc = 0x0F01 ∧ third = some 0xF9 then some (.rdtscp, prefixLen + 3)
    else if opc = 0x0FC7 ∧ isRdrandInstruction bytes then some (.rdrand, prefixLen + 3)
    else if opc = 0x0F20 ∧ prefixLen + 3 ≤ fetched then some (.readcrx, prefixLen + 3)
    else if opc = 0x0F22 ∧ prefixLen + 3 ≤ fetched then some (.writecrx, prefixLen + 3)
    else if opc = 0x0F1E then
      match isRdsspInstruction bytes with
      | some (is64, size) => some (if is64 then .rdsspq else .rdsspd, size)
      | none => none
    else none

/-- `cpueaxh_is_optional_escape_instruction`. -/
def EscapeInsnId.isOptional : EscapeInsnId → Bool
  | .rdsspd => true
  | .rdsspq => true
  | _ => false

/-- The exception that an escape instruction raises when there is no callback. -/
def EscapeInsnId.fault : EscapeInsnId → U32
  | .int3 => cpuExceptionBp
  | .int1 => cpuExceptionDb
  | _ => cpuExceptionUd

/-! ## Callbacks -/

/-- `cpueaxh_err`. -/
abbrev CpueaxhErr := ℤ

def cpueaxhErrOk : CpueaxhErr := 0
def cpueaxhErrReadUnmapped : CpueaxhErr := 6
def cpueaxhErrWriteUnmapped : CpueaxhErr := 7
def cpueaxhErrFetchUnmapped : CpueaxhErr := 8
def cpueaxhErrException : CpueaxhErr := 9
def cpueaxhErrReadProt : CpueaxhErr := 11
def cpueaxhErrWriteProt : CpueaxhErr := 12
def cpueaxhErrFetchProt : CpueaxhErr := 13

/-- `CPUEAXH_ESCAPE_ENTRY`; the callback returns its error or the context that it
leaves. -/
structure EscapeEntry where
  instructionId : EscapeInsnId
  first : U64
  last : U64
  callback : CpuContext → List U8 → Except {error : CpueaxhErr // error ≠ cpueaxhErrOk} CpuContext

/-- `cpueaxh_range_contains`. -/
def cpueaxhRangeContains (first last address : U64) : Bool :=
  if first = 0 ∧ last = 0 then true
  else if last = 0 then decide (first ≤ address)
  else decide (first ≤ address) && decide (address ≤ last)

/-- `cpueaxh_lookup_escape_entry`, over the index that `cpueaxh_rebuild_escape_index`
makes: the last of the first 255 entries. -/
def lookupEscapeEntry (escapes : List EscapeEntry) (id : EscapeInsnId) : Option EscapeEntry :=
  (escapes.take 255).reverse.find? fun entry => entry.instructionId == id

/-- `cpueaxh_context_in`: the fields of `cpueaxh_x86_context` come from `input`. -/
def contextIn (ctx input : CpuContext) : CpuContext :=
  { ctx with
    regs := input.regs
    vector := input.vector
    rip := input.rip
    rflags := input.rflags
    es := input.es
    cs := input.cs
    ss := input.ss
    ds := input.ds
    fs := input.fs
    gs := input.gs
    longModeActive := true
    cachedModeKeyValid := false
    gdtrBase := input.gdtrBase
    gdtrLimit := input.gdtrLimit
    ldtrBase := input.ldtrBase
    ldtrLimit := input.ldtrLimit
    cpl := input.cpl
    exception := input.exception
    controlRegs := input.controlRegs
    processorId := input.processorId }

/-- `cpueaxh_try_dispatch_escape`: the error and the context when the instruction was
taken over, and `none` when it is left to the executor. -/
def tryDispatchEscape (escapes : List EscapeEntry) (ctx : CpuContext) (address : U64)
    (bytes : List U8) : Option (CpueaxhErr × CpuContext) :=
  match classifyEscapeInstruction ctx bytes with
  | none => none
  | some (id, size) =>
    let entry := (lookupEscapeEntry escapes id).filter fun entry =>
      cpueaxhRangeContains entry.first entry.last address
    match entry with
    | some entry =>
      match entry.callback ctx bytes with
      | .error error => some (error.val, ctx)
      | .ok output =>
        let out := contextIn ctx output
        let out := { out with
          rip := if out.rip = ctx.rip then ctx.rip + BitVec.ofNat 64 size else out.rip
          lastInstSize := size }
        some (if out.hasException then cpueaxhErrException else cpueaxhErrOk, out)
    | none =>
      if id.isOptional then none
      else some (cpueaxhErrException, ctx.raiseException id.fault 0)

end Cpueaxh
