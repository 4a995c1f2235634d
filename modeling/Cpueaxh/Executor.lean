/-
# The executor

`cpu/executor.hpp` and `cpu/inst_cache.hpp`: fetch the bytes of an instruction, decode
them, remember the result under the instruction pointer, the version of the code and the
mode, and execute it with a rollback when it faults.

The instruction set is a parameter: what a decoder makes of the bytes, and the programs
that its handlers run.  A decoder copies the bytes it was given or reports that it could
not read an opcode, it leaves the context alone, and it marks the escape instructions.
-/
import Cpueaxh.FarTransfer
import Cpueaxh.Escapes

namespace Cpueaxh

/-! ## Handlers -/

/-- An operation of the code of an instruction. -/
inductive HandlerOp where
  | cpu (o : CpuOp)
  | far (t : FarTransfer)

/-- What an operation answers. -/
abbrev HandlerOp.Reply : HandlerOp → Type
  | .cpu o => o.Reply
  | .far _ => Unit

/-- The effect of an operation. -/
def handlerOp : Program.Interpreter Cpu HandlerOp HandlerOp.Reply
  | .cpu o, cpu => cpuOp o cpu
  | .far t, cpu => ((), farTransfer t cpu)

/-- The code of an instruction. -/
abbrev Handler := Program HandlerOp HandlerOp.Reply Unit

/-- An ordinary program as the code of an instruction. -/
def handlerOf (p : CpuProgram Unit) : Handler := p.lift HandlerOp.cpu fun _ r => r

/-! ## Decoded instructions -/

/-- `MAX_INST_FETCH`. -/
def maxInstFetch : ℕ := 15

/-- `DecodedFlags`. -/
structure DecodedFlags where
  branch : Bool
  touchesVector : Bool
  inlineRet : Bool
  ud : Bool
  bp : Bool
  noFault : Bool
  knownNotEscape : Bool
  partialProgress : Bool
  db : Bool
  deriving DecidableEq, Repr

/-- No flag. -/
def DecodedFlags.none : DecodedFlags :=
  { branch := false, touchesVector := false, inlineRet := false, ud := false, bp := false,
    noFault := false, knownNotEscape := false, partialProgress := false, db := false }

/-- `DecodedInlineKind`. -/
inductive DecodedInlineKind where
  | none | retNearNoImm | retNearImm16 | jccShortLongmode | jccNearLongmode
  deriving DecidableEq, Repr

/-- `DecodedInst`.  `bytes` holds the `byte_count` valid bytes; a handler is applied to
them, a fast handler to the payload that was decoded with it. -/
structure DecodedInst where
  handler : Option (List U8 → Handler)
  fastHandler : Option Handler
  flags : DecodedFlags
  length : ℕ
  inlineKind : DecodedInlineKind
  bytes : List U8
  inlineImm16 : U16
  nearRetPrefixLen : ℕ
  nearRetOpSize : ℕ
  segmentOverride : ℤ
  inlineJccDisp : U8
  inlineJccCond : U8
  inlineJccDisp32 : U32

/-- `decoded_inst_clear`. -/
def DecodedInst.clear : DecodedInst where
  handler := none
  fastHandler := none
  flags := .none
  length := 0
  inlineKind := .none
  bytes := []
  inlineImm16 := 0
  nearRetPrefixLen := 0
  nearRetOpSize := 0
  segmentOverride := 0
  inlineJccDisp := 0
  inlineJccCond := 0
  inlineJccDisp32 := 0

/-- The exception that the flags of a decoded instruction raise at once. -/
def DecodedFlags.fault (flags : DecodedFlags) : Option U32 :=
  if flags.ud then some cpuExceptionUd
  else if flags.bp then some cpuExceptionBp
  else if flags.db then some cpuExceptionDb
  else Option.none

/-- An instruction set: `cpu_decode_instruction` with its handlers.  An instruction that
escapes unless it is optional is flagged with the exception of the escape, and one that
is known not to escape does not. -/
structure InstructionSet where
  decode : CpuContext → List U8 → DecodedInst
  bytes_eq : ∀ ctx bytes, (decode ctx bytes).bytes = [] ∨ (decode ctx bytes).bytes = bytes
  escape_fault : ∀ ctx bytes id size, classifyEscapeInstruction ctx bytes = some (id, size) →
    id.isOptional = false →
      (decode ctx bytes).bytes = bytes ∧ (decode ctx bytes).flags.fault = some id.fault
  not_escape : ∀ ctx bytes, (decode ctx bytes).flags.knownNotEscape = true →
    classifyEscapeInstruction ctx bytes = none

/-! ## Inline forms -/

/-- `pop_value16`, `pop_value32` and `pop_value64` for their sizes. -/
def popValue (size : ℕ) : CpuProgram U64 := do
  let ctx ← getContext
  let stackAddrSize := ctx.stackAddressSize
  if stackAddrSize = 16 ∧ size = 8 then
    raiseGp 0
    return 0
  let sp := truncateTo stackAddrSize (ctx.regs regRsp)
  let value ← readMemory size sp
  if ← cpuHasException then return 0
  modifyContext fun ctx => cpuSetStackPointerValue ctx stackAddrSize (sp + BitVec.ofNat 64 size)
  return value

/-- `cpu_assign_rip_checked`. -/
def cpuAssignRipChecked (value : U64) (operandSize : ℕ) : CpuProgram Bool := do
  if ← cpuValidateCodeOffset value operandSize then
    modifyContext fun ctx => { ctx with rip := cpuMaskCodeOffset value operandSize }
    return true
  else return false

/-- The operand size of a near return. -/
def DecodedInst.nearRetSize (dec : DecodedInst) : ℕ :=
  if dec.nearRetOpSize = 16 then 16 else if dec.nearRetOpSize = 32 then 32 else 64

/-- `cpu_executor_inline_ret_no_imm`. -/
def cpuExecutorInlineRetNoImm (dec : DecodedInst) : CpuProgram Unit := do
  modifyContext fun ctx => { ctx with lastInstSize := dec.nearRetPrefixLen + 1 }
  let target ← popValue (dec.nearRetSize / 8)
  if ← cpuHasException then return ()
  let _ ← cpuAssignRipChecked target dec.nearRetSize

/-- `cpu_executor_inline_ret_imm16`.  Only the 64-bit form gives up when the target is
rejected. -/
def cpuExecutorInlineRetImm16 (dec : DecodedInst) : CpuProgram Unit := do
  modifyContext fun ctx => { ctx with lastInstSize := dec.nearRetPrefixLen + 3 }
  let target ← popValue (dec.nearRetSize / 8)
  if ← cpuHasException then return ()
  let assigned ← cpuAssignRipChecked target dec.nearRetSize
  if dec.nearRetSize = 64 ∧ !assigned then return ()
  modifyContext fun ctx => cpuSetStackPointerValue ctx ctx.stackAddressSize
    (ctx.regs regRsp + dec.inlineImm16.setWidth 64)

/-- `cpu_executor_eval_jcc_condition`. -/
def cpuExecutorEvalJccCondition (flags : U64) (cond : U8) : Bool :=
  let cf := flags &&& 0x1 != 0
  let pf := flags &&& 0x4 != 0
  let zf := flags &&& 0x40 != 0
  let sf := flags &&& 0x80 != 0
  let of := flags &&& 0x800 != 0
  let base :=
    match (cond >>> 1).toNat with
    | 0 => of
    | 1 => cf
    | 2 => zf
    | 3 => cf || zf
    | 4 => sf
    | 5 => pf
    | 6 => sf != of
    | _ => zf || (sf != of)
  if cond &&& 1 == 1 then !base else base

/-- The two inline conditional jumps, with the size of the instruction and the target. -/
def inlineJcc (dec : DecodedInst) (size : ℕ) (disp : U64) : CpuProgram Unit := do
  let ctx ← getContext
  let nextRip := ctx.rip + BitVec.ofNat 64 size
  let target :=
    if cpuExecutorEvalJccCondition ctx.rflags dec.inlineJccCond then nextRip + disp else nextRip
  let _ ← cpuAssignRipChecked target 64
  modifyContext fun ctx => { ctx with lastInstSize := size }

/-- `cpu_executor_inline_jcc_short_longmode`. -/
def cpuExecutorInlineJccShortLongmode (dec : DecodedInst) : CpuProgram Unit :=
  inlineJcc dec 2 (dec.inlineJccDisp.signExtend 64)

/-- `cpu_executor_inline_jcc_near_longmode`. -/
def cpuExecutorInlineJccNearLongmode (dec : DecodedInst) : CpuProgram Unit :=
  inlineJcc dec 6 (dec.inlineJccDisp32.signExtend 64)

/-- The code that is run for a decoded instruction, and whether the executor advances
`rip` behind it. -/
def DecodedInst.code (dec : DecodedInst) : Handler × Bool :=
  if dec.flags.inlineRet then
    (match dec.inlineKind with
      | .retNearNoImm => handlerOf (cpuExecutorInlineRetNoImm dec)
      | .retNearImm16 => handlerOf (cpuExecutorInlineRetImm16 dec)
      | _ => .ret (), false)
  else
    match dec.inlineKind with
    | .jccShortLongmode => (handlerOf (cpuExecutorInlineJccShortLongmode dec), false)
    | .jccNearLongmode => (handlerOf (cpuExecutorInlineJccNearLongmode dec), false)
    | _ =>
      (match dec.fastHandler, dec.handler with
        | some code, _ => code
        | none, some handler => handler dec.bytes
        | none, none => .ret (), !dec.flags.branch)

/-! ## One decoded instruction -/

/-- The result codes of `cpu_step`. -/
inductive StepResult where
  | ok | halt | fetchErr | ud | exception
  deriving DecidableEq, Repr

namespace Cpu

/-- The CPU with another context. -/
def setContext (cpu : Cpu) (ctx : CpuContext) : Cpu := { cpu with context := ctx }

/-- The CPU with another segment override. -/
def setSegmentOverride (cpu : Cpu) (override : ℤ) : Cpu :=
  cpu.setContext { cpu.context with segmentOverride := override }

/-- An exception that is raised by the executor itself. -/
def raise (cpu : Cpu) (code : U32) : Cpu := cpu.setContext (cpu.context.raiseException code 0)

/-- `cpu_executor_notify_fetched_bytes`: the observers are told of the bytes of the
instruction; a decoded instruction without a length raises `#UD`. -/
def notifyFetchedBytes (cpu : Cpu) (dec : DecodedInst) : Cpu :=
  if cpu.hasHookType .memFetch && dec.length == 0 then cpu.raise cpuExceptionUd else cpu

/-- The context of a step that faulted: rolled back to the snapshot, if one was taken,
but with the exception and `CR2` of the fault. -/
def rollback (dec : DecodedInst) (snapshot : Option CpuContext) (ctx : CpuContext) : CpuContext :=
  let restored :=
    match snapshot with
    | none => ctx
    | some saved =>
      if dec.flags.partialProgress then cpuRestoreDecodeTransientSnapshot ctx saved
      else
        let ctx := cpuRestoreScalarSnapshot ctx saved
        if dec.flags.touchesVector then cpuRestoreVectorSnapshot ctx saved else ctx
  { restored with
    exception := ctx.exception
    controlRegs := Function.update restored.controlRegs regCr2 (ctx.controlRegs regCr2) }

/-- The part of `cpu_step_dispatch_decoded` from `cpu_step_finish` on. -/
def finish (cpu : Cpu) (dec : DecodedInst) (snapshot : Option CpuContext) (result : StepResult) :
    StepResult × Cpu :=
  if cpu.context.hasException then
    (.exception, (cpu.setContext (rollback dec snapshot cpu.context)).setSegmentOverride (-1))
  else (result, cpu.setSegmentOverride (-1))

/-- Run the code of an instruction and advance `rip`. -/
def runCode (cpu : Cpu) (dec : DecodedInst) (ripPre : U64) : Cpu :=
  let cpu := (dec.code.1.run handlerOp cpu).2
  if !cpu.context.hasException && dec.code.2 then
    cpu.setContext { cpu.context with
      rip := ripPre + BitVec.ofInt 64 cpu.context.lastInstSize }
  else cpu

/-- `cpu_step_dispatch_decoded`. -/
def dispatchDecoded (cpu : Cpu) (dec : DecodedInst) (ripPre : U64) : StepResult × Cpu :=
  let cpu := (cpu.notifyFetchedBytes dec).setSegmentOverride dec.segmentOverride
  if dec.flags.ud then (cpu.raise cpuExceptionUd).finish dec none .ud
  else if dec.flags.bp then (cpu.raise cpuExceptionBp).finish dec none .exception
  else if dec.flags.db then (cpu.raise cpuExceptionDb).finish dec none .exception
  else
    let snapshot := if dec.flags.noFault then none else some cpu.context
    (cpu.runCode dec ripPre).finish dec snapshot .ok

/-! ## Fetching -/

/-- `CPUEAXH_MEMCPY` from a page. -/
def copyBytes (cpu : Cpu) (ptr : HostPtr) (count : ℕ) : List U8 :=
  (List.range count).map fun i => (cpu.memory.host.read (ptr.add (BitVec.ofNat 64 i))).getD 0

/-- The page loop of `fetch_instruction_bytes`.  Each turn fetches a byte at least, so
the number of bytes is fuel enough. -/
def fetchPages (address : U64) : ℕ → ℕ → Cpu → List U8 × Cpu
  | 0, _, cpu => ([], cpu)
  | fuel + 1, n, cpu =>
    if n < maxInstFetch then
      match cpu.resolveMemoryAccess (address + BitVec.ofNat 64 n) .exec with
      | (none, cpu) => ([], cpu)
      | (some ptr, cpu) =>
        let chunk := min (cpuPageBytesRemaining (address + BitVec.ofNat 64 n)) (maxInstFetch - n)
        match fetchPages address fuel (n + chunk) cpu with
        | (rest, cpu') => (cpu.copyBytes ptr chunk ++ rest, cpu')
    else ([], cpu)

/-- The byte loop of `fetch_instruction_bytes`, with the number of bytes that are left. -/
def fetchBytes (address : U64) : ℕ → ℕ → Cpu → List U8 × Cpu
  | 0, _, cpu => ([], cpu)
  | left + 1, i, cpu =>
    match cpu.resolveMemoryAccess (address + BitVec.ofNat 64 i) .exec with
    | (none, cpu) => ([], cpu)
    | (some ptr, cpu) =>
      match fetchBytes address left (i + 1) cpu with
      | (rest, cpu') => ((cpu.memory.host.read ptr).getD 0 :: rest, cpu')

/-- `fetch_instruction_bytes`. -/
def fetchInstructionBytes (cpu : Cpu) (address : U64) : List U8 × Cpu :=
  if cpu.context.hasException then ([], cpu)
  else if cpu.memory.patches.length = 0 then fetchPages address maxInstFetch 0 cpu
  else fetchBytes address maxInstFetch 0 cpu

end Cpu

/-! ## The instruction cache -/

/-- `InstCacheEntry`. -/
structure InstCacheEntry where
  tag : U64
  version : U64
  mode : U8
  decoded : DecodedInst

/-- An entry of a cleared cache. -/
def InstCacheEntry.zero : InstCacheEntry :=
  { tag := 0, version := 0, mode := 0, decoded := .clear }

/-- `CPU_INST_CACHE_MASK`. -/
def cpuInstCacheMask : U64 := 0x7FFF

/-- `cpu_inst_cache_index`. -/
def cpuInstCacheIndex (rip : U64) : ℕ :=
  ((rip ^^^ (rip >>> 13) ^^^ (rip >>> 27)) &&& cpuInstCacheMask).toNat

/-- `InstCache`: the slots. -/
abbrev InstCache := ℕ → InstCacheEntry

/-- A slot is a hit for an instruction pointer, a version and a mode. -/
def InstCacheEntry.isHit (slot : InstCacheEntry) (rip version : U64) (mode : U8) : Bool :=
  slot.tag == rip && slot.version == version && slot.mode == mode

/-- The engine: the CPU, its instruction cache, which is missing when it could not be
allocated, and the registered escapes. -/
structure Engine where
  cpu : Cpu
  instCache : Option InstCache
  escapes : List EscapeEntry

namespace Engine

/-- The engine with another context. -/
def setContext (engine : Engine) (ctx : CpuContext) : Engine :=
  { engine with cpu := engine.cpu.setContext ctx }

/-- `cpu_inst_cache_mode_key` on the context of the engine. -/
def modeKey (engine : Engine) : U8 × Engine :=
  ((cpuInstCacheModeKey engine.cpu.context).1,
    { engine with
      cpu := engine.cpu.setContext (cpuInstCacheModeKey engine.cpu.context).2 })

/-- The slot that is a hit for the instruction pointer under a mode key. -/
def lookup (engine : Engine) (mode : U8) : Option InstCacheEntry :=
  match engine.instCache with
  | none => none
  | some slots =>
    let slot := slots (cpuInstCacheIndex engine.cpu.context.rip)
    if slot.isHit engine.cpu.context.rip engine.cpu.memory.codeVersion mode then some slot else none

/-- `cpu_inst_cache_commit` of a decoded instruction, which is kept if it has bytes. -/
def commit (engine : Engine) (rip : U64) (mode : U8) (dec : DecodedInst) : Engine :=
  match engine.instCache with
  | none => engine
  | some slots =>
    if dec.bytes.length ≠ 0 then
      { engine with
        instCache := some (Function.update slots (cpuInstCacheIndex rip)
          { tag := rip, version := engine.cpu.memory.codeVersion, mode := mode, decoded := dec }) }
    else engine

variable (isa : InstructionSet)

/-- The part of `cpu_step_with_prefetch` that finds the instruction: the cached one, or
one that is fetched, unless `prefetched` holds its bytes already, and decoded.  The
result is `none` when no bytes could be fetched. -/
def resolve (prefetched : List U8) (engine : Engine) : Option DecodedInst × Engine :=
  match engine.modeKey with
  | (mode, engine) =>
    match engine.lookup mode with
    | some slot => (some slot.decoded, engine)
    | none =>
      let rip := engine.cpu.context.rip
      let (bytes, cpu) :=
        if prefetched.length ≠ 0 then (prefetched.take maxInstFetch, engine.cpu)
        else engine.cpu.fetchInstructionBytes rip
      let engine := { engine with cpu := cpu }
      if bytes.length = 0 then (none, engine)
      else
        let dec := isa.decode cpu.context bytes
        (some dec, engine.commit rip mode dec)

/-- The end of a step that has no bytes to execute. -/
def fetchFailed (engine : Engine) : StepResult × Engine :=
  (if engine.cpu.context.hasException then .exception else .fetchErr,
    { engine with cpu := engine.cpu.setSegmentOverride (-1) })

/-- `cpu_step_with_prefetch`. -/
def stepWithPrefetch (prefetched : List U8) (engine : Engine) : StepResult × Engine :=
  if engine.cpu.context.hasException then (.exception, engine)
  else
    let ripPre := engine.cpu.context.rip
    match engine.resolve isa prefetched with
    | (some dec, engine) =>
      if dec.bytes.length ≠ 0 then
        match engine.cpu.dispatchDecoded dec ripPre with
        | (result, cpu) => (result, { engine with cpu := cpu })
      else engine.fetchFailed
    | (none, engine) => engine.fetchFailed

/-- `cpu_step`. -/
def step (engine : Engine) : StepResult × Engine := engine.stepWithPrefetch isa []

/-- `cpu_step_decoded`. -/
def stepDecoded (slot : InstCacheEntry) (engine : Engine) : StepResult × Engine :=
  if engine.cpu.context.hasException then (.exception, engine)
  else
    match engine.cpu.dispatchDecoded slot.decoded engine.cpu.context.rip with
    | (result, cpu) => (result, { engine with cpu := cpu })

end Engine

end Cpueaxh
