/-
# The engine and its callbacks

The loops of `cpueaxh_emu_start` with the callbacks of the host program in them.  A callback
gets the engine and may call the public functions on it: it writes registers or the whole
context, maps memory, raises exceptions, adds and deletes hooks and escapes, and requests a
stop.  The loop reads the instruction pointer and two of the counters of hooks before it
calls anything, and goes on with what it has read.

The callbacks for memory accesses run in the middle of an instruction.  They edit the table
of hooks and request stops here, which the loop sees behind the fetch and behind the
instruction.  A callback does not call `cpueaxh_emu_start`.
-/
import Cpueaxh.PublicContext
import Cpueaxh.HookDispatch

namespace Cpueaxh

open Transition

/-! ## Calls -/

/-- A call of the interface by a callback. -/
inductive HostCall where
  | regWrite (write : RegWrite)
  | contextWrite (input : X86Context)
  | memory (call : MemoryCall)
  | exceptionRaise (code errorCode : U32)
  | exceptionClear
  | edit (call : HookCall)
  | emuStop

/-- What the callbacks share with the loop, but for the table of hooks: the engine, the
field `stop_requested`, and the state of the host program itself. -/
structure Shared (ω : Type) where
  engine : Engine
  stopRequested : Bool
  world : ω

/-- The engine with its table.  The escapes are those of the table; the list of the engine
is not used. -/
structure Hosted (ω : Type) where
  table : HookTable
  shared : Shared ω

/-- `cpu_has_hook_type`, for all types. -/
def HookTable.installed (table : HookTable) (type : HookType) : Bool :=
  table.hookTypeCounts type != 0

variable {ω : Type}

namespace Hosted

/-- The context of the engine. -/
def context (h : Hosted ω) : CpuContext := h.shared.engine.cpu.context

/-- The same with another engine. -/
def setEngine (h : Hosted ω) (engine : Engine) : Hosted ω :=
  { h with shared := { h.shared with engine := engine } }

/-- The same with another context. -/
def setContext (h : Hosted ω) (ctx : CpuContext) : Hosted ω :=
  h.setEngine (h.shared.engine.setContext ctx)

/-- A call that edits the table. -/
def edit (h : Hosted ω) (call : HookCall) : Hosted ω :=
  let table := h.table.edit call
  let engine := h.shared.engine
  let cpu := { engine.cpu with hooks := { engine.cpu.hooks with installed := table.installed } }
  { h.setEngine { engine with cpu := cpu } with table := table }

/-- The state after a call. -/
def call (h : Hosted ω) : HostCall → Hosted ω
  | .regWrite write => h.setContext (Cpueaxh.regWrite h.context write)
  | .contextWrite input => h.setContext (cpueaxhContextIn h.context input)
  | .memory call => h.setEngine (h.shared.engine.setMemory (memoryCall h.shared.engine.cpu.memory call))
  | .exceptionRaise code errorCode =>
    if cpuIsExceptionCode code then h.setContext (h.context.raiseException code errorCode) else h
  | .exceptionClear => h.setContext h.context.clearException
  | .edit call => h.edit call
  | .emuStop => { h with shared := { h.shared with stopRequested := true } }

/-- The same with another state of the host program. -/
def setWorld (h : Hosted ω) (world : ω) : Hosted ω :=
  { h with shared := { h.shared with world := world } }

end Hosted

/-! ## The host program -/

/-- What the callback of an escape does: its calls, the error that it returns, and the
context that it leaves. -/
structure EscapeAnswer (ω : Type) where
  calls : List HostCall
  error : CpueaxhErr
  context : X86Context
  world : ω

/-- What the callbacks for memory accesses do in a fetch or in an instruction. -/
structure MemoryAnswer (ω : Type) where
  edits : List HookCall
  stop : Bool
  world : ω

/-- The callbacks of the host program. -/
structure HostProgram (ω : Type) where
  code : (callback address userData : U64) → Hosted ω → List HostCall × ω
  escape : (callback userData : U64) → X86Context → List U8 → Hosted ω → EscapeAnswer ω
  memory : Hosted ω → MemoryAnswer ω

/-- The edit of the table that a call makes. -/
def HostCall.hookCall? : HostCall → Option HookCall
  | .edit call => some call
  | _ => none

/-- The callbacks of the code hooks, as the dispatcher calls them. -/
def HostProgram.hostCode (p : HostProgram ω) : HostCode (Shared ω) :=
  fun callback address userData table shared =>
    let answer := p.code callback address userData ⟨table, shared⟩
    let after := (run Hosted.call ⟨table, shared⟩ answer.1).setWorld answer.2
    (answer.1.filterMap HostCall.hookCall?, after.shared)

/-- `cpueaxh_dispatch_code_hooks`, with the calls that its callbacks make. -/
def Hosted.dispatch (p : HostProgram ω) (type : HookType) (address : U64) (h : Hosted ω) :
    Hosted ω :=
  let r := dispatchCodeHooks p.hostCode type address h.table h.shared
  { table := r.table, shared := r.world }

/-- There is a hook for memory accesses. -/
def HookTable.hasMemoryHook (table : HookTable) : Bool :=
  [HookType.memRead, .memWrite, .memFetch, .memReadUnmapped, .memWriteUnmapped,
    .memFetchUnmapped, .memReadProt, .memWriteProt, .memFetchProt].any table.installed

/-- The callbacks for memory accesses. -/
def Hosted.notifyMemory (p : HostProgram ω) (h : Hosted ω) : Hosted ω :=
  if h.table.hasMemoryHook then
    let answer := p.memory h
    let h := run Hosted.edit h answer.edits
    { h with
      shared := { h.shared with
        stopRequested := h.shared.stopRequested || answer.stop
        world := answer.world } }
  else h

/-! ## Escapes -/

/-- The value of `cpueaxh_escape_insn_id`. -/
def EscapeInsnId.code : EscapeInsnId → U32
  | .syscall => 1
  | .sysenter => 2
  | .int => 3
  | .int3 => 4
  | .cpuid => 5
  | .xgetbv => 6
  | .rdtsc => 7
  | .rdtscp => 8
  | .rdrand => 9
  | .hlt => 10
  | .inPort => 11
  | .outPort => 12
  | .writecrx => 13
  | .readcrx => 14
  | .rdsspd => 15
  | .rdsspq => 16
  | .ins => 17
  | .int1 => 18
  | .ud2 => 19

namespace Hosted

/-- The escape for an instruction at an address. -/
def escapeAt (h : Hosted ω) (id : EscapeInsnId) (address : U64) : Option EscapeRecord :=
  (cpueaxhLookupEscapeEntry h.table id.code).filter fun escape =>
    cpueaxhRangeContains escape.first escape.last address

/-- The part of `cpueaxh_try_dispatch_escape` that calls the callback: the error and the
state.  The context is taken over when the callback returns `CPUEAXH_ERR_OK`. -/
def callEscape (p : HostProgram ω) (escape : EscapeRecord) (size : ℕ) (bytes : List U8)
    (h : Hosted ω) : CpueaxhErr × Hosted ω :=
  let ripBefore := h.context.rip
  let answer := p.escape escape.callback escape.userData (cpueaxhContextOut h.context) bytes h
  let h := (run call h answer.calls).setWorld answer.world
  if answer.error ≠ cpueaxhErrOk then (answer.error, h)
  else
    let ctx := cpueaxhContextIn h.context answer.context
    let ctx := { ctx with
      rip := if ctx.rip = ripBefore then ripBefore + BitVec.ofNat 64 size else ctx.rip
      lastInstSize := size }
    (if ctx.hasException then cpueaxhErrException else cpueaxhErrOk, h.setContext ctx)

/-- `cpueaxh_try_dispatch_escape`: the error and the state when the instruction was taken
over, and `none` when it is left to the executor. -/
def tryDispatchEscape (p : HostProgram ω) (address : U64) (bytes : List U8) (h : Hosted ω) :
    Option (CpueaxhErr × Hosted ω) :=
  if bytes.length = 0 then none
  else
    match classifyEscapeInstruction h.context bytes with
    | none => none
    | some (id, size) =>
      match h.escapeAt id address with
      | some escape => some (h.callEscape p escape size bytes)
      | none =>
        if id.isOptional then none
        else some (cpueaxhErrException, h.setContext (h.context.raiseException id.fault 0))

end Hosted

/-! ## One turn -/

/-- The slot of an address, if the loop may execute it without a fetch. -/
def Engine.fastSlotAt (engine : Engine) (address : U64) : Option InstCacheEntry × Engine :=
  match engine.instCache with
  | none => (none, engine)
  | some slots =>
    match engine.modeKey with
    | (mode, engine) =>
      let slot := slots (cpuInstCacheIndex address)
      (if slot.isHit address engine.cpu.memory.codeVersion mode
          && slot.decoded.flags.knownNotEscape then some slot else none, engine)

/-- `need_pre_hook` and `need_post_hook`, which `cpueaxh_emu_start` reads before its loop. -/
structure HookFlags where
  needPre : Bool
  needPost : Bool
  deriving DecidableEq, Repr

namespace Hosted

/-- The code hooks before an instruction. -/
def preHooks (p : HostProgram ω) (flags : HookFlags) (address : U64) (h : Hosted ω) : Hosted ω :=
  if flags.needPre then h.dispatch p .codePre address else h

/-- The code hooks behind an instruction. -/
def postHooks (p : HostProgram ω) (flags : HookFlags) (address : U64) (h : Hosted ω) : Hosted ω :=
  if flags.needPost then h.dispatch p .codePost address else h

/-- How the loop goes on behind a step. -/
def afterStep (p : HostProgram ω) (flags : HookFlags) (address : U64) (h : Hosted ω)
    (step : StepResult × Engine) : Option CpueaxhErr × Hosted ω :=
  let h := (h.setEngine step.2).notifyMemory p
  match step.1 with
  | .ok => (none, h.postHooks p flags address)
  | .halt => (some cpueaxhErrOk, h.postHooks p flags address)
  | status => (some (translateStepError h.context status), h)

/-- The bytes at an address, and the state behind the fetch. -/
def fetch (p : HostProgram ω) (address : U64) (h : Hosted ω) : List U8 × Hosted ω :=
  let fetched := h.shared.engine.cpu.fetchInstructionBytes address
  (fetched.1, (h.setEngine { h.shared.engine with cpu := fetched.2 }).notifyMemory p)

variable (isa : InstructionSet)

/-- The part of a turn behind the fetch. -/
def afterFetch (p : HostProgram ω) (flags : HookFlags) (address : U64) (bytes : List U8)
    (h : Hosted ω) : Option CpueaxhErr × Hosted ω :=
  match h.tryDispatchEscape p address bytes with
  | some (error, h) =>
    if error ≠ cpueaxhErrOk then (some error, h) else (none, h.postHooks p flags address)
  | none => h.afterStep p flags address (h.shared.engine.stepWithPrefetch isa bytes)

/-- The part of a turn behind the code hooks. -/
def afterPre (p : HostProgram ω) (flags : HookFlags) (address : U64) (h : Hosted ω) :
    Option CpueaxhErr × Hosted ω :=
  match h.shared.engine.fastSlotAt address with
  | (some slot, engine) => (h.setEngine engine).afterStep p flags address (engine.stepDecoded slot)
  | (none, engine) =>
    match (h.setEngine engine).fetch p address with
    | (bytes, h) => h.afterFetch isa p flags address bytes

/-- A turn of the loop with hooks: the result, if it leaves the loop, and the state. -/
def turn (p : HostProgram ω) (flags : HookFlags) (h : Hosted ω) : Option CpueaxhErr × Hosted ω :=
  let address := h.context.rip
  let h := h.preHooks p flags address
  if h.shared.stopRequested then (some cpueaxhErrOk, h) else h.afterPre isa p flags address

/-- A turn of the loop without hooks and escapes. -/
def plainTurn (h : Hosted ω) : Option CpueaxhErr × Hosted ω :=
  match stepOutcome (h.shared.engine.step isa) with
  | (exit, engine) => (exit, h.setEngine engine)

/-! ## The loops -/

/-- The loop ends before its next turn. -/
def finished (request : Engine.EmuRequest) (executed : ℕ) (h : Hosted ω) : Bool :=
  decide (request.count ≠ 0 ∧ request.count ≤ executed)
    || decide (request.stopAt ≠ 0 ∧ h.context.rip = request.stopAt) || h.shared.stopRequested

/-- One of the two loops, with the turns that are left to it; `none` when it does not end
within them. -/
def emuLoop (turn : Hosted ω → Option CpueaxhErr × Hosted ω) (request : Engine.EmuRequest) :
    ℕ → ℕ → Hosted ω → Option (CpueaxhErr × Hosted ω)
  | 0, _, _ => none
  | fuel + 1, executed, h =>
    if h.finished request executed then some (cpueaxhErrOk, h)
    else
      match turn h with
      | (none, h) => emuLoop turn request fuel (executed + 1) h
      | (some error, h) => some (error, h)

/-- The state when the loop begins. -/
def prepare (request : Engine.EmuRequest) (h : Hosted ω) : Hosted ω :=
  { h with
    shared := { h.shared with
      engine := h.shared.engine.prepare request
      stopRequested := false } }

/-- The flags that `cpueaxh_emu_start` reads. -/
def flags (h : Hosted ω) : HookFlags where
  needPre := h.table.installed .codePre
  needPost := h.table.installed .codePost

/-- There are neither hooks nor escapes. -/
def isPlain (h : Hosted ω) : Bool :=
  !(h.flags.needPre || h.flags.needPost || h.table.hasMemoryHook) && h.table.escapes.length == 0

/-- The turn that `cpueaxh_emu_start` takes when it is called in the state. -/
def turnFrom (p : HostProgram ω) (h : Hosted ω) : Hosted ω → Option CpueaxhErr × Hosted ω :=
  if h.isPlain then plainTurn isa else turn isa p h.flags

/-- `cpueaxh_emu_start`, within a number of turns. -/
def emuStart (p : HostProgram ω) (request : Engine.EmuRequest) (fuel : ℕ) (h : Hosted ω) :
    Option (CpueaxhErr × Hosted ω) :=
  emuLoop (h.turnFrom isa p) request fuel 0 (h.prepare request)

end Hosted

end Cpueaxh
