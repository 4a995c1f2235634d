/-
# The turns of `cpueaxh_emu_start`

Without hooks and escapes the loop calls `cpu_step`.  Otherwise it runs the code hooks,
uses the instruction cache itself when the cached instruction is known not to escape, and
else fetches the bytes, looks for an escape in them and executes them.

Here the callbacks of the code hooks leave the engine alone.  The loops, with callbacks that
make calls and request a stop, are those of the engine with its host program.
-/
import Cpueaxh.Executor

namespace Cpueaxh

/-! ## Results -/

/-- `cpueaxh_translate_step_error`. -/
def translateStepError (ctx : CpuContext) : StepResult → CpueaxhErr
  | .ok => cpueaxhErrOk
  | .halt => cpueaxhErrOk
  | .fetchErr => cpueaxhErrFetchUnmapped
  | .ud => cpueaxhErrException
  | .exception =>
    if ctx.exception.code = cpuExceptionPf then
      let protectionViolation := ctx.exception.errorCode &&& 0x1 != 0
      let writeAccess := ctx.exception.errorCode &&& 0x2 != 0
      let execAccess := ctx.exception.errorCode &&& 0x10 != 0
      if execAccess then
        if protectionViolation then cpueaxhErrFetchProt else cpueaxhErrFetchUnmapped
      else if writeAccess then
        if protectionViolation then cpueaxhErrWriteProt else cpueaxhErrWriteUnmapped
      else if protectionViolation then cpueaxhErrReadProt
      else cpueaxhErrReadUnmapped
    else cpueaxhErrException

/-- How a loop goes on after a step: `none` is the next turn, and an error leaves the
loop. -/
def stepOutcome : StepResult × Engine → Option CpueaxhErr × Engine
  | (.ok, engine) => (none, engine)
  | (.halt, engine) => (some cpueaxhErrOk, engine)
  | (status, engine) => (some (translateStepError engine.cpu.context status), engine)

namespace Engine

/-! ## One turn -/

/-- The cached instruction that the loop executes without a fetch. -/
def fastSlot (engine : Engine) : Option InstCacheEntry × Engine :=
  match engine.instCache with
  | none => (none, engine)
  | some _ =>
    match engine.modeKey with
    | (mode, engine) =>
      ((engine.lookup mode).filter fun slot => slot.decoded.flags.knownNotEscape, engine)

variable (isa : InstructionSet)

/-- A turn of the loop without hooks. -/
def plainStep (engine : Engine) : Option CpueaxhErr × Engine := stepOutcome (engine.step isa)

/-- The part of a turn behind the fetch. -/
def stepFetched (bytes : List U8) (address : U64) (engine : Engine) :
    Option CpueaxhErr × Engine :=
  let escaped :=
    if bytes.length = 0 then none
    else tryDispatchEscape engine.escapes engine.cpu.context address bytes
  match escaped with
  | some (error, ctx) =>
    (if error = cpueaxhErrOk then none else some error, engine.setContext ctx)
  | none => stepOutcome (engine.stepWithPrefetch isa bytes)

/-- A turn of the loop with hooks or escapes. -/
def hookedStep (engine : Engine) : Option CpueaxhErr × Engine :=
  let address := engine.cpu.context.rip
  match engine.fastSlot with
  | (some slot, engine) => stepOutcome (engine.stepDecoded slot)
  | (none, engine) =>
    match engine.cpu.fetchInstructionBytes address with
    | (bytes, cpu) => ({ engine with cpu := cpu } : Engine).stepFetched isa bytes address

/-! ## The call -/

/-- The arguments `begin`, `until` and `count` of `cpueaxh_emu_start`. -/
structure EmuRequest where
  entry : U64
  stopAt : U64
  count : ℕ
  deriving DecidableEq, Repr

/-- The engine when the loop begins. -/
def prepare (request : EmuRequest) (engine : Engine) : Engine :=
  let ctx := engine.cpu.context
  let ctx := { ctx with rip := if request.entry ≠ 0 then request.entry else ctx.rip }
  engine.setContext ctx.clearException

end Engine

end Cpueaxh
