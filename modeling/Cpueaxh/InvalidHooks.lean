/-
# Hooks for invalid accesses

`cpu_notify_invalid_memory_hook` and the resolvers of `cpu/memory.hpp` that ask it.  A callback
gets the engine and may leave any other one behind; what it returns says only whether it
claims to have handled the access.  A byte is tried four times; an access that needs one
pointer starts again, without a count, when the callbacks claim to have handled a seam.
-/
import Cpueaxh.AtomicAccess
import Cpueaxh.HostedEngine

namespace Cpueaxh

open HostMemory

variable {ω : Type}

/-! ## The callbacks -/

/-- What a callback is told of an access. -/
structure InvalidReport where
  address : U64
  size : ℕ
  value : U64

/-- What the callbacks are told of a byte: its own address where the one to be reported is zero. -/
def InvalidReport.forByte (report : InvalidReport) (address : U64) : InvalidReport :=
  if report.address = 0 then { report with address := address } else report

/-- The callbacks for invalid accesses: whether the value returned is not zero, and what the
callback leaves behind. -/
abbrev InvalidCallbacks (ω : Type) : Type :=
  (callback userData : U64) → HookType → InvalidReport → Hosted ω → Bool × Hosted ω

/-- The engine with its table, and the number of callbacks so far. -/
structure Asking (ω : Type) where
  hosted : Hosted ω
  calls : ℕ

namespace Asking

/-- The engine before the first callback. -/
def start (hosted : Hosted ω) : Asking ω := { hosted, calls := 0 }

@[simp] theorem start_calls (h : Hosted ω) : (start h).calls = 0 := rfl

@[simp] theorem start_hosted (h : Hosted ω) : (start h).hosted = h := rfl

/-- The CPU of the engine. -/
def cpu (s : Asking ω) : Cpu := s.hosted.shared.engine.cpu

/-- The context of the engine. -/
def context (s : Asking ω) : CpuContext := s.cpu.context

/-- The same with another CPU. -/
def setCpu (s : Asking ω) (cpu : Cpu) : Asking ω :=
  { s with hosted := s.hosted.setEngine { s.hosted.shared.engine with cpu := cpu } }

/-- The same with another context. -/
def setContext (s : Asking ω) (ctx : CpuContext) : Asking ω :=
  s.setCpu { s.cpu with context := ctx }

/-- `cpu_raise_page_fault`. -/
def raisePageFault (s : Asking ω) (address : U64) (access : Access) (violation : Bool) :
    Asking ω :=
  s.setContext (cpuRaisePageFault s.context address access violation)

end Asking

/-- The callback that the loop of `cpu_notify_invalid_memory_hook` calls for a slot. -/
def invalidCallback (table : HookTable) (type : HookType) (address : U64) (index : HookSlot) :
    Option (U64 × U64) :=
  match table.hooks index with
  | none => none
  | some hook =>
    if hook.type ≠ type then none
    else if cpueaxhRangeContains hook.first hook.last address then
      hook.invalidMemCallback.map fun callback => (callback, hook.userData)
    else none

/-- One slot of the loop, with the variable `handled`. -/
def notifySlot (callbacks : InvalidCallbacks ω) (type : HookType) (report : InvalidReport)
    (p : Bool × Asking ω) (index : HookSlot) : Bool × Asking ω :=
  match invalidCallback p.2.hosted.table type report.address index with
  | none => p
  | some (callback, userData) =>
    let answer := callbacks callback userData type report p.2.hosted
    (p.1 || answer.1, { hosted := answer.2, calls := p.2.calls + 1 })

/-- `cpu_notify_invalid_memory_hook`. -/
def cpuNotifyInvalidMemoryHook (callbacks : InvalidCallbacks ω) (type : HookType)
    (report : InvalidReport) (s : Asking ω) : Bool × Asking ω :=
  if s.hosted.table.installed type then
    (List.finRange cpueaxhMaxHooks).foldl (notifySlot callbacks type report) (false, s)
  else (false, s)

namespace Asking

variable (callbacks : InvalidCallbacks ω) (report : InvalidReport)

/-- `cpu_try_handle_invalid_memory_access`. -/
def tryHandle (s : Asking ω) (access : Access) (violation : Bool) : Bool × Asking ω :=
  cpuNotifyInvalidMemoryHook callbacks (cpuGetInvalidMemoryHookType access violation) report s

/-- `cpu_has_invalid_memory_hooks_for_access`. -/
def hasInvalidMemoryHooks (s : Asking ω) (access : Access) : Bool :=
  s.hosted.table.installed (cpuGetInvalidMemoryHookType access false)
    || s.hosted.table.installed (cpuGetInvalidMemoryHookType access true)

/-! ## One byte -/

/-- One attempt of `cpu_resolve_memory_access`. -/
def attempt (s : Asking ω) (address : U64) (access : Access) : Except Bool HostPtr × Asking ω :=
  ((s.cpu.attempt address access).1, s.setCpu (s.cpu.attempt address access).2)

/-- The loop of `cpu_resolve_memory_access`, with the number of attempts that are left. -/
def resolveLoop (address : U64) (access : Access) : ℕ → Asking ω → Option HostPtr × Asking ω
  | 0, s => (none, s.raisePageFault address access true)
  | left + 1, s =>
    match s.attempt address access with
    | (.ok ptr, s) => (some ptr, s)
    | (.error violation, s) =>
      match s.tryHandle callbacks report access violation with
      | (true, s) => resolveLoop address access left s
      | (false, s) => (none, s.raisePageFault address access violation)

/-- `cpu_resolve_memory_access`; `none` is any status but `MM_ACCESS_OK`. -/
def resolve (s : Asking ω) (address : U64) (access : Access) : Option HostPtr × Asking ω :=
  if s.context.hasException then (none, s)
  else
    match cpuValidateLinearAddress s.context address .ds with
    | (false, ctx) => (none, s.setContext ctx)
    | (true, _) =>
      if s.hasInvalidMemoryHooks access then
        resolveLoop callbacks (report.forByte address) address access 4 s
      else
        match s.attempt address access with
        | (.ok ptr, s) => (some ptr, s)
        | (.error violation, s) => (none, s.raisePageFault address access violation)

/-! ## One pointer -/

/-- The page loop of `cpu_get_contiguous_ptr_impl`, with the bytes that are left as fuel. -/
def walkPages (address : U64) (size : ℕ) (access : Access) :
    ℕ → ℕ → Option HostPtr → Asking ω → PtrSearch × Asking ω
  | 0, _, base, s => (.ofBase base, s)
  | fuel + 1, offset, base, s =>
    if offset < size then
      let current := address + BitVec.ofNat 64 offset
      match s.resolve callbacks report current access with
      | (none, s) => (.refused, s)
      | (some page, s) =>
        let chunk := cpuPageBytesRemaining current
        let next := offset + if chunk < size - offset then chunk else size - offset
        match base with
        | none => walkPages address size access fuel next (some page) s
        | some base =>
          if page = base.add (BitVec.ofNat 64 offset) then
            walkPages address size access fuel next (some base) s
          else (.split current, s)
    else (.ofBase base, s)

/-- The byte loop of `cpu_get_contiguous_ptr_impl`. -/
def walkBytes (address : U64) (access : Access) (base : HostPtr) :
    ℕ → ℕ → Asking ω → PtrSearch × Asking ω
  | 0, _, s => (.found base, s)
  | left + 1, offset, s =>
    match s.resolve callbacks report (address + BitVec.ofNat 64 offset) access with
    | (none, s) => (.refused, s)
    | (some next, s) =>
      if next = base.add (BitVec.ofNat 64 offset) then
        walkBytes address access base left (offset + 1) s
      else (.split (address + BitVec.ofNat 64 offset), s)

/-- One pass of `cpu_get_contiguous_ptr_impl`. -/
def walk (s : Asking ω) (address : U64) (size : ℕ) (access : Access) : PtrSearch × Asking ω :=
  if s.cpu.memory.patches.length = 0 then
    if size ≤ cpuPageBytesRemaining address then
      let (ptr, s) := s.resolve callbacks report address access
      (.ofBase ptr, s)
    else walkPages callbacks report address size access size 0 none s
  else
    match s.resolve callbacks report address access with
    | (none, s) => (.refused, s)
    | (some base, s) => walkBytes callbacks report address access base (size - 1) 1 s

/-- `cpu_get_contiguous_ptr`, which is `cpu_get_contiguous_ptr_impl` with `fault_on_split`; `none`
outside stands for passes that are still to come when the fuel is used up. -/
def contiguousPtr (address : U64) (size : ℕ) (access : Access) :
    ℕ → Asking ω → Option (Option HostPtr × Asking ω)
  | 0, _ => none
  | fuel + 1, s =>
    if size = 0 || s.context.hasException then some (none, s)
    else
      match s.walk callbacks report address size access with
      | (.found p, s) => some (some p, s)
      | (.refused, s) => some (none, s)
      | (.split current, s) =>
        match s.tryHandle callbacks report access true with
        | (true, s) => contiguousPtr address size access fuel s
        | (false, s) => some (none, s.raisePageFault current access true)

/-- `cpu_try_get_contiguous_ptr`, which is `cpu_get_contiguous_ptr_impl` without
`fault_on_split`. -/
def tryContiguousPtr (s : Asking ω) (address : U64) (size : ℕ) (access : Access) :
    Option HostPtr × Asking ω :=
  if size = 0 || s.context.hasException then (none, s)
  else
    match s.walk callbacks report address size access with
    | (.found p, s) => (some p, s)
    | (.refused, s) => (none, s)
    | (.split _, s) => (none, s)

/-- The loop that resolves each byte of an access on its own. -/
def resolveBytes (address : U64) (access : Access) :
    ℕ → ℕ → Asking ω → Option (List HostPtr) × Asking ω
  | 0, _, s => (some [], s)
  | left + 1, offset, s =>
    match s.resolve callbacks report (address + BitVec.ofNat 64 offset) access with
    | (none, s) => (none, s)
    | (some p, s) =>
      match resolveBytes address access left (offset + 1) s with
      | (none, s) => (none, s)
      | (some rest, s) => (some (p :: rest), s)

/-- How the loads and stores of `cpu/memory.hpp` and `cpu/helper.hpp` resolve their bytes: with
one pointer, or with a pointer for each byte. -/
def bytePtrs (s : Asking ω) (address : U64) (size : ℕ) (access : Access) :
    Option (List HostPtr) × Asking ω :=
  if size = 1 then resolveBytes callbacks report address access 1 0 s
  else
    match s.tryContiguousPtr callbacks report address size access with
    | (some p, s) => (some (consecutive p size 0), s)
    | (none, s) => resolveBytes callbacks report address access size 0 s

end Asking

/-- An access.  A locked one needs one pointer for all of its bytes. -/
structure HookedAccess where
  address : U64
  size : ℕ
  access : Access
  value : U64
  onePointer : Bool
  size_pos : 0 < size
  size_lt : size < 2 ^ 64

/-- What the callbacks are told of an access. -/
def HookedAccess.report (a : HookedAccess) : InvalidReport :=
  { address := a.address, size := a.size, value := a.value }

/-- Resolve an access; `none` stands for passes that are still to come when the fuel is used
up. -/
def HookedAccess.pointers (a : HookedAccess) (callbacks : InvalidCallbacks ω) (fuel : ℕ)
    (s : Asking ω) : Option (Option (List HostPtr) × Asking ω) :=
  if a.onePointer then
    (s.contiguousPtr callbacks a.report a.address a.size a.access fuel).map fun r =>
      (r.1.map fun p => consecutive p a.size 0, r.2)
  else some (s.bytePtrs callbacks a.report a.address a.size a.access)

end Cpueaxh
