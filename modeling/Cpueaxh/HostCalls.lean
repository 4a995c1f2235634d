/-
# Host calls that write guest memory

`cpueaxh_mem_write` stores byte by byte and stops at the first byte that may not be
written; `cpueaxh_emu_start_function` borrows the quadword on top of the guest stack for
its return address, runs the guest, and stores the old quadword back.

A store that is refused half way has left its first bytes behind.  What they change is
read off the pointers of these bytes: two guest addresses may share a byte of the host,
and then the later one decides.
-/
import Cpueaxh.HookTable
import Cpueaxh.LinearBytes
import Cpueaxh.PatchOverlay

namespace Cpueaxh

open HostMemory Transition

/-! ## The calls -/

/-- `cpueaxh_translate_access_error`. -/
def translateAccessError (status : MmAccessStatus) (perm : U32) : CpueaxhErr :=
  match status with
  | .prot =>
    if perm = mmProtWrite then cpueaxhErrWriteProt
    else if perm = mmProtExec then cpueaxhErrFetchProt
    else cpueaxhErrReadProt
  | _ =>
    if perm = mmProtWrite then cpueaxhErrWriteUnmapped
    else if perm = mmProtExec then cpueaxhErrFetchUnmapped
    else cpueaxhErrReadUnmapped

/-- The result of a raw access: its status at the first byte that was refused. -/
def rawError (status : MmAccessStatus) (perm : U32) : CpueaxhErr :=
  if status = .ok then cpueaxhErrOk else translateAccessError status perm

/-- `cpueaxh_mem_write` with an engine; `none` is a `NULL` buffer. -/
def cpueaxhMemWrite (mgr : MemoryManager) (address : U64) (bytes : Option (U64 → U8))
    (size : U64) : CpueaxhErr × MemoryManager :=
  match bytes with
  | none => (if size ≠ 0 then cpueaxhErrArg else cpueaxhErrOk, mgr)
  | some bytes =>
    match memWrite mgr address bytes size with
    | (status, mgr) => (rawError status mmProtWrite, mgr)

/-- `CPUEAXH_EMU_RETURN_MAGIC`. -/
def emuReturnMagic : U64 := 0x41485841

/-- The bytes of a quadword in memory. -/
def quadwordBytes (value : U64) (i : U64) : U8 := (value >>> (8 * i.toNat)).setWidth 8

/-- What goes on inside `cpueaxh_emu_start`: the guest's steps and the calls of its
callbacks in the order in which they come, and the code that it returns. -/
structure EmuRun where
  events : List EngineEvent
  result : CpueaxhErr

/-- The engine in which the guest of `cpueaxh_emu_start_function` stops. -/
def Engine.ran (isa : InstructionSet) (engine : Engine) (request : Engine.EmuRequest) (guest : EmuRun) :
    Engine :=
  run (Engine.apply isa) (engine.prepare request) guest.events

/-- `cpueaxh_emu_start_function`. -/
def emuStartFunction (isa : InstructionSet) (entry : U64) (count : ℕ) (guest : EmuRun)
    (engine : Engine) : CpueaxhErr × Engine :=
  let stackAddress := engine.cpu.context.regs regRsp
  match memReadRaw engine.cpu.memory stackAddress 8 with
  | ((.ok, original), memory) =>
    match memWriteRaw memory stackAddress (quadwordBytes emuReturnMagic) 8 with
    | (.ok, memory) =>
      let stopped := (engine.setMemory memory).ran isa
        { entry := entry, stopAt := emuReturnMagic, count := count } guest
      match memWriteRaw stopped.cpu.memory stackAddress (fun i => original.getD i.toNat 0) 8 with
      | (status, memory) =>
        (if guest.result ≠ cpueaxhErrOk then guest.result else rawError status mmProtWrite,
          stopped.setMemory memory)
    -- the bytes that were written already stay
    | (status, memory) => (translateAccessError status mmProtWrite, engine.setMemory memory)
  | ((status, _), memory) => (translateAccessError status mmProtRead, engine.setMemory memory)

/-! ## Guest bytes -/

/-- Where the host keeps the byte of an address that grants an access. -/
def guestPlace (mgr : MemoryManager) (perm : U32) (address : U64) : Option HostPtr :=
  let view := accessView mgr address perm
  if view.status = .ok then some view.ptr else none

/-- The byte at an address that grants an access. -/
def guestByte (mgr : MemoryManager) (perm : U32) (address : U64) : Option U8 :=
  (guestPlace mgr perm address).bind mgr.host.read

/-- No access sees another byte. -/
def SameBytes (mgr mgr' : MemoryManager) : Prop :=
  ∀ perm address, guestByte mgr' perm address = guestByte mgr perm address

/-- The places of the bytes of a request up to the first one that is refused. -/
def grantedPlaces (place : U64 → Option HostPtr) : List U64 → List HostPtr
  | [] => []
  | address :: addresses =>
    match place address with
    | some p => p :: grantedPlaces place addresses
    | none => []

/-- All bytes of a request grant the access. -/
def Granted (mgr : MemoryManager) (perm : U32) (addresses : List U64) : Prop :=
  ∀ a ∈ addresses, guestPlace mgr perm a ≠ none

/-- The bytes of a request. -/
def requestBytes (bytes : U64 → U8) : ℕ → U64 → List U8
  | 0, _ => []
  | left + 1, index => bytes index :: requestBytes bytes left (index + 1)

/-- The last byte that goes to a place. -/
def lastStored : List HostPtr → List U8 → HostPtr → Option U8
  | q :: ptrs, byte :: bytes, p => (lastStored ptrs bytes p).or (if p = q then some byte else none)
  | _, _, _ => none

/-- What a place holds behind the stores. -/
def heldBehind (host : HostMemory) (ptrs : List HostPtr) (bytes : List U8) (p : HostPtr) :
    Option U8 :=
  match lastStored ptrs bytes p with
  | some byte => (host.read p).map fun _ => byte
  | none => host.read p

theorem read_commitHost_held {p : HostPtr} : ∀ (ptrs : List HostPtr) (bytes : List U8)
    (host : HostMemory), (commitHost host ptrs bytes).read p = heldBehind host ptrs bytes p
  | [], _, _ => rfl
  | _ :: _, [], _ => rfl
  | q :: ptrs, byte :: bytes, host => by
    rw [commitHost, read_commitHost_held ptrs bytes, heldBehind, heldBehind, lastStored, read_write]
    cases hlast : lastStored ptrs bytes p with
    | some later =>
      -- a later byte decides
      by_cases hq : p = q
      · subst hq
        simp [Function.comp_def]
      · simp [hq]
    | none =>
      by_cases hq : p = q
      · subst hq
        simp
      · simp [hq]

theorem mem_of_lastStored {p : HostPtr} {byte : U8} : ∀ {ptrs : List HostPtr} {bytes : List U8},
    lastStored ptrs bytes p = some byte → p ∈ ptrs
  | [], _, h => by cases h
  | _ :: _, [], h => by cases h
  | q :: ptrs, first :: bytes, h => by
    rw [lastStored, Option.or_eq_some_iff] at h
    rcases h with h | ⟨-, h⟩
    · exact List.mem_cons_of_mem q (mem_of_lastStored h)
    · split_ifs at h with hq
      exact hq ▸ List.mem_cons_self ..

/-- Bytes that go back to where they were read are the ones that were read there. -/
theorem lastStored_map {p : HostPtr} (f : HostPtr → U8) : ∀ {ptrs : List HostPtr}, p ∈ ptrs →
    lastStored ptrs (ptrs.map f) p = some (f p)
  | q :: ptrs, h => by
    rw [List.map_cons, lastStored]
    by_cases hrest : p ∈ ptrs
    · rw [lastStored_map f hrest, Option.some_or]
    · obtain rfl := (List.mem_cons.mp h).resolve_right hrest
      rw [if_pos rfl]
      cases hlast : lastStored ptrs (ptrs.map f) p with
      | some byte => exact absurd (mem_of_lastStored hlast) hrest
      | none => rfl

/-! ## What the raw accesses do -/

variable {mgr mgr' : MemoryManager}

theorem MemoryFrame.guestPlace_eq (h : MemoryFrame mgr mgr') :
    guestPlace mgr' = guestPlace mgr := by
  funext perm address
  simp only [guestPlace, h.accessView_eq]

/-- A byte that is read is the one at its place. -/
theorem mmReadByteChecked_spec (hm : MemoryOk mgr) (address : U64) (perm : U32) :
    MemoryFrame mgr (mmReadByteChecked mgr address perm).2 ∧
      (mmReadByteChecked mgr address perm).2.host = mgr.host ∧
      match guestPlace mgr perm address with
      | some p => (mmReadByteChecked mgr address perm).1.1 = .ok ∧
          (mmReadByteChecked mgr address perm).1.2 = (mgr.host.read p).getD 0
      | none => (mmReadByteChecked mgr address perm).1.1 ≠ .ok := by
  have hframe := mmGetPtrChecked_frame mgr address perm
  obtain ⟨hview, cache, hsnd, -⟩ := mmGetPtrChecked_spec hm.manager hm.cache address perm
  unfold mmReadByteChecked guestPlace
  rw [← hview]
  rcases hget : mmGetPtrChecked mgr address perm with ⟨result, mgr₁⟩
  rw [hget] at hsnd hframe
  simp only at hsnd
  subst hsnd
  cases hstatus : result.status with
  | ok => exact ⟨by simpa [hstatus] using hframe, by simp [hstatus]; rfl, by simp [hstatus]; rfl⟩
  | unmapped => exact ⟨by simpa [hstatus] using hframe, by simp [hstatus]; rfl, by simp [hstatus]⟩
  | prot => exact ⟨by simpa [hstatus] using hframe, by simp [hstatus]; rfl, by simp [hstatus]⟩

/-- A byte that is written goes to its place. -/
theorem mmWriteByteChecked_spec (hm : MemoryOk mgr) (address : U64) (value : U8) :
    match guestPlace mgr mmProtWrite address with
    | some p => (mmWriteByteChecked mgr address value).1 = .ok ∧
        (mmWriteByteChecked mgr address value).2.host = mgr.host.write p value
    | none => (mmWriteByteChecked mgr address value).1 ≠ .ok ∧
        (mmWriteByteChecked mgr address value).2.host = mgr.host := by
  obtain ⟨hview, cache, hsnd, -⟩ := mmGetPtrChecked_spec hm.manager hm.cache address mmProtWrite
  unfold mmWriteByteChecked guestPlace
  rw [← hview]
  rcases hget : mmGetPtrChecked mgr address mmProtWrite with ⟨result, mgr₁⟩
  rw [hget] at hsnd
  simp only at hsnd
  subst hsnd
  cases hstatus : result.status with
  | ok => simp [hstatus]; rfl
  | unmapped => simp [hstatus]; rfl
  | prot => simp [hstatus]; rfl

/-- **A raw read** has the bytes at their places. -/
theorem memReadLoop_spec (address : U64) (left : ℕ) : ∀ (index : U64) {mgr : MemoryManager},
    MemoryOk mgr →
    MemoryFrame mgr (memReadLoop address left index mgr).2 ∧
      (memReadLoop address left index mgr).2.host = mgr.host ∧
      ((memReadLoop address left index mgr).1.1 = .ok ↔
        Granted mgr mmProtRead (operandAddresses address left index)) ∧
      ((memReadLoop address left index mgr).1.1 = .ok → (memReadLoop address left index mgr).1.2 =
        hostBytes mgr.host (grantedPlaces (guestPlace mgr mmProtRead)
          (operandAddresses address left index))) := by
  induction left with
  | zero => exact fun _ mgr _ => ⟨.refl mgr, rfl, iff_of_true rfl nofun, fun _ => rfl⟩
  | succ left ih =>
    intro index mgr hm
    obtain ⟨hframe, hhost, hbyte⟩ := mmReadByteChecked_spec hm (address + index) mmProtRead
    rw [memReadLoop, operandAddresses, grantedPlaces]
    rcases hread : mmReadByteChecked mgr (address + index) mmProtRead with ⟨⟨status, byte⟩, mgr₁⟩
    rw [hread] at hframe hhost hbyte
    cases hplace : guestPlace mgr mmProtRead (address + index) with
    | none =>
      have hrefused : ¬ Granted mgr mmProtRead
          ((address + index) :: operandAddresses address left (index + 1)) :=
        fun h => h _ (List.mem_cons_self ..) hplace
      rw [hplace] at hbyte
      cases status with
      | ok => exact absurd rfl hbyte
      | unmapped => exact ⟨hframe, hhost, iff_of_false nofun hrefused, nofun⟩
      | prot => exact ⟨hframe, hhost, iff_of_false nofun hrefused, nofun⟩
    | some p =>
      rw [hplace] at hbyte
      obtain ⟨rfl, rfl⟩ : status = .ok ∧ byte = (mgr.host.read p).getD 0 := hbyte
      obtain ⟨hframe', hhost', hok, hbytes⟩ := ih (index + 1) (hframe.ok hm)
      simp only at hhost
      rw [Granted, hframe.guestPlace_eq] at hok
      rw [hframe.guestPlace_eq] at hbytes
      rw [hhost] at hhost' hbytes
      refine ⟨hframe.trans hframe', hhost', ?_, fun h => ?_⟩
      · rw [Granted, List.forall_mem_cons]
        exact hok.trans ⟨fun h => ⟨by simp [hplace], h⟩, fun h => h.2⟩
      · exact congrArg (_ :: ·) (hbytes h)

/-- **A raw write** stores the bytes up to the first one that is refused, and nothing else. -/
theorem memWriteLoop_spec (address : U64) (bytes : U64 → U8) (left : ℕ) :
    ∀ (index : U64) {mgr : MemoryManager}, MemoryOk mgr →
    ((memWriteLoop address bytes left index mgr).1 = .ok ↔
        Granted mgr mmProtWrite (operandAddresses address left index)) ∧
      (memWriteLoop address bytes left index mgr).2.host =
        commitHost mgr.host (grantedPlaces (guestPlace mgr mmProtWrite)
          (operandAddresses address left index))
          (requestBytes bytes left index) := by
  induction left with
  | zero => exact fun _ mgr _ => ⟨iff_of_true rfl nofun, rfl⟩
  | succ left ih =>
    intro index mgr hm
    have hframe := mmWriteByteChecked_frame mgr (address + index) (bytes index)
    have hbyte := mmWriteByteChecked_spec hm (address + index) (bytes index)
    rw [memWriteLoop, operandAddresses, grantedPlaces, requestBytes]
    rcases hwrite : mmWriteByteChecked mgr (address + index) (bytes index) with ⟨status, mgr₁⟩
    rw [hwrite] at hframe hbyte
    cases hplace : guestPlace mgr mmProtWrite (address + index) with
    | none =>
      have hrefused : ¬ Granted mgr mmProtWrite
          ((address + index) :: operandAddresses address left (index + 1)) :=
        fun h => h _ (List.mem_cons_self ..) hplace
      rw [hplace] at hbyte
      cases status with
      | ok => exact absurd rfl hbyte.1
      | unmapped => exact ⟨iff_of_false nofun hrefused, hbyte.2⟩
      | prot => exact ⟨iff_of_false nofun hrefused, hbyte.2⟩
    | some p =>
      rw [hplace] at hbyte
      obtain ⟨rfl, hhost⟩ : status = .ok ∧ mgr₁.host = mgr.host.write p (bytes index) := hbyte
      obtain ⟨hok, hrest⟩ := ih (index + 1) (hframe.ok hm)
      rw [Granted, hframe.guestPlace_eq] at hok
      rw [hframe.guestPlace_eq] at hrest
      rw [hhost] at hrest
      refine ⟨?_, hrest⟩
      rw [Granted, List.forall_mem_cons]
      exact hok.trans ⟨fun h => ⟨by simp [hplace], h⟩, fun h => h.2⟩

end Cpueaxh
