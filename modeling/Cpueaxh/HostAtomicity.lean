/-
# What a failed host call leaves behind

When a write that fails has changed nothing after all, and when the guest stack has its
old quadword again behind `cpueaxh_emu_start_function`.
-/
import Cpueaxh.HostCalls

namespace Cpueaxh

open HostMemory Transition

variable {mgr mgr' : MemoryManager}

/-! ## Places -/

theorem mem_grantedPlaces {place : U64 → Option HostPtr} {p : HostPtr} : ∀ {addresses : List U64},
    p ∈ grantedPlaces place addresses → ∃ a ∈ addresses, place a = some p
  | a :: addresses, h => by
    rw [grantedPlaces] at h
    cases hplace : place a with
    | none =>
      rw [hplace] at h
      cases h
    | some q =>
      rw [hplace, List.mem_cons] at h
      rcases h with rfl | h
      · exact ⟨a, List.mem_cons_self .., hplace⟩
      · obtain ⟨b, hb, hbp⟩ := mem_grantedPlaces h
        exact ⟨b, List.mem_cons_of_mem a hb, hbp⟩

/-- If no byte is refused, the places of all bytes are there. -/
theorem grantedPlaces_mem {place : U64 → Option HostPtr} {a : U64} {p : HostPtr} :
    ∀ {addresses : List U64}, (∀ b ∈ addresses, place b ≠ none) → a ∈ addresses →
      place a = some p → p ∈ grantedPlaces place addresses
  | b :: addresses, hall, ha, hp => by
    rw [List.forall_mem_cons] at hall
    obtain ⟨q, hq⟩ := Option.ne_none_iff_exists'.mp hall.1
    rw [grantedPlaces, hq]
    rcases List.mem_cons.mp ha with rfl | ha
    · rw [hp] at hq
      exact Option.some.inj hq ▸ List.mem_cons_self ..
    · exact List.mem_cons_of_mem q (grantedPlaces_mem hall.2 ha hp)

theorem grantedPlaces_congr {place place' : U64 → Option HostPtr} : ∀ {addresses : List U64},
    (∀ a ∈ addresses, place a = place' a) →
      grantedPlaces place addresses = grantedPlaces place' addresses
  | [], _ => rfl
  | a :: addresses, h => by
    rw [List.forall_mem_cons] at h
    rw [grantedPlaces, grantedPlaces, h.1, grantedPlaces_congr h.2]

theorem grantedPlaces_length {place : U64 → Option HostPtr} : ∀ {addresses : List U64},
    (∀ a ∈ addresses, place a ≠ none) →
      (grantedPlaces place addresses).length = addresses.length
  | [], _ => rfl
  | a :: addresses, h => by
    rw [List.forall_mem_cons] at h
    obtain ⟨q, hq⟩ := Option.ne_none_iff_exists'.mp h.1
    rw [grantedPlaces, hq, List.length_cons, List.length_cons, grantedPlaces_length h.2]

/-- Whatever the access, a byte has one place. -/
theorem guestPlace_unique {perm perm' : U32} {a : U64} {p q : HostPtr}
    (hp : guestPlace mgr perm a = some p) (hq : guestPlace mgr perm' a = some q) : p = q := by
  unfold guestPlace accessView at hp hq
  cases hentry : (pageEntry mgr a).map fun entry => entry.info a with
  | none =>
    rw [hentry] at hp
    cases hp
  | some info =>
    rw [hentry] at hp hq
    simp only [checkInfo] at hp hq
    by_cases hperm : info.perms &&& perm = 0
    · simp [hperm] at hp
    by_cases hperm' : info.perms &&& perm' = 0
    · simp [hperm'] at hq
    simp only [hperm, hperm', if_false] at hp hq
    split at hp <;> split at hq <;> simp_all

/-! ## What a refused write changes -/

/-- Each byte that a write stores up to the first one that is refused is there already; where
several bytes go to one place, the last of them is. -/
def AlreadyStored (mgr : MemoryManager) (addresses : List U64) (bytes : List U8) : Prop :=
  ∀ p, ∀ byte ∈ lastStored (grantedPlaces (guestPlace mgr mmProtWrite) addresses) bytes p,
    ∀ old ∈ mgr.host.read p, old = byte

theorem heldBehind_eq_iff {host : HostMemory} {ptrs : List HostPtr} {bytes : List U8}
    {p : HostPtr} : heldBehind host ptrs bytes p = host.read p ↔
      ∀ byte ∈ lastStored ptrs bytes p, ∀ old ∈ host.read p, old = byte := by
  unfold heldBehind
  cases lastStored ptrs bytes p with
  | none => simp
  | some byte =>
    cases host.read p with
    | none => simp
    | some old => simp [eq_comm]

/-- A manager that differs by the bytes that a write has stored. -/
structure Written (mgr mgr' : MemoryManager) (addresses : List U64) (bytes : List U8) : Prop where
  place_eq : guestPlace mgr' = guestPlace mgr
  host_eq : mgr'.host =
    commitHost mgr.host (grantedPlaces (guestPlace mgr mmProtWrite) addresses) bytes

/-- What is at an address behind a write. -/
theorem Written.guestByte_eq {addresses : List U64} {bytes : List U8}
    (h : Written mgr mgr' addresses bytes) (perm : U32) (a : U64) :
    guestByte mgr' perm a = (guestPlace mgr perm a).bind (heldBehind mgr.host
      (grantedPlaces (guestPlace mgr mmProtWrite) addresses) bytes) := by
  unfold guestByte
  rw [h.place_eq, h.host_eq]
  cases guestPlace mgr perm a with
  | none => rfl
  | some p => exact read_commitHost_held _ _ _

/-- A byte that a write has stored at a place is at each address of that place. -/
theorem Written.alreadyStored {addresses : List U64} {bytes : List U8}
    (h : Written mgr mgr' addresses bytes) {perm : U32}
    (hsame : ∀ a ∈ addresses, guestByte mgr' perm a = guestByte mgr perm a)
    (hgranted : ∀ a ∈ addresses, guestPlace mgr mmProtWrite a ≠ none →
      guestPlace mgr perm a ≠ none) : AlreadyStored mgr addresses bytes := by
  intro p byte hbyte
  obtain ⟨a, ha, hplace⟩ := mem_grantedPlaces (mem_of_lastStored hbyte)
  have hperm : guestPlace mgr perm a = some p := by
    obtain ⟨q, hq⟩ := Option.ne_none_iff_exists'.mp (hgranted a ha (by simp [hplace]))
    rw [hq, guestPlace_unique hq hplace]
  have hbyteEq := hsame a ha
  rw [h.guestByte_eq, guestByte, hperm] at hbyteEq
  exact heldBehind_eq_iff.mp hbyteEq byte hbyte

theorem AlreadyStored.sameBytes {addresses : List U64} {bytes : List U8}
    (h : AlreadyStored mgr addresses bytes) (hwritten : Written mgr mgr' addresses bytes) :
    SameBytes mgr mgr' := by
  intro perm a
  rw [hwritten.guestByte_eq, guestByte]
  cases guestPlace mgr perm a with
  | none => rfl
  | some p => exact heldBehind_eq_iff.mpr (h p)

/-- **A write changes nothing** exactly if it stores what is there. -/
theorem Written.sameBytes_iff {addresses : List U64} {bytes : List U8}
    (h : Written mgr mgr' addresses bytes) :
    SameBytes mgr mgr' ↔ AlreadyStored mgr addresses bytes :=
  ⟨fun hsame => h.alreadyStored (fun a _ => hsame mmProtWrite a) fun _ _ hgranted => hgranted,
    fun hstored => hstored.sameBytes h⟩

theorem written_memWriteRaw (hm : MemoryOk mgr) (address : U64) (bytes : U64 → U8) (size : U64) :
    Written mgr (memWriteRaw mgr address bytes size).2 (operandAddresses address size.toNat 0)
      (requestBytes bytes size.toNat 0) where
  place_eq := (memWriteLoop_frame address bytes size.toNat 0 mgr).guestPlace_eq
  host_eq := (memWriteLoop_spec address bytes size.toNat 0 hm).2

/-- The write of the host program, with the bump of the version behind it. -/
theorem written_memWrite (hm : MemoryOk mgr) (address : U64) (bytes : U64 → U8) (size : U64) :
    Written mgr (memWrite mgr address bytes size).2 (operandAddresses address size.toNat 0)
      (requestBytes bytes size.toNat 0) := by
  have hraw := written_memWriteRaw hm address bytes size
  show Written mgr (if size ≠ 0 then mmBumpCodeVersion (memWriteRaw mgr address bytes size).2
    else (memWriteRaw mgr address bytes size).2) _ _
  split_ifs
  · exact ⟨hraw.place_eq, hraw.host_eq⟩
  · exact hraw

/-! ## The borrowed quadword -/

/-- The addresses of the quadword that `cpueaxh_emu_start_function` borrows. -/
def Engine.quadword (engine : Engine) : List U64 :=
  operandAddresses (engine.cpu.context.regs regRsp) 8 0

/-- The engine with the return address on its stack. -/
def Engine.borrowed (engine : Engine) : Engine :=
  let stackAddress := engine.cpu.context.regs regRsp
  engine.setMemory (memWriteRaw (memReadRaw engine.cpu.memory stackAddress 8).2 stackAddress
    (quadwordBytes emuReturnMagic) 8).2

/-- Borrowing writes the return address and nothing else. -/
theorem written_borrowed {engine : Engine} (hm : MemoryOk engine.cpu.memory) :
    Written engine.cpu.memory engine.borrowed.cpu.memory engine.quadword
      (requestBytes (quadwordBytes emuReturnMagic) 8 0) := by
  obtain ⟨hframe, hhost, -, -⟩ := memReadLoop_spec (engine.cpu.context.regs regRsp) 8 0 hm
  have hwritten := written_memWriteRaw (hframe.ok hm) (engine.cpu.context.regs regRsp)
    (quadwordBytes emuReturnMagic) 8
  refine ⟨hwritten.place_eq.trans hframe.guestPlace_eq, ?_⟩
  rw [← hhost, ← hframe.guestPlace_eq]
  exact hwritten.host_eq

/-- The quadword has its contents again. -/
def QuadwordKept (engine engine' : Engine) : Prop :=
  ∀ a ∈ engine.quadword, guestByte engine'.cpu.memory mmProtRead a =
    guestByte engine.cpu.memory mmProtRead a

/-- Storing back reaches the quadword: behind it each byte may be read, and what is stored
last at its place, or is there if nothing is stored, is the old byte. -/
def RestoreLands (engine stopped : Engine) : Prop :=
  ∀ a ∈ engine.quadword, (guestPlace stopped.cpu.memory mmProtRead a).bind
    (heldBehind stopped.cpu.memory.host
      (grantedPlaces (guestPlace stopped.cpu.memory mmProtWrite) engine.quadword)
      (hostBytes engine.cpu.memory.host
        (grantedPlaces (guestPlace engine.cpu.memory mmProtRead) engine.quadword))) =
    guestByte engine.cpu.memory mmProtRead a

/-- The exits of `cpueaxh_emu_start_function` that leave the quadword as it was: it cannot be
read; it cannot be written as a whole, and the bytes of the return address ahead of the refused
byte are there already; or it is written, and storing back reaches it. -/
structure BorrowSafe (isa : InstructionSet) (entry : U64) (count : ℕ) (guest : EmuRun)
    (engine : Engine) : Prop where
  refused : Granted engine.cpu.memory mmProtRead engine.quadword →
    ¬ Granted engine.cpu.memory mmProtWrite engine.quadword →
    AlreadyStored engine.cpu.memory engine.quadword
      (requestBytes (quadwordBytes emuReturnMagic) 8 0)
  restored : Granted engine.cpu.memory mmProtRead engine.quadword →
    Granted engine.cpu.memory mmProtWrite engine.quadword →
    RestoreLands engine (engine.borrowed.ran isa
      { entry := entry, stopAt := emuReturnMagic, count := count } guest)

/-- The old bytes are stored as they were read. -/
theorem requestBytes_getD : ∀ {original : List U8}, original.length = 8 →
    requestBytes (fun i => original.getD i.toNat 0) 8 0 = original
  | [_, _, _, _, _, _, _, _], _ => rfl

/-- A quadword that cannot be read is not touched. -/
theorem quadwordKept_of_frame {engine engine' : Engine}
    (hframe : MemoryFrame engine.cpu.memory engine'.cpu.memory)
    (hhost : engine'.cpu.memory.host = engine.cpu.memory.host) : QuadwordKept engine engine' := by
  intro a _
  rw [guestByte, guestByte, hframe.guestPlace_eq, hhost]

section Borrow

variable {isa : InstructionSet} {entry : U64} {count : ℕ} {guest : EmuRun} {engine : Engine}

/-- Behind a return address that is refused. -/
theorem quadwordKept_iff_of_refused
    (hwritten : Written engine.cpu.memory mgr' engine.quadword
      (requestBytes (quadwordBytes emuReturnMagic) 8 0))
    (hread : Granted engine.cpu.memory mmProtRead engine.quadword) :
    QuadwordKept engine (engine.setMemory mgr') ↔
      AlreadyStored engine.cpu.memory engine.quadword
        (requestBytes (quadwordBytes emuReturnMagic) 8 0) := by
  constructor
  · intro hkept
    exact hwritten.alreadyStored hkept fun a ha _ => hread a ha
  · intro hstored a _
    exact hstored.sameBytes hwritten mmProtRead a

/-- Behind a run that stops, with the old quadword stored back. -/
theorem quadwordKept_iff_of_stopped {stopped : Engine} {original : List U8}
    (hread : Granted engine.cpu.memory mmProtRead engine.quadword)
    (horiginal : original = hostBytes engine.cpu.memory.host
      (grantedPlaces (guestPlace engine.cpu.memory mmProtRead) engine.quadword))
    (hm : MemoryOk stopped.cpu.memory) :
    QuadwordKept engine (stopped.setMemory (memWriteRaw stopped.cpu.memory
        (engine.cpu.context.regs regRsp) (fun i => original.getD i.toNat 0) 8).2) ↔
      RestoreLands engine stopped := by
  have hlength : original.length = 8 := by
    rw [horiginal, hostBytes_length, grantedPlaces_length hread]
    rfl
  have hwritten : Written stopped.cpu.memory _ engine.quadword _ :=
    written_memWriteRaw hm (engine.cpu.context.regs regRsp) (fun i => original.getD i.toNat 0) 8
  rw [show requestBytes _ (8 : U64).toNat 0 = original from requestBytes_getD hlength] at hwritten
  refine forall₂_congr fun a _ => ?_
  rw [← horiginal]
  exact Eq.congr (hwritten.guestByte_eq mmProtRead a) rfl

end Borrow

/-- **A run that leaves the quadword where it is**, with its permissions, lets it be restored. -/
theorem restoreLands_of_places {engine stopped : Engine}
    (hread : Granted engine.cpu.memory mmProtRead engine.quadword)
    (hwrite : Granted engine.cpu.memory mmProtWrite engine.quadword)
    (hplaces : ∀ a ∈ engine.quadword, ∀ perm,
      guestPlace stopped.cpu.memory perm a = guestPlace engine.cpu.memory perm a)
    (hbytes : ∀ a ∈ engine.quadword, guestByte engine.cpu.memory mmProtRead a ≠ none ∧
      guestByte stopped.cpu.memory mmProtRead a ≠ none) : RestoreLands engine stopped := by
  have hsame : grantedPlaces (guestPlace stopped.cpu.memory mmProtWrite) engine.quadword =
      grantedPlaces (guestPlace engine.cpu.memory mmProtRead) engine.quadword := by
    refine grantedPlaces_congr fun a ha => ?_
    obtain ⟨p, hp⟩ := Option.ne_none_iff_exists'.mp (hwrite a ha)
    obtain ⟨q, hq⟩ := Option.ne_none_iff_exists'.mp (hread a ha)
    rw [hplaces a ha, hp, hq, guestPlace_unique hp hq]
  intro a ha
  obtain ⟨p, hp⟩ := Option.ne_none_iff_exists'.mp (hread a ha)
  obtain ⟨hold, hnew⟩ := hbytes a ha
  rw [guestByte, hplaces a ha, hp, Option.bind_some] at hnew
  rw [guestByte, hp, Option.bind_some] at hold
  obtain ⟨old, hold⟩ := Option.ne_none_iff_exists'.mp hold
  obtain ⟨new, hnew⟩ := Option.ne_none_iff_exists'.mp hnew
  have hlast := lastStored_map (fun p => (engine.cpu.memory.host.read p).getD 0)
    (grantedPlaces_mem hread ha hp)
  rw [guestByte, hplaces a ha, hp, hsame, Option.bind_some, Option.bind_some, heldBehind,
    hostBytes, hlast]
  simp [hold, hnew]

/-- The guest keeps the invariant of the memory. -/
theorem memoryOk_ran {isa : InstructionSet} {engine : Engine} (hm : MemoryOk engine.cpu.memory)
    {request : Engine.EmuRequest} (guest : EmuRun) :
    MemoryOk (engine.ran isa request guest).cpu.memory :=
  have hprepared : MemoryOk (engine.prepare request).cpu.memory := hm
  memoryOk_run hprepared guest.events

/-- **The exits** of `cpueaxh_emu_start_function`. -/
theorem emuStartFunction_exit (isa : InstructionSet) (entry : U64) (count : ℕ) (guest : EmuRun)
    {engine : Engine} (hm : MemoryOk engine.cpu.memory) :
    let loaded := memReadRaw engine.cpu.memory (engine.cpu.context.regs regRsp) 8
    let stopped := engine.borrowed.ran isa
      { entry := entry, stopAt := emuReturnMagic, count := count } guest
    let final := (emuStartFunction isa entry count guest engine).2
    (¬ Granted engine.cpu.memory mmProtRead engine.quadword ∧ final = engine.setMemory loaded.2) ∨
    Granted engine.cpu.memory mmProtRead engine.quadword ∧
      (¬ Granted engine.cpu.memory mmProtWrite engine.quadword ∧ final = engine.borrowed ∨
        Granted engine.cpu.memory mmProtWrite engine.quadword ∧
        final = stopped.setMemory (memWriteRaw stopped.cpu.memory (engine.cpu.context.regs regRsp)
          (fun i => loaded.1.2.getD i.toNat 0) 8).2) := by
  intro loaded stopped final
  obtain ⟨hframe, -, hread, -⟩ := memReadLoop_spec (engine.cpu.context.regs regRsp) 8 0 hm
  have hwrite := (memWriteLoop_spec (engine.cpu.context.regs regRsp)
    (quadwordBytes emuReturnMagic) 8 0 (hframe.ok hm)).1
  rw [Granted, hframe.guestPlace_eq] at hwrite
  change loaded.1.1 = .ok ↔ Granted engine.cpu.memory mmProtRead engine.quadword at hread
  change (memWriteRaw loaded.2 (engine.cpu.context.regs regRsp)
    (quadwordBytes emuReturnMagic) 8).1 = .ok ↔
      Granted engine.cpu.memory mmProtWrite engine.quadword at hwrite
  have hunmapped : MmAccessStatus.unmapped ≠ .ok := by decide
  have hprot : MmAccessStatus.prot ≠ .ok := by decide
  rw [← hread, ← hwrite]
  simp only [final, stopped, emuStartFunction, Engine.borrowed, loaded]
  rcases memReadRaw engine.cpu.memory (engine.cpu.context.regs regRsp) 8 with
    ⟨⟨_ | _ | _, original⟩, memory⟩
  · rcases hmagic : memWriteRaw memory (engine.cpu.context.regs regRsp)
      (quadwordBytes emuReturnMagic) 8 with ⟨_ | _ | _, written⟩
    · exact .inr ⟨rfl, .inr ⟨rfl, by simp only [hmagic]⟩⟩
    · exact .inr ⟨rfl, .inl ⟨hunmapped, by simp only [hmagic]⟩⟩
    · exact .inr ⟨rfl, .inl ⟨hprot, by simp only [hmagic]⟩⟩
  · exact .inl ⟨hunmapped, rfl⟩
  · exact .inl ⟨hprot, rfl⟩

/-- **The borrowed quadword** is as it was on the exits that reach it with their writes, and
only on them. -/
theorem quadwordKept_iff (isa : InstructionSet) (entry : U64) (count : ℕ) (guest : EmuRun)
    {engine : Engine} (hm : MemoryOk engine.cpu.memory) :
    QuadwordKept engine (emuStartFunction isa entry count guest engine).2 ↔
      BorrowSafe isa entry count guest engine := by
  obtain ⟨hframe, hhost, hread, hbytes⟩ :=
    memReadLoop_spec (engine.cpu.context.regs regRsp) 8 0 hm
  rcases emuStartFunction_exit isa entry count guest hm with
    ⟨hunreadable, hexit⟩ | ⟨hreadable, ⟨hrefused, hexit⟩ | ⟨hgranted, hexit⟩⟩
  · rw [hexit]
    exact iff_of_true (quadwordKept_of_frame hframe hhost)
      ⟨fun h => absurd h hunreadable, fun h => absurd h hunreadable⟩
  · rw [hexit]
    refine Iff.trans (quadwordKept_iff_of_refused (written_borrowed hm) hreadable) ?_
    exact ⟨fun h => ⟨fun _ _ => h, fun _ h' => absurd h' hrefused⟩,
      fun h => h.refused hreadable hrefused⟩
  · rw [hexit]
    have hborrowed : MemoryOk engine.borrowed.cpu.memory :=
      (memWriteLoop_frame _ _ _ _ _).ok (hframe.ok hm)
    refine Iff.trans (quadwordKept_iff_of_stopped hreadable (hbytes (hread.mpr hreadable))
      (memoryOk_ran hborrowed guest)) ?_
    exact ⟨fun h => ⟨fun _ h' => absurd hgranted h', fun _ _ => h⟩,
      fun h => h.restored hreadable hgranted⟩

/-- **The atomicity of host calls.** -/
theorem host_call_atomicity (isa : InstructionSet) :
    (∀ {mgr : MemoryManager}, MemoryOk mgr → ∀ address bytes size,
      (cpueaxhMemWrite mgr address bytes size).1 ≠ cpueaxhErrOk →
      (SameBytes mgr (cpueaxhMemWrite mgr address bytes size).2 ↔
        ∀ source ∈ bytes, AlreadyStored mgr (operandAddresses address size.toNat 0)
          (requestBytes source size.toNat 0))) ∧
    ∀ {engine : Engine}, MemoryOk engine.cpu.memory → ∀ entry count guest,
      (QuadwordKept engine (emuStartFunction isa entry count guest engine).2 ↔
        BorrowSafe isa entry count guest engine) := by
  refine ⟨fun hm address bytes size _ => ?_, fun hm entry count guest =>
    quadwordKept_iff isa entry count guest hm⟩
  cases bytes with
  | none => exact iff_of_true (fun _ _ => rfl) nofun
  | some source =>
    refine Iff.trans (written_memWrite hm address source size).sameBytes_iff ?_
    simp

/-- A page that may be written, and behind it one that may only be read. -/
def twoPages : MemoryManager :=
  memoryCall (memoryCall (mmInit (.initial (fun _ => 0) fun _ => true))
    (.layout (.map 0x1000 0x1000 (mmProtRead ||| mmProtWrite))))
    (.layout (.map 0x2000 0x1000 mmProtRead))

theorem memoryOk_twoPages : MemoryOk twoPages :=
  (memoryCall_ok (memoryCall_ok (memoryOk_mmInit _) _).1 _).1

/-- An engine with its stack pointer at an address. -/
def stackAt (address : U64) : Engine :=
  (openEngine false false (.initial (fun _ => 0) fun _ => true)).setMemory twoPages
    |>.setContext { initCpuContext false with
      regs := Function.update (initCpuContext false).regs regRsp address }

/-- A write that is refused at its first byte, and a call with the stack in the first page. -/
theorem host_call_atomicity_example :
    SameBytes twoPages (cpueaxhMemWrite twoPages 0x2000 (some fun _ => 0x90) 2).2 ∧
      QuadwordKept (stackAt 0x1800)
        (emuStartFunction sampleSet 0x5000 1 ⟨[], cpueaxhErrOk⟩ (stackAt 0x1800)).2 := by
  obtain ⟨hwrite, hstart⟩ := host_call_atomicity sampleSet
  have hquadword : (stackAt 0x1800).quadword =
      [0x1800, 0x1801, 0x1802, 0x1803, 0x1804, 0x1805, 0x1806, 0x1807] := rfl
  refine ⟨(hwrite memoryOk_twoPages 0x2000 (some fun _ => 0x90) 2 (by decide +kernel)).mpr ?_,
    (hstart memoryOk_twoPages 0x5000 1 ⟨[], cpueaxhErrOk⟩).mpr ⟨?_, ?_⟩⟩
  · rintro source hsource p byte hbyte
    have hnone : grantedPlaces (guestPlace twoPages mmProtWrite)
        (operandAddresses 0x2000 (2 : U64).toNat 0) = [] := by decide +kernel
    rw [hnone] at hbyte
    cases hbyte
  · intro _ hrefused
    refine absurd ?_ hrefused
    rw [Granted, hquadword]
    simp only [List.forall_mem_cons, List.not_mem_nil, false_implies, implies_true, and_true]
    decide +kernel
  · intro hread hwrite
    -- the guest does nothing, so the pages are where they were
    refine restoreLands_of_places hread hwrite (fun a _ perm => ?_) ?_
    · exact congrFun (congrFun (written_borrowed memoryOk_twoPages).place_eq perm) a
    · rw [hquadword]
      simp only [List.forall_mem_cons, List.not_mem_nil, false_implies, implies_true, and_true]
      decide +kernel

/-- A write into the page that may only be read leaves its first byte behind, and so does a call
with its stack across the two pages. -/
theorem refused_host_call_writes :
    (cpueaxhMemWrite twoPages 0x1FFF (some fun _ => 0x90) 2).1 ≠ cpueaxhErrOk ∧
      ¬ SameBytes twoPages (cpueaxhMemWrite twoPages 0x1FFF (some fun _ => 0x90) 2).2 ∧
      ¬ QuadwordKept (stackAt 0x1FFC)
        (emuStartFunction sampleSet 0x5000 1 ⟨[], cpueaxhErrOk⟩ (stackAt 0x1FFC)).2 := by
  refine ⟨by decide +kernel, fun h => ?_, fun h => ?_⟩
  · have hbyte := h mmProtRead 0x1FFF
    exact absurd hbyte (by decide +kernel)
  · have hbyte := h 0x1FFC (by decide +kernel)
    exact absurd hbyte (by decide +kernel)

end Cpueaxh
