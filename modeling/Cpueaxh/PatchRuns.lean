/-
# Runs and the overlay of patches

The law of the overlay in every state of every run.  The handle of a patch is a counter
that wraps, so a run of `2^64` additions can give a new patch the handle of a live one; a
run whose additions meet no live patch under the next handle keeps the law.
-/
import Cpueaxh.PatchOverlay
import Cpueaxh.SampleInstructions

namespace Cpueaxh

open HostMemory Transition

variable {isa : InstructionSet}

/-! ## The law -/

/-- What happens while only patches are added, deleted and written. -/
def PatchEvent (engine : Engine) : LookupEvent → Prop
  | .engine (.memory (.addPatch _ _ _)) => True
  | .engine (.memory (.delPatch _)) => True
  | .engine (.memory (.write address _ size)) =>
    Covered engine.cpu.memory (operandAddresses address size.toNat 0)
  | .engine (.rawWrite address _ size) =>
    Covered engine.cpu.memory (operandAddresses address size.toNat 0)
  | .query _ => True
  | .access _ _ => True
  | .engine _ => False

/-- The law of the overlay. -/
structure PatchOverlay (isa : InstructionSet) (engine : Engine) : Prop where
  disjoint : engine.cpu.memory.patches.Pairwise fun p q =>
    ∀ a, ¬ (p.covers a = true ∧ q.covers a = true)
  handles : engine.cpu.memory.patches.Pairwise fun p q => p.handle ≠ q.handle
  bounds : ∀ p ∈ engine.cpu.memory.patches,
    engine.cpu.memory.patchMinAddress ≤ p.address ∧ p.last ≤ engine.cpu.memory.patchMaxAddress
  find : ∀ a p, mmFindPatch engine.cpu.memory a = some p ↔
    p ∈ engine.cpu.memory.patches ∧ p.covers a = true
  hostRead : HostMode engine.cpu.memory → ∀ address size,
    (memReadRaw engine.cpu.memory address size).1.1 = .ok →
    ∃ ptrs, OverlayPtrs engine.cpu.memory address size.toNat 0 ptrs ∧
      (memReadRaw engine.cpu.memory address size).1.2 =
        ptrs.map fun p => (engine.cpu.memory.host.read p).getD 0
  guestRead : HostMode engine.cpu.memory → engine.cpu.context.hasException = false →
    ∀ size > 0, ∀ address,
    ((readMemory size address).run cpuOp engine.cpu).2.context.hasException = false →
    ∃ ptrs, OverlayPtrs engine.cpu.memory address size 0 ptrs ∧
      ((readMemory size address).run cpuOp engine.cpu).1 =
        loadValue engine.cpu.memory.host ptrs
  hostWrite : HostMode engine.cpu.memory → ∀ address bytes size,
    Covered engine.cpu.memory (operandAddresses address size.toNat 0) →
    StoresPatches engine.cpu.memory (memWriteRaw engine.cpu.memory address bytes size).2
      (operandAddresses address size.toNat 0)
  guestWrite : HostMode engine.cpu.memory → engine.cpu.context.hasException = false →
    ∀ size > 0, ∀ address value,
    Covered engine.cpu.memory (operandAddresses address size 0) →
    StoresPatches engine.cpu.memory
      ((writeMemory size address value).run cpuOp engine.cpu).2.memory
      (operandAddresses address size 0)
  added : ∀ address bytes size, (mmAddPatch engine.cpu.memory address bytes size).1 = .ok →
    OverlayAdded engine.cpu.memory (mmAddPatch engine.cpu.memory address bytes size).2
      address bytes size
  deleted : ∀ p ∈ engine.cpu.memory.patches, p.handle ≠ 0 →
    OverlayDeleted engine.cpu.memory (mmDelPatch engine.cpu.memory p.handle).2 p
  stable : HostMode engine.cpu.memory → ∀ later, Along (Engine.look isa) PatchEvent engine later →
    ∀ b, underlyingByte (run (Engine.look isa) engine later).cpu.memory b =
      underlyingByte engine.cpu.memory b

/-! ## Bytes under the patches over a run -/

/-- **One patch event** leaves the bytes under the patches. -/
theorem patchEvent_underlying (isa : InstructionSet) {engine : Engine} (hm : MemoryOk engine.cpu.memory)
    (htable : PatchTable engine.cpu.memory) (hhost : HostMode engine.cpu.memory)
    {event : LookupEvent} (h : PatchEvent engine event) :
    HostMode (engine.look isa event).cpu.memory ∧
      ∀ b, underlyingByte (engine.look isa event).cpu.memory b =
        underlyingByte engine.cpu.memory b := by
  have hwritten : ∀ address bytes (size : U64),
      Covered engine.cpu.memory (operandAddresses address size.toNat 0) →
      HostMode (memWriteRaw engine.cpu.memory address bytes size).2 ∧
        ∀ b, underlyingByte (memWriteRaw engine.cpu.memory address bytes size).2 b =
          underlyingByte engine.cpu.memory b := by
    intro address bytes size hcovered
    have hframe := memWriteLoop_frame address bytes size.toNat 0 engine.cpu.memory
    have honly := memWriteLoop_only address bytes size.toNat 0 _ hm htable hhost
    refine ⟨?_, (honly.storesPatches hm htable hcovered hframe).underlying⟩
    unfold HostMode memWriteRaw
    rw [hframe.same]
    exact hhost
  cases event with
  | query address =>
    obtain ⟨-, cache, heq, -⟩ := mmQuery_spec hm.manager hm.cache address
    show HostMode (mmQuery engine.cpu.memory address).2 ∧
      ∀ b, underlyingByte (mmQuery engine.cpu.memory address).2 b = _
    rw [heq]
    exact ⟨hhost, fun _ => rfl⟩
  | access address perm =>
    obtain ⟨-, cache, heq, -⟩ := mmGetPtrChecked_spec hm.manager hm.cache address perm
    show HostMode (mmGetPtrChecked engine.cpu.memory address perm).2 ∧
      ∀ b, underlyingByte (mmGetPtrChecked engine.cpu.memory address perm).2 b = _
    rw [heq]
    exact ⟨hhost, fun _ => rfl⟩
  | engine event =>
    cases event with
    | rawWrite address bytes size => exact hwritten address bytes size h
    | memory call =>
      cases call with
      | addPatch address bytes size =>
        show HostMode (mmAddPatch engine.cpu.memory address bytes size).2 ∧
          ∀ b, underlyingByte (mmAddPatch engine.cpu.memory address bytes size).2 b = _
        rcases mmAddPatch_cases (fun p hp => (htable.shape p hp).1) address bytes size with
          ⟨-, hsame, hagree⟩ | ⟨-, patch, rfl, rfl, hadd⟩
        · refine ⟨?_, underlyingByte_congr hm ?_ ?_ hagree.user_eq ?_⟩
          · rw [hsame]
            exact hhost
          · rw [hsame]
          · rw [hsame]
            rfl
          · intro region hregion hext block hdata
            exact hagree.blocks_eq block ((hm.manager.stored region hregion).block_lt hdata)
        · refine ⟨?_, (hadd.overlay hm).underlying⟩
          unfold HostMode
          rw [hadd.rest.2]
          exact hhost
      | delPatch handle =>
        refine ⟨?_, mmDelPatch_underlying hm handle⟩
        show mmHostPassthroughPerms (mmDelPatch engine.cpu.memory handle).2 ≠ 0
        rw [(mmDelPatch_rest engine.cpu.memory handle).2]
        exact hhost
      | write address bytes size =>
        show HostMode (memWrite engine.cpu.memory address bytes size).2 ∧
          ∀ b, underlyingByte (memWrite engine.cpu.memory address bytes size).2 b = _
        unfold memWrite
        split_ifs
        · exact hwritten address bytes size h
        · exact hwritten address bytes size h
      | layout | setHostPassthrough => exact h.elim
    | step | hookedStep | regWrite | contextWrite | exceptionRaise | exceptionClear
    | setHooks | setEscapes => exact h.elim

/-- The bytes under the patches stay over a run of patch events. -/
theorem patchRun_underlying : ∀ (later : List LookupEvent) {engine : Engine},
    MemoryOk engine.cpu.memory → PatchTable engine.cpu.memory → HostMode engine.cpu.memory →
    Along (Engine.look isa) PatchEvent engine later →
    ∀ b, underlyingByte (run (Engine.look isa) engine later).cpu.memory b =
      underlyingByte engine.cpu.memory b := by
  intro later
  induction later with
  | nil => exact fun _ _ _ _ _ => rfl
  | cons event later ih =>
    intro engine hm htable hhost h b
    obtain ⟨hhost', hsame⟩ := patchEvent_underlying isa hm htable hhost h.1
    have hrest := ih (memoryOk_look hm event) (patchTable_look hm htable event) hhost' h.2 b
    exact hrest.trans (hsame b)

/-! ## Handles -/

/-- The handles of the live patches are distinct. -/
def DistinctHandles (mgr : MemoryManager) : Prop :=
  mgr.patches.Pairwise fun p q => p.handle ≠ q.handle

/-- An addition meets no live patch under the handle that it gives. -/
def FreshHandle (engine : Engine) : LookupEvent → Prop
  | .engine (.memory (.addPatch _ _ _)) =>
    ∀ p ∈ engine.cpu.memory.patches, p.handle ≠ engine.cpu.memory.nextPatchHandle
  | _ => True

/-- An access or a step leaves the patches alone. -/
theorem MemoryFrame.patches_eq {mgr mgr' : MemoryManager} (h : MemoryFrame mgr mgr') :
    mgr'.patches = mgr.patches := by
  rw [h.same]

/-- What an event does to the patches: it adds one, or it removes some at most. -/
theorem look_patches (isa : InstructionSet) {engine : Engine} (hm : MemoryOk engine.cpu.memory)
    (htable : PatchTable engine.cpu.memory) (event : LookupEvent) :
    (engine.look isa event).cpu.memory.patches.Sublist engine.cpu.memory.patches ∨
      ∃ address bytes size patch, event = .engine (.memory (.addPatch address bytes size)) ∧
        PatchAdded engine.cpu.memory (engine.look isa event).cpu.memory patch bytes := by
  have hframe : ∀ {mgr' : MemoryManager}, MemoryFrame engine.cpu.memory mgr' →
      mgr'.patches.Sublist engine.cpu.memory.patches := fun h => by rw [h.patches_eq]
  cases event with
  | query address =>
    obtain ⟨-, cache, heq, -⟩ := mmQuery_spec hm.manager hm.cache address
    left
    show (mmQuery engine.cpu.memory address).2.patches.Sublist _
    rw [heq]
    exact List.Sublist.refl _
  | access address perm => exact Or.inl (hframe (mmGetPtrChecked_frame _ address perm))
  | engine event =>
    cases event with
    | step => exact Or.inl (hframe (Engine.step_stepped hm).memory)
    | hookedStep => exact Or.inl (hframe (Engine.hookedStep_stepped hm).memory)
    | rawWrite address bytes size =>
      exact Or.inl (hframe (memWriteLoop_frame address bytes size.toNat 0 _))
    | exceptionRaise code errorCode =>
      left
      show (if _ then _ else _ : Engine).cpu.memory.patches.Sublist _
      split_ifs
      · exact List.Sublist.refl _
      · exact List.Sublist.refl _
    | regWrite | contextWrite | exceptionClear | setHooks | setEscapes =>
      exact Or.inl (List.Sublist.refl _)
    | memory call =>
      cases call with
      | layout call =>
        left
        show (layoutStep engine.cpu.memory call).patches.Sublist _
        rw [(layoutStep_change hm.manager call).patches_eq]
      | setHostPassthrough perms enabled => exact Or.inl (List.Sublist.refl _)
      | addPatch address bytes size =>
        rcases mmAddPatch_cases (fun p hp => (htable.shape p hp).1) address bytes size with
          ⟨-, hkept⟩ | ⟨-, patch, -, -, hadd⟩
        · left
          show (mmAddPatch engine.cpu.memory address bytes size).2.patches.Sublist _
          rw [hkept.same]
        · exact Or.inr ⟨address, bytes, size, patch, rfl, hadd⟩
      | delPatch handle =>
        left
        show (mmDelPatch engine.cpu.memory handle).2.patches.Sublist _
        unfold mmDelPatch
        split_ifs
        · exact List.Sublist.refl _
        · cases engine.cpu.memory.patches.find? fun p => p.handle == handle with
          | none => exact List.Sublist.refl _
          | some patch => exact List.eraseP_sublist
      | write address bytes size =>
        left
        have hwrite := memWriteLoop_frame address bytes size.toNat 0 engine.cpu.memory
        show (memWrite engine.cpu.memory address bytes size).2.patches.Sublist _
        unfold memWrite
        split_ifs
        · exact (hframe hwrite :)
        · exact (hframe hwrite :)

/-- **One event** under the condition keeps the handles distinct. -/
theorem distinctHandles_look {engine : Engine} (hm : MemoryOk engine.cpu.memory)
    (htable : PatchTable engine.cpu.memory) (h : DistinctHandles engine.cpu.memory)
    {event : LookupEvent} (hfresh : FreshHandle engine event) :
    DistinctHandles (engine.look isa event).cpu.memory := by
  rcases look_patches isa hm htable event with hsub | ⟨_, _, _, patch, rfl, hadd⟩
  · exact h.sublist hsub
  · unfold DistinctHandles
    rw [hadd.patches_eq, List.pairwise_append]
    refine ⟨h, List.pairwise_singleton _ _, fun p hp q hq => ?_⟩
    rw [List.mem_singleton.mp hq, hadd.handle_eq]
    exact hfresh p hp

/-! ## Every state of every run -/

/-- The law follows from the invariants. -/
theorem patchOverlay_of_table {engine : Engine} (hm : MemoryOk engine.cpu.memory)
    (htable : PatchTable engine.cpu.memory) (hhandles : DistinctHandles engine.cpu.memory) :
    PatchOverlay isa engine where
  disjoint := htable.apart.imp fun hapart _ hboth => hapart.not_covers hboth.1 hboth.2
  handles := hhandles
  bounds := htable.bounds
  find := htable.find_iff
  hostRead hhost address size hok :=
    memReadLoop_overlay address size.toNat 0 _ hm htable hhost hok
  guestRead hhost hexc size hsize address hdone :=
    readMemory_overlay hm htable hhost hexc hsize address hdone
  hostWrite hhost address bytes size hcovered :=
    (memWriteLoop_only address bytes size.toNat 0 _ hm htable hhost).storesPatches hm htable
      hcovered (memWriteLoop_frame address bytes size.toNat 0 _)
  guestWrite hhost hexc size hsize address value hcovered :=
    (writeMemory_only hm htable hhost hexc hsize address value).storesPatches hm htable hcovered
      (GuestFrame.cpuProgram _ _).memory
  added address bytes size hok := by
    rcases mmAddPatch_cases (fun p hp => (htable.shape p hp).1) address bytes size with
      ⟨hne, -⟩ | ⟨-, patch, rfl, rfl, hadd⟩
    · exact absurd hok hne
    · exact hadd.overlay hm
  deleted p hp hzero := mmDelPatch_overlay hm htable hhandles hp hzero
  stable hhost later h := patchRun_underlying later hm htable hhost h

/-- What an event under the condition keeps. -/
structure PatchInv (engine : Engine) : Prop where
  memory : MemoryOk engine.cpu.memory
  table : PatchTable engine.cpu.memory
  handles : DistinctHandles engine.cpu.memory

theorem PatchInv.look {engine : Engine} (h : PatchInv engine) {event : LookupEvent}
    (hfresh : FreshHandle engine event) : PatchInv (engine.look isa event) where
  memory := memoryOk_look h.memory event
  table := patchTable_look h.memory h.table event
  handles := distinctHandles_look h.memory h.table h.handles hfresh

/-- **The overlay of patches.**  In every run in which no addition meets a live patch under
the handle that it gives, the law holds in the state that is reached. -/
theorem patch_overlay (isa : InstructionSet) (compat32 cached : Bool) (host : HostMemory)
    (events : List LookupEvent)
    (h : Along (Engine.look isa) FreshHandle (openEngine compat32 cached host) events) :
    PatchOverlay isa (run (Engine.look isa) (openEngine compat32 cached host) events) := by
  have hinv : PatchInv (run (Engine.look isa) (openEngine compat32 cached host) events) :=
    run_invariant PatchInv (fun _ _ hi hfresh => hi.look hfresh) events _
      ⟨memoryOk_openEngine compat32 cached host, .of_nil rfl, List.Pairwise.nil⟩ h
  exact patchOverlay_of_table hinv.memory hinv.table hinv.handles

/-- The addition of a patch of one byte. -/
def addOne (address : U64) : LookupEvent := .engine (.memory (.addPatch address (fun _ => 0x90) 1))

/-- The deletion of a patch. -/
def delOne (handle : U64) : LookupEvent := .engine (.memory (.delPatch handle))

/-- A host whose allocator grants every request. -/
def grantingHost : HostMemory := .initial (fun _ => 0) fun _ => true

/-- Host mode, and a patch that stays. -/
def firstPatch : List LookupEvent :=
  [.engine (.memory (.setHostPassthrough (mmProtRead ||| mmProtWrite ||| mmProtExec) true)),
    addOne 0x1000]

/-- Two patches side by side, of which the first is deleted. -/
theorem patch_overlay_example :
    PatchOverlay sampleSet (run (Engine.look sampleSet) (openEngine false true grantingHost)
      (firstPatch ++ [addOne 0x1001, delOne 1])) := by
  apply patch_overlay
  refine ⟨trivial, ?_, ?_, trivial, trivial⟩
  · show ∀ p ∈ _, _
    decide
  · show ∀ p ∈ _, _
    decide

/-! ## The counter of handles wraps -/

/-- A patch stays while others come and go, until the counter of handles is at zero. -/
def handleCycles (n : ℕ) : List LookupEvent :=
  (List.range n).flatMap fun k => [addOne 0x2000, delOne (BitVec.ofNat 64 (k + 2))]

/-- One patch is live and has handle `1`, and every allocation is granted. -/
structure OneLive (mgr : MemoryManager) (next : U64) : Prop where
  patches : ∃ data, mgr.patches = [{ handle := 1, address := 0x1000, size := 1, data := data }]
  next_eq : mgr.nextPatchHandle = next
  grants : mgr.host.grants = fun _ => true

/-- An addition that fits is accepted when the allocator grants everything. -/
theorem mmAddPatch_granted {mgr : MemoryManager} (hgrants : mgr.host.grants = fun _ => true)
    {address size : U64} (bytes : U64 → U8) (hsize : size ≠ 0)
    (hfits : mmRangeOverflows address size = false)
    (hfree : ∀ p ∈ mgr.patches, mmPatchRangeOverlaps address size p.address p.size = false) :
    (mmAddPatch mgr address bytes size).1 = .ok := by
  have hargs : ¬ (size = 0 || mmRangeOverflows address size) = true := by
    rw [hfits, Bool.or_false]
    exact fun h => hsize (of_decide_eq_true h)
  have hany : ¬ (mgr.patches.any fun p =>
      mmPatchRangeOverlaps address size p.address p.size) = true := by
    simpa using hfree
  have hreserve : (mmReservePatchCapacity mgr (mgr.patches.length + 1)).1 = true := by
    have hgrant : mgr.host.request.1 = true := congrFun hgrants _
    unfold mmReservePatchCapacity
    by_cases hcap : mgr.patches.length + 1 ≤ mgr.patchCapacity
    · rw [if_pos hcap]
    · rw [if_neg hcap, if_pos hgrant]
  obtain ⟨host, capacity, hres, hagree⟩ :=
    mmReservePatchCapacity_snd mgr (mgr.patches.length + 1)
  rw [mmAddPatch, if_neg hargs, if_neg hany]
  rcases hcase : mmReservePatchCapacity mgr (mgr.patches.length + 1) with ⟨b, mgr₁⟩
  rw [hcase] at hres hreserve
  simp only at hres hreserve
  subst hres hreserve
  have hgrant : host.grants host.requests = true := by
    rw [(hagree 0).grants_eq, hgrants]
  simp only [allocZeroed_granted hgrant]

/-- An accepted addition: what the next event needs to know. -/
theorem mmAddPatch_accepted {mgr : MemoryManager} (hsizes : ∀ p ∈ mgr.patches, p.size ≠ 0)
    (hgrants : mgr.host.grants = fun _ => true) {address : U64} (bytes : U64 → U8)
    (hfree : ∀ p ∈ mgr.patches, mmPatchRangeOverlaps address 1 p.address p.size = false)
    (hfits : mmRangeOverflows address 1 = false) :
    ∃ data, (mmAddPatch mgr address bytes 1).2.patches =
        mgr.patches ++ [{ handle := mgr.nextPatchHandle, address := address, size := 1,
                          data := data }] ∧
      (mmAddPatch mgr address bytes 1).2.nextPatchHandle = mgr.nextPatchHandle + 1 ∧
      (mmAddPatch mgr address bytes 1).2.host.grants = fun _ => true := by
  have hok := mmAddPatch_granted hgrants bytes (by decide) hfits hfree
  rcases mmAddPatch_cases hsizes address bytes 1 with ⟨hne, -⟩ | ⟨-, patch, rfl, hsize, hadd⟩
  · exact absurd hok hne
  · refine ⟨patch.data, ?_, hadd.next_eq, hadd.agrees.grants_eq.trans hgrants⟩
    rw [hadd.patches_eq, ← hadd.handle_eq, ← hsize]

/-- A patch of one byte at another address does not overlap. -/
theorem onePatch_free {address other : U64} (hne : address ≠ other) :
    mmPatchRangeOverlaps address 1 other 1 = false := by
  have hlt : address + 1 - 1 < other ∨ other + 1 - 1 < address := by bv_omega
  unfold mmPatchRangeOverlaps
  rw [if_neg (by decide), Bool.not_eq_false', Bool.or_eq_true, decide_eq_true_eq,
    decide_eq_true_eq]
  exact hlt

/-- Looking for the second of two patches, and deleting it. -/
theorem second_of_two {p q : PatchEntry} {handle : U64} (hp : p.handle ≠ handle)
    (hq : q.handle = handle) :
    [p, q].find? (fun p => p.handle == handle) = some q ∧
      [p, q].eraseP (fun p => p.handle == handle) = [p] := by
  simp [hp, hq]

/-- **One cycle** moves the counter on. -/
theorem OneLive.cycle (isa : InstructionSet) {engine : Engine} {next : U64} (h : OneLive engine.cpu.memory next)
    (hzero : next ≠ 0) (hone : next ≠ 1) :
    OneLive (run (Engine.look isa) engine [addOne 0x2000, delOne next]).cpu.memory (next + 1) := by
  obtain ⟨⟨data, hpatches⟩, rfl, hgrants⟩ := h
  have hfree : ∀ p ∈ engine.cpu.memory.patches,
      p.size ≠ 0 ∧ mmPatchRangeOverlaps 0x2000 1 p.address p.size = false := by
    intro p hp
    rw [hpatches, List.mem_singleton] at hp
    subst hp
    have hne : (0x2000 : U64) ≠ 0x1000 := by decide
    exact ⟨fun h => absurd h (show (1 : U64) ≠ 0 by decide), onePatch_free hne⟩
  obtain ⟨data', hpatches', hnext', hgrants'⟩ := mmAddPatch_accepted
    (fun p hp => (hfree p hp).1) hgrants (fun _ => 0x90) (fun p hp => (hfree p hp).2) (by decide)
  show OneLive (mmDelPatch (mmAddPatch engine.cpu.memory 0x2000 (fun _ => 0x90) 1).2
    engine.cpu.memory.nextPatchHandle).2 _
  generalize (mmAddPatch engine.cpu.memory 0x2000 (fun _ => 0x90) 1).2 = mgr at *
  generalize engine.cpu.memory.nextPatchHandle = handle at *
  rw [hpatches] at hpatches'
  obtain ⟨hfind, herase⟩ := @second_of_two
    { handle := 1, address := 0x1000, size := 1, data := data }
    { handle := handle, address := 0x2000, size := 1, data := data' } handle hone.symm rfl
  rw [← List.singleton_append, ← hpatches'] at hfind herase
  rw [mmDelPatch, if_neg hzero, hfind]
  refine ⟨⟨data, herase⟩, hnext', ?_⟩
  show (mgr.host.free data').grants = _
  cases data' with
  | user a => exact hgrants'
  | heap block offset => exact hgrants'

/-- Many cycles. -/
theorem OneLive.cycles (isa : InstructionSet) {engine : Engine} (h : OneLive engine.cpu.memory 2) :
    ∀ n ≤ 2 ^ 64 - 2, OneLive (run (Engine.look isa) engine (handleCycles n)).cpu.memory
      (BitVec.ofNat 64 (n + 2)) := by
  intro n
  induction n with
  | zero => exact fun _ => h
  | succ n ih =>
    intro hn
    have hcycles : handleCycles (n + 1) =
        handleCycles n ++ [addOne 0x2000, delOne (BitVec.ofNat 64 (n + 2))] := by
      simp [handleCycles, List.range_succ]
    rw [hcycles, run_append]
    have hzero : BitVec.ofNat 64 (n + 2) ≠ 0 := by
      intro heq
      have := congrArg BitVec.toNat heq
      simp at this
      omega
    have hone : BitVec.ofNat 64 (n + 2) ≠ 1 := by
      intro heq
      have := congrArg BitVec.toNat heq
      simp at this
      omega
    have hstep := (ih (by omega)).cycle isa hzero hone
    have hnext : BitVec.ofNat 64 (n + 1 + 2) = BitVec.ofNat 64 (n + 2) + 1 :=
      BitVec.ofNat_add (n + 2) 1
    rw [hnext]
    exact hstep

/-- **Two additions** after the counter has wrapped give the handle of the live patch. -/
theorem OneLive.repeats (isa : InstructionSet) {engine : Engine} (h : OneLive engine.cpu.memory 0) :
    ¬ DistinctHandles (run (Engine.look isa) engine [addOne 0x3000, addOne 0x4000]).cpu.memory := by
  obtain ⟨⟨data, hpatches⟩, hnext, hgrants⟩ := h
  have hfree : ∀ p ∈ engine.cpu.memory.patches,
      p.size ≠ 0 ∧ mmPatchRangeOverlaps 0x3000 1 p.address p.size = false := by
    intro p hp
    rw [hpatches, List.mem_singleton] at hp
    subst hp
    have hne : (0x3000 : U64) ≠ 0x1000 := by decide
    exact ⟨fun h => absurd h (show (1 : U64) ≠ 0 by decide), onePatch_free hne⟩
  obtain ⟨data₁, hpatches₁, hnext₁, hgrants₁⟩ := mmAddPatch_accepted
    (fun p hp => (hfree p hp).1) hgrants (fun _ => 0x90) (fun p hp => (hfree p hp).2) (by decide)
  show ¬ DistinctHandles (mmAddPatch (mmAddPatch engine.cpu.memory 0x3000 (fun _ => 0x90) 1).2
    0x4000 (fun _ => 0x90) 1).2
  generalize (mmAddPatch engine.cpu.memory 0x3000 (fun _ => 0x90) 1).2 = mgr at *
  rw [hpatches, hnext, List.singleton_append] at hpatches₁
  have hfree₁ : ∀ p ∈ mgr.patches,
      p.size ≠ 0 ∧ mmPatchRangeOverlaps 0x4000 1 p.address p.size = false := by
    intro p hp
    rw [hpatches₁, List.mem_pair] at hp
    have hfirst : (0x4000 : U64) ≠ 0x1000 := by decide
    have hsecond : (0x4000 : U64) ≠ 0x3000 := by decide
    rcases hp with rfl | rfl
    · exact ⟨fun h => absurd h (show (1 : U64) ≠ 0 by decide), onePatch_free hfirst⟩
    · exact ⟨fun h => absurd h (show (1 : U64) ≠ 0 by decide), onePatch_free hsecond⟩
  obtain ⟨data₂, hpatches₂, -, -⟩ := mmAddPatch_accepted
    (fun p hp => (hfree₁ p hp).1) hgrants₁ (fun _ => 0x90) (fun p hp => (hfree₁ p hp).2) (by decide)
  intro hdistinct
  unfold DistinctHandles at hdistinct
  rw [hpatches₂, hpatches₁, hnext₁, hnext, List.cons_append, List.pairwise_cons] at hdistinct
  exact hdistinct.1 _ (List.mem_append_right _ List.mem_cons_self) rfl

/-- The first patch is the only one. -/
theorem oneLive_firstPatch (isa : InstructionSet) :
    OneLive (run (Engine.look isa) (openEngine false true grantingHost) firstPatch).cpu.memory 2 := by
  obtain ⟨data, hpatches, hnext, hgrants⟩ := @mmAddPatch_accepted
    (mmSetHostPassthrough (openEngine false true grantingHost).cpu.memory
      (mmProtRead ||| mmProtWrite ||| mmProtExec) true)
    (fun p hp => absurd hp List.not_mem_nil) rfl 0x1000 (fun _ => 0x90)
    (fun p hp => absurd hp List.not_mem_nil) (by decide)
  exact ⟨⟨data, hpatches⟩, hnext, hgrants⟩

/-- A run that gives the handle of a live patch to a new one. -/
theorem patch_handles_repeat :
    ¬ ∀ events, PatchOverlay sampleSet
      (run (Engine.look sampleSet) (openEngine false true grantingHost) events) := by
  intro h
  have hlive := (oneLive_firstPatch sampleSet).cycles sampleSet (2 ^ 64 - 2) le_rfl
  rw [show BitVec.ofNat 64 (2 ^ 64 - 2 + 2) = 0 by decide, ← run_append] at hlive
  have hrepeats := hlive.repeats sampleSet
  rw [← run_append] at hrepeats
  exact hrepeats (h _).handles

end Cpueaxh
