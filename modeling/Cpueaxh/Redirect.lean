/-
# Redirecting the execution

A callback before an instruction may set `rip`, and the loop goes on with the address that
it has read before.  It looks the old address up in the cache, fetches the bytes from there
and looks for an escape in them, while the step takes `rip` from the context and puts what
it decodes into the cache under it.  As long as both addresses hold the same code, or the
cache already knows the code at the new one and the old one has nothing to offer, the
instruction at `rip` is executed.
-/
import Cpueaxh.HostedFrame
import Cpueaxh.EscapeDispatch

namespace Cpueaxh

open Transition

variable {ω : Type}

/-! ## What a turn executes -/

/-- What the part of a turn behind the code hooks goes on with: an instruction that it
executes, with the value of `rip` that it advances and the CPU; or bytes that an escape
takes over; or nothing. -/
inductive Handed where
  | nothing
  | escape (bytes : List U8)
  | decoded (dec : DecodedInst) (ripPre : U64) (cpu : Cpu)

namespace Hosted

variable (isa : InstructionSet)

/-- What the part of a turn behind the fetch goes on with. -/
def handedFetched (p : HostProgram ω) (address : U64) (bytes : List U8) (h : Hosted ω) : Handed :=
  match h.tryDispatchEscape p address bytes with
  | some _ => .escape bytes
  | none =>
    if h.context.hasException then .nothing
    else
      match h.shared.engine.resolve isa bytes with
      | (some dec, engine) => .decoded dec h.context.rip engine.cpu
      | (none, _) => .nothing

/-- What the part of a turn behind the code hooks goes on with. -/
def handed (p : HostProgram ω) (address : U64) (h : Hosted ω) : Handed :=
  match h.shared.engine.fastSlotAt address with
  | (some slot, engine) =>
    if engine.cpu.context.hasException then .nothing
    else .decoded slot.decoded engine.cpu.context.rip engine.cpu
  | (none, engine) =>
    match (h.setEngine engine).fetch p address with
    | (bytes, h) => h.handedFetched isa p address bytes

/-- The part of a turn between the code hooks. -/
def execute (p : HostProgram ω) (address : U64) (h : Hosted ω) : Option CpueaxhErr × Hosted ω :=
  h.afterPre isa p ⟨false, false⟩ address

/-- The code at the instruction pointer. -/
def codeView (h : Hosted ω) : List U8 := h.shared.engine.cpu.codeView

/-- The instruction at `rip` in memory is the one that is executed, from there. -/
def ExecutesAtRip (p : HostProgram ω) (address : U64) (h : Hosted ω) : Prop :=
  match h.handed isa p address with
  | .nothing => h.context.hasException = true ∨ h.codeView.length < maxInstFetch
  | .escape bytes => bytes = h.codeView
  | .decoded dec ripPre cpu =>
    ripPre = h.context.rip ∧ cpu.context.rip = h.context.rip ∧ h.codeView ≠ [] ∧
      ∃ ctx, cpuInstCacheComputeModeKeyBits ctx = cpuInstCacheComputeModeKeyBits h.context ∧
        dec = isa.decode ctx h.codeView

/-- Every live entry of the cache holds the code at its own address. -/
def CacheCurrent (h : Hosted ω) : Prop :=
  ∀ slots, h.shared.engine.instCache = some slots →
    ∀ i, (slots i).version = h.shared.engine.cpu.memory.codeVersion →
      (slots i).Current isa h.context.isUser h.shared.engine.cpu.memory

/-- A turn executes what is stored at the `rip` that the callbacks before the instruction
have left, and the cache behind it is right. -/
def Redirects (p : HostProgram ω) (flags : HookFlags) (h : Hosted ω) : Prop :=
  (h.preHooks p flags h.context.rip).shared.stopRequested = false →
    (h.preHooks p flags h.context.rip).ExecutesAtRip isa p h.context.rip ∧
      (h.turn isa p flags).2.CacheCurrent isa

/-! ## What the run has to keep -/

/-- The address and `rip` hold the same code.  They do when they are the same. -/
def SameCode (h : Hosted ω) (address : U64) : Prop :=
  fetchView h.context.is64BitCode h.context.isUser h.shared.engine.cpu.memory address = h.codeView

/-- The old address has nothing to offer: no slot that is executed without a fetch, no
fault, and no escape; and the cache knows the instruction at `rip`. -/
structure Unnoticed (p : HostProgram ω) (address : U64) (h : Hosted ω) : Prop where
  noSlot : (h.shared.engine.fastSlotAt address).1 = none
  noFault : ((h.setEngine (h.shared.engine.fastSlotAt address).2).fetch p
    address).2.context.hasException = false
  noEscape : ((h.setEngine (h.shared.engine.fastSlotAt address).2).fetch p
      address).2.tryDispatchEscape p address
    ((h.setEngine (h.shared.engine.fastSlotAt address).2).fetch p address).1 = none
  known : h.shared.engine.hit.isSome = true

/-- The escape that takes the bytes over, and the size of the instruction. -/
def escapeTaken (address : U64) (bytes : List U8) (h : Hosted ω) : Option (EscapeRecord × ℕ) :=
  if bytes.length = 0 then none
  else
    match classifyEscapeInstruction h.context bytes with
    | none => none
    | some (id, size) => (h.escapeAt id address).map fun escape => (escape, size)

/-- The callback of an escape that the part of a turn between the code hooks calls: the
entry, the size and the bytes of the instruction, and the state. -/
def escapeCalled (p : HostProgram ω) (address : U64) (h : Hosted ω) :
    Option (EscapeRecord × ℕ × List U8 × Hosted ω) :=
  match h.shared.engine.fastSlotAt address with
  | (some _, _) => none
  | (none, engine) =>
    match (h.setEngine engine).fetch p address with
    | (bytes, h) =>
      match h.escapeTaken address bytes with
      | none => none
      | some (escape, size) => some (escape, size, bytes, h)

/-- The part of a turn between the code hooks keeps the code under the live entries, and so
do the calls of the callback of an escape and the context that is taken over from it. -/
def ExecuteKeeps (p : HostProgram ω) (address : U64) (h : Hosted ω) : Prop :=
  match h.escapeCalled p address with
  | none => h.shared.engine.KeepsBytes (h.execute isa p address).2.shared.engine
  | some (escape, size, bytes, h) =>
    Along call (CallKeeps isa) h (h.escapeAnswer p escape bytes).calls ∧
      ((h.escapeAnswer p escape bytes).error = cpueaxhErrOk →
        (h.afterCallback p escape bytes).shared.engine.KeepsBytes
          ((h.afterCallback p escape bytes).setContext
            (h.takenOver p escape size bytes)).shared.engine)

/-- The loop does not end with an error. -/
def goesOn (exit : Option CpueaxhErr) : Bool := exit == none || exit == some cpueaxhErrOk

/-- A turn keeps the mode and the code, and its callbacks leave `rip` at code that is the
same, or unnoticed. -/
structure TurnKeeps (p : HostProgram ω) (flags : HookFlags) (h : Hosted ω) : Prop where
  pre : flags.needPre = true → h.DispatchAlong (CallKeeps isa) p .codePre h.context.rip
  going : (h.preHooks p flags h.context.rip).shared.stopRequested = false →
    ((h.preHooks p flags h.context.rip).SameCode h.context.rip ∨
        (h.preHooks p flags h.context.rip).Unnoticed p h.context.rip) ∧
      (h.preHooks p flags h.context.rip).ExecuteKeeps isa p h.context.rip ∧
      (flags.needPost = true →
        goesOn ((h.preHooks p flags h.context.rip).execute isa p h.context.rip).1 = true →
          ((h.preHooks p flags h.context.rip).execute isa p h.context.rip).2.DispatchAlong
            (CallKeeps isa) p .codePost h.context.rip)

end Hosted

/-! ## Runs -/

/-- What happens to an engine with callbacks: a call of the host program outside a run, the
beginning of `cpueaxh_emu_start`, or a turn of one of its loops. -/
inductive HostedEvent where
  | call (c : HostCall)
  | start (request : Engine.EmuRequest)
  | plainTurn
  | turn (flags : HookFlags)

namespace Hosted

variable (isa : InstructionSet)

/-- The state after an event. -/
def apply (p : HostProgram ω) (h : Hosted ω) : HostedEvent → Hosted ω
  | .call c => h.call c
  | .start request => h.prepare request
  | .plainTurn => (h.plainTurn isa).2
  | .turn flags => (h.turn isa p flags).2

/-- The event keeps the mode under a cached key and the code under the live entries, and
the callbacks before an instruction redirect it with care. -/
def EventKeeps (p : HostProgram ω) (h : Hosted ω) : HostedEvent → Prop
  | .call c => h.CallKeeps isa c
  | .start _ => True
  | .plainTurn => h.shared.engine.KeepsBytes (h.plainTurn isa).2.shared.engine
  | .turn flags => h.TurnKeeps isa p flags

/-- An engine that has just been opened. -/
def opened (compat32 cached : Bool) (host : HostMemory) (world : ω) : Hosted ω where
  table := .empty
  shared := { engine := openEngine compat32 cached host, stopRequested := false, world := world }

end Hosted

/-! ## The stages of a turn -/

variable {isa : InstructionSet} {p : HostProgram ω} {flags : HookFlags} {address : U64}
variable {h : Hosted ω}

/-- Looking for the slot of an address stays in place. -/
theorem fastSlotAt_stays (engine : Engine) (address : U64) :
    engine.Stays (engine.fastSlotAt address).2 := by
  unfold Engine.fastSlotAt
  cases engine.instCache with
  | none => exact .refl _
  | some slots => exact Engine.stays_keyed engine

/-- The slot is a live entry for the address. -/
theorem fastSlotAt_some {engine : Engine} {slot : InstCacheEntry}
    (h : (engine.fastSlotAt address).1 = some slot) :
    ∃ slots i, engine.instCache = some slots ∧ slot = slots i ∧ slot.tag = address ∧
      slot.version = engine.cpu.memory.codeVersion ∧ slot.mode = engine.currentKey := by
  unfold Engine.fastSlotAt at h
  cases hs : engine.instCache with
  | none =>
    rw [hs] at h
    cases h
  | some slots =>
    rw [hs] at h
    simp only [Engine.modeKey_eq, Option.ite_none_right_eq_some, Option.some.injEq,
      Bool.and_eq_true, InstCacheEntry.isHit, beq_iff_eq] at h
    obtain ⟨⟨⟨⟨htag, hversion⟩, hmode⟩, -⟩, rfl⟩ := h
    exact ⟨slots, _, rfl, rfl, htag, hversion, hmode⟩

/-- A result of a step with an error. -/
theorem translateStepError_ne (ctx : CpuContext) {status : StepResult} (hok : status ≠ .ok)
    (hhalt : status ≠ .halt) : translateStepError ctx status ≠ cpueaxhErrOk := by
  cases status with
  | ok => exact absurd rfl hok
  | halt => exact absurd rfl hhalt
  | fetchErr => exact (by decide : cpueaxhErrFetchUnmapped ≠ cpueaxhErrOk)
  | ud => exact (by decide : cpueaxhErrException ≠ cpueaxhErrOk)
  | exception =>
    unfold translateStepError
    simp only
    split_ifs <;> decide

/-- The hooks behind an instruction come last, and not behind an error. -/
def Hosted.withPost (p : HostProgram ω) (flags : HookFlags) (address : U64)
    (r : Option CpueaxhErr × Hosted ω) : Option CpueaxhErr × Hosted ω :=
  (r.1, if Hosted.goesOn r.1 then r.2.postHooks p flags address else r.2)

theorem goesOn_error {error : CpueaxhErr} (h : error ≠ cpueaxhErrOk) :
    Hosted.goesOn (some error) = false := by
  unfold Hosted.goesOn
  simp [h]

theorem afterStep_eq (flags : HookFlags) (step : StepResult × Engine) :
    h.afterStep p flags address step =
      Hosted.withPost p flags address (h.afterStep p ⟨false, false⟩ address step) := by
  obtain ⟨status, engine⟩ := step
  unfold Hosted.afterStep Hosted.withPost
  cases status with
  | ok => rfl
  | halt => rfl
  | fetchErr | ud | exception =>
    dsimp only
    rw [goesOn_error (translateStepError_ne _ (by simp) (by simp))]
    rfl

theorem afterFetch_eq (flags : HookFlags) (bytes : List U8) :
    h.afterFetch isa p flags address bytes =
      Hosted.withPost p flags address (h.afterFetch isa p ⟨false, false⟩ address bytes) := by
  unfold Hosted.afterFetch
  rcases h.tryDispatchEscape p address bytes with _ | ⟨error, h'⟩
  · exact afterStep_eq flags _
  · dsimp only
    split_ifs with herror
    · unfold Hosted.withPost
      dsimp only
      rw [goesOn_error herror]
      rfl
    · rfl

/-- A turn behind the code hooks before the instruction is the part between the code hooks,
and the hooks behind the instruction. -/
theorem afterPre_eq (flags : HookFlags) :
    h.afterPre isa p flags address = Hosted.withPost p flags address (h.execute isa p address) := by
  unfold Hosted.execute Hosted.afterPre
  rcases h.shared.engine.fastSlotAt address with ⟨_ | slot, engine⟩
  · exact afterFetch_eq flags _
  · exact afterStep_eq flags _

/-- The state behind a step, before the hooks behind the instruction. -/
theorem afterStep_snd (step : StepResult × Engine) :
    (h.afterStep p ⟨false, false⟩ address step).2 = (h.setEngine step.2).notifyMemory p := by
  obtain ⟨status, engine⟩ := step
  unfold Hosted.afterStep
  cases status <;> rfl

/-! ## Between the code hooks -/

/-- The instruction is found at `rip`, by the bytes or in the cache. -/
def Engine.FoundAtRip (isa : InstructionSet) (engine : Engine) (bytes : List U8) : Prop :=
  engine.cpu.context.hasException = false → engine.Resolved isa bytes (engine.resolve isa bytes)

/-- A step of an instruction that is found at `rip`. -/
theorem afterStep_stepped {bytes : List U8} (hfound : h.shared.engine.FoundAtRip isa bytes) :
    h.shared.engine.Stepped isa
      (h.afterStep p ⟨false, false⟩ address
        (h.shared.engine.stepWithPrefetch isa bytes)).2.shared.engine := by
  obtain ⟨hframe, hentries⟩ := Engine.stepWithPrefetch_frame_of hfound
  rw [afterStep_snd]
  exact (Engine.Stepped.of_frame hframe hentries).then_stays (stays_notified p h _)

/-- A step of a cached instruction. -/
theorem afterStep_decoded (slot : InstCacheEntry) :
    h.shared.engine.Stepped isa
      (h.afterStep p ⟨false, false⟩ address
        (h.shared.engine.stepDecoded slot)).2.shared.engine := by
  obtain ⟨hframe, hcache⟩ := Engine.stepDecoded_frame h.shared.engine slot
  rw [afterStep_snd]
  exact (Engine.Stepped.of_frame hframe (.of_eq hcache)).then_stays (stays_notified p h _)

/-- The bytes go to the callback of an escape. -/
theorem tryDispatch_taken {bytes : List U8} {escape : EscapeRecord} {size : ℕ}
    (h' : h.escapeTaken address bytes = some (escape, size)) :
    h.tryDispatchEscape p address bytes = some (h.callEscape p escape size bytes) := by
  unfold Hosted.escapeTaken at h'
  unfold Hosted.tryDispatchEscape
  split_ifs at h' ⊢
  cases hclass : classifyEscapeInstruction h.context bytes with
  | none =>
    rw [hclass] at h'
    cases h'
  | some found =>
    rw [hclass] at h'
    simp only [Option.map_eq_some_iff, Prod.mk.injEq] at h'
    obtain ⟨escape', hescape, rfl, rfl⟩ := h'
    simp only [hescape]

/-- The bytes are left to the executor, or raise an exception. -/
theorem tryDispatch_not_taken {bytes : List U8} (h' : h.escapeTaken address bytes = none) :
    h.tryDispatchEscape p address bytes = none ∨
      ∃ code, h.tryDispatchEscape p address bytes =
        some (cpueaxhErrException, h.setContext (h.context.raiseException code 0)) := by
  unfold Hosted.escapeTaken at h'
  unfold Hosted.tryDispatchEscape
  split_ifs at h' ⊢
  · exact Or.inl rfl
  · cases hclass : classifyEscapeInstruction h.context bytes with
    | none => exact Or.inl rfl
    | some found =>
      rw [hclass] at h'
      have hescape : h.escapeAt found.1 address = none := Option.map_eq_none_iff.mp h'
      simp only [hescape]
      split_ifs
      · exact Or.inl rfl
      · exact Or.inr ⟨_, rfl⟩

/-- An exception that is raised leaves the memory and the cache alone. -/
theorem raise_stepped (h : Hosted ω) (code : U32) : h.shared.engine.Stepped isa
    (h.setContext (h.context.raiseException code 0)).shared.engine := by
  obtain ⟨exception, heq⟩ := raiseException_eq h.context code 0
  rw [heq]
  exact
    { memory := .refl _
      entries := .of_eq rfl
      key := fun hkey => hkey.congr rfl rfl rfl rfl
      user := Or.inr rfl }

/-- **Between the code hooks**, when no callback of an escape is called, a step is made. -/
theorem execute_stepped (hm : MemoryOk h.shared.engine.cpu.memory)
    (hnone : h.escapeCalled p address = none)
    (hfound : ∀ bytes h', (h.setEngine (h.shared.engine.fastSlotAt address).2).fetch p address =
      (bytes, h') → h'.shared.engine.FoundAtRip isa bytes) :
    h.shared.engine.Stepped isa (h.execute isa p address).2.shared.engine := by
  have hstays := fastSlotAt_stays h.shared.engine address
  unfold Hosted.escapeCalled at hnone
  unfold Hosted.execute Hosted.afterPre
  rcases hslot : h.shared.engine.fastSlotAt address with ⟨_ | slot, engine⟩
  · rw [hslot] at hnone hfound hstays
    dsimp only at hnone hfound hstays ⊢
    have hfetch := fetch_stays (p := p) (h := h.setEngine engine) (hstays.ok hm) address
    rcases hf : (h.setEngine engine).fetch p address with ⟨bytes, h'⟩
    rw [hf] at hnone hfetch
    have hplace : h.shared.engine.Stays h'.shared.engine := hstays.trans hfetch.2
    refine Engine.Stepped.of_stays hplace ?_
    dsimp only at hnone ⊢
    unfold Hosted.afterFetch
    have htaken : h'.escapeTaken address bytes = none := by
      cases htaken : h'.escapeTaken address bytes with
      | none => rfl
      | some taken =>
        rw [htaken] at hnone
        cases hnone
    rcases tryDispatch_not_taken (p := p) htaken with hdispatch | ⟨code, hdispatch⟩
    · rw [hdispatch]
      exact afterStep_stepped (hfound bytes h' hf)
    · rw [hdispatch]
      exact raise_stepped h' code
  · rw [hslot] at hstays
    refine Engine.Stepped.of_stays hstays ?_
    exact afterStep_decoded (h := h.setEngine engine) slot

/-- The bytes that are fetched at the address, while the engine stays in its place. -/
theorem fetched_bytes (hm : MemoryOk h.shared.engine.cpu.memory) {bytes : List U8}
    {h' : Hosted ω} (hfetch : (h.setEngine (h.shared.engine.fastSlotAt address).2).fetch p address =
      (bytes, h')) :
    h.shared.engine.Stays h'.shared.engine ∧
      (bytes = [] ∨ bytes = fetchView h.context.is64BitCode h.context.isUser
        h.shared.engine.cpu.memory address) := by
  have hstays := fastSlotAt_stays h.shared.engine address
  obtain ⟨hbytes, hplace⟩ := fetch_stays (p := p)
    (h := h.setEngine (h.shared.engine.fastSlotAt address).2) (hstays.ok hm) address
  rw [hfetch] at hbytes hplace
  refine ⟨hstays.trans hplace, ?_⟩
  have hview : fetchView (h.setEngine (h.shared.engine.fastSlotAt address).2).context.is64BitCode
      (h.setEngine (h.shared.engine.fastSlotAt address).2).context.isUser
      (h.setEngine (h.shared.engine.fastSlotAt address).2).shared.engine.cpu.memory address =
        fetchView h.context.is64BitCode h.context.isUser h.shared.engine.cpu.memory address := by
    have hmode : (h.setEngine (h.shared.engine.fastSlotAt address).2).context.is64BitCode =
        h.context.is64BitCode := hstays.is64BitCode_eq
    rw [hmode]
    exact hstays.fetchView_eq _ address
  rw [hview] at hbytes
  split_ifs at hbytes
  · exact Or.inl hbytes
  · exact Or.inr hbytes

/-- The instruction is found at `rip`. -/
theorem fetched_found (hm : MemoryOk h.shared.engine.cpu.memory)
    (hcode : h.SameCode address ∨ h.Unnoticed p address) {bytes : List U8} {h' : Hosted ω}
    (hfetch : (h.setEngine (h.shared.engine.fastSlotAt address).2).fetch p address =
      (bytes, h')) : h'.shared.engine.FoundAtRip isa bytes := by
  intro hexc
  obtain ⟨hstays, hbytes⟩ := fetched_bytes hm hfetch
  rcases hcode with hsame | hunnoticed
  · apply Engine.resolve_resolved isa (hstays.ok hm) hexc
    refine hbytes.imp_right fun hview => ?_
    rw [hview, hsame]
    exact hstays.view_eq.symm
  · obtain ⟨slot, hhit⟩ := Option.isSome_iff_exists.mp hunnoticed.known
    have hhit' : h'.shared.engine.hit = some slot := hstays.hit_eq.trans hhit
    rw [Engine.resolve_hit hhit']
    exact .cached hhit'

/-- The state behind an escape, before the hooks behind the instruction. -/
theorem afterFetch_taken {bytes : List U8} {escape : EscapeRecord} {size : ℕ}
    (htaken : h.escapeTaken address bytes = some (escape, size)) :
    (h.afterFetch isa p ⟨false, false⟩ address bytes).2 = (h.callEscape p escape size bytes).2 := by
  unfold Hosted.afterFetch
  rw [tryDispatch_taken htaken]
  dsimp only
  split_ifs <;> rfl

/-- The calls of callbacks keep the live entries current. -/
theorem codeCoherent_calls (hc : CodeCoherent isa h.shared.engine) {calls : List HostCall}
    (hkeeps : Along Hosted.call (Hosted.CallKeeps isa) h calls) :
    CodeCoherent isa (run Hosted.call h calls).shared.engine :=
  run_invariant (fun h' : Hosted ω => CodeCoherent isa h'.shared.engine)
    (fun _ _ hc hkeeps => codeCoherent_call hc hkeeps) calls h hc hkeeps

/-- The callback of an escape keeps the live entries current. -/
theorem codeCoherent_callEscape (hc : CodeCoherent isa h.shared.engine) {escape : EscapeRecord}
    {size : ℕ} {bytes : List U8}
    (hcalls : Along Hosted.call (Hosted.CallKeeps isa) h (h.escapeAnswer p escape bytes).calls)
    (htaken : (h.escapeAnswer p escape bytes).error = cpueaxhErrOk →
      (h.afterCallback p escape bytes).shared.engine.KeepsBytes
        ((h.afterCallback p escape bytes).setContext
          (h.takenOver p escape size bytes)).shared.engine) :
    CodeCoherent isa (h.callEscape p escape size bytes).2.shared.engine := by
  have hcallback : CodeCoherent isa (h.afterCallback p escape bytes).shared.engine :=
    codeCoherent_calls hc hcalls
  by_cases herror : (h.escapeAnswer p escape bytes).error = cpueaxhErrOk
  · rw [callEscape_ok herror]
    exact hcallback.of_frame (.of_eq rfl rfl) (keyFresh_of_stale rfl) rfl (htaken herror)
  · rw [callEscape_error herror]
    exact hcallback

/-- **Between the code hooks** the live entries stay current. -/
theorem codeCoherent_execute (hc : CodeCoherent isa h.shared.engine)
    (hcode : h.SameCode address ∨ h.Unnoticed p address)
    (hkeeps : h.ExecuteKeeps isa p address) :
    CodeCoherent isa (h.execute isa p address).2.shared.engine := by
  have hm := hc.entries.memory
  unfold Hosted.ExecuteKeeps at hkeeps
  cases hcalled : h.escapeCalled p address with
  | none =>
    rw [hcalled] at hkeeps
    have hstepped : h.shared.engine.Stepped isa (h.execute isa p address).2.shared.engine :=
      execute_stepped hm hcalled fun bytes h' hfetch => fetched_found hm hcode hfetch
    exact hc.of_frame hstepped.eventFrame (hstepped.key hc.key) hstepped.memory.codeVersion_eq hkeeps
  | some called =>
    rw [hcalled] at hkeeps
    unfold Hosted.escapeCalled at hcalled
    unfold Hosted.execute Hosted.afterPre
    rcases hslot : h.shared.engine.fastSlotAt address with ⟨_ | slot, engine⟩
    · rw [hslot] at hcalled
      dsimp only at hcalled ⊢
      rcases hf : (h.setEngine engine).fetch p address with ⟨bytes, h'⟩
      rw [hf] at hcalled
      dsimp only at hcalled ⊢
      have hfetch : (h.setEngine (h.shared.engine.fastSlotAt address).2).fetch p address =
          (bytes, h') := by rw [hslot, hf]
      have hstays := (fetched_bytes hm hfetch).1
      split at hcalled
      · cases hcalled
      · rename_i escape size htaken
        obtain rfl := Option.some.inj hcalled
        rw [afterFetch_taken htaken]
        exact codeCoherent_callEscape (hc.of_stays hstays) hkeeps.1 hkeeps.2
    · rw [hslot] at hcalled
      cases hcalled

/-- Looking for the slot of an address raises nothing. -/
theorem fastSlotAt_hasException (engine : Engine) (address : U64) :
    (engine.fastSlotAt address).2.cpu.context.hasException = engine.cpu.context.hasException := by
  unfold Engine.fastSlotAt
  cases engine.instCache with
  | none => rfl
  | some slots => exact modeKey_hasException engine.cpu.context

/-- Behind the fetch the instruction at `rip` is executed. -/
theorem handedFetched_atRip (hc : CodeCoherent isa h.shared.engine)
    (hcode : h.SameCode address ∨ h.Unnoticed p address) {bytes : List U8} {h' : Hosted ω}
    (hfetch : (h.setEngine (h.shared.engine.fastSlotAt address).2).fetch p address =
      (bytes, h')) :
    match h'.handedFetched isa p address bytes with
    | .nothing => h.context.hasException = true ∨ h.codeView.length < maxInstFetch
    | .escape bytes => bytes = h.codeView
    | .decoded dec ripPre cpu =>
      ripPre = h.context.rip ∧ cpu.context.rip = h.context.rip ∧ h.codeView ≠ [] ∧
        ∃ ctx, cpuInstCacheComputeModeKeyBits ctx = cpuInstCacheComputeModeKeyBits h.context ∧
          dec = isa.decode ctx h.codeView := by
  have hm := hc.entries.memory
  obtain ⟨hstays, hbytes⟩ := fetched_bytes hm hfetch
  unfold Hosted.handedFetched
  cases hdispatch : h'.tryDispatchEscape p address bytes with
  | some result =>
    dsimp only
    -- the code at both addresses is the same, or nothing of the fetch has been noticed
    rcases hcode with hsame | hunnoticed
    · rcases hbytes with rfl | hview
      · cases hdispatch
      · exact hview.trans hsame
    · have hnone := hunnoticed.noEscape
      rw [hfetch, hdispatch] at hnone
      cases hnone
  | none =>
    dsimp only
    cases hexc : h'.context.hasException with
    | true =>
      simp only [if_true]
      have hfast := fastSlotAt_hasException h.shared.engine address
      rcases hcode with hsame | hunnoticed
      · have hfault := fetch_fault (p := p) (h := h.setEngine (h.shared.engine.fastSlotAt address).2)
          ((fastSlotAt_stays _ address).ok hm) address (by rw [hfetch]; exact hexc)
        refine hfault.imp (fun hpending => hfast.symm.trans hpending) fun hshort => ?_
        have hplace := fastSlotAt_stays h.shared.engine address
        have hview : fetchView (h.shared.engine.fastSlotAt address).2.cpu.context.is64BitCode
            (h.shared.engine.fastSlotAt address).2.cpu.context.isUser
            (h.shared.engine.fastSlotAt address).2.cpu.memory address = h.codeView := by
          rw [hplace.is64BitCode_eq, hplace.fetchView_eq]
          exact hsame
        exact hview ▸ hshort
      · have hnone := hunnoticed.noFault
        rw [hfetch, hexc] at hnone
        cases hnone
    | false =>
      simp only [Bool.false_eq_true, if_false]
      have hatRip : h'.shared.engine.FoundAtRip isa bytes := fetched_found hm hcode hfetch
      have hfound := hatRip hexc
      have hview : h'.shared.engine.cpu.codeView = h.codeView := hstays.view_eq
      have hrip : h'.context.rip = h.context.rip := hstays.rip_eq
      rcases hresolve : h'.shared.engine.resolve isa bytes with ⟨_ | dec, engine⟩
      · rw [hresolve] at hfound
        right
        cases hfound with
        | empty _ _ _ hempty =>
          rw [← hview, hempty]
          decide
      · rw [hresolve] at hfound
        have hcurrent := (hc.of_stays hstays).resolved hfound rfl
        rw [hview] at hcurrent
        obtain ⟨hne, ctx, hkey, hdec⟩ := hcurrent
        exact ⟨hrip, hfound.rip_eq.trans hrip, hne, ctx, hkey.trans hstays.computed_eq, hdec⟩

/-- **Behind the code hooks** the instruction at `rip` is executed. -/
theorem executesAtRip (hc : CodeCoherent isa h.shared.engine)
    (hcode : h.SameCode address ∨ h.Unnoticed p address) : h.ExecutesAtRip isa p address := by
  have hstays := fastSlotAt_stays h.shared.engine address
  have hexc := fastSlotAt_hasException h.shared.engine address
  unfold Hosted.ExecutesAtRip Hosted.handed
  rcases hslot : h.shared.engine.fastSlotAt address with ⟨_ | slot, engine⟩
  · dsimp only
    exact handedFetched_atRip hc hcode (by rw [hslot])
  · rw [hslot] at hstays hexc
    dsimp only at hstays hexc ⊢
    split_ifs with hpending
    · exact Or.inl (hexc.symm.trans hpending)
    · have hfirst : (h.shared.engine.fastSlotAt address).1 = some slot := by rw [hslot]
      rcases hcode with hsame | hunnoticed
      · obtain ⟨slots, i, hs, rfl, htag, hversion, hmode⟩ := fastSlotAt_some hfirst
        obtain ⟨hne, ctx, hkey, hdec⟩ := hc.entry hs hversion hmode
        rw [htag] at hne hdec
        have hview : fetchView h.shared.engine.cpu.context.is64BitCode
            h.shared.engine.cpu.context.isUser h.shared.engine.cpu.memory address = h.codeView := hsame
        rw [hview] at hne hdec
        exact ⟨hstays.rip_eq, hstays.rip_eq, hne, ctx, hkey, hdec⟩
      · rw [hunnoticed.noSlot] at hfirst
        cases hfirst

/-- **What is handed is executed**: the turn dispatches the instruction, from the value of
`rip` and on the CPU with which it is handed, if it has bytes. -/
theorem afterPre_handed {dec : DecodedInst} {ripPre : U64} {cpu : Cpu}
    (hbytes : dec.bytes.length ≠ 0)
    (hhanded : h.handed isa p address = .decoded dec ripPre cpu) :
    ∃ (h' : Hosted ω) (engine : Engine), h.afterPre isa p flags address =
      h'.afterStep p flags address ((cpu.dispatchDecoded dec ripPre).1,
        { engine with cpu := (cpu.dispatchDecoded dec ripPre).2 }) := by
  unfold Hosted.handed at hhanded
  unfold Hosted.afterPre
  rcases hslot : h.shared.engine.fastSlotAt address with ⟨_ | slot, engine⟩
  · rw [hslot] at hhanded
    dsimp only at hhanded ⊢
    rcases hfetch : (h.setEngine engine).fetch p address with ⟨bytes, h'⟩
    rw [hfetch] at hhanded
    unfold Hosted.handedFetched at hhanded
    unfold Hosted.afterFetch
    cases hdispatch : h'.tryDispatchEscape p address bytes with
    | some result =>
      rw [hdispatch] at hhanded
      cases hhanded
    | none =>
      rw [hdispatch] at hhanded
      dsimp only at hhanded ⊢
      split_ifs at hhanded with hexc
      rcases hresolve : h'.shared.engine.resolve isa bytes with ⟨_ | dec', engine'⟩
      · rw [hresolve] at hhanded
        cases hhanded
      · rw [hresolve] at hhanded
        obtain ⟨rfl, rfl, rfl⟩ := Handed.decoded.inj hhanded
        refine ⟨h', engine', ?_⟩
        have hstep : h'.shared.engine.stepWithPrefetch isa bytes =
            ((engine'.cpu.dispatchDecoded dec' h'.context.rip).1,
              { engine' with cpu := (engine'.cpu.dispatchDecoded dec' h'.context.rip).2 }) := by
          unfold Engine.stepWithPrefetch
          rw [show h'.shared.engine.cpu.context = h'.context from rfl, if_neg hexc, hresolve]
          exact if_pos hbytes
        rw [hstep]
  · rw [hslot] at hhanded
    dsimp only at hhanded ⊢
    split_ifs at hhanded with hexc
    obtain ⟨rfl, rfl, rfl⟩ := Handed.decoded.inj hhanded
    refine ⟨h.setEngine engine, engine, ?_⟩
    have hstep : engine.stepDecoded slot =
        ((engine.cpu.dispatchDecoded slot.decoded engine.cpu.context.rip).1,
          { engine with
            cpu := (engine.cpu.dispatchDecoded slot.decoded engine.cpu.context.rip).2 }) := by
      unfold Engine.stepDecoded
      exact if_neg hexc
    rw [hstep]

/-! ## Whole runs -/

/-- The code hooks keep the live entries current. -/
theorem codeCoherent_dispatch (hc : CodeCoherent isa h.shared.engine) {type : HookType}
    (hkeeps : h.DispatchAlong (Hosted.CallKeeps isa) p type address) :
    CodeCoherent isa (h.dispatch p type address).shared.engine :=
  dispatch_invariant (fun h' : Hosted ω => CodeCoherent isa h'.shared.engine)
    (fun _ _ hc => hc) (fun _ _ hc hkeeps => codeCoherent_call hc hkeeps) hc hkeeps

theorem codeCoherent_preHooks (hc : CodeCoherent isa h.shared.engine)
    (hkeeps : flags.needPre = true → h.DispatchAlong (Hosted.CallKeeps isa) p .codePre address) :
    CodeCoherent isa (h.preHooks p flags address).shared.engine := by
  unfold Hosted.preHooks
  split_ifs with hneed
  · exact codeCoherent_dispatch hc (hkeeps hneed)
  · exact hc

theorem codeCoherent_postHooks (hc : CodeCoherent isa h.shared.engine)
    (hkeeps : flags.needPost = true → h.DispatchAlong (Hosted.CallKeeps isa) p .codePost address) :
    CodeCoherent isa (h.postHooks p flags address).shared.engine := by
  unfold Hosted.postHooks
  split_ifs with hneed
  · exact codeCoherent_dispatch hc (hkeeps hneed)
  · exact hc

/-- **One turn** keeps the live entries current. -/
theorem codeCoherent_turn (hc : CodeCoherent isa h.shared.engine)
    (hkeeps : h.TurnKeeps isa p flags) :
    CodeCoherent isa (h.turn isa p flags).2.shared.engine := by
  have hpre := codeCoherent_preHooks hc hkeeps.pre
  unfold Hosted.turn
  dsimp only
  split_ifs with hstop
  · exact hpre
  · obtain ⟨hcode, hexecute, hpost⟩ := hkeeps.going (Bool.eq_false_iff.mpr hstop)
    have hexecuted := codeCoherent_execute hpre hcode hexecute
    rw [afterPre_eq]
    unfold Hosted.withPost
    dsimp only
    split_ifs with hgoes
    · exact codeCoherent_postHooks hexecuted fun hneed => hpost hneed hgoes
    · exact hexecuted

/-- **One event** keeps the live entries current. -/
theorem codeCoherent_event (hc : CodeCoherent isa h.shared.engine) {event : HostedEvent}
    (hkeeps : h.EventKeeps isa p event) :
    CodeCoherent isa (h.apply isa p event).shared.engine := by
  cases event with
  | call c => exact codeCoherent_call hc hkeeps
  | start request =>
    have hkey : KeyFresh (h.prepare request).context := hc.key.congr rfl rfl rfl rfl
    exact hc.of_frame (.of_eq rfl rfl) hkey rfl fun _ _ _ _ _ => rfl
  | plainTurn =>
    have hstepped := @Engine.step_stepped isa h.shared.engine hc.entries.memory
    have hengine : (h.plainTurn isa).2.shared.engine = (h.shared.engine.step isa).2 := by
      show (stepOutcome (h.shared.engine.step isa)).2 = _
      exact Engine.stepOutcome_snd _
    have hbytes : h.shared.engine.KeepsBytes (h.plainTurn isa).2.shared.engine := hkeeps
    show CodeCoherent isa (h.plainTurn isa).2.shared.engine
    rw [hengine] at hbytes ⊢
    exact hc.of_frame hstepped.eventFrame (hstepped.key hc.key) hstepped.memory.codeVersion_eq hbytes
  | turn flags => exact codeCoherent_turn hc hkeeps

/-- **A turn under the invariant** executes what the callbacks have left. -/
theorem redirects_of_coherent (hc : CodeCoherent isa h.shared.engine)
    (hkeeps : h.TurnKeeps isa p flags) : h.Redirects isa p flags := by
  intro hstop
  refine ⟨executesAtRip (codeCoherent_preHooks hc hkeeps.pre) (hkeeps.going hstop).1, ?_⟩
  exact (codeCoherent_turn hc hkeeps).entries.live

/-- **Redirection.**  In a run whose events keep the mode and the code, and whose callbacks
before an instruction leave `rip` where the same code is, or unnoticed, every turn executes
what is stored at the `rip` that they have left, and the cache is right behind it. -/
theorem redirection_law (isa : InstructionSet) (p : HostProgram ω) (compat32 cached : Bool)
    (host : HostMemory) (world : ω) (events : List HostedEvent)
    (h : Along (Hosted.apply isa p) (Hosted.EventKeeps isa p)
      (Hosted.opened compat32 cached host world) events) :
    ∀ past flags, past ++ [.turn flags] <+: events →
      (run (Hosted.apply isa p) (Hosted.opened compat32 cached host world) past).Redirects
        isa p flags := by
  rintro past flags ⟨rest, rfl⟩
  have hpast := (along_append _ (past ++ [.turn flags]) rest).mp h
  have hlast := (along_append _ past [.turn flags]).mp hpast.1
  have hcoherent := run_invariant
    (fun h' : Hosted ω => CodeCoherent isa h'.shared.engine)
    (fun _ _ hc hkeeps => codeCoherent_event hc hkeeps) past _
    ⟨keyFresh_of_stale rfl, coherent_openEngine compat32 cached host⟩ hlast.1
  exact redirects_of_coherent hcoherent hlast.2.1

/-- A callback that sets `rip`. -/
def redirectHost (target : U64) : HostProgram Unit where
  code := fun _ _ _ _ => ([.regWrite (.rip target)], ())
  escape := fun _ _ context _ _ => ⟨[], cpueaxhErrOk, context, ()⟩
  memory := fun _ => ⟨[], false, ()⟩

/-- A hook before instructions, and a turn at an address. -/
def redirectRun (address : U64) : List HostedEvent :=
  [.call (.memory (.setHostPassthrough (mmProtRead ||| mmProtWrite ||| mmProtExec) true)),
    .call (.edit (.hookAdd 1 (some 0x100) 0 0 0)), .call (.regWrite (.rip address)),
    .turn ⟨true, false⟩]

/-- The state before the turn. -/
def redirectStart (page : HostMemory) (address target : U64) : Hosted Unit :=
  run (Hosted.apply sampleSet (redirectHost target)) (.opened false true page ())
    ((redirectRun address).take 3)

/-- The state behind the callback. -/
def redirected (page : HostMemory) (address target : U64) : Hosted Unit :=
  (redirectStart page address target).preHooks (redirectHost target) ⟨true, false⟩ address

/-- Two `NOP`s of the host, on pages of their own. -/
def nopPages : HostMemory :=
  HostMemory.initial (fun a => if a = 0x6000 then 0x90 else if a = 0x7000 then 0x90 else 0)
    fun _ => true

set_option maxRecDepth 4000 in
/-- Executing the `NOP` leaves the code alone. -/
theorem redirected_keeps :
    (redirected nopPages 0x6000 0x7000).ExecuteKeeps sampleSet (redirectHost 0x7000) 0x6000 := by
  have hcalled : (redirected nopPages 0x6000 0x7000).escapeCalled (redirectHost 0x7000) 0x6000 =
      none := Option.isNone_iff_eq_none.mp (by decide +kernel)
  unfold Hosted.ExecuteKeeps
  rw [hcalled]
  intro slots hs i hi is64
  obtain rfl := Option.some.inj hs
  -- the one live entry is the one at the `rip` that the callback has left
  by_cases hslot : i = cpuInstCacheIndex 0x7000
  · subst hslot
    cases is64 with
    | false => decide +kernel
    | true => decide +kernel
  · change (Function.update (fun _ => InstCacheEntry.zero) (cpuInstCacheIndex 0x7000) _ i).version
      = _ at hi
    rw [Function.update_of_ne hslot] at hi
    exact absurd hi (by decide +kernel)

set_option maxRecDepth 4000 in
/-- The callback moves `rip` from one of the `NOP`s to the other one, which is executed. -/
theorem redirection_law_nop :
    (redirectStart nopPages 0x6000 0x7000).context.rip = 0x6000 ∧
    (redirected nopPages 0x6000 0x7000).context.rip = 0x7000 ∧
    (redirectStart nopPages 0x6000 0x7000).Redirects sampleSet (redirectHost 0x7000)
      ⟨true, false⟩ := by
  refine ⟨by decide +kernel, by decide +kernel, ?_⟩
  refine redirection_law sampleSet (redirectHost 0x7000) false true nopPages ()
    (redirectRun 0x6000) ?_ ((redirectRun 0x6000).take 3) ⟨true, false⟩ List.prefix_rfl
  refine ⟨?_, ?_, ?_, ⟨?_, ?_⟩, trivial⟩
  · rintro event ⟨⟩
    refine ⟨trivial, ?_⟩
    show (_ : U64) ≤ (_ : U64)
    decide
  · rintro event ⟨⟩
    exact ⟨trivial, fun _ _ _ _ _ => rfl⟩
  · rintro event ⟨⟩
    exact ⟨trivial, fun _ _ _ _ _ => rfl⟩
  · intro _ index hook callback _ _ _ _
    refine ⟨?_, trivial⟩
    rintro event ⟨⟩
    exact ⟨trivial, fun _ _ _ _ _ => rfl⟩
  · intro _
    refine ⟨Or.inl ?_, redirected_keeps, fun hneed => by cases hneed⟩
    show (_ : List U8) = (_ : List U8)
    decide +kernel

/-- The first byte of the instruction that a turn executes. -/
def Handed.first : Handed → Option U8
  | .decoded dec _ _ => dec.bytes.head?
  | _ => none

/-- An instruction that is executed begins with the byte at `rip`. -/
theorem first_of_executes {h : Hosted Unit} {p : HostProgram Unit} {address : U64} {b : U8}
    (hexecutes : h.ExecutesAtRip sampleSet p address)
    (hfirst : (h.handed sampleSet p address).first = some b) : h.codeView.head? = some b := by
  unfold Hosted.ExecutesAtRip at hexecutes
  cases hhanded : h.handed sampleSet p address with
  | nothing =>
    rw [hhanded] at hfirst
    cases hfirst
  | escape bytes =>
    rw [hhanded] at hfirst
    cases hfirst
  | decoded dec ripPre cpu =>
    rw [hhanded] at hfirst hexecutes
    obtain ⟨-, -, -, ctx, -, hdec⟩ := hexecutes
    have hbytes : dec.bytes.head? = some b := hfirst
    rw [hdec, show sampleSet.decode = sampleDecode from rfl, sampleDecode_bytes] at hbytes
    exact hbytes

set_option maxRecDepth 4000 in
/-- From the `NOP` at `0x5002`, inside the `MOV` at `0x5000`, the callback sets `rip` to the `MOV`,
and the `NOP` is executed and remembered there. -/
theorem redirected_to_stale_code :
    ¬ (redirectStart movPage 0x5002 0x5000).Redirects sampleSet (redirectHost 0x5000)
      ⟨true, false⟩ := by
  have hrip : (redirectStart movPage 0x5002 0x5000).context.rip = 0x5002 := by decide +kernel
  unfold Hosted.Redirects
  rw [hrip]
  have hfirst : ((redirected movPage 0x5002 0x5000).handed sampleSet (redirectHost 0x5000) 0x5002).first =
      some 0x90 := by decide +kernel
  have hne : (redirected movPage 0x5002 0x5000).codeView.head? ≠ some 0x90 := by decide +kernel
  exact fun h => hne (first_of_executes (h (by decide +kernel)).1 hfirst)

end Cpueaxh
