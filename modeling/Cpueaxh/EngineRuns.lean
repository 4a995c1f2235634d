/-
# Runs and the mode key

What every event keeps: the invariant of the memory, what the table grants as long as the
version stays, and where the entries of the cache come from.  From this follow the facts
on whole runs.

The first of them is about the mode key.  `cpueaxh_reg_write` does not mark the cached
key as stale when it changes the mode of the code segment, so the key is fresh in all
states of a run exactly when no such write comes while a key is cached.
-/
import Cpueaxh.EngineFrame
import Cpueaxh.SampleInstructions
import Cpueaxh.Transition

namespace Cpueaxh

open HostMemory Transition

variable {isa : InstructionSet}

/-! ## Events -/

/-- What an event keeps. -/
structure EventFrame (isa : InstructionSet) (engine engine' : Engine) : Prop where
  ok : MemoryOk engine.cpu.memory → MemoryOk engine'.cpu.memory
  view : engine'.cpu.memory.codeVersion = engine.cpu.memory.codeVersion →
    ∀ address perm,
      accessView engine'.cpu.memory address perm = accessView engine.cpu.memory address perm
  entries : engine.EntriesFrom isa engine'
  user : engine'.cpu.context.isUser = engine.cpu.context.isUser ∨
    engine'.instCache = engine.instCache

/-- A guest step is an event. -/
theorem Engine.Stepped.eventFrame {engine engine' : Engine} (h : engine.Stepped isa engine') :
    EventFrame isa engine engine' where
  ok := h.memory.ok
  view _ := h.memory.accessView_eq
  entries := h.entries
  user := h.user

/-- An event that leaves the memory and the cache alone. -/
theorem EventFrame.of_eq {engine engine' : Engine}
    (hmemory : engine'.cpu.memory = engine.cpu.memory)
    (hcache : engine'.instCache = engine.instCache) : EventFrame isa engine engine' where
  ok hm := hmemory ▸ hm
  view _ _ _ := by rw [hmemory]
  entries := .of_eq hcache
  user := Or.inr hcache

/-- A byte that the host program writes changes the bytes and the page cache at most. -/
theorem mmWriteByteChecked_frame (mgr : MemoryManager) (address : U64) (value : U8) :
    MemoryFrame mgr (mmWriteByteChecked mgr address value).2 := by
  have hget := mmGetPtrChecked_frame mgr address mmProtWrite
  unfold mmWriteByteChecked
  rcases h : mmGetPtrChecked mgr address mmProtWrite with ⟨result, mgr'⟩
  rw [h] at hget
  rcases hr : result.status with _ | _ | _
  · simp only [hr]
    exact hget.trans ⟨rfl, fun hm => hm.write result.ptr value⟩
  · simp only [hr]
    exact hget
  · simp only [hr]
    exact hget

/-- A raw write changes the bytes and the page cache at most. -/
theorem memWriteLoop_frame (address : U64) (bytes : U64 → U8) (left : ℕ) :
    ∀ (index : U64) (mgr : MemoryManager),
      MemoryFrame mgr (memWriteLoop address bytes left index mgr).2 := by
  induction left with
  | zero => intro index mgr; exact .refl mgr
  | succ left ih =>
    intro index mgr
    have hbyte := mmWriteByteChecked_frame mgr (address + index) (bytes index)
    unfold memWriteLoop
    rcases h : mmWriteByteChecked mgr (address + index) (bytes index) with ⟨_ | _ | _, mgr'⟩
    · rw [h] at hbyte
      exact hbyte.trans (ih (index + 1) mgr')
    · rw [h] at hbyte
      exact hbyte
    · rw [h] at hbyte
      exact hbyte

/-- **An event** keeps the invariant of the memory, and what the table grants unless the
version moves on. -/
theorem apply_frame {engine : Engine} (hm : MemoryOk engine.cpu.memory) (event : EngineEvent) :
    EventFrame isa engine (engine.apply isa event) := by
  cases event with
  | step => exact (Engine.step_stepped hm).eventFrame
  | hookedStep => exact (Engine.hookedStep_stepped hm).eventFrame
  | regWrite write => exact .of_eq rfl rfl
  | contextWrite input => exact .of_eq rfl rfl
  | memory call =>
    have hcall := memoryCall_ok hm call
    exact
      { ok := fun _ => hcall.1
        view := fun hversion => (hcall.2 hversion).access_eq
        entries := .of_eq rfl
        user := Or.inr rfl }
  | rawWrite address bytes size =>
    have hwrite := memWriteLoop_frame address bytes size.toNat 0 engine.cpu.memory
    exact
      { ok := hwrite.ok
        view := fun _ => hwrite.accessView_eq
        entries := .of_eq rfl
        user := Or.inr rfl }
  | exceptionRaise code errorCode =>
    show EventFrame isa engine (if _ then _ else _)
    split_ifs
    · exact .of_eq rfl rfl
    · exact .of_eq rfl rfl
  | exceptionClear => exact .of_eq rfl rfl
  | setHooks hooks => exact .of_eq rfl rfl
  | setEscapes escapes => exact .of_eq rfl rfl

/-- Only a call of the memory manager moves the version on. -/
theorem apply_version {engine : Engine} (hm : MemoryOk engine.cpu.memory) {event : EngineEvent}
    (h : ∀ call, event ≠ .memory call) :
    (engine.apply isa event).cpu.memory.codeVersion = engine.cpu.memory.codeVersion := by
  cases event with
  | step => exact (Engine.step_stepped hm).memory.codeVersion_eq
  | hookedStep => exact (Engine.hookedStep_stepped hm).memory.codeVersion_eq
  | memory call => exact absurd rfl (h call)
  | rawWrite address bytes size =>
    exact (memWriteLoop_frame address bytes size.toNat 0 engine.cpu.memory).codeVersion_eq
  | exceptionRaise code errorCode =>
    show (if _ then _ else _ : Engine).cpu.memory.codeVersion = _
    split_ifs
    · rfl
    · rfl
  | regWrite | contextWrite | exceptionClear | setHooks | setEscapes => rfl

/-- The memory of a newly opened engine. -/
theorem memoryOk_openEngine (compat32 cached : Bool) (host : HostMemory) :
    MemoryOk (openEngine compat32 cached host).cpu.memory :=
  (memoryCall_ok (memoryOk_mmInit host)
    (.setHostPassthrough (mmProtRead ||| mmProtWrite ||| mmProtExec) false)).1

/-! ## The mode key -/

/-- The event does not change the mode of the code segment under a cached key. -/
def KeepsMode (engine : Engine) : EngineEvent → Prop
  | .regWrite (.segment .cs (.db value)) =>
    engine.cpu.context.cachedModeKeyValid = true →
      lowBit value = engine.cpu.context.cs.descriptor.db
  | .regWrite (.segment .cs (.longMode value)) =>
    engine.cpu.context.cachedModeKeyValid = true →
      lowBit value = engine.cpu.context.cs.descriptor.longMode
  | _ => True

/-- The key bits of a context whose code segment is replaced. -/
theorem computeModeKeyBits_cs (ctx : CpuContext) (cs : SegmentRegister) :
    cpuInstCacheComputeModeKeyBits { ctx with cs := cs } = cpuInstCacheComputeModeKeyBits ctx ↔
      cs.descriptor.longMode = ctx.cs.descriptor.longMode ∧
        cs.descriptor.db = ctx.cs.descriptor.db := by
  unfold cpuInstCacheComputeModeKeyBits
  cases ctx.longModeActive <;> cases ctx.cs.descriptor.longMode <;> cases ctx.cs.descriptor.db <;>
    cases cs.descriptor.longMode <;> cases cs.descriptor.db <;> decide

/-- A context with another code segment is fresh exactly when the key is not cached, or
the mode is the same. -/
theorem keyFresh_cs {ctx : CpuContext} (h : KeyFresh ctx) (cs : SegmentRegister) :
    KeyFresh { ctx with cs := cs } ↔
      (ctx.cachedModeKeyValid = true → cs.descriptor.longMode = ctx.cs.descriptor.longMode ∧
        cs.descriptor.db = ctx.cs.descriptor.db) := by
  rw [← computeModeKeyBits_cs]
  constructor
  · intro hfresh hvalid
    exact (hfresh hvalid).symm.trans (h hvalid)
  · intro hmode hvalid
    exact (h hvalid).trans (hmode hvalid).symm

/-- **A register write** keeps the key fresh exactly when it keeps the mode under it. -/
theorem keyFresh_regWrite {engine : Engine} (h : KeyFresh engine.cpu.context) (write : RegWrite) :
    KeyFresh (regWrite engine.cpu.context write) ↔ KeepsMode engine (.regWrite write) := by
  cases write with
  | segment register field =>
    cases register with
    | cs =>
      have hcs := keyFresh_cs h (engine.cpu.context.cs.write field)
      cases field with
      | db value =>
        refine hcs.trans (imp_congr_right fun _ => ?_)
        exact and_iff_right rfl
      | longMode value =>
        refine hcs.trans (imp_congr_right fun _ => ?_)
        exact and_iff_left rfl
      | selector | base | limit | type | dpl | present | granularity =>
        exact iff_of_true (hcs.mpr fun _ => ⟨rfl, rfl⟩) trivial
    | es | ss | ds | fs | gs => exact iff_of_true (h.congr rfl rfl rfl rfl) trivial
  | _ => exact iff_of_true (h.congr rfl rfl rfl rfl) trivial

/-- **An event** keeps the key fresh exactly when it keeps the mode under it. -/
theorem keyFresh_apply {engine : Engine} (hm : MemoryOk engine.cpu.memory)
    (h : KeyFresh engine.cpu.context) (event : EngineEvent) :
    KeyFresh (engine.apply isa event).cpu.context ↔ KeepsMode engine event := by
  cases event with
  | step => exact iff_of_true ((Engine.step_stepped hm).key h) trivial
  | hookedStep => exact iff_of_true ((Engine.hookedStep_stepped hm).key h) trivial
  | regWrite write => exact keyFresh_regWrite h write
  | contextWrite input => exact iff_of_true (keyFresh_of_stale rfl) trivial
  | memory call => exact iff_of_true h trivial
  | rawWrite address bytes size => exact iff_of_true h trivial
  | exceptionRaise code errorCode =>
    refine iff_of_true ?_ trivial
    show KeyFresh (if cpuIsExceptionCode code then
      engine.setContext (engine.cpu.context.raiseException code errorCode) else engine).cpu.context
    split_ifs
    · obtain ⟨exception, heq⟩ := raiseException_eq engine.cpu.context code errorCode
      show KeyFresh (engine.cpu.context.raiseException code errorCode)
      rw [heq]
      exact h.congr rfl rfl rfl rfl
    · exact h
  | exceptionClear => exact iff_of_true (h.congr rfl rfl rfl rfl) trivial
  | setHooks hooks => exact iff_of_true h trivial
  | setEscapes escapes => exact iff_of_true h trivial

/-- The entry holds an instruction that was decoded under the mode of its key. -/
def InstCacheEntry.DecodedInMode (isa : InstructionSet) (entry : InstCacheEntry) : Prop :=
  ∃ ctx bytes, cpuInstCacheComputeModeKeyBits ctx = entry.mode ∧
    entry.decoded = isa.decode ctx bytes

/-- The invariant of runs that keep the mode: the key is fresh, and each entry that can
be hit was decoded under the mode of its key. -/
structure ModeOk (isa : InstructionSet) (engine : Engine) : Prop where
  memory : MemoryOk engine.cpu.memory
  key : KeyFresh engine.cpu.context
  entries : ∀ slots, engine.instCache = some slots →
    ∀ i, (slots i).version ≠ 0 → (slots i).DecodedInMode isa

theorem modeOk_openEngine (compat32 cached : Bool) (host : HostMemory) :
    ModeOk isa (openEngine compat32 cached host) where
  memory := memoryOk_openEngine compat32 cached host
  key := keyFresh_of_stale rfl
  entries slots hs i hi := by
    unfold openEngine at hs
    simp only [Option.ite_none_right_eq_some, Option.some.injEq] at hs
    obtain ⟨-, rfl⟩ := hs
    exact absurd rfl hi

/-- **One event** keeps the invariant when it keeps the mode. -/
theorem modeOk_apply {engine : Engine} (h : ModeOk isa engine) {event : EngineEvent}
    (hmode : KeepsMode engine event) : ModeOk isa (engine.apply isa event) where
  memory := (apply_frame h.memory event).ok h.memory
  key := (keyFresh_apply h.memory h.key event).mpr hmode
  entries slots' hs' i hi := by
    obtain ⟨slots, hs, hslots⟩ := (@apply_frame isa _ h.memory event).entries slots' hs'
    rcases hslots i with heq | hfresh
    · rw [heq] at hi ⊢
      exact h.entries slots hs i hi
    · obtain ⟨ctx, hctx, hdec⟩ := hfresh.decoded
      refine ⟨ctx, _, ?_, hdec⟩
      rw [hctx, hfresh.mode_eq]
      exact h.key.modeKey_eq.symm

/-- A step replays an instruction only under the mode under which it was decoded. -/
theorem ModeOk.hit {engine : Engine} (h : ModeOk isa engine) {slot : InstCacheEntry}
    (hhit : engine.hit = some slot) :
    ∃ ctx bytes, cpuInstCacheComputeModeKeyBits ctx =
        cpuInstCacheComputeModeKeyBits engine.cpu.context ∧
      slot.decoded = isa.decode ctx bytes := by
  obtain ⟨slots, hs, rfl, -, hversion, hkey⟩ := Engine.hit_eq_some hhit
  obtain ⟨ctx, bytes, hctx, hdec⟩ := h.entries slots hs _ (by
    rw [hversion]
    exact h.memory.version_ne)
  refine ⟨ctx, bytes, ?_, hdec⟩
  rw [hctx, hkey]
  exact h.key.modeKey_eq

/-- A run keeps the invariant of the memory. -/
theorem memoryOk_run {engine : Engine} (hm : MemoryOk engine.cpu.memory)
    (events : List EngineEvent) : MemoryOk (run (Engine.apply isa) engine events).cpu.memory :=
  run_invariant_always (fun e : Engine => MemoryOk e.cpu.memory)
    (fun _ event h => (apply_frame h event).ok h) events engine hm

/-- **The key is fresh in all states of a run** exactly when every event keeps the mode
under a cached key. -/
theorem keyFresh_run_iff {engine : Engine} (hm : MemoryOk engine.cpu.memory)
    (h : KeyFresh engine.cpu.context) (events : List EngineEvent) :
    (∀ l, l <+: events → KeyFresh (run (Engine.apply isa) engine l).cpu.context) ↔
      Along (Engine.apply isa) KeepsMode engine events := by
  rw [← forall_prefix_iff_along
    (fun e : Engine => MemoryOk e.cpu.memory ∧ KeyFresh e.cpu.context) _ engine ⟨hm, h⟩]
  · exact forall_congr' fun l => imp_congr_right fun _ => (and_iff_right (memoryOk_run hm l)).symm
  · rintro e event ⟨hm, h⟩
    rw [and_iff_right ((apply_frame hm event).ok hm)]
    exact keyFresh_apply hm h event

/-- The mode key of the engine is fresh, and a step replays an instruction only under the
mode under which it was decoded. -/
structure ModeSound (isa : InstructionSet) (engine : Engine) : Prop where
  key : KeyFresh engine.cpu.context
  replay : ∀ slot, engine.hit = some slot →
    ∃ ctx bytes, cpuInstCacheComputeModeKeyBits ctx =
        cpuInstCacheComputeModeKeyBits engine.cpu.context ∧
      slot.decoded = isa.decode ctx bytes

/-- **The mode key.**  All states of a run from a newly opened engine are sound exactly
when no register write of the run changes `CS_DB` or `CS_LONG_MODE` under a cached key. -/
theorem mode_sound_iff_keepsMode (isa : InstructionSet) (compat32 cached : Bool)
    (host : HostMemory) (events : List EngineEvent) :
    (∀ l, l <+: events →
      ModeSound isa (run (Engine.apply isa) (openEngine compat32 cached host) l)) ↔
      Along (Engine.apply isa) KeepsMode (openEngine compat32 cached host) events := by
  have hopen := @modeOk_openEngine isa compat32 cached host
  constructor
  · intro h
    exact (keyFresh_run_iff hopen.memory hopen.key events).mp fun l hl => (h l hl).key
  · intro h l hl
    obtain ⟨rest, rfl⟩ := hl
    have hok : ModeOk isa (run (Engine.apply isa) (openEngine compat32 cached host) l) :=
      run_invariant (ModeOk isa) (fun _ _ hok hmode => modeOk_apply hok hmode) l _ hopen
        ((along_append _ l rest).mp h).1
    exact ⟨hok.key, fun slot hhit => hok.hit hhit⟩

/-- A step caches the key, and a write of `CS_DB` leaves it behind. -/
theorem csDb_write_leaves_stale_key :
    ¬ ∀ l, l <+: [EngineEvent.step, .regWrite (.segment .cs (.db 1))] →
      ModeSound sampleSet (run (Engine.apply sampleSet)
        (openEngine false true (HostMemory.initial (fun _ => 0) fun _ => true)) l) := by
  intro h
  have hkey := (h _ (List.prefix_refl _)).key
  have hvalid : (run (Engine.apply sampleSet)
      (openEngine false true (HostMemory.initial (fun _ => 0) fun _ => true))
      [.step, .regWrite (.segment .cs (.db 1))]).cpu.context.cachedModeKeyValid = true := by
    decide
  exact absurd (hkey hvalid) (by decide)

end Cpueaxh
