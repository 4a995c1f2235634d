/-
# Runs and cached instructions

A cached instruction is live while the version of the code is the one under which it was
decoded.  Every call of the memory manager that changes what the table grants, or bytes,
moves the version on, so it kills all entries; a store of the guest does not, nor does a
change of the privilege level.  As long as these leave the bytes under the live entries
alone, a step executes what the memory holds; as long as the latter does not enter user
mode over an entry that user code may not fetch, a step enforces the privilege of its
fetch.
-/
import Cpueaxh.EngineRuns

namespace Cpueaxh

open HostMemory Transition

variable {isa : InstructionSet}

/-! ## Live entries -/

/-- A property of the live entries of the cache, for the privilege and the memory of the
engine.  No entry is from a later version than the current one. -/
structure Coherent (good : Bool → MemoryManager → InstCacheEntry → Prop) (engine : Engine) :
    Prop where
  memory : MemoryOk engine.cpu.memory
  bound : ∀ slots, engine.instCache = some slots →
    ∀ i, (slots i).version ≤ engine.cpu.memory.codeVersion
  live : ∀ slots, engine.instCache = some slots →
    ∀ i, (slots i).version = engine.cpu.memory.codeVersion →
      good engine.cpu.context.isUser engine.cpu.memory (slots i)

variable {good : Bool → MemoryManager → InstCacheEntry → Prop}

theorem coherent_openEngine (compat32 cached : Bool) (host : HostMemory) :
    Coherent good (openEngine compat32 cached host) := by
  have hm := memoryOk_openEngine compat32 cached host
  have hslots : ∀ slots, (openEngine compat32 cached host).instCache = some slots →
      ∀ i, (slots i).version = 0 := by
    intro slots hs i
    unfold openEngine at hs
    simp only [Option.ite_none_right_eq_some, Option.some.injEq] at hs
    obtain ⟨-, rfl⟩ := hs
    rfl
  refine ⟨hm, fun slots hs i => ?_, fun slots hs i hi => ?_⟩
  · rw [hslots slots hs i]
    exact BitVec.le_def.mpr (Nat.zero_le _)
  · rw [hslots slots hs i] at hi
    exact absurd hi.symm hm.version_ne

/-- **One transition.**  The live entries stay good if fresh entries are good, and a
transition under one version keeps the good ones good. -/
theorem Coherent.of_frame {engine engine' : Engine} (h : Coherent good engine)
    (hframe : EventFrame isa engine engine')
    (hwrap : engine.cpu.memory.codeVersion ≤ engine'.cpu.memory.codeVersion)
    (hfresh : ∀ entry, engine.Fresh isa entry →
      good engine.cpu.context.isUser engine.cpu.memory entry)
    (hkeep : engine'.cpu.memory.codeVersion = engine.cpu.memory.codeVersion →
      ∀ slots, engine'.instCache = some slots →
        ∀ i, (slots i).version = engine.cpu.memory.codeVersion →
          good engine.cpu.context.isUser engine.cpu.memory (slots i) →
            good engine'.cpu.context.isUser engine'.cpu.memory (slots i)) :
    Coherent good engine' := by
  have hbound : ∀ slots', engine'.instCache = some slots' →
      ∀ i, (slots' i).version ≤ engine.cpu.memory.codeVersion := by
    intro slots' hs' i
    obtain ⟨slots, hs, hslots⟩ := hframe.entries slots' hs'
    rcases hslots i with heq | hf
    · rw [heq]
      exact h.bound slots hs i
    · rw [hf.version_eq]
      exact BitVec.le_refl _
  refine ⟨hframe.ok h.memory, fun slots' hs' i => BitVec.le_trans (hbound slots' hs' i) hwrap,
    fun slots' hs' i hi => ?_⟩
  by_cases hversion : engine'.cpu.memory.codeVersion = engine.cpu.memory.codeVersion
  · rw [hversion] at hi
    apply hkeep hversion slots' hs' i hi
    obtain ⟨slots, hs, hslots⟩ := hframe.entries slots' hs'
    rcases hslots i with heq | hf
    · rw [heq] at hi ⊢
      exact h.live slots hs i hi
    · exact hfresh _ hf
  · -- the version moved on, so no entry is live
    have hle := hbound slots' hs' i
    rw [hi] at hle
    exact absurd (BitVec.le_antisymm hle hwrap) hversion

/-! ## The privilege of a fetch -/

/-- The byte may be executed. -/
def Fetchable (user : Bool) (mgr : MemoryManager) (address : U64) : Prop :=
  ∃ ptr, judgeAccess user (accessView mgr address mmProtExec) = .ok ptr

/-- What user code may execute, supervisor code may. -/
theorem Fetchable.supervisor {mgr : MemoryManager} {address : U64} {user : Bool}
    (h : Fetchable user mgr address) : Fetchable false mgr address := by
  obtain ⟨ptr, hptr⟩ := h
  refine ⟨ptr, ?_⟩
  unfold judgeAccess at hptr ⊢
  rcases hstatus : (accessView mgr address mmProtExec).status with _ | _ | _ <;>
    rw [hstatus] at hptr <;> simp only at hptr ⊢
  · split_ifs at hptr
    simpa using hptr
  · cases hptr
  · cases hptr

/-- The first byte of a fresh entry may be executed. -/
theorem Engine.Fresh.fetchable {engine : Engine} {entry : InstCacheEntry}
    (h : engine.Fresh isa entry) :
    Fetchable engine.cpu.context.isUser engine.cpu.memory entry.tag := by
  obtain ⟨ptr, hptr⟩ := fetchView_ne_nil.mp h.view_ne
  unfold codePtr at hptr
  split_ifs at hptr
  rw [h.tag_eq]
  rcases hjudge : judgeAccess engine.cpu.context.isUser
      (accessView engine.cpu.memory engine.cpu.context.rip mmProtExec) with violation | ptr'
  · rw [hjudge] at hptr
    cases hptr
  · exact ⟨ptr', hjudge⟩

/-- The event does not let the version wrap, and it does not enter user mode over a live
entry whose first byte user code may not execute. -/
def KeepsFetchable (isa : InstructionSet) (engine : Engine) : EngineEvent → Prop
  | .memory call =>
    engine.cpu.memory.codeVersion ≤ (memoryCall engine.cpu.memory call).codeVersion
  | event =>
    engine.cpu.context.isUser = false → (engine.apply isa event).cpu.context.isUser = true →
      ∀ slots, engine.instCache = some slots →
        ∀ i, (slots i).version = engine.cpu.memory.codeVersion →
          Fetchable true engine.cpu.memory (slots i).tag

/-- A step does not enter user mode. -/
theorem keepsFetchable_step {engine : Engine} (hm : MemoryOk engine.cpu.memory) :
    KeepsFetchable isa engine .step := by
  intro hfrom hto
  have hcpl := (@Engine.stepWithPrefetch_frame isa engine hm [] (Or.inl rfl)).1.cpl_eq
  have huser : (engine.step isa).2.cpu.context.isUser = engine.cpu.context.isUser := by
    unfold CpuContext.isUser Engine.step
    rw [hcpl]
  exact absurd (huser.symm.trans hto) (by simp [hfrom])

/-- The first byte of each live entry may be executed. -/
abbrev FetchCoherent : Engine → Prop :=
  Coherent fun user mgr entry => Fetchable user mgr entry.tag

/-- **One event** keeps the first bytes of the live entries fetchable. -/
theorem fetchCoherent_apply {engine : Engine} (h : FetchCoherent engine) {event : EngineEvent}
    (hkeeps : KeepsFetchable isa engine event) : FetchCoherent (engine.apply isa event) := by
  have hframe := @apply_frame isa _ h.memory event
  have hwrap : engine.cpu.memory.codeVersion ≤
      (engine.apply isa event).cpu.memory.codeVersion := by
    by_cases hcall : ∃ call, event = .memory call
    · obtain ⟨call, rfl⟩ := hcall
      exact hkeeps
    · rw [apply_version h.memory fun call heq => hcall ⟨call, heq⟩]
      exact BitVec.le_refl _
  apply h.of_frame hframe hwrap fun _ hf => hf.fetchable
  intro hversion slots hs i hi hgood
  have hview : ∀ user, Fetchable user (engine.apply isa event).cpu.memory (slots i).tag ↔
      Fetchable user engine.cpu.memory (slots i).tag := by
    intro user
    unfold Fetchable
    rw [hframe.view hversion]
  rw [hview]
  rcases hframe.user with huser | hcache
  · rw [huser]
    exact hgood
  · cases hto : (engine.apply isa event).cpu.context.isUser with
    | false => exact hgood.supervisor
    | true =>
      cases hfrom : engine.cpu.context.isUser with
      | true =>
        rw [hfrom] at hgood
        exact hgood
      | false =>
        by_cases hcall : ∃ call, event = .memory call
        · -- a call of the memory manager leaves the privilege alone
          obtain ⟨call, rfl⟩ := hcall
          exact absurd (hfrom.symm.trans hto) (by simp)
        · have henter : engine.cpu.context.isUser = false →
              (engine.apply isa event).cpu.context.isUser = true →
                ∀ slots, engine.instCache = some slots →
                  ∀ i, (slots i).version = engine.cpu.memory.codeVersion →
                    Fetchable true engine.cpu.memory (slots i).tag := by
            cases event with
            | memory call => exact absurd ⟨call, rfl⟩ hcall
            | _ => exact hkeeps
          exact henter hfrom hto slots (hcache ▸ hs) i hi

/-- A step at CPL 3 whose first byte user code may not execute raises the exception that
a fetch raises: a page fault, unless the address is not canonical. -/
def FetchEnforced (isa : InstructionSet) (engine : Engine) : Prop :=
  engine.cpu.context.hasException = false → engine.cpu.context.isUser = true →
    ∀ violation, judgeAccess true
        (accessView engine.cpu.memory engine.cpu.context.rip mmProtExec) = .error violation →
      let fetched := (engine.cpu.fetchInstructionBytes engine.cpu.context.rip).2.context
      let after := (engine.step isa).2.cpu.context
      (engine.step isa).1 = .exception ∧ after.exception = fetched.exception ∧
        after.controlRegs regCr2 = fetched.controlRegs regCr2 ∧
        (engine.cpu.context.is64BitCode = false ∨
            cpuIsCanonicalAddress engine.cpu.context.rip = true →
          after.exception.code = cpuExceptionPf ∧
            after.controlRegs regCr2 = engine.cpu.context.rip ∧
            after.exception.errorCode = cpuMakePageFaultError engine.cpu.context .exec
              (faultOutcome engine.cpu.hooks .exec violation 4 engine.cpu.asked).1)

/-- The context behind an access that is not granted. -/
theorem accessOutcome_fault {ctx : CpuContext} (hexc : ctx.hasException = false)
    {view : PtrResult} {violation : Bool} (hjudge : judgeAccess ctx.isUser view = .error violation)
    (hooks : Hooks) (asked : ℕ) (address : U64) (access : Access) :
    (accessOutcome ctx view hooks asked address access).2.1 =
      if ctx.is64BitCode && !cpuIsCanonicalAddress address then
        { ctx with exception := { code := cpuExceptionGp, errorCode := 0 } }
      else
        { ctx with
          controlRegs := Function.update ctx.controlRegs regCr2 address
          exception :=
            { code := cpuExceptionPf
              errorCode := cpuMakePageFaultError ctx access
                (faultOutcome hooks access violation 4 asked).1 } } := by
  have hraise : ∀ c : CpuContext, c.exception = ctx.exception → ∀ code errorCode,
      c.raiseException code errorCode =
        { c with exception := { code := code, errorCode := errorCode } } := by
    intro c hc code errorCode
    have hnone : c.hasException = false := by
      unfold CpuContext.hasException at hexc ⊢
      rw [hc]
      exact hexc
    unfold CpuContext.raiseException
    rw [hnone]
    rfl
  unfold accessOutcome
  simp only [hexc, Bool.false_eq_true, if_false]
  split_ifs with hcanon
  · exact hraise ctx rfl cpuExceptionGp 0
  · rw [hjudge]
    show cpuRaisePageFault ctx address access _ = _
    unfold cpuRaisePageFault
    exact hraise { ctx with controlRegs := Function.update ctx.controlRegs regCr2 address } rfl _ _

/-- A fetch whose first byte may not be executed. -/
theorem fetchEnd_first {ctx : CpuContext} {mgr : MemoryManager} {address : U64}
    (h : codePtr ctx.is64BitCode ctx.isUser mgr address = none) (hooks : Hooks) (asked : ℕ) :
    fetchEnd ctx mgr hooks asked address maxInstFetch 0 =
      (accessOutcome ctx (accessView mgr address mmProtExec) hooks asked address .exec).2 := by
  have hzero : address + BitVec.ofNat 64 0 = address := BitVec.add_zero address
  have hsucc := @fetchEnd_succ mgr address ctx hooks asked 14 0
  rw [hzero, h] at hsucc
  exact hsucc

/-- **A step under the invariant** enforces the privilege of its fetch. -/
theorem FetchCoherent.enforced {engine : Engine} (h : FetchCoherent engine) :
    FetchEnforced isa engine := by
  intro hexc huser violation hjudge fetched after
  have huser' : judgeAccess engine.cpu.context.isUser (accessView engine.cpu.memory engine.cpu.context.rip mmProtExec) =
      .error violation := by
    rw [huser]
    exact hjudge
  have hptr : codePtr engine.cpu.context.is64BitCode engine.cpu.context.isUser engine.cpu.memory engine.cpu.context.rip = none := by
    unfold codePtr
    rw [huser']
    split_ifs <;> rfl
  have hview : engine.cpu.codeView = [] := by
    by_contra hne
    obtain ⟨ptr, hsome⟩ := fetchView_ne_nil.mp hne
    rw [hptr] at hsome
    cases hsome
  -- the entry of a hit could be fetched, so there is none
  have hmiss : engine.hit = none := by
    cases hhit : engine.hit with
    | none => rfl
    | some slot =>
      obtain ⟨slots, hs, rfl, htag, hversion, -⟩ := Engine.hit_eq_some hhit
      obtain ⟨ptr, hsome⟩ := h.live slots hs _ hversion
      rw [htag, huser'] at hsome
      cases hsome
  have hfetched : fetched =
      (accessOutcome engine.cpu.context (accessView engine.cpu.memory engine.cpu.context.rip mmProtExec) engine.cpu.hooks
        engine.cpu.asked engine.cpu.context.rip .exec).2.1 := by
    obtain ⟨cache, -, heq⟩ := Cpu.fetchInstructionBytes_spec h.memory hexc engine.cpu.context.rip
    show (engine.cpu.fetchInstructionBytes engine.cpu.context.rip).2.context = _
    rw [heq]
    exact congrArg Prod.fst (fetchEnd_first hptr _ _)
  obtain ⟨bits, valid, hkeyed⟩ := modeKey_context engine.cpu.context
  have hstep : (engine.step isa).1 = .exception ∧ after =
      { (accessOutcome (cpuInstCacheModeKey engine.cpu.context).2
          (accessView engine.cpu.memory engine.cpu.context.rip mmProtExec) engine.cpu.hooks engine.cpu.asked
          engine.cpu.context.rip .exec).2.1 with segmentOverride := -1 } := by
    have hfound := @Engine.resolve_resolved isa _ h.memory hexc [] (Or.inl rfl)
    show (engine.stepWithPrefetch isa []).1 = _ ∧ (engine.stepWithPrefetch isa []).2.cpu.context = _
    unfold Engine.stepWithPrefetch
    rw [hexc]
    simp only [Bool.false_eq_true, if_false]
    generalize engine.resolve isa [] = found at hfound
    cases hfound with
    | cached hhit =>
      rw [hmiss] at hhit
      cases hhit
    | decoded _ _ hne => exact absurd hview hne
    | empty _ _ hfetch _ =>
      obtain ⟨cache, -, rfl⟩ := hfetch
      have hptr' : codePtr engine.cpu.keyed.context.is64BitCode engine.cpu.keyed.context.isUser
          engine.cpu.keyed.memory engine.cpu.keyed.context.rip = none := by
        show codePtr (cpuInstCacheModeKey engine.cpu.context).2.is64BitCode (cpuInstCacheModeKey engine.cpu.context).2.isUser
          engine.cpu.memory (cpuInstCacheModeKey engine.cpu.context).2.rip = none
        rw [modeKey_is64BitCode, modeKey_isUser, modeKey_rip]
        exact hptr
      have hend := fetchEnd_first hptr' engine.cpu.keyed.hooks engine.cpu.keyed.asked
      have hrip : engine.cpu.keyed.context.rip = engine.cpu.context.rip := modeKey_rip engine.cpu.context
      have hfault : (accessOutcome engine.cpu.keyed.context
          (accessView engine.cpu.memory engine.cpu.context.rip mmProtExec) engine.cpu.hooks engine.cpu.asked
          engine.cpu.context.rip .exec).2.1.hasException = true := by
        refine (accessOutcome_exec ?_ engine.cpu.context.rip).2.2 ?_
        · rw [← hexc]
          exact modeKey_hasException engine.cpu.context
        · rw [← hrip]
          exact hptr'
      unfold Engine.fetchFailed Cpu.fetched
      rw [hend, hrip]
      refine ⟨?_, rfl⟩
      exact if_pos hfault
  obtain ⟨hresult, hafter⟩ := hstep
  have hkexc : (cpuInstCacheModeKey engine.cpu.context).2.hasException = false := by
    rw [modeKey_hasException]
    exact hexc
  have hkjudge : judgeAccess (cpuInstCacheModeKey engine.cpu.context).2.isUser
      (accessView engine.cpu.memory engine.cpu.context.rip mmProtExec) = .error violation := by
    rw [modeKey_isUser]
    exact huser'
  rw [accessOutcome_fault hkexc hkjudge, modeKey_is64BitCode, hkeyed] at hafter
  rw [accessOutcome_fault hexc huser'] at hfetched
  refine ⟨hresult, ?_, ?_, fun hcanon => ?_⟩
  · rw [hafter, hfetched]
    split_ifs <;> rfl
  · rw [hafter, hfetched]
    split_ifs <;> rfl
  · have hneg : ¬ (engine.cpu.context.is64BitCode && !cpuIsCanonicalAddress engine.cpu.context.rip) = true := by
      rcases hcanon with h | h <;> simp [h]
    rw [if_neg hneg] at hafter
    rw [hafter]
    exact ⟨rfl, Function.update_self regCr2 _ engine.cpu.context.controlRegs, rfl⟩

/-- **The privilege of a fetch.**  In a run in which no event enters user mode over a
live entry that user code may not fetch, every step enforces the privilege of its fetch. -/
theorem fetch_privilege_enforced (isa : InstructionSet) (compat32 cached : Bool)
    (host : HostMemory) (events : List EngineEvent)
    (h : Along (Engine.apply isa) (KeepsFetchable isa) (openEngine compat32 cached host) events) :
    ∀ l, l <+: events →
      FetchEnforced isa (run (Engine.apply isa) (openEngine compat32 cached host) l) := by
  rintro l ⟨rest, rfl⟩
  have hcoherent : FetchCoherent (run (Engine.apply isa) (openEngine compat32 cached host) l) :=
    run_invariant FetchCoherent (fun _ _ hc hkeeps => fetchCoherent_apply hc hkeeps) l _
      (coherent_openEngine compat32 cached host) ((along_append _ l rest).mp h).1
  exact hcoherent.enforced

/-- A `NOP` of the host, mapped at `0x1000`. -/
def nopPage : HostMemory :=
  HostMemory.initial (fun a => if a = 0x5000 then 0x90 else 0) fun _ => true

/-- The page is mapped for the supervisor, its `NOP` is executed at CPL 0, and the next
step is at its address again, at CPL 3. -/
def supervisorThenUser : List EngineEvent :=
  [.memory (.layout (.mapPtr 0x1000 0x1000 mmProtExec 0x5000)),
    .memory (.layout (.setCpuAttrs 0x1000 0x1000 0)),
    .regWrite (.rip 0x1000), .step, .regWrite (.rip 0x1000), .regWrite (.cpl 3)]

/-- Without the step at CPL 0 the run meets the condition, and the page is protected. -/
theorem fetch_privilege_enforced_example :
    FetchEnforced sampleSet (run (Engine.apply sampleSet) (openEngine false true nopPage)
      (supervisorThenUser.eraseIdx 3)) := by
  refine fetch_privilege_enforced sampleSet false true nopPage _ ?_ _ List.prefix_rfl
  refine ⟨?_, ?_, ?_, ?_, ?_, trivial⟩
  · show (_ : U64) ≤ (_ : U64)
    decide
  · show (_ : U64) ≤ (_ : U64)
    decide
  · intro _ hto
    exact absurd hto (by decide)
  · intro _ hto
    exact absurd hto (by decide)
  · intro _ _ slots hs i hi
    -- nothing was decoded, so all entries are of version zero
    obtain rfl := Option.some.inj hs
    change (0 : U64) = _ at hi
    exact absurd hi (by decide)

/-- With it the cached `NOP` is executed. -/
theorem cached_instruction_bypasses_privilege :
    ¬ FetchEnforced sampleSet
      (run (Engine.apply sampleSet) (openEngine false true nopPage) supervisorThenUser) := by
  intro h
  have henforced := h (by decide) (by decide) true (by decide)
  exact absurd henforced.1 (by decide)

/-! ## The bytes of an entry -/

/-- The instruction of the entry is the one at its address in memory. -/
def InstCacheEntry.Current (isa : InstructionSet) (user : Bool) (mgr : MemoryManager)
    (entry : InstCacheEntry) : Prop :=
  ∃ ctx, cpuInstCacheComputeModeKeyBits ctx = entry.mode ∧
    fetchView ctx.is64BitCode user mgr entry.tag ≠ [] ∧
    entry.decoded = isa.decode ctx (fetchView ctx.is64BitCode user mgr entry.tag)

/-- A fresh entry is current. -/
theorem Engine.Fresh.current {engine : Engine} {entry : InstCacheEntry}
    (h : engine.Fresh isa entry) (hkey : KeyFresh engine.cpu.context) :
    entry.Current isa engine.cpu.context.isUser engine.cpu.memory := by
  obtain ⟨ctx, hctx, hdec⟩ := h.decoded
  have hview : fetchView ctx.is64BitCode engine.cpu.context.isUser engine.cpu.memory entry.tag =
      engine.cpu.codeView := by
    unfold Cpu.codeView
    rw [is64BitCode_eq_of_modeKey hctx, h.tag_eq]
  refine ⟨ctx, ?_, ?_, ?_⟩
  · rw [hctx, h.mode_eq]
    exact hkey.modeKey_eq.symm
  · rw [hview]
    exact h.view_ne
  · rw [hview]
    exact hdec

/-- The same view of the memory has the same code. -/
theorem SameView.fetchView_eq {mgr mgr' : MemoryManager} (h : SameView mgr mgr') (is64 user : Bool)
    (address : U64) : fetchView is64 user mgr' address = fetchView is64 user mgr address := by
  apply codeBytes_congr
  · intro a
    unfold codePtr
    rw [h.access_eq]
  · intro a ptr hptr
    have hread := h.read_eq a mmProtExec
    unfold codePtr at hptr
    split_ifs at hptr
    rcases hjudge : judgeAccess user (accessView mgr a mmProtExec) with violation | ptr'
    · rw [hjudge] at hptr
      cases hptr
    · rw [hjudge] at hptr
      obtain rfl := Option.some.inj hptr
      rw [judgeAccess_ptr hjudge]
      exact hread

/-- The event does not let the version wrap, and an event under one version leaves the
bytes alone that a fetch at the address of a live entry finds. -/
def KeepsCode (isa : InstructionSet) (engine : Engine) : EngineEvent → Prop
  | .memory call =>
    engine.cpu.memory.codeVersion ≤ (memoryCall engine.cpu.memory call).codeVersion
  | event =>
    ∀ slots, (engine.apply isa event).instCache = some slots →
      ∀ i, (slots i).version = engine.cpu.memory.codeVersion →
        ∀ is64, fetchView is64 (engine.apply isa event).cpu.context.isUser
            (engine.apply isa event).cpu.memory (slots i).tag =
          fetchView is64 engine.cpu.context.isUser engine.cpu.memory (slots i).tag

/-- The key is fresh, and the live entries are current. -/
structure CodeCoherent (isa : InstructionSet) (engine : Engine) : Prop where
  key : KeyFresh engine.cpu.context
  entries : Coherent (fun user mgr entry => entry.Current isa user mgr) engine

/-- The bytes that a fetch finds at the address of a live entry are the same before and
behind a transition. -/
def Engine.KeepsBytes (engine engine' : Engine) : Prop :=
  ∀ slots, engine'.instCache = some slots →
    ∀ i, (slots i).version = engine.cpu.memory.codeVersion →
      ∀ is64, fetchView is64 engine'.cpu.context.isUser engine'.cpu.memory (slots i).tag =
        fetchView is64 engine.cpu.context.isUser engine.cpu.memory (slots i).tag

/-- **One transition** under one version keeps the live entries current. -/
theorem CodeCoherent.of_frame {engine engine' : Engine} (h : CodeCoherent isa engine)
    (hframe : EventFrame isa engine engine') (hkey : KeyFresh engine'.cpu.context)
    (hversion : engine'.cpu.memory.codeVersion = engine.cpu.memory.codeVersion)
    (hbytes : engine.KeepsBytes engine') : CodeCoherent isa engine' where
  key := hkey
  entries := by
    apply h.entries.of_frame hframe (hversion ▸ BitVec.le_refl _) fun _ hf => hf.current h.key
    rintro _ slots hs i hi ⟨ctx, hctx, hne, hdec⟩
    have hview := hbytes slots hs i hi ctx.is64BitCode
    exact ⟨ctx, hctx, hview ▸ hne, hview ▸ hdec⟩

/-- A transition that stays in its place keeps the live entries current. -/
theorem CodeCoherent.of_stays {engine engine' : Engine} (h : CodeCoherent isa engine)
    (hstays : engine.Stays engine') : CodeCoherent isa engine' := by
  have hframe : EventFrame isa engine engine' :=
    { ok := hstays.ok
      view := fun _ => hstays.memory.accessView_eq
      entries := .of_eq hstays.cache_eq
      user := Or.inl hstays.user_eq }
  apply h.of_frame hframe (hstays.key h.key) hstays.version_eq
  exact fun slots _ i _ is64 => hstays.fetchView_eq is64 (slots i).tag

/-- **One event** keeps the live entries current. -/
theorem codeCoherent_apply {engine : Engine} (h : CodeCoherent isa engine) {event : EngineEvent}
    (hmode : KeepsMode engine event) (hkeeps : KeepsCode isa engine event) :
    CodeCoherent isa (engine.apply isa event) := by
  have hkey := (@keyFresh_apply isa _ h.entries.memory h.key event).mpr hmode
  have hframe := @apply_frame isa _ h.entries.memory event
  by_cases hcall : ∃ call, event = .memory call
  · obtain ⟨call, rfl⟩ := hcall
    refine ⟨hkey, ?_⟩
    apply h.entries.of_frame hframe hkeeps fun _ hf => hf.current h.key
    rintro hversion slots hs i hi ⟨ctx, hctx, hne, hdec⟩
    have hsame := (memoryCall_ok h.entries.memory call).2 hversion
    have hview : fetchView ctx.is64BitCode engine.cpu.context.isUser
        (memoryCall engine.cpu.memory call) (slots i).tag = _ := hsame.fetchView_eq ..
    exact ⟨ctx, hctx, fun h => hne (hview.symm.trans h), hdec.trans (by rw [← hview]; rfl)⟩
  · have hbytes : engine.KeepsBytes (engine.apply isa event) := by
      cases event with
      | memory call => exact absurd ⟨call, rfl⟩ hcall
      | _ => exact hkeeps
    exact h.of_frame hframe hkey
      (apply_version h.entries.memory fun call heq => hcall ⟨call, heq⟩) hbytes

/-- A step executes an instruction that is decoded, in the mode of the engine, from the
bytes that a fetch finds now. -/
def ExecutesCurrentCode (isa : InstructionSet) (engine : Engine) : Prop :=
  engine.cpu.context.hasException = false →
    ∀ dec, (engine.resolve isa []).1 = some dec →
      let bytes := (engine.cpu.fetchInstructionBytes engine.cpu.context.rip).1
      bytes ≠ [] ∧
        ∃ ctx, cpuInstCacheComputeModeKeyBits ctx =
            cpuInstCacheComputeModeKeyBits engine.cpu.context ∧
          dec = isa.decode ctx bytes

/-- A live entry under the key of the engine holds the code at its address. -/
theorem CodeCoherent.entry {engine : Engine} (h : CodeCoherent isa engine)
    {slots : InstCache} (hs : engine.instCache = some slots) {i : ℕ}
    (hversion : (slots i).version = engine.cpu.memory.codeVersion)
    (hmode : (slots i).mode = engine.currentKey) :
    fetchView engine.cpu.context.is64BitCode engine.cpu.context.isUser engine.cpu.memory
        (slots i).tag ≠ [] ∧
      ∃ ctx, cpuInstCacheComputeModeKeyBits ctx =
          cpuInstCacheComputeModeKeyBits engine.cpu.context ∧
        (slots i).decoded = isa.decode ctx (fetchView engine.cpu.context.is64BitCode
          engine.cpu.context.isUser engine.cpu.memory (slots i).tag) := by
  obtain ⟨ctx, hctx, hne, heq⟩ := h.entries.live slots hs i hversion
  have hkey : cpuInstCacheComputeModeKeyBits ctx =
      cpuInstCacheComputeModeKeyBits engine.cpu.context := by
    rw [hctx, hmode]
    exact h.key.modeKey_eq
  rw [is64BitCode_eq_of_modeKey hkey] at hne heq
  exact ⟨hne, ctx, hkey, heq⟩

/-- The instruction that a step finds is decoded from the current code. -/
theorem CodeCoherent.resolved {engine : Engine} (h : CodeCoherent isa engine)
    {prefetched : List U8} {found : Option DecodedInst × Engine}
    (hfound : engine.Resolved isa prefetched found) {dec : DecodedInst}
    (hdec : found.1 = some dec) :
    engine.cpu.codeView ≠ [] ∧
      ∃ ctx, cpuInstCacheComputeModeKeyBits ctx =
          cpuInstCacheComputeModeKeyBits engine.cpu.context ∧
        dec = isa.decode ctx engine.cpu.codeView := by
  cases hfound with
  | cached hhit =>
    obtain ⟨slots, hs, rfl, htag, hversion, hmode⟩ := Engine.hit_eq_some hhit
    have hentry := h.entry hs hversion hmode
    rw [htag, Option.some.inj hdec] at hentry
    exact hentry
  | empty => cases hdec
  | decoded _ hfetch hne =>
    refine ⟨hne, _, ?_, (Option.some.inj hdec).symm⟩
    rcases hfetch with ⟨-, hfetch⟩ | ⟨-, rfl⟩
    · exact ((Engine.samePlace_keyed engine).trans (Engine.samePlace_fetched hfetch)).computed_eq
    · exact (Engine.samePlace_keyed engine).computed_eq

/-- **A step under the invariant** executes the current code. -/
theorem CodeCoherent.executes {engine : Engine} (h : CodeCoherent isa engine) :
    ExecutesCurrentCode isa engine := by
  intro hexc dec hdec bytes
  have hbytes : bytes = engine.cpu.codeView := by
    obtain ⟨cpu, -, heq⟩ := Cpu.fetch_codeView h.entries.memory hexc
    exact congrArg Prod.fst heq
  rw [hbytes]
  exact h.resolved (Engine.resolve_resolved isa h.entries.memory hexc (Or.inl rfl)) hdec

/-- **Self-modifying code.**  In a run in which no event but a call of the memory manager
changes the code under a live entry, every step executes the code that the memory holds. -/
theorem current_code_executed (isa : InstructionSet) (compat32 cached : Bool)
    (host : HostMemory) (events : List EngineEvent)
    (h : Along (Engine.apply isa) (fun engine event => KeepsMode engine event ∧
      KeepsCode isa engine event) (openEngine compat32 cached host) events) :
    ∀ l, l <+: events →
      ExecutesCurrentCode isa (run (Engine.apply isa) (openEngine compat32 cached host) l) := by
  rintro l ⟨rest, rfl⟩
  have hcoherent : CodeCoherent isa (run (Engine.apply isa) (openEngine compat32 cached host) l) :=
    run_invariant (CodeCoherent isa) (fun _ _ hc hkeeps => codeCoherent_apply hc hkeeps.1 hkeeps.2)
      l _ ⟨keyFresh_of_stale rfl, coherent_openEngine compat32 cached host⟩
      ((along_append _ l rest).mp h).1
  exact hcoherent.executes

/-- `MOV byte [RDI], 0x90` of the host. -/
def movPage : HostMemory :=
  HostMemory.initial
    (fun a => if a = 0x5000 then 0xC6 else if a = 0x5001 then 0x07 else
      if a = 0x5002 then 0x90 else 0) fun _ => true

/-- The memory of the host is open to the guest, and the `MOV` is executed with its
pointer in `RDI`; then `rip` is at its address again. -/
def storeAndReturn (target : U64) : List EngineEvent :=
  [.memory (.setHostPassthrough (mmProtRead ||| mmProtWrite ||| mmProtExec) true),
    .regWrite (.rip 0x5000), .regWrite (.gpr 7 target), .step, .regWrite (.rip 0x5000)]

/-- A store elsewhere leaves the code alone. -/
theorem current_code_executed_example :
    ExecutesCurrentCode sampleSet (run (Engine.apply sampleSet) (openEngine false true movPage)
      (storeAndReturn 0x9000)) := by
  refine current_code_executed sampleSet false true movPage _ ?_ _ List.prefix_rfl
  refine ⟨⟨trivial, ?_⟩, ⟨trivial, ?_⟩, ⟨trivial, ?_⟩, ⟨trivial, ?_⟩, ⟨trivial, ?_⟩, trivial⟩
  · show (_ : U64) ≤ (_ : U64)
    decide
  · exact fun _ _ _ _ _ => rfl
  · exact fun _ _ _ _ _ => rfl
  · intro slots hs i hi is64
    obtain rfl := Option.some.inj hs
    by_cases hslot : i = cpuInstCacheIndex 0x5000
    · subst hslot
      cases is64 with
      | false => decide
      | true => decide
    · change (Function.update (fun _ => InstCacheEntry.zero) (cpuInstCacheIndex 0x5000) _ i).version
        = _ at hi
      rw [Function.update_of_ne hslot] at hi
      exact absurd hi (by decide)
  · exact fun _ _ _ _ _ => rfl

/-- A store over its own first byte. -/
theorem cached_instruction_survives_store :
    ¬ ExecutesCurrentCode sampleSet
      (run (Engine.apply sampleSet) (openEngine false true movPage) (storeAndReturn 0x5000)) := by
  intro h
  obtain ⟨dec, hdec⟩ : ∃ dec, ((run (Engine.apply sampleSet) (openEngine false true movPage)
      (storeAndReturn 0x5000)).resolve sampleSet []).1 = some dec :=
    Option.isSome_iff_exists.mp (by decide)
  obtain ⟨-, ctx, -, heq⟩ := h (by decide) dec hdec
  have hbytes : dec.bytes.head? = some 0xC6 := by
    have hcached : ((run (Engine.apply sampleSet) (openEngine false true movPage)
        (storeAndReturn 0x5000)).resolve sampleSet []).1.map (fun d => d.bytes.head?) =
          some (some 0xC6) := by decide
    rw [hdec] at hcached
    exact Option.some.inj hcached
  rw [heq, show sampleSet.decode = sampleDecode from rfl, sampleDecode_bytes] at hbytes
  exact absurd hbytes (by decide)

end Cpueaxh
